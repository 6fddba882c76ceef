/-! # The texts of an enumeration value -/

namespace OrbIdl.Model

/-- The texts that the mapping table of an enumeration holds for each value. -/
inductive TextColumn where
  | off
  | altText
  | altText2
  | baseName
  | name
  | text
deriving DecidableEq

namespace TextColumn

def ofName? : String → Option TextColumn
  | "No" => some off
  | "AltText" => some altText
  | "AltText2" => some altText2
  | "BaseName" => some baseName
  | "Name" => some name
  | "Text" => some text
  | _ => none

/-- The words for a column in a message. -/
def describe : TextColumn → String
  | off => "no"
  | altText => "alternate"
  | altText2 => "second alternate"
  | baseName => "base name"
  | name => "name"
  | text => "value"

def isEnabled (c : TextColumn) : Bool :=
  c != off

end TextColumn

end OrbIdl.Model
