import OrbIdl.Text.Blank
import OrbIdl.Text.Indent

/-! # Comments in generated files -/

namespace OrbIdl.Cpp

/-- A comment that rules a line. -/
def ruler (width : Nat) : String :=
  "// " ++ String.ofList (List.replicate width '-')

/-- What every file begins with. -/
def banner (file : String) : String :=
  s!"{ruler 76}\n//  FILE: {file}\n" ++
    s!"//  DO NOT EDIT THIS FILE! IT WAS GENERATED BY CIDIDL\n{ruler 76}\n\n"

/-- What stands above a group of declarations. -/
def heading (title : String) : String :=
  s!"{ruler 64}\n//  {title}\n{ruler 64}\n"

/-- A line of documentation as a comment. -/
def docLine (line : List Char) : String :=
  match Text.trimChars line with
  | [] => "//"
  | text => "//  " ++ String.ofList text

/-- The comment lines of a documentation text. A line ends at its newline, and the blanks around its
text do not count. -/
def docLines (doc : Option String) : List String :=
  match doc with
  | some text => (Text.pieces text.toList).map docLine
  | none => []

def docComment (doc : Option String) : String :=
  String.join ((docLines doc).map (· ++ "\n"))

end OrbIdl.Cpp
