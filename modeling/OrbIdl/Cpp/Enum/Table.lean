import OrbIdl.Cpp.Literal
import OrbIdl.Model.Enumeration

/-! # The mapping table of an enumeration -/

namespace OrbIdl.Cpp.Enum

open Model

/-- A row of the table: one value, its number, the id of its text among the resources, and its texts
in the order of the columns. -/
structure Row where
  value : String
  altNumber : Int
  resourceId : String
  texts : List String
deriving DecidableEq

/-- The texts of a value, the first of no column. The main text stays out when it is loaded from a
resource. -/
def rowTexts (e : Enumeration) (v : EnumValue) : List String :=
  let text := match e.textSource with
    | .resource .. => ""
    | _ => v.text.getD ""
  ["", v.altText, v.altText2, v.name, s!"{e.name}::{v.name}", text]

/-- The id of the text of a value in the resources of its enumeration. -/
def rowResourceId (e : Enumeration) (v : EnumValue) : String :=
  match e.textSource with
  | .resource _ scope => s!"{scope}::" ++ v.text.getD ""
  | _ => "0"

def row (e : Enumeration) (v : EnumValue) : Row :=
  ⟨v.name, v.altNumber, rowResourceId e v, rowTexts e v⟩

/-- The table and the map object that is made from it. -/
structure Table where
  name : String
  size : Nat
  rows : List Row
  isContiguous : Bool
  facility : Option String
deriving DecidableEq

def table (e : Enumeration) : Table where
  name := e.name
  size := e.values.length
  rows := e.values.map (row e)
  isContiguous := e.shape == .standard
  facility := match e.textSource with
    | .resource facility _ => some facility
    | _ => none

namespace Row

def render (enclosing t : String) (r : Row) : String :=
  s!" tCIDLib::TInt4({enclosing}::{t}::{r.value}), {r.altNumber}, {r.resourceId},  \x7b " ++
    String.intercalate ", " (r.texts.map wideLiteral) ++ " \x7d \x7d\n"

end Row

namespace Table

def renderRows (enclosing t : String) : List Row → String
  | [] => ""
  | first :: rest =>
    "    \x7b " ++ first.render enclosing t ++
      String.join (rest.map fun r => "  , \x7b " ++ r.render enclosing t)

def render (enclosing : String) (m : Table) : String :=
  let t := m.name
  let facility := match m.facility with
    | some facility => s!"&fac{facility}"
    | none => "nullptr"
  let gaps := if m.isContiguous then "kCIDLib::False" else "kCIDLib::True"
  let limit := if m.isContiguous then "Count" else "None"
  s!"\n\nstatic TEnumMap::TEnumValItem aeitemValues_{t}[{m.size}] = \n\x7b\n" ++
    renderRows enclosing t m.rows ++
    s!"\n\x7d;\n\nstatic TEnumMap emap{t}\n(\n     L\"{t}\"\n     , {m.size}\n     , {gaps}\n" ++
    s!"     , aeitemValues_{t}\n     , {facility}\n" ++
    s!"     , tCIDLib::TCard4({enclosing}::{t}::{limit})\n);\n\n"

end Table

end OrbIdl.Cpp.Enum
