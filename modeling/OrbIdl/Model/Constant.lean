import OrbIdl.Model.Param

/-! # Constants -/

namespace OrbIdl.Model

open Xml

structure Constant where
  name : String
  type : DataType
  /-- The value as an expression. -/
  value : String
  doc : Option String
  span : Span
deriving DecidableEq

namespace Constant

def ofElement (e : Element) : Except Fault Constant := do
  let name ← require e Key.name
  let type ← namedType name e
  let value ← require e Key.value
  return ⟨name, type, value, docText? e, e.span⟩

/-- The constant that holds the id of an interface. -/
def interfaceId (id : String) (span : Span) : Constant :=
  ⟨"strInterfaceId", .string, id, none, span⟩

/-- Reads the constants of a section. -/
def ofSection (e : Element) : Except Fault (List Constant) :=
  e.children.mapM fun child => do
    expect child [Tag.constant]
    ofElement child

end Constant

end OrbIdl.Model
