import OrbIdl.Model.Param

/-! # Structures -/

namespace OrbIdl.Model

open Xml

/-- A member is a scalar field or a structure declared before. -/
inductive Member where
  | field (name : String) (type : DataType) (span : Span)
  | sub (name structName : String) (span : Span)
deriving DecidableEq

namespace Member

def name : Member → String
  | field name .. | sub name .. => name

def span : Member → Span
  | field _ _ span | sub _ _ span => span

/-- Reads a member of the structure `decl`. -/
def ofElement (decl : String) (e : Element) : Except Fault Member := do
  if e.name = Tag.member then
    let type ← namedType decl e
    let name ← require e Key.name
    return .field name type e.span
  else if e.name = Tag.subStruct then
    let name ← require e Key.name
    let structName ← require e Key.type
    return .sub name structName e.span
  else throw (.unexpectedElement [Tag.member, Tag.subStruct] e.name e.span)

end Member

structure Structure where
  name : String
  members : List Member
  span : Span
deriving DecidableEq

namespace Structure

def ofElement (e : Element) : Except Fault Structure := do
  let name ← require e Key.type
  let members ← e.children.mapM (Member.ofElement name)
  return ⟨name, members, e.span⟩

/-- The structures that members refer to, and where, in the order of the members. -/
def references (s : Structure) : List (String × Span) :=
  s.members.filterMap fun
    | .sub _ structName span => some (structName, span)
    | .field .. => none

end Structure

end OrbIdl.Model
