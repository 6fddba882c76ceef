import OrbIdl.Model.Fault

/-! # References to types, and parameters -/

namespace OrbIdl.Model

open Xml

/-- A type with the values of the attributes that complete it. -/
structure TypeRef where
  type : DataType
  arguments : List (TypeArgument × String)
  span : Span
deriving DecidableEq

namespace TypeRef

def argument? (t : TypeRef) (a : TypeArgument) : Option String :=
  t.arguments.lookup a

/-- The element type of a collection, or the name of a named type. -/
def elementType? (t : TypeRef) : Option String :=
  (t.argument? .elementType).orElse fun _ => t.argument? .type

/-- The value of an argument, or nothing. -/
def argument (t : TypeRef) (a : TypeArgument) : String :=
  (t.argument? a).getD ""

/-- Reads the element of a type that stands at `position`. -/
def ofElement (position : Position) (e : Element) : Except Fault TypeRef := do
  match DataType.ofTag? e.name with
  | none => throw (.unknownType e.name e.span)
  | some type =>
    if type.standsAt position = false then
      throw (.malformed e.name (.typeNotAllowed type position) e.span)
    let arguments ← type.arguments.mapM fun (a, _) => do
      return (a, ← require e a.key)
    return ⟨type, arguments, e.span⟩

end TypeRef

/-- A type named by the attribute of a constant or a member. -/
def namedType (decl : String) (e : Element) : Except Fault DataType := do
  let name ← require e Key.type
  match DataType.ofName? name with
  | none => throw (.unknownType name (e.spanOf Key.type))
  | some type =>
    if type.standsAt .constant then return type
    else throw (.malformed decl (.typeNotAllowed type .constant) (e.spanOf Key.type))

/-- A parameter of a method or of the server constructor. -/
structure Param where
  name : String
  direction : Direction
  fallback : Option String
  moveable : Bool
  type : TypeRef
  span : Span
deriving DecidableEq

namespace Param

/-- Why a parameter may not be moved, if it may not. -/
def moveRefusal? (direction : Direction) (type : DataType) : Option MoveRefusal :=
  if direction = .output then some .outputParam
  else if type.isMoveable then none
  else some (.notMoveable type)

/-- Reads a parameter of `method`. Only what may be moved is moved, an abstract buffer cannot be
rebuilt by the receiver, and the byte count before a buffer leaves no room for a default. -/
def ofElement (method : String) (e : Element) : Except Fault Param := do
  let name ← require e Key.name
  let keyword ← require e Key.direction
  let some direction := Direction.ofName? keyword
    | throw (.malformed method (.badKeyword Key.direction keyword) (e.spanOf Key.direction))
  let some typeElement := e.children.head?
    | throw (.malformed method .missingType e.span)
  let type ← TypeRef.ofElement .param typeElement
  let moveable := isYes e Key.moveable
  if moveable then
    if let some reason := moveRefusal? direction type.type then
      throw (.moveRefused method name reason (e.spanOf Key.moveable))
  if type.type = .memBuf ∧ direction ≠ .input then
    throw (.wrongDirection method name type.type direction (e.spanOf Key.direction))
  let fallback := e.get? Key.defaultValue
  if fallback.isSome ∧ type.type.isBuffer then
    throw (.malformed method (.bufferDefault name) (e.spanOf Key.defaultValue))
  return ⟨name, direction, fallback, moveable, type, e.span⟩

/-- Reads the parameters of `method` from elements that have to be parameters. -/
def ofElements (method : String) (es : List Element) : Except Fault (List Param) :=
  es.mapM fun e => do
    expect e [Tag.param]
    ofElement method e

end Param

end OrbIdl.Model
