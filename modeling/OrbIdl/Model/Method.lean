import OrbIdl.Logged
import OrbIdl.Model.Param
import OrbIdl.Text.Numeral

/-! # Methods -/

namespace OrbIdl.Model

open Xml

structure Method where
  name : String
  result : TypeRef
  params : List Param
  isPoll : Bool
  /-- Milliseconds. -/
  timeout : UInt32
  /-- The base class declares the method already. -/
  inBaseClass : Bool
  /-- The position among the methods of the interface, by which calls are told apart. -/
  ordinal : Nat
  span : Span
deriving DecidableEq

namespace Method

def defaultTimeout (isPoll : Bool) : UInt32 :=
  if isPoll then 10000 else 30000

def timeoutOf (decl : String) (isPoll : Bool) (e : Element) : Except Fault UInt32 :=
  match e.get? Key.timeout with
  | none => .ok (defaultTimeout isPoll)
  | some value =>
    match Text.card32? (Text.trimChars value.toList) with
    | some n => .ok n
    | none => .error (.malformed decl (.badNumber Key.timeout value) (e.spanOf Key.timeout))

/-- The type element inside the first child, which has to be the result. -/
def resultElement? (e : Element) : Option Element := do
  let first ← e.children.head?
  if first.name = Tag.result then first.children.head? else none

/-- Reads the method at position `ordinal`. -/
def ofElement (ordinal : Nat) (e : Element) : Logged Fault Method := do
  expect e [Tag.method, Tag.pollMethod]
  let name ← require e Key.name
  let isPoll := e.name == Tag.pollMethod
  let timeout ← timeoutOf name isPoll e
  let some resultElement := resultElement? e
    | throw (.malformed name .missingType e.span)
  let result ← TypeRef.ofElement .result resultElement
  let params ← Param.ofElements name e.children.tail
  Logged.note (.trace s!"parsed method {ordinal} `{name}` ({params.length} params)")
  return {
    name, result, params, isPoll, timeout, ordinal
    inBaseClass := isYes e Key.inBaseClass
    span := e.span }

/-- Reads the methods of a section: the ordinal of each is its position there. -/
def ofSection (e : Element) : Logged Fault (List Method) :=
  e.children.zipIdx.mapM fun (child, ordinal) => ofElement ordinal child

end Method

end OrbIdl.Model
