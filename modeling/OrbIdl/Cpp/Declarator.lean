import OrbIdl.Model.Param

/-! # Types and parameters in C++ -/

namespace OrbIdl.Cpp

open Model

/-- The C++ type of a parameter or a result. -/
def typeText (t : TypeRef) : String :=
  let element := t.elementType?.getD ""
  if t.type.isFundamental || t.type == .void then s!"tCIDLib::{t.type.name}"
  else match t.type with
    | .enumerated | .object => element
    | .hashSet => s!"THashSet<{element}, {t.argument .keyOps}>"
    | .keyedHashSet => s!"TKeyedHashSet<{element}, {t.argument .keyType}, {t.argument .keyOps}>"
    | type => if type.isCollection then s!"{type.name}<{element}>" else type.name

/-! ## Sizes of buffers -/

/-- A buffer that is not moved whole goes with a byte count. -/
def isSized (p : Param) : Bool :=
  p.type.type.isBuffer && !p.moveable

/-- The name of the byte count of a parameter. -/
def sizeName (p : Param) : String :=
  match p.name.toList with
  | c :: cs => "c4" ++ String.ofList (c.toUpper :: cs) ++ "Sz"
  | [] => "c4Sz"

/-! ## Parameter lists -/

/-- How an argument reaches a parameter. -/
inductive Passing where
  | constValue
  | constReference
  | reference
  | moved
deriving DecidableEq

/-- One entry of a parameter list. -/
structure Declarator where
  type : String
  passing : Passing
  name : String
  fallback : Option String
deriving DecidableEq

namespace Declarator

def bare (d : Declarator) : String :=
  match d.passing with
  | .constValue => s!"const {d.type} {d.name}"
  | .constReference => s!"const {d.type}& {d.name}"
  | .reference => s!"{d.type}& {d.name}"
  | .moved => s!"{d.type}&& {d.name}"

/-- With its default value, as a declaration shows it. -/
def render (d : Declarator) : String :=
  match d.fallback with
  | some value => s!"{d.bare} = {value}"
  | none => d.bare

/-- The list of a declaration. -/
def listWithDefaults (ds : List Declarator) : String :=
  String.intercalate ", " (ds.map render)

/-- The list of a definition. -/
def listBare (ds : List Declarator) : String :=
  String.intercalate ", " (ds.map bare)

end Declarator

/-- The byte count of a sized parameter. -/
def sizeDeclarator (p : Param) : Declarator where
  type := "tCIDLib::TCard4"
  passing := if p.direction = .input then .constValue else .reference
  name := sizeName p
  fallback := none

/-- Moved parameters are taken over, scalars go by value, and what comes back by reference. -/
def passing (p : Param) : Passing :=
  if p.moveable then .moved
  else if p.direction ≠ .input then .reference
  else if p.type.type.isFundamental || p.type.type == .enumerated then .constValue
  else .constReference

/-- The entries of one parameter: its byte count, if it has one, stands before it. -/
def declarators (p : Param) : List Declarator :=
  (if isSized p then [sizeDeclarator p] else []) ++
    [⟨typeText p.type, passing p, p.name, p.fallback⟩]

def paramList (ps : List Param) : List Declarator :=
  ps.flatMap declarators

/-! ## Arguments -/

/-- One argument of a call: a name that may be moved from. -/
structure Argument where
  name : String
  moved : Bool
deriving DecidableEq

def Argument.render (a : Argument) : String :=
  if a.moved then s!"tCIDLib::ForceMove({a.name})" else a.name

def Argument.list (as : List Argument) : String :=
  String.intercalate ", " (as.map render)

end OrbIdl.Cpp
