import OrbIdl.Model.Constant
import OrbIdl.Model.Method
import OrbIdl.Model.TypeDecl

/-! # Interface documents -/

namespace OrbIdl.Model

open Xml

/-! ## Globals -/

inductive Block where
  | constants (constants : List Constant)
  | types (types : List TypeDecl)
deriving DecidableEq

namespace Block

def ofElement (e : Element) : Logged Fault Block := do
  if e.name = Tag.constants then return .constants (← Constant.ofSection e)
  else if e.name = Tag.types then return .types (← TypeDecl.ofSection e)
  else throw (.unexpectedElement [Tag.constants, Tag.types] e.name e.span)

/-- The types that a block declares. -/
def typeDecls : Block → List TypeDecl
  | types ts => ts
  | constants _ => []

end Block

/-- Blocks of global declarations, in document order. -/
structure Globals where
  blocks : List Block
  span : Span
deriving DecidableEq

namespace Globals

def ofElement (e : Element) : Logged Fault Globals := do
  return ⟨← e.children.mapM Block.ofElement, e.span⟩

def typeDecls (g : Globals) : List TypeDecl :=
  g.blocks.flatMap (·.typeDecls)

end Globals

/-! ## The interface of a class -/

structure ClassInterface where
  name : String
  id : String
  clientBase : String
  serverBase : String
  constants : List Constant
  types : Option (List TypeDecl)
  /-- The parameters of the server constructor. -/
  constructor : List Param
  methods : List Method
  span : Span
deriving DecidableEq

/-- One section of an interface. -/
inductive Section where
  | constants (constants : List Constant)
  | types (types : List TypeDecl)
  | constructor (params : List Param)
  | methods (methods : List Method)

/-- The sections found so far, each at most once. -/
structure Sections where
  constants : Option (List Constant) := none
  types : Option (List TypeDecl) := none
  constructor : Option (List Param) := none
  methods : Option (List Method) := none

namespace Section

def ofElement (e : Element) : Logged Fault Section := do
  if e.name = Tag.constants then return .constants (← Constant.ofSection e)
  else if e.name = Tag.types then return .types (← TypeDecl.ofSection e)
  else if e.name = Tag.constructor then
    return .constructor (← Param.ofElements Tag.constructor e.children)
  else if e.name = Tag.methods then return .methods (← Method.ofSection e)
  else
    throw (.unexpectedElement [Tag.constants, Tag.types, Tag.constructor, Tag.methods]
      e.name e.span)

end Section

namespace Sections

/-- Adds a section unless there is one of its kind. -/
def add? (s : Sections) : Section → Option Sections
  | .constants cs => if s.constants.isSome then none else some { s with constants := some cs }
  | .types ts => if s.types.isSome then none else some { s with types := some ts }
  | .constructor ps => if s.constructor.isSome then none else some { s with constructor := some ps }
  | .methods ms => if s.methods.isSome then none else some { s with methods := some ms }

/-- Reads a section of the interface `decl`; a second one of its kind is refused once it is read. -/
def step (decl : String) (s : Sections) (e : Element) : Logged Fault Sections := do
  match s.add? (← Section.ofElement e) with
  | some s => return s
  | none => throw (.malformed decl (.duplicateSection e.name) e.span)

end Sections

namespace ClassInterface

def defaultClientBase : String := "TOrbClientBase"

def defaultServerBase : String := "TOrbServerBase"

def ofElement (e : Element) : Logged Fault ClassInterface := do
  let name ← require e Key.name
  let s ← e.children.foldlM (Sections.step name) {}
  let id ← require e Key.interfaceId
  return {
    name, id
    clientBase := (e.get? Key.clientBase).getD defaultClientBase
    serverBase := (e.get? Key.serverBase).getD defaultServerBase
    constants := s.constants.getD []
    types := s.types
    constructor := s.constructor.getD []
    methods := s.methods.getD []
    span := e.span }

end ClassInterface

/-! ## Documents -/

structure Document where
  globals : List Globals
  classInterface : Option ClassInterface
deriving DecidableEq

namespace Document

/-- Reads a child of the root: globals any number of times, the interface of a class once. -/
def step (d : Document) (e : Element) : Logged Fault Document := do
  if e.name = Tag.globals then return { d with globals := d.globals ++ [← Globals.ofElement e] }
  else if e.name = Tag.classInterface then
    let i ← ClassInterface.ofElement e
    if d.classInterface.isSome then
      throw (.malformed Tag.interface (.duplicateSection Tag.classInterface) e.span)
    return { d with classInterface := some i }
  else throw (.unexpectedElement [Tag.globals, Tag.classInterface] e.name e.span)

/-- All types that a document declares: those of the globals before those of the interface. -/
def typeDecls (d : Document) : List TypeDecl :=
  d.globals.flatMap (·.typeDecls) ++
    (d.classInterface.bind (·.types)).getD []

/-- The first reference to a structure that is not declared before, with the structure that holds
it. A structure does not come before itself. -/
def danglingFrom (declared : List String) : List Structure → Option (Structure × String × Span)
  | [] => none
  | s :: rest =>
    match s.references.find? fun (name, _) => !declared.contains name with
    | some (name, span) => some (s, name, span)
    | none => danglingFrom (s.name :: declared) rest

def dangling? (d : Document) : Option (Structure × String × Span) :=
  danglingFrom [] (d.typeDecls.filterMap (·.struct?))

/-- Reads the document whose root is `e`. Structures may refer to earlier ones only. -/
def ofElement (e : Element) : Logged Fault Document := do
  if e.name ≠ Tag.interface then throw (.malformed e.name (.badRoot e.name) e.span)
  let d ← e.children.foldlM step ⟨[], none⟩
  match d.dangling? with
  | some (s, name, span) => throw (.malformed s.name (.unknownStruct name) span)
  | none => return d

end Document

end OrbIdl.Model
