import OrbIdl.Model.Enumeration
import OrbIdl.Model.Structure

/-! # Declarations of types -/

namespace OrbIdl.Model

open Xml

inductive TypeDecl where
  | enumeration (doc : Option String) (info : Enumeration)
  | struct (info : Structure)
deriving DecidableEq

namespace TypeDecl

def name : TypeDecl → String
  | enumeration _ info => info.name
  | struct info => info.name

def span : TypeDecl → Span
  | enumeration _ info => info.span
  | struct info => info.span

/-- The structure that is declared, if it is one. -/
def struct? : TypeDecl → Option Structure
  | struct info => some info
  | enumeration .. => none

def ofElement (e : Element) : Logged Fault TypeDecl := do
  if e.name = Tag.enumeration then return .enumeration (docText? e) (← Enumeration.ofElement e)
  else if e.name = Tag.struct then return .struct (← Structure.ofElement e)
  else throw (.unexpectedElement [Tag.enumeration, Tag.struct] e.name e.span)

/-- Reads the types of a section. -/
def ofSection (e : Element) : Logged Fault (List TypeDecl) :=
  e.children.mapM ofElement

end TypeDecl

end OrbIdl.Model
