import OrbIdl.Diagnostic
import OrbIdl.Text.Blank

/-! # The element tree of a document -/

namespace OrbIdl.Xml

structure Attribute where
  name : String
  value : String
  span : Span
  /-- The value is a default of the schema, not of the document. -/
  defaulted : Bool := false
deriving DecidableEq, Inhabited

/-- An element: its attributes in order, its child elements in order, and the character data that
stands directly in it, joined. -/
structure Element where
  name : String
  span : Span
  attributes : List Attribute
  text : String
  children : List Element
deriving Inhabited

/-- A required attribute that an element lacks. -/
structure MissingAttribute where
  element : String
  key : String
  span : Span
deriving DecidableEq

namespace MissingAttribute

def message (m : MissingAttribute) : String :=
  s!"element `{m.element}` is missing required attribute `{m.key}`"

def remarks (m : MissingAttribute) : List Remark :=
  [.error m.span s!"expected `{m.key}` here"]

end MissingAttribute

namespace Element

/-- An element with nothing in it. -/
def leaf (name : String) (span : Span) : Element :=
  ⟨name, span, [], "", []⟩

def attribute? (e : Element) (name : String) : Option Attribute :=
  e.attributes.find? (·.name == name)

/-- The value of an attribute. -/
def get? (e : Element) (name : String) : Option String :=
  (e.attribute? name).map (·.value)

/-- The place of an attribute. -/
def spanOf? (e : Element) (name : String) : Option Span :=
  (e.attribute? name).map (·.span)

/-- The place of an attribute, or of the element if it has none of that name. -/
def spanOf (e : Element) (name : String) : Span :=
  (e.spanOf? name).getD e.span

/-- The value of an attribute that has to be there. -/
def require (e : Element) (name : String) : Except MissingAttribute String :=
  match e.get? name with
  | some value => .ok value
  | none => .error ⟨e.name, name, e.span⟩

/-- Replaces the attribute of the same name where it stands, or adds a new one at the end. -/
def putInto (a : Attribute) : List Attribute → List Attribute
  | [] => [a]
  | b :: rest => if b.name = a.name then a :: rest else b :: putInto a rest

def put (e : Element) (a : Attribute) : Element :=
  { e with attributes := putInto a e.attributes }

def addChild (e child : Element) : Element :=
  { e with children := e.children ++ [child] }

def addText (e : Element) (text : String) : Element :=
  { e with text := e.text ++ text }

/-- Widens the place of the element so that it covers `span`. -/
def extend (e : Element) (span : Span) : Element :=
  { e with span := e.span.merge span }

/-- No character data but blanks. -/
def isBlank (e : Element) : Bool :=
  Text.allBlank e.text

end Element

/-- The external identifiers of a document type. -/
structure DocType where
  root : String
  publicId : Option String
  systemId : Option String
  span : Span
deriving DecidableEq

structure Document where
  docType : Option DocType
  root : Element

end OrbIdl.Xml
