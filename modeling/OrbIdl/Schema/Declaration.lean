import OrbIdl.DataType
import OrbIdl.Schema.Particle

/-! # Declarations of a document schema -/

namespace OrbIdl.Schema

inductive ContentModel where
  | empty
  | characterData
  | children (particle : Particle)

/-- A model of children is written in parentheses. -/
def ContentModel.render : ContentModel → String
  | empty => "EMPTY"
  | characterData => "(#PCDATA)"
  | children particle =>
    let text := particle.render
    if text.toList.head? = some '(' then text else "(" ++ text ++ ")"

/-- The values that an attribute may have. -/
inductive AttributeType where
  | text
  | token
  | oneOf (values : List String)
  | oneOfEntity (name : String)
deriving DecidableEq

namespace AttributeType

def render : AttributeType → String
  | text => "CDATA"
  | token => "NMTOKEN"
  | oneOf values => "(" ++ String.intercalate "|" values ++ ")"
  | oneOfEntity name => s!"(%{name};)"

def ofForm : ArgumentForm → AttributeType
  | .token => token
  | .text => text

end AttributeType

/-- What holds when an attribute is not given. -/
inductive AttributeDefault where
  | required
  | implied
  | value (value : String)
deriving DecidableEq

def AttributeDefault.render : AttributeDefault → String
  | required => "#REQUIRED"
  | implied => "#IMPLIED"
  | value v => s!"'{v}'"

structure AttributeDeclaration where
  name : String
  type : AttributeType
  fallback : AttributeDefault
deriving DecidableEq

structure ElementDeclaration where
  name : String
  content : ContentModel
  attributes : List AttributeDeclaration

def ElementDeclaration.attribute? (d : ElementDeclaration) (name : String) :
    Option AttributeDeclaration :=
  d.attributes.find? (·.name == name)

/-- A named choice of names. -/
structure Entity where
  name : String
  values : List String
deriving DecidableEq

end OrbIdl.Schema

namespace OrbIdl

/-- A document schema and the identifiers under which it is known. -/
structure Schema where
  publicId : String
  systemId : String
  entities : List Schema.Entity
  elements : List Schema.ElementDeclaration

namespace Schema

def element? (s : Schema) (name : String) : Option ElementDeclaration :=
  s.elements.find? (·.name == name)

/-- The names of an entity; none if it is not declared. -/
def entityValues (s : Schema) (name : String) : List String :=
  ((s.entities.find? (·.name == name)).map (·.values)).getD []

/-! ## The schema as text -/

def Entity.render (e : Entity) : String :=
  s!"<!ENTITY % {e.name} '" ++ String.intercalate " | " e.values ++ "'>\n"

def AttributeDeclaration.render (a : AttributeDeclaration) : String :=
  s!"\n            {a.name} {a.type.render} {a.fallback.render}"

def ElementDeclaration.render (d : ElementDeclaration) : String :=
  s!"\n<!ELEMENT   {d.name} {d.content.render}>\n" ++
    if d.attributes.isEmpty then ""
    else s!"<!ATTLIST   {d.name}" ++ String.join (d.attributes.map (·.render)) ++ ">\n"

/-- The text of a document type definition: entities come before their uses. -/
def render (s : Schema) : String :=
  "<?xml encoding='UTF-8'?>\n\n" ++ String.join (s.entities.map (·.render)) ++
    String.join (s.elements.map (·.render))

end Schema

end OrbIdl
