import OrbIdl.Schema.Declaration
import OrbIdl.Schema.Violation
import OrbIdl.Text.Alphanumeric
import OrbIdl.Xml.Element

/-! # Checking a document against a schema -/

namespace OrbIdl.Schema

open Xml

/-! ## Attributes -/

/-- Name tokens hold letters and digits of any script and four marks. -/
def isTokenChar (c : Char) : Bool :=
  Text.isAlphanumeric c || c == '.' || c == '-' || c == '_' || c == ':'

def isToken (s : String) : Bool :=
  s != "" && s.toList.all isTokenChar

/-- What is wrong with the value of a declared attribute. -/
def valueViolations (s : Schema) (element : String) (a : Attribute) :
    AttributeType → List Violation
  | .text => []
  | .token => if isToken a.value then [] else [.badToken element a.name a.value a.span]
  | .oneOf values =>
    if values.contains a.value then []
    else [.valueNotListed element a.name a.value values a.span]
  | .oneOfEntity name =>
    if (s.entityValues name).contains a.value then []
    else [.valueNotListed element a.name a.value (s.entityValues name) a.span]

/-- What is wrong with an attribute that is given. -/
def givenViolations (s : Schema) (d : ElementDeclaration) (element : String) (a : Attribute) :
    List Violation :=
  match d.attribute? a.name with
  | some declared => valueViolations s element a declared.type
  | none => [.undeclaredAttribute element a.name a.span]

/-- A required attribute that is not given is a violation at its element. -/
def missingViolations (e : Element) (declared : AttributeDeclaration) : List Violation :=
  if declared.fallback = .required ∧ e.attribute? declared.name = none then
    [.missingAttribute e.name declared.name e.span]
  else []

def attributeViolations (s : Schema) (d : ElementDeclaration) (e : Element) : List Violation :=
  e.attributes.flatMap (givenViolations s d e.name) ++ d.attributes.flatMap (missingViolations e)

/-- Adds the default of an attribute that is not given, placed at its element. -/
def addDefault (e : Element) (declared : AttributeDeclaration) : Element :=
  match declared.fallback, e.attribute? declared.name with
  | .value v, none => e.put ⟨declared.name, v, e.span, true⟩
  | _, _ => e

def addDefaults (d : ElementDeclaration) (e : Element) : Element :=
  d.attributes.foldl addDefault e

/-! ## Content -/

/-- What is wrong with the text and the children that stand directly in an element. -/
def contentViolations (s : Schema) (d : ElementDeclaration) (e : Element) : List Violation :=
  let mismatch (span : Span) := Violation.wrongContent e.name d.content.render span
  let text := if e.isBlank then [] else [Violation.unexpectedText e.name e.span]
  match d.content with
  | .characterData =>
    match e.children with
    | [] => []
    | child :: _ => [mismatch child.span]
  | .empty => text ++ if e.children.isEmpty then [] else [mismatch e.span]
  | .children particle =>
    text ++
      if particle.matchesAll s.entityValues (e.children.map (·.name)) then []
      else [mismatch e.span]

/-! ## The tree -/

mutual

/-- The violations of an element and of all below it, in document order, and the tree with defaults
added. Nothing below an undeclared element is looked at. -/
def validate (s : Schema) : Element → Element × List Violation
  | ⟨name, span, attributes, text, children⟩ =>
    let e : Element := ⟨name, span, attributes, text, children⟩
    match s.element? name with
    | none => (e, [.undeclaredElement name span])
    | some d =>
      let (checked, below) := validateAll s children
      ({ addDefaults d e with children := checked },
        attributeViolations s d e ++ contentViolations s d e ++ below)

def validateAll (s : Schema) : List Element → List Element × List Violation
  | [] => ([], [])
  | e :: rest =>
    let (e, here) := validate s e
    let (rest, after) := validateAll s rest
    (e :: rest, here ++ after)

end

/-! ## The document type -/

/-- The system identifiers that public identifiers stand for. -/
abbrev Mappings := List (String × String)

/-- The system identifier of a document type: that of its public identifier, if it stands for one,
before its own. -/
def systemIdOf (s : Schema) (mappings : Mappings) (docType : DocType) : Option String :=
  let mapped := docType.publicId.bind fun publicId =>
    match mappings.lookup publicId with
    | some systemId => some systemId
    | none => if publicId = s.publicId then some s.systemId else none
  mapped.orElse fun _ => docType.systemId

/-- A document type has to name the root element and this schema, or no schema. -/
def checkDocType (s : Schema) (mappings : Mappings) (docType : Option DocType) (root : Element) :
    Except Violation Unit :=
  match docType with
  | none => .ok ()
  | some docType =>
    if docType.root ≠ root.name then
      .error (.wrongRoot docType.root root.name docType.span)
    else match systemIdOf s mappings docType with
      | some systemId =>
        if systemId = s.systemId then .ok ()
        else .error (.unknownSchema systemId s.systemId docType.span)
      | none => .ok ()

end OrbIdl.Schema
