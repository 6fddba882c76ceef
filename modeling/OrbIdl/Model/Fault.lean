import OrbIdl.DataType
import OrbIdl.Diagnostic
import OrbIdl.Model.TextColumn
import OrbIdl.Text.Listing
import OrbIdl.Xml.Element

/-! # Rules that an interface document may break -/

namespace OrbIdl.Model

open Xml

/-- Why a parameter cannot be moved. -/
inductive MoveRefusal where
  | outputParam
  | notMoveable (type : DataType)
deriving DecidableEq

namespace MoveRefusal

def message : MoveRefusal → String
  | outputParam => "it is an output parameter"
  | notMoveable type => s!"values of type `{type.name}` are not moveable"

def advice : MoveRefusal → String
  | outputParam => "output parameters are never moved; remove `CIDIDL:Moveable`"
  | notMoveable _ => "only strings, buffers, objects, and collections may be moved"

end MoveRefusal

/-- The rule that a declaration breaks. -/
inductive Rule where
  | badEnumShape (found : String)
  | valueRequired (name : String)
  | valueNotUsed (name : String)
  | badAltTextSource (found : String)
  | patternLacksToken (pattern : String)
  | bitmapBaseSigned (type : DataType)
  | badTextColumn (key found : String)
  | textNotProvided (key : String) (column : TextColumn)
  | missingAttribute (key : String)
  | badBitmapValue (name literal : String)
  | badNumber (key found : String)
  | badKeyword (key found : String)
  | unknownStruct (name : String)
  | duplicateSection (tag : String)
  | badRoot (found : String)
  | noValues
  | missingType
  | typeNotAllowed (type : DataType) (position : Position)
  | bufferDefault (param : String)
deriving DecidableEq

namespace Rule

def message : Rule → String
  | badEnumShape found => s!"unknown enum type `{found}`"
  | valueRequired name => s!"bitmap value `{name}` requires a value"
  | valueNotUsed name => s!"value `{name}` of a standard enum may not have a value"
  | badAltTextSource found => s!"unknown alt text source `{found}`"
  | patternLacksToken pattern => s!"alt text pattern `{pattern}` does not contain `%(v)`"
  | bitmapBaseSigned type => s!"bitmap base type `{type.name}` is not unsigned"
  | badTextColumn key found => s!"unknown text value `{found}` for `{key}`"
  | textNotProvided key column =>
    s!"`{key}` maps to {column.describe} text, which is not enabled"
  | missingAttribute key => s!"missing required attribute `{key}`"
  | badBitmapValue name literal =>
    s!"bitmap value `{name}` has non-hexadecimal value `{literal}`"
  | badNumber key found => s!"`{key}` value `{found}` is not a valid number"
  | badKeyword key found => s!"unknown `{key}` value `{found}`"
  | unknownStruct name => s!"unknown structure `{name}`"
  | duplicateSection tag => s!"duplicate section `{tag}`"
  | badRoot found => s!"root element is `{found}`, not `CIDIDL:Interface`"
  | noValues => "enum has no values"
  | missingType => "missing type element"
  | typeNotAllowed type position =>
    s!"type `{type.name}` is not permitted in {position.entity}"
  | bufferDefault param => s!"buffer parameter `{param}` has a default value"

/-- The remark on the place where the rule is broken. -/
def label : Rule → String
  | badEnumShape _ => "unknown enum type"
  | valueRequired _ => "bitmap values require `CIDIDL:Value`"
  | valueNotUsed _ => "`CIDIDL:Value` is not permitted here"
  | badAltTextSource _ => "unknown alt text source"
  | patternLacksToken _ => "pattern does not contain `%(v)`"
  | bitmapBaseSigned _ => "bitmap enums must have an unsigned base type"
  | badTextColumn .. => "unknown text value"
  | textNotProvided _ column => s!"this enum does not provide {column.describe} text"
  | missingAttribute key => s!"missing `{key}`"
  | badBitmapValue .. => "invalid bitmap value"
  | badNumber .. => "expected a number"
  | badKeyword .. => "unknown keyword"
  | unknownStruct name => s!"structure `{name}` has not been declared"
  | duplicateSection _ => "section has already been declared"
  | badRoot _ => "expected `CIDIDL:Interface` as the root element"
  | noValues => "enum must declare at least one value"
  | missingType => "expected a type element"
  | typeNotAllowed type _ => s!"`{type.name}` is not permitted here"
  | bufferDefault _ => "buffer parameters cannot have a default value"

/-- What may be done about it, where there is advice to give. -/
def advice? : Rule → Option String
  | badEnumShape _ => some "expected `Std` or `Bmp`"
  | valueNotUsed _ =>
    some ("standard enums are numbered automatically; " ++
      "use `CIDIDL:Type=\"Bmp\"` for explicit values")
  | badAltTextSource _ => some "expected `No`, `Inline`, or `Pattern`"
  | patternLacksToken _ => some "`%(v)` is replaced by the name of each value"
  | badTextColumn .. =>
    some "expected `No`, `AltText`, `AltText2`, `BaseName`, `Name`, or `Text`"
  | badBitmapValue .. => some "bitmap values must be hexadecimal, e.g. `0x10`"
  | unknownStruct _ => some "structures must be declared before they are used"
  | _ => none

end Rule

/-- Why a document tree is no interface document. -/
inductive Fault where
  /-- `decl` is the name of the declaration, or of the element if it has none. -/
  | malformed (decl : String) (rule : Rule) (span : Span)
  | unknownType (name : String) (span : Span)
  | moveRefused (method param : String) (reason : MoveRefusal) (span : Span)
  | wrongDirection (method param : String) (type : DataType) (direction : Direction) (span : Span)
  | unexpectedElement (expected : List String) (found : String) (span : Span)
deriving DecidableEq

namespace Fault

def span : Fault → Span
  | malformed _ _ span | unknownType _ span | moveRefused _ _ _ span | wrongDirection _ _ _ _ span
  | unexpectedElement _ _ span => span

def message : Fault → String
  | malformed decl rule _ => s!"malformed declaration `{decl}`: {rule.message}"
  | unknownType name _ => s!"unknown type `{name}`"
  | moveRefused method param reason _ =>
    s!"parameter `{param}` of method `{method}` cannot be moved: {reason.message}"
  | wrongDirection method param type direction _ =>
    s!"parameter `{param}` of method `{method}` cannot be of type `{type.name}` " ++
      s!"with direction `{direction.name}`"
  | unexpectedElement expected found _ =>
    "expected " ++ Text.alternatives expected ++ s!", found `{found}`"

def remarks : Fault → List Remark
  | malformed _ rule span =>
    let remark := Remark.error span rule.label
    match rule.advice? with
    | some advice => remark.withHelp advice
    | none => [remark]
  | unknownType name span => [.error span s!"`{name}` is not a known type"]
  | moveRefused _ _ reason span =>
    (Remark.error span "moveable requested here").withHelp reason.advice
  | wrongDirection _ _ type _ span =>
    (Remark.error span s!"`{type.name}` may only be an input parameter").withHelp
      "use `CIDIDL:THeapBuf` for output parameters"
  | unexpectedElement expected _ span =>
    (Remark.error span "unexpected element").withHelp
      ("expected " ++ Text.alternatives expected)

def diagnostic (f : Fault) : Diagnostic := ⟨f.message, f.remarks⟩

def ofMissing (m : MissingAttribute) : Fault :=
  .malformed m.element (.missingAttribute m.key) m.span

end Fault

/-! ## What every declaration reads -/

/-- The value of an attribute that has to be there. -/
def require (e : Element) (key : String) : Except Fault String :=
  (e.require key).mapError .ofMissing

/-- The switch is on. -/
def isYes (e : Element) (key : String) : Bool :=
  e.get? key == some yes

/-- The documentation of a declaration: the text of the first such child, if it is not blank. -/
def docText? (e : Element) : Option String :=
  ((e.children.find? (·.name == Tag.docText)).map fun d => Text.trim d.text).filter (· != "")

/-- The element has one of the names. -/
def expect (e : Element) (names : List String) : Except Fault Unit :=
  if names.contains e.name then .ok () else .error (.unexpectedElement names e.name e.span)

end OrbIdl.Model
