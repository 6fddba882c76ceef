import OrbIdl.Diagnostic

/-! # How a document departs from its schema -/

namespace OrbIdl.Schema

inductive Violation where
  | unknownSchema (systemId expected : String) (span : Span)
  | wrongRoot (declared found : String) (span : Span)
  | undeclaredElement (name : String) (span : Span)
  | undeclaredAttribute (element key : String) (span : Span)
  | missingAttribute (element key : String) (span : Span)
  | valueNotListed (element key value : String) (allowed : List String) (span : Span)
  | badToken (element key value : String) (span : Span)
  | wrongContent (element model : String) (span : Span)
  | unexpectedText (element : String) (span : Span)
deriving DecidableEq

namespace Violation

def message : Violation → String
  | unknownSchema systemId .. => s!"document references unknown schema `{systemId}`"
  | wrongRoot declared found _ =>
    s!"document type declares root `{declared}` but root element is `{found}`"
  | undeclaredElement name _ => s!"element `{name}` is not declared"
  | undeclaredAttribute element key _ =>
    s!"attribute `{key}` is not declared for element `{element}`"
  | missingAttribute element key _ =>
    s!"element `{element}` is missing required attribute `{key}`"
  | valueNotListed element key value .. =>
    s!"invalid value `{value}` for attribute `{key}` of element `{element}`"
  | badToken element key value _ =>
    s!"value `{value}` of attribute `{key}` of element `{element}` is not a valid name token"
  | wrongContent element .. => s!"content of element `{element}` is invalid"
  | unexpectedText element _ => s!"character data is not permitted in `{element}`"

def remarks : Violation → List Remark
  | unknownSchema _ expected span =>
    (Remark.error span "this document type is not supported").withHelp
      s!"use system id `{expected}` or provide a public id mapping"
  | wrongRoot declared _ span => [.error span s!"document type expects root `{declared}`"]
  | undeclaredElement _ span => [.error span "unknown element"]
  | undeclaredAttribute _ _ span => [.error span "unknown attribute"]
  | missingAttribute _ key span => [.error span s!"missing `{key}`"]
  | valueNotListed _ _ _ allowed span =>
    (Remark.error span "invalid value").withHelp
      ("expected one of " ++ String.intercalate ", " allowed)
  | badToken _ _ _ span =>
    (Remark.error span "invalid name token").withHelp
      "name tokens may contain only letters, digits, and `.`, `-`, `_`, `:`"
  | wrongContent _ model span =>
    (Remark.error span "children do not match the content model").withHelp
      s!"expected content {model}"
  | unexpectedText _ span => [.error span "unexpected character data"]

def diagnostic (v : Violation) : Diagnostic := ⟨v.message, v.remarks⟩

end Violation

end OrbIdl.Schema
