import OrbIdl.Xml.DocType
import OrbIdl.Xml.Fault

/-! # Why a text is no document -/

namespace OrbIdl.Xml

inductive ReadError where
  | malformed (fault : SyntaxFault) (span : Span)
  | unsupportedVersion (found : String) (span : Span)
  | unsupportedEncoding (found : String) (span : Span)
  | badDocType (fault : DocTypeFault) (span : Span)
  | unclosedElement (name : String) (span : Span)
  | multipleRoots (first second : Span)
  | textOutsideRoot (span : Span)
  | emptyDocument
deriving DecidableEq

namespace ReadError

def message : ReadError → String
  | malformed fault _ => s!"XML syntax error: {fault.message}"
  | unsupportedVersion found _ =>
    s!"expected XML version `1.0`, but found unsupported version `{found}`"
  | unsupportedEncoding found _ =>
    s!"expected `utf-8` or `UTF-8` encoding, but found unsupported encoding `{found}`"
  | badDocType fault _ => s!"malformed DOCTYPE declaration: {fault.message}"
  | unclosedElement name _ => s!"element `{name}` is never closed"
  | multipleRoots .. => "document contains more than one root element"
  | textOutsideRoot _ => "character data outside of the root element"
  | emptyDocument => "document has no root element"

def remarks : ReadError → List Remark
  | malformed _ span | badDocType _ span | textOutsideRoot span => [.mark span]
  | unsupportedVersion _ span =>
    (Remark.error span "unsupported version").withHelp "use `version=\"1.0\"`"
  | unsupportedEncoding _ span =>
    (Remark.error span "unsupported encoding").withHelp
      "use `encoding=\"utf-8\"` or remove the attribute"
  | unclosedElement _ span => [.error span "element opened here"]
  | multipleRoots first second =>
    [.note first "first root element", .error second "second root element"]
  | emptyDocument => []

def diagnostic (e : ReadError) : Diagnostic := ⟨e.message, e.remarks⟩

end ReadError

end OrbIdl.Xml
