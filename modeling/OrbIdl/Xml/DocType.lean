import OrbIdl.Text.Blank
import OrbIdl.Xml.Element

/-! # The document type declaration -/

namespace OrbIdl.Xml

/-- Why the body of a document type cannot be understood. -/
inductive DocTypeFault where
  | missingRootName
  | noIdentifier (found : String)
  | noLiteral
  | unclosedLiteral
deriving DecidableEq

def DocTypeFault.message : DocTypeFault → String
  | missingRootName => "missing root element name"
  | noIdentifier found => s!"expected PUBLIC or SYSTEM, found `{found}`"
  | noLiteral => "expected quoted literal"
  | unclosedLiteral => "unterminated quoted literal"

namespace DocType

/-- A literal in single or double quotes after any blanks, and what follows it. -/
def literal (cs : List Char) : Except DocTypeFault (String × List Char) :=
  match Text.trimStart cs with
  | [] => .error .noLiteral
  | quote :: body =>
    if quote = '"' ∨ quote = '\'' then
      match body.dropWhile (· != quote) with
      | [] => .error .unclosedLiteral
      | _ :: rest => .ok (String.ofList (body.takeWhile (· != quote)), rest)
    else .error .noLiteral

/-- The public and the system identifier, if there are any. An internal subset is passed over. -/
def identifiers (cs : List Char) : Except DocTypeFault (Option String × Option String) :=
  match cs with
  | [] => .ok (none, none)
  | '[' :: _ => .ok (none, none)
  | 'P' :: 'U' :: 'B' :: 'L' :: 'I' :: 'C' :: rest => do
    let (publicId, rest) ← literal rest
    let (systemId, _) ← literal rest
    return (some publicId, some systemId)
  | 'S' :: 'Y' :: 'S' :: 'T' :: 'E' :: 'M' :: rest => do
    let (systemId, _) ← literal rest
    return (none, some systemId)
  | _ => .error (.noIdentifier (String.ofList cs))

/-- The name of the root ends at a blank or where an internal subset begins. -/
def isNameChar (c : Char) : Bool :=
  !Text.isBlank c && c != '['

/-- Reads what stands between the keyword and the closing bracket. -/
def ofBody (span : Span) (body : List Char) : Except DocTypeFault DocType := do
  let body := Text.trimStart body
  match body.takeWhile isNameChar with
  | [] => throw .missingRootName
  | name =>
    let (publicId, systemId) ← identifiers (Text.trimStart (body.dropWhile isNameChar))
    return ⟨String.ofList name, publicId, systemId, span⟩

end DocType

end OrbIdl.Xml
