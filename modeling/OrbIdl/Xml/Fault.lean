import OrbIdl.Text.Numeral

/-! # What is wrong with the text of a document -/

namespace OrbIdl.Xml

/-- Why a reference stands for no character. Places count the bytes of the text that holds it. -/
inductive ReferenceFault where
  | unknownName (start stop : Nat) (name : String)
  | unterminated (start stop : Nat)
  | signed
  | badNumber (fault : Text.NumeralFault)
  | noCharacter (code : Nat)
  | zero
deriving DecidableEq

namespace ReferenceFault

def message : ReferenceFault → String
  | unknownName start stop name => s!"at {start}..{stop}: unrecognized entity `{name}`"
  | unterminated start stop =>
    s!"Error while escaping character at range {start}..{stop}: Cannot find ';' after '&'"
  | signed => "invalid character reference: unexpected number sign"
  | badNumber fault => s!"invalid character reference: {fault.message}"
  | noCharacter code => s!"invalid character reference: `{code}` is not a valid codepoint"
  | zero => "invalid character reference: 0x0 character is not permitted in XML"

end ReferenceFault

/-- Why the attributes of a tag cannot be read. Places count the bytes of the tag. -/
inductive AttributeFault where
  | noEquals (place : Nat)
  | noValue (place : Nat)
  | unquoted (place : Nat)
  | unclosed (place : Nat) (quote : Char)
  | duplicated (place earlier : Nat)
deriving DecidableEq

namespace AttributeFault

def message : AttributeFault → String
  | noEquals place =>
    s!"position {place}: attribute key must be directly followed by `=` or space"
  | noValue place => s!"position {place}: `=` must be followed by an attribute value"
  | unquoted place => s!"position {place}: attribute value must be enclosed in `\"` or `'`"
  | unclosed place quote =>
    s!"position {place}: missing closing quote `{quote}` in attribute value"
  | duplicated place earlier =>
    s!"position {place}: duplicated attribute, previous declaration at position {earlier}"

end AttributeFault

/-- Why a document is not well formed. -/
inductive SyntaxFault where
  | unknownMarkup
  | unclosedInstruction
  | unclosedComment
  | unclosedDocType
  | unclosedCData
  | unclosedTag
  | missingDocTypeName
  | missingVersion
  | versionNotFirst (found : String)
  | unmatchedClose (name : String)
  | mismatchedClose (expected found : String)
  | missingElementName
  | tagAttribute (fault : AttributeFault)
  | declarationAttribute (fault : AttributeFault)
  | reference (fault : ReferenceFault)
deriving DecidableEq

namespace SyntaxFault

def message : SyntaxFault → String
  | unknownMarkup => "syntax error: unknown or missed symbol in markup"
  | unclosedInstruction =>
    "syntax error: processing instruction or xml declaration not closed: " ++
      "`?>` not found before end of input"
  | unclosedComment => "syntax error: comment not closed: `-->` not found before end of input"
  | unclosedDocType => "syntax error: DOCTYPE not closed: `>` not found before end of input"
  | unclosedCData => "syntax error: CDATA not closed: `]]>` not found before end of input"
  | unclosedTag => "syntax error: tag not closed: `>` not found before end of input"
  | missingDocTypeName =>
    "ill-formed document: `<!DOCTYPE>` declaration does not contain a name of a document type"
  | missingVersion =>
    "ill-formed document: an XML declaration does not contain `version` attribute"
  | versionNotFirst found =>
    s!"ill-formed document: an XML declaration must start with `version` attribute, " ++
      s!"but in starts with `{found}`"
  | unmatchedClose name =>
    s!"ill-formed document: close tag `</{name}>` does not match any open tag"
  | mismatchedClose expected found =>
    s!"ill-formed document: expected `</{expected}>`, but `</{found}>` was found"
  | missingElementName => "missing element name"
  | tagAttribute fault => fault.message
  | declarationAttribute fault => s!"error while parsing attribute: {fault.message}"
  | reference fault => fault.message

end SyntaxFault

end OrbIdl.Xml
