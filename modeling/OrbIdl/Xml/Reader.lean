import OrbIdl.Xml.Attribute
import OrbIdl.Xml.ReadError
import OrbIdl.Xml.Reference

/-! # From the text of a document to its tree -/

namespace OrbIdl.Xml

/-! ## One token on its own -/

/-- The tag or declaration inside a token: its text without the opening bracket, and where that text
begins in the source. -/
structure TagText where
  content : List Char
  origin : Nat

/-- The place in the source of an attribute: from its name to the end of its value. -/
def TagText.attributeSpan (tag : TagText) (a : RawAttribute) : Span :=
  (Span.ofBytes (tag.origin + a.keyStart) (Text.byteSize a.key)).merge
    (Span.ofBytes (tag.origin + a.valueStart) (Text.byteSize a.value))

/-- Adds an attribute of a tag to its element. -/
def addAttribute (tag : TagText) (e : Element) (a : RawAttribute) : Except ReadError Element :=
  let span := tag.attributeSpan a
  match resolve a.value with
  | .ok value => .ok (e.put ⟨String.ofList a.key, String.ofList value, span, false⟩)
  | .error fault => .error (.malformed (.reference fault) span)

/-- The element that a tag at `span` opens. -/
def elementOf (tag : TagText) (span : Span) : Except ReadError Element := do
  match tagName tag.content with
  | [] => throw (.malformed .missingElementName span)
  | name =>
    let read := attributes true tag.content
    let e ← read.items.foldlM (addAttribute tag) (.leaf (String.ofList name) span)
    match read.fault with
    | none => return e
    | some fault => throw (.malformed (.tagAttribute fault) span)

/-- The first attribute of a declaration has to be its version. -/
def declaredVersion (attributes : Reading AttributeFault RawAttribute) :
    Except SyntaxFault RawAttribute :=
  match attributes.items, attributes.fault with
  | a :: _, _ =>
    if a.key = "version".toList then .ok a else .error (.versionNotFirst (String.ofList a.key))
  | [], some fault => .error (.declarationAttribute fault)
  | [], none => .error .missingVersion

/-- The first attribute named encoding; a fault counts only when none comes before it. -/
def declaredEncoding (attributes : Reading AttributeFault RawAttribute) :
    Except SyntaxFault (Option RawAttribute) :=
  match attributes.items.find? (·.key == "encoding".toList), attributes.fault with
  | some a, _ => .ok (some a)
  | none, some fault => .error (.declarationAttribute fault)
  | none, none => .ok none

/-- Only version 1.0 in UTF-8 is read. -/
def checkDeclaration (tag : TagText) (span : Span) : Except ReadError Unit := do
  let valueSpan (a : RawAttribute) :=
    Span.ofBytes (tag.origin + a.valueStart) (Text.byteSize a.value)
  let attributes := attributes false tag.content
  match declaredVersion attributes with
  | .error fault => throw (.malformed fault span)
  | .ok version =>
    if version.value ≠ "1.0".toList then
      throw (.unsupportedVersion (String.ofList version.value) (valueSpan version))
  match declaredEncoding attributes with
  | .error fault => throw (.malformed fault span)
  | .ok none => return
  | .ok (some encoding) =>
    if encoding.value ≠ "utf-8".toList ∧ encoding.value ≠ "UTF-8".toList then
      throw (.unsupportedEncoding (String.ofList encoding.value) (valueSpan encoding))

/-! ## The tree so far -/

/-- What has been read: the elements still open, the innermost first, and the finished root. -/
structure Progress where
  opened : List Element := []
  root : Option Element := none
  docType : Option DocType := none

namespace Progress

/-- Gives a finished element to the element around it, or makes it the root. -/
def attach (p : Progress) (e : Element) : Except ReadError Progress :=
  match p.opened, p.root with
  | parent :: rest, _ => .ok { p with opened := parent.addChild e :: rest }
  | [], some first => .error (.multipleRoots first.span e.span)
  | [], none => .ok { p with root := some e }

/-- Character data belongs to the innermost open element; outside of the root it has to be blank. -/
def addText (p : Progress) (text : List Char) (span : Span) : Except ReadError Progress :=
  match p.opened with
  | parent :: rest => .ok { p with opened := parent.addText (String.ofList text) :: rest }
  | [] => if text.all Text.isBlank then .ok p else .error (.textOutsideRoot span)

def begin (p : Progress) (tag : TagText) (span : Span) : Except ReadError Progress := do
  match p.opened, p.root with
  | [], some first => throw (.multipleRoots first.span span)
  | _, _ => return { p with opened := (← elementOf tag span) :: p.opened }

/-- A closing tag has to name the innermost open element. -/
def close (p : Progress) (name : String) (span : Span) : Except ReadError Progress :=
  match p.opened with
  | [] => .error (.malformed (.unmatchedClose name) span)
  | e :: rest =>
    if e.name = name then { p with opened := rest }.attach (e.extend span)
    else .error (.malformed (.mismatchedClose e.name name) span)

/-- Takes in one token. Spans of tokens are counted from behind a byte order mark of `skipped`
bytes, those of attributes from the beginning of the source. -/
def step (skipped : Nat) (p : Progress) (t : Token) : Except ReadError Progress :=
  match t.markup with
  | .text raw =>
    match resolve raw with
    | .ok text => p.addText text t.span
    | .error fault => .error (.malformed (.reference fault) t.span)
  | .characterData text => p.addText text t.span
  | .docType body =>
    match DocType.ofBody t.span body with
    | .ok docType => .ok { p with docType := some docType }
    | .error fault => .error (.badDocType fault t.span)
  | .declaration content => do
    checkDeclaration ⟨content, skipped + t.start + 2⟩ t.span
    return p
  | .opening content => p.begin ⟨content, skipped + t.start + 1⟩ t.span
  | .selfClosed content => do
    let e ← elementOf ⟨content, skipped + t.start + 1⟩ t.span
    p.attach e
  | .closing name => p.close (String.ofList name) t.span
  | .comment | .instruction => .ok p

/-- A document is finished when nothing is open and there is a root. -/
def finish (p : Progress) : Except ReadError Document :=
  match p.opened, p.root with
  | e :: _, _ => .error (.unclosedElement e.name e.span)
  | [], some root => .ok ⟨p.docType, root⟩
  | [], none => .error .emptyDocument

end Progress

/-! ## The whole document -/

/-- The tree of a list of tokens, or of those before a fault. -/
def Document.ofTokens (skipped : Nat) (tokens : Reading Misplaced Token) :
    Except ReadError Document := do
  let progress ← tokens.items.foldlM (Progress.step skipped) {}
  match tokens.fault with
  | none => progress.finish
  | some misplaced =>
    throw (.malformed misplaced.fault (.ofInterval misplaced.start misplaced.stop))

/-- A byte order mark is passed over and not counted. -/
def Document.read (source : String) : Except ReadError Document :=
  match source.toList with
  | '\uFEFF' :: rest => ofTokens 3 (tokens 0 rest)
  | cs => ofTokens 0 (tokens 0 cs)

end OrbIdl.Xml
