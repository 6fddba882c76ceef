import OrbIdl.Span
import OrbIdl.Text.Bytes
import OrbIdl.Xml.Fault
import OrbIdl.Xml.Reading

/-! # The tokens of a document -/

namespace OrbIdl.Xml

/-- The blanks that separate the parts of a tag. -/
def isSpace (c : Char) : Bool :=
  c == ' ' || c == '\t' || c == '\r' || c == '\n'

/-- What a token is. A tag keeps its text between the angle brackets, references unresolved. -/
inductive Markup where
  | text (raw : List Char)
  | characterData (text : List Char)
  | docType (body : List Char)
  | declaration (content : List Char)
  | opening (content : List Char)
  | selfClosed (content : List Char)
  | closing (name : List Char)
  | comment
  | instruction
deriving DecidableEq

/-- A token and the bytes that it takes, counted from where reading began. -/
structure Token where
  markup : Markup
  start : Nat
  stop : Nat
deriving DecidableEq

def Token.span (t : Token) : Span :=
  Span.ofInterval t.start t.stop

/-! ## Where markup ends -/

/-- Cuts at the first `>` that closes: `step` follows the characters before it and `closes` says
whether it does. -/
def splitAtClose {σ : Type} (step : σ → Char → σ) (closes : σ → Bool) :
    σ → List Char → Option (List Char × List Char)
  | _, [] => none
  | s, c :: cs =>
    if c = '>' ∧ closes s = true then some ([], cs)
    else (splitAtClose step closes (step s c) cs).map fun (content, rest) => (c :: content, rest)

/-- Nothing is lost at the cut. -/
theorem eq_append_of_splitAtClose {σ : Type} {step : σ → Char → σ} {closes : σ → Bool} {s : σ}
    {cs content rest : List Char} (h : splitAtClose step closes s cs = some (content, rest)) :
    cs = content ++ '>' :: rest := by
  induction cs generalizing s content with
  | nil => simp [splitAtClose] at h
  | cons c cs ih =>
    rw [splitAtClose] at h
    split at h
    · rename_i hc
      obtain ⟨rfl, rfl⟩ := Prod.mk.inj (Option.some.inj h)
      simp [hc.1]
    · obtain ⟨⟨content', rest'⟩, hsplit, hpair⟩ := Option.map_eq_some_iff.1 h
      obtain ⟨rfl, rfl⟩ := Prod.mk.inj hpair
      simp [ih hsplit]

/-- The length of the run of `mark` that the characters so far end in. -/
def runOf (mark : Char) (n : Nat) (c : Char) : Nat :=
  if c = mark then n + 1 else 0

/-- Markup that no `>` closes, and what it is. -/
def unclosed : List Char → SyntaxFault
  | '!' :: '-' :: _ => .unclosedComment
  | '!' :: '[' :: _ => .unclosedCData
  | '!' :: _ => .unclosedDocType
  | '?' :: _ => .unclosedInstruction
  | _ => .unclosedTag

/-- The text between `<` and the `>` that closes it, and what follows. A comment closes after two
dashes and five bytes at the least, character data after two brackets, a document type where the
angle brackets balance, an instruction after a question mark, and a tag outside of quotes. -/
def delimited : List Char → Option (List Char × List Char)
  | '!' :: '-' :: cs =>
    splitAtClose (fun (n, dashes) c => (n + c.utf8Size, runOf '-' dashes c))
      (fun (n, dashes) => 5 ≤ n && 2 ≤ dashes) (0, 0) ('!' :: '-' :: cs)
  | '!' :: '[' :: cs => splitAtClose (runOf ']') (2 ≤ ·) 0 ('!' :: '[' :: cs)
  | '!' :: cs =>
    splitAtClose (fun depth c => if c = '<' then depth + 1 else if c = '>' then depth - 1 else depth)
      (· == 0) 0 ('!' :: cs)
  | '?' :: cs => splitAtClose (runOf '?') (1 ≤ ·) 0 ('?' :: cs)
  | cs =>
    splitAtClose
      (fun quote c =>
        match quote with
        | none => if c = '"' ∨ c = '\'' then some c else none
        | some q => if c = q then none else some q)
      Option.isNone none cs

theorem eq_append_of_delimited {cs content rest : List Char}
    (h : delimited cs = some (content, rest)) : cs = content ++ '>' :: rest := by
  unfold delimited at h
  split at h <;> exact eq_append_of_splitAtClose h

/-! ## What markup is -/

/-- The text between `<?` and `?>` is a declaration when its target is `xml`. -/
def isDeclaration : List Char → Bool
  | 'x' :: 'm' :: 'l' :: rest => rest.head?.all isSpace
  | _ => false

/-- The document type keyword is read in any case. -/
def isDocTypeKeyword (cs : List Char) : Bool :=
  cs.map Char.toUpper == "!DOCTYPE".toList

/-- The name in a closing tag, without the spaces at its end unless there is nothing else. -/
def closingName (cs : List Char) : List Char :=
  if cs.all isSpace then cs else (cs.reverse.dropWhile isSpace).reverse

/-- What the text between `<` and `>` is. -/
def classify (content : List Char) : Except SyntaxFault Markup :=
  match content with
  | '!' :: '-' :: rest => if rest.head? = some '-' then .ok .comment else .error .unclosedComment
  | '!' :: '[' :: _ =>
    if content.take 8 = "![CDATA[".toList then .ok (.characterData (content.drop 8).dropLast.dropLast)
    else .error .unclosedCData
  | '!' :: _ =>
    if isDocTypeKeyword (content.take 8) then
      match (content.drop 8).dropWhile isSpace with
      | [] => .error .missingDocTypeName
      | body => .ok (.docType body)
    else .error .unclosedDocType
  | ['?'] => .error .unclosedInstruction
  | '?' :: rest =>
    if isDeclaration rest.dropLast then .ok (.declaration rest.dropLast) else .ok .instruction
  | '/' :: name => .ok (.closing (closingName name))
  | _ =>
    if content.getLast? = some '/' then .ok (.selfClosed content.dropLast)
    else .ok (.opening content)

/-- An exclamation mark has to begin a comment, character data or a document type. -/
def isKnown : List Char → Bool
  | '!' :: c :: _ => c == '-' || c == '[' || c == 'D' || c == 'd'
  | ['!'] => false
  | _ => true

/-! ## The tokens in order -/

/-- A fault and the bytes that it spans. -/
structure Misplaced where
  fault : SyntaxFault
  start : Nat
  stop : Nat
deriving DecidableEq

/-- The tokens of a text whose first byte has the number `start`. -/
def tokens (start : Nat) (cs : List Char) : Reading Misplaced Token :=
  match cs with
  | [] => .done
  | '<' :: rest =>
    if isKnown rest = false then .stop ⟨.unknownMarkup, start, start + 1⟩
    else match h : delimited rest with
      | none => .stop ⟨unclosed rest, start, start + 1 + Text.byteSize rest⟩
      | some (content, after) =>
        let stop := start + Text.byteSize content + 2
        match classify content with
        | .error fault => .stop ⟨fault, start, stop⟩
        | .ok markup => .cons ⟨markup, start, stop⟩ (tokens stop after)
  | c :: rest =>
    let raw := c :: rest.takeWhile (· != '<')
    let stop := start + Text.byteSize raw
    .cons ⟨.text raw, start, stop⟩ (tokens stop (rest.dropWhile (· != '<')))
termination_by cs.length
decreasing_by
  · have := congrArg List.length (eq_append_of_delimited h)
    simp only [List.length_append, List.length_cons] at this ⊢
    omega
  · have := (List.dropWhile_sublist (l := rest) (· != '<')).length_le
    simp only [List.length_cons]
    omega

end OrbIdl.Xml
