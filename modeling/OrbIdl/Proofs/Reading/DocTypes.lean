import OrbIdl.Text.Bytes
import OrbIdl.Xml.Reader

/-!
# Document types

A document type can be written down in many ways, and all of them are read alike. The reader cuts
its text at bytes that it has counted; each of these cuts falls between two characters.
-/

namespace OrbIdl.Text

/-! ## Cuts -/

/-- The text behind its first `n` bytes, unless they end inside a character or there are fewer. -/
def dropBytes? (n : Nat) (cs : List Char) : Option (List Char) :=
  (takeBytes? n cs).map fun taken => cs.drop taken.length

/-- The number of bytes in front of the first character that is like `p`. -/
def findByte? (p : Char → Bool) : List Char → Option Nat
  | [] => none
  | c :: cs => if p c then some 0 else (findByte? p cs).map (c.utf8Size + ·)

theorem dropBytes?_append (xs ys : List Char) : dropBytes? (byteSize xs) (xs ++ ys) = some ys := by
  simp [dropBytes?, takeBytes?_append]

/-- Either nothing is found, or the place between what is passed over and what is found. -/
theorem findByte?_cases (p : Char → Bool) (cs : List Char) :
    (cs.dropWhile (!p ·) = [] ∧ findByte? p cs = none) ∨
      ∃ c rest, p c = true ∧ cs.dropWhile (!p ·) = c :: rest ∧
        findByte? p cs = some (byteSize (cs.takeWhile (!p ·))) := by
  induction cs with
  | nil => exact .inl ⟨rfl, rfl⟩
  | cons c cs ih =>
    cases hc : p c with
    | true => exact .inr ⟨c, cs, hc, by simp [hc], by simp [findByte?, hc]⟩
    | false =>
      obtain ⟨hdrop, hfind⟩ | ⟨d, rest, hd, hdrop, hfind⟩ := ih
      · exact .inl ⟨by simp [hc, hdrop], by simp [findByte?, hc, hfind]⟩
      · exact .inr ⟨d, rest, hd, by simp [hc, hdrop], by simp [findByte?, hc, hfind]⟩

/-- A cut in front of the first character that is not like `p`, or at the end of the text. -/
theorem cut_found (p : Char → Bool) (cs : List Char) :
    let stop := (findByte? (!p ·) cs).getD (byteSize cs)
    takeBytes? stop cs = some (cs.takeWhile p) ∧ dropBytes? stop cs = some (cs.dropWhile p) := by
  have hparts := List.takeWhile_append_dropWhile (p := p) (l := cs)
  have hstop : (findByte? (!p ·) cs).getD (byteSize cs) = byteSize (cs.takeWhile p) := by
    obtain ⟨hdrop, hfind⟩ | ⟨c, rest, -, -, hfind⟩ := findByte?_cases (!p ·) cs
    · simp only [Bool.not_not] at hdrop
      rw [hdrop, List.append_nil] at hparts
      rw [hfind, hparts, Option.getD_none]
    · simp only [Bool.not_not] at hfind
      rw [hfind, Option.getD_some]
  have htake := takeBytes?_append (cs.takeWhile p) (cs.dropWhile p)
  have hdrop := dropBytes?_append (cs.takeWhile p) (cs.dropWhile p)
  rw [hparts] at htake hdrop
  dsimp only
  rw [hstop]
  exact ⟨htake, hdrop⟩

end OrbIdl.Text

namespace OrbIdl.Xml.DocType

open Text

/-! ## Written down -/

/-- White space between two parts. -/
structure Gap where
  blanks : List Char
  nonempty : blanks ≠ []
  blank : ∀ c ∈ blanks, isBlank c = true

structure RootName where
  chars : List Char
  nonempty : chars ≠ []
  plain : ∀ c ∈ chars, isBlank c = false ∧ c ≠ '['

/-- An identifier in quotes of a kind that does not occur in it. -/
structure Quoted where
  quote : Char
  text : List Char
  isQuote : quote = '"' ∨ quote = '\''
  absent : quote ∉ text

inductive ExternalId where
  | none
  | system (first second : Gap) (systemId : Quoted)
  | both (first second third : Gap) (publicId systemId : Quoted)

/-- What may follow: white space, and an internal subset with anything in it. -/
structure Ending where
  blanks : List Char
  blank : ∀ c ∈ blanks, isBlank c = true
  subset : Option (List Char)

structure Written where
  name : RootName
  externalId : ExternalId
  ending : Ending

def Quoted.render (q : Quoted) : List Char :=
  q.quote :: q.text ++ [q.quote]

def ExternalId.render : ExternalId → List Char
  | none => []
  | system first second systemId =>
    first.blanks ++ "SYSTEM".toList ++ second.blanks ++ systemId.render
  | both first second third publicId systemId =>
    first.blanks ++ "PUBLIC".toList ++ second.blanks ++ publicId.render ++ third.blanks ++
      systemId.render

def Ending.render (e : Ending) : List Char :=
  e.blanks ++ match e.subset with
    | some content => '[' :: content
    | Option.none => []

def Written.render (w : Written) : List Char :=
  w.name.chars ++ w.externalId.render ++ w.ending.render

/-- The public and the system identifier. -/
def ExternalId.ids : ExternalId → Option String × Option String
  | none => (.none, .none)
  | system _ _ systemId => (.none, some (String.ofList systemId.text))
  | both _ _ _ publicId systemId =>
    (some (String.ofList publicId.text), some (String.ofList systemId.text))

def Written.docType (w : Written) (span : Span) : DocType :=
  ⟨String.ofList w.name.chars, w.externalId.ids.1, w.externalId.ids.2, span⟩

/-! ## Reading what is written down -/

theorem trimStart_gap (g : Gap) (cs : List Char) : trimStart (g.blanks ++ cs) = trimStart cs :=
  trimStart_append g.blank cs

theorem literal_quoted (q : Quoted) (rest : List Char) :
    literal (q.render ++ rest) = .ok (String.ofList q.text, rest) := by
  obtain ⟨quote, text, isQuote, absent⟩ := q
  have hblank : isBlank quote = false := by
    obtain rfl | rfl := isQuote <;> decide
  have hinside : ∀ c ∈ text, (c != quote) = true := by
    intro c hc
    simpa using ne_of_mem_of_not_mem hc absent
  have hrender : Quoted.render ⟨quote, text, isQuote, absent⟩ ++ rest =
      quote :: (text ++ quote :: rest) := by simp [Quoted.render]
  unfold literal
  rw [hrender, trimStart_cons hblank]
  dsimp only
  rw [if_pos isQuote, List.dropWhile_append_of_pos hinside, List.takeWhile_append_of_pos hinside]
  simp

theorem literal_gap (g : Gap) (q : Quoted) (rest : List Char) :
    literal (g.blanks ++ (q.render ++ rest)) = .ok (String.ofList q.text, rest) := by
  rw [← literal_quoted q rest]
  unfold literal
  rw [trimStart_gap]

theorem identifiers_ending (e : Ending) : identifiers (trimStart e.render) = .ok (none, none) := by
  rw [Ending.render, trimStart_append e.blank]
  cases e.subset with
  | none => rfl
  | some content =>
    rw [trimStart_cons (by decide)]
    rfl

theorem identifiers_system (g : Gap) (q : Quoted) (rest : List Char) :
    identifiers ("SYSTEM".toList ++ (g.blanks ++ (q.render ++ rest))) =
      .ok (none, some (String.ofList q.text)) := by
  have hkeyword : identifiers ("SYSTEM".toList ++ (g.blanks ++ (q.render ++ rest))) =
      (literal (g.blanks ++ (q.render ++ rest))).bind fun read => .ok (none, some read.1) := rfl
  rw [hkeyword, literal_gap]
  rfl

theorem identifiers_public (g g' : Gap) (q q' : Quoted) (rest : List Char) :
    identifiers ("PUBLIC".toList ++ (g.blanks ++ (q.render ++ (g'.blanks ++ (q'.render ++ rest))))) =
      .ok (some (String.ofList q.text), some (String.ofList q'.text)) := by
  have hkeyword (cs : List Char) : identifiers ("PUBLIC".toList ++ cs) =
      (literal cs).bind fun first => (literal first.2).bind fun second =>
        .ok (some first.1, some second.1) := rfl
  rw [hkeyword, literal_gap]
  dsimp only [Except.bind]
  rw [literal_gap]

theorem identifiers_render (x : ExternalId) (e : Ending) :
    identifiers (trimStart (x.render ++ e.render)) = .ok x.ids := by
  cases x with
  | none => exact identifiers_ending e
  | system first second systemId =>
    simp only [ExternalId.render, List.append_assoc]
    rw [trimStart_gap]
    exact identifiers_system second systemId e.render
  | both first second third publicId systemId =>
    simp only [ExternalId.render, List.append_assoc]
    rw [trimStart_gap]
    exact identifiers_public second third publicId systemId e.render

/-- What follows the name begins with no character of a name. -/
theorem takeWhile_name (x : ExternalId) (e : Ending) :
    (x.render ++ e.render).takeWhile isNameChar = [] := by
  have hblank {c : Char} (h : isBlank c = true) : isNameChar c = false := by simp [isNameChar, h]
  have hgap (g : Gap) (cs : List Char) : (g.blanks ++ cs).takeWhile isNameChar = [] := by
    obtain ⟨c, blanks, hc⟩ := List.exists_cons_of_ne_nil g.nonempty
    have hfirst := hblank (g.blank c (by simp [hc]))
    rw [hc, List.cons_append, List.takeWhile_cons_of_neg (by simp [hfirst])]
  cases x with
  | system first second systemId =>
    simp only [ExternalId.render, List.append_assoc]
    exact hgap first _
  | both first second third publicId systemId =>
    simp only [ExternalId.render, List.append_assoc]
    exact hgap first _
  | none =>
    obtain ⟨blanks, blank, subset⟩ := e
    cases blanks with
    | cons c blanks => 
      have hfirst := hblank (blank c (by simp))
      simp [ExternalId.render, Ending.render, hfirst]
    | nil =>
      cases subset with
      | none => rfl
      | some content => rfl

theorem ofBody_render (w : Written) (span : Span) : ofBody span w.render = .ok (w.docType span) := by
  obtain ⟨⟨name, nonempty, plain⟩, externalId, ending⟩ := w
  obtain ⟨c, cs, rfl⟩ := List.exists_cons_of_ne_nil nonempty
  have hname : ∀ d ∈ c :: cs, isNameChar d = true := by
    intro d hd
    simp [isNameChar, plain d hd]
  have hstart := trimStart_cons (plain c (by simp)).1 (cs ++ (externalId.render ++ ending.render))
  have hend : (externalId.render ++ ending.render).dropWhile isNameChar =
      externalId.render ++ ending.render := by
    have h := List.takeWhile_append_dropWhile (p := isNameChar) (l := externalId.render ++ ending.render)
    rwa [takeWhile_name] at h
  unfold ofBody
  simp only [Written.render, List.append_assoc]
  rw [List.cons_append, hstart, ← List.cons_append, List.takeWhile_append_of_pos hname,
    List.dropWhile_append_of_pos hname, takeWhile_name, hend, identifiers_render,
    List.append_nil]
  rfl

/-! ## Reading by cuts

The same reader with places counted in bytes. There is no result at all if a cut goes wrong.
-/

abbrev Cutting := ExceptT DocTypeFault Option

def cutLiteral (cs : List Char) : Cutting (String × List Char) :=
  match trimStart cs with
  | [] => throw .noLiteral
  | quote :: after =>
    if quote = '"' ∨ quote = '\'' then do
      let body ← liftM (dropBytes? 1 (quote :: after))
      match findByte? (· == quote) body with
      | none => throw .unclosedLiteral
      | some stop =>
        let text ← liftM (takeBytes? stop body)
        let rest ← liftM (dropBytes? (stop + 1) body)
        return (String.ofList text, rest)
    else throw .noLiteral

def cutIdentifiers (cs : List Char) : Cutting (Option String × Option String) :=
  match cs with
  | [] => return (none, none)
  | '[' :: _ => return (none, none)
  | 'P' :: 'U' :: 'B' :: 'L' :: 'I' :: 'C' :: rest => do
    let (publicId, rest) ← cutLiteral rest
    let (systemId, _) ← cutLiteral rest
    return (some publicId, some systemId)
  | 'S' :: 'Y' :: 'S' :: 'T' :: 'E' :: 'M' :: rest => do
    let (systemId, _) ← cutLiteral rest
    return (none, some systemId)
  | _ => throw (.noIdentifier (String.ofList cs))

def cutBody (span : Span) (body : List Char) : Cutting DocType := do
  let body := trimStart body
  let stop := (findByte? (!isNameChar ·) body).getD (byteSize body)
  let name ← liftM (takeBytes? stop body)
  if name.isEmpty then throw .missingRootName
  let after ← liftM (dropBytes? stop body)
  let (publicId, systemId) ← cutIdentifiers (trimStart after)
  return ⟨String.ofList name, publicId, systemId, span⟩

theorem cut_bind {α β : Type} {x : Option α} {a : α} (h : x = some a) (next : α → Cutting β) :
    (liftM x >>= next) = next a := by
  rw [h]
  rfl

/-- Parts that make no bad cut make up a whole that makes none. -/
theorem bind_eq_some {α β : Type} {x : Cutting α} {r : Except DocTypeFault α}
    {next : α → Cutting β} {next' : α → Except DocTypeFault β} (hx : x = some r)
    (hnext : ∀ a, next a = some (next' a)) : (x >>= next) = some (r >>= next') := by
  subst hx
  cases r with
  | error fault => rfl
  | ok a => exact hnext a

theorem byteSize_quote {quote : Char} (h : quote = '"' ∨ quote = '\'') : byteSize [quote] = 1 := by
  obtain rfl | rfl := h <;> rfl

theorem cutLiteral_eq (cs : List Char) : cutLiteral cs = some (literal cs) := by
  unfold cutLiteral literal
  cases trimStart cs with
  | nil => rfl
  | cons quote body =>
    dsimp only
    by_cases hquote : quote = '"' ∨ quote = '\''
    · have hone := byteSize_quote hquote
      have hopen : dropBytes? 1 (quote :: body) = some body := by
        rw [← hone]
        exact dropBytes?_append [quote] body
      rw [if_pos hquote, if_pos hquote, cut_bind hopen]
      obtain ⟨hdrop, hfind⟩ | ⟨c, rest, hc, hdrop, hfind⟩ := findByte?_cases (· == quote) body
      · have hdrop : body.dropWhile (· != quote) = [] := hdrop
        rw [hfind, hdrop]
        rfl
      · obtain rfl : c = quote := by simpa using hc
        have hbody := List.takeWhile_append_dropWhile (p := (· != c)) (l := body)
        have hdrop : body.dropWhile (· != c) = c :: rest := hdrop
        have hfind : findByte? (· == c) body = some (byteSize (body.takeWhile (· != c))) := hfind
        rw [hfind, hdrop]
        rw [hdrop] at hbody
        generalize body.takeWhile (· != c) = text at *
        subst hbody
        have hclose := dropBytes?_append (text ++ [c]) rest
        rw [byteSize_append, hone, List.append_assoc, List.singleton_append] at hclose
        dsimp only
        rw [cut_bind (takeBytes?_append text _), cut_bind hclose]
        rfl
    · rw [if_neg hquote, if_neg hquote]
      rfl

theorem cutIdentifiers_eq (cs : List Char) : cutIdentifiers cs = some (identifiers cs) := by
  unfold identifiers
  split
  · rfl
  · rfl
  · exact bind_eq_some (cutLiteral_eq _) fun _ => bind_eq_some (cutLiteral_eq _) fun _ => rfl
  · exact bind_eq_some (cutLiteral_eq _) fun _ => rfl
  · rename_i hempty hsubset hpublic hsystem
    unfold cutIdentifiers
    split
    · exact absurd rfl hempty
    · exact absurd rfl (hsubset _)
    · exact absurd rfl (hpublic _)
    · exact absurd rfl (hsystem _)
    · rfl

theorem cutBody_eq (span : Span) (body : List Char) :
    cutBody span body = some (ofBody span body) := by
  unfold cutBody ofBody
  dsimp only
  obtain ⟨htake, hdrop⟩ := cut_found isNameChar (trimStart body)
  rw [cut_bind htake, cut_bind hdrop]
  cases (trimStart body).takeWhile isNameChar with
  | nil => rfl
  | cons c name => exact bind_eq_some (cutIdentifiers_eq _) fun _ => rfl

/-! ## Both ways -/

/-- Whatever may be written for a document type is read as its name and its identifiers. Any other
text gives a document type or is refused for that, and no cut of the reader goes wrong. -/
theorem written_is_read (span : Span) :
    (∀ w : Written, ofBody span w.render = .ok (w.docType span)) ∧
    (∀ body, cutBody span body = some (ofBody span body)) ∧
    ∀ skipped (p : Progress) start stop body,
      let t : Token := ⟨.docType body, start, stop⟩
      (∃ d, ofBody t.span body = .ok d ∧ p.step skipped t = .ok { p with docType := some d }) ∨
        ∃ fault, p.step skipped t = .error (.badDocType fault t.span) := by
  refine ⟨fun w => ofBody_render w span, cutBody_eq span, fun skipped p start stop body => ?_⟩
  intro t
  unfold Progress.step
  dsimp only [t]
  cases ofBody (Token.span ⟨.docType body, start, stop⟩) body with
  | ok d => exact .inl ⟨d, rfl, rfl⟩
  | error fault => exact .inr ⟨fault, rfl⟩

/-- What is in quotes is no keyword, and its quotes are of the other kind. -/
example : ofBody .unknown "a PUBLIC 'SYSTEM \"b\"' \"[it's]\"[ ]".toList =
    .ok ⟨"a", some "SYSTEM \"b\"", some "[it's]", .unknown⟩ := by
  rfl

end OrbIdl.Xml.DocType
