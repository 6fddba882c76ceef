import OrbIdl.Proofs.Location.Bounds
import OrbIdl.Xml.Reader

/-! # The places of a tree, and of what keeps a text from being one -/

namespace OrbIdl

/-- All remarks are on spans that satisfy `P`. -/
def Marks (P : Span → Prop) (remarks : List Remark) : Prop :=
  ∀ r ∈ remarks, P r.span

section

variable {P : Span → Prop}

@[simp] theorem marks_nil : Marks P [] := nofun

@[simp] theorem marks_cons {r : Remark} {remarks : List Remark} :
    Marks P (r :: remarks) ↔ P r.span ∧ Marks P remarks :=
  List.forall_mem_cons

@[simp] theorem marks_withHelp {r : Remark} {label : String} :
    Marks P (r.withHelp label) ↔ P r.span := by
  simp [Remark.withHelp, Remark.help]

end

namespace Xml

/-! ## Trees -/

/-- The places of the element, of its attributes and of all below it satisfy `P`. -/
inductive Element.Spans (P : Span → Prop) : Element → Prop where
  | intro {e : Element} (span : P e.span) (attributes : ∀ a ∈ e.attributes, P a.span)
      (children : ∀ child ∈ e.children, child.Spans P) : e.Spans P

namespace Element

theorem mem_putInto {a b : Attribute} {as : List Attribute} (h : b ∈ putInto a as) :
    b = a ∨ b ∈ as := by
  induction as with
  | nil => exact Or.inl (List.mem_singleton.mp h)
  | cons c as ih =>
    rw [putInto] at h
    split at h
    · obtain rfl | h := List.mem_cons.mp h
      · exact Or.inl rfl
      · exact Or.inr (List.mem_cons_of_mem _ h)
    · obtain rfl | h := List.mem_cons.mp h
      · exact Or.inr List.mem_cons_self
      · exact (ih h).imp id (List.mem_cons_of_mem _)

namespace Spans

variable {P : Span → Prop} {e : Element}

theorem here (h : e.Spans P) : P e.span := by
  cases h
  assumption

theorem attr (h : e.Spans P) {a : Attribute} (ha : a ∈ e.attributes) : P a.span := by
  cases h with
  | intro _ hattributes _ => exact hattributes a ha

theorem child (h : e.Spans P) {child : Element} (hchild : child ∈ e.children) : child.Spans P := by
  cases h with
  | intro _ _ hchildren => exact hchildren child hchild

/-- An attribute is looked for at its place, or at that of its element. -/
theorem spanOf (h : e.Spans P) (key : String) : P (e.spanOf key) := by
  unfold Element.spanOf Element.spanOf?
  cases ha : e.attribute? key with
  | none => exact h.here
  | some a => exact h.attr (List.mem_of_find?_eq_some ha)

theorem leaf {name : String} {span : Span} (h : P span) : (Element.leaf name span).Spans P :=
  ⟨h, nofun, nofun⟩

theorem put (h : e.Spans P) {a : Attribute} (ha : P a.span) : (e.put a).Spans P := by
  refine ⟨h.here, ?_, fun child => h.child⟩
  intro b hb
  obtain rfl | hb := mem_putInto hb
  · exact ha
  · exact h.attr hb

theorem addChild (h : e.Spans P) {child : Element} (hchild : child.Spans P) :
    (e.addChild child).Spans P := by
  refine ⟨h.here, fun a => h.attr, ?_⟩
  intro c hc
  obtain hc | hc := List.mem_append.mp hc
  · exact h.child hc
  · rw [List.mem_singleton.mp hc]
    exact hchild

theorem addText (h : e.Spans P) (text : String) : (e.addText text).Spans P :=
  ⟨h.here, fun _ => h.attr, fun _ => h.child⟩

theorem extend {n : Nat} (h : e.Spans (Span.Fits n)) {span : Span} (hspan : span.Fits n) :
    (e.extend span).Spans (Span.Fits n) :=
  ⟨h.here.merge hspan, fun _ => h.attr, fun _ => h.child⟩

end Spans

end Element

/-! ## Tags -/

section

variable {n : Nat} {tag : TagText} {span : Span}

/-- An error of the reader that is reported within the first `n` bytes. -/
abbrev ReadError.Fits (n : Nat) (e : ReadError) : Prop :=
  Marks (Span.Fits n) e.remarks

theorem malformed_fits {fault : SyntaxFault} (h : span.Fits n) :
    (ReadError.malformed fault span).Fits n :=
  marks_cons.mpr ⟨h, marks_nil⟩

theorem attributeSpan_fits (htag : tag.origin + Text.byteSize tag.content ≤ n) {a : RawAttribute}
    (ha : a.EndsBy (Text.byteSize tag.content)) : (tag.attributeSpan a).Fits n := by
  obtain ⟨hkey, hvalue⟩ := ha
  unfold RawAttribute.valueStop at hvalue
  exact (Span.fits_ofBytes (by omega)).merge (Span.fits_ofBytes (by omega))

theorem addAttribute_ends (htag : tag.origin + Text.byteSize tag.content ≤ n) {a : RawAttribute}
    (ha : a.EndsBy (Text.byteSize tag.content)) {e : Element} (he : e.Spans (Span.Fits n)) :
    Ends (ReadError.Fits n) (Element.Spans (Span.Fits n)) (addAttribute tag e a) := by
  have hspan := attributeSpan_fits htag ha
  unfold addAttribute
  split
  · exact .ok (he.put hspan)
  · exact .error (malformed_fits hspan)

theorem elementOf_ends (htag : tag.origin + Text.byteSize tag.content ≤ n) (hspan : span.Fits n) :
    Ends (ReadError.Fits n) (Element.Spans (Span.Fits n)) (elementOf tag span) := by
  unfold elementOf
  split
  · exact .error (malformed_fits hspan)
  · refine .bind (Q := Element.Spans (Span.Fits n)) (.foldlM (.leaf hspan) ?_) fun e he => ?_
    · intro e he a ha
      exact addAttribute_ends htag (attributes_endsBy true tag.content a ha) he
    · split
      · exact .ok he
      · exact .error (malformed_fits hspan)

theorem mem_of_declaredVersion {r : Reading AttributeFault RawAttribute} {a : RawAttribute}
    (h : declaredVersion r = .ok a) : a ∈ r.items := by
  unfold declaredVersion at h
  split at h
  · rename_i b rest _ hitems
    split at h <;> cases h
    rw [hitems]
    exact List.mem_cons_self
  · cases h
  · cases h

theorem mem_of_declaredEncoding {r : Reading AttributeFault RawAttribute} {a : RawAttribute}
    (h : declaredEncoding r = .ok (some a)) : a ∈ r.items := by
  unfold declaredEncoding at h
  split at h
  · rename_i hfind
    cases h
    exact List.mem_of_find?_eq_some hfind
  · cases h
  · cases h

theorem checkDeclaration_fails (htag : tag.origin + Text.byteSize tag.content ≤ n)
    (hspan : span.Fits n) : FailsOnly (ReadError.Fits n) (checkDeclaration tag span) := by
  have hvalue (a : RawAttribute) (ha : a ∈ (attributes false tag.content).items) :
      (Span.ofBytes (tag.origin + a.valueStart) (Text.byteSize a.value)).Fits n := by
    have hend := (attributes_endsBy false tag.content a ha).value_le
    unfold RawAttribute.valueStop at hend
    exact Span.fits_ofBytes (by omega)
  unfold checkDeclaration
  dsimp only
  split
  · exact .error (malformed_fits hspan)
  · rename_i version hversion
    refine .guard ?_ ?_
    · exact marks_withHelp.mpr (hvalue version (mem_of_declaredVersion hversion))
    · split
      · exact .error (malformed_fits hspan)
      · exact .ok ()
      · rename_i encoding hencoding
        split
        · exact .error (marks_withHelp.mpr (hvalue encoding (mem_of_declaredEncoding hencoding)))
        · exact .ok ()

end

/-! ## Progress -/

theorem span_of_ofBody {span : Span} {body : List Char} {docType : DocType}
    (h : DocType.ofBody span body = .ok docType) : docType.span = span := by
  unfold DocType.ofBody at h
  dsimp only at h
  split at h
  · cases h
  · obtain ⟨_, _, h⟩ := bind_eq_ok_iff.mp h
    cases h
    rfl

/-- All of a document is placed within the first `n` bytes. -/
structure Document.Fits (n : Nat) (d : Document) : Prop where
  root : d.root.Spans (Span.Fits n)
  docType : ∀ docType, d.docType = some docType → docType.span.Fits n

namespace Progress

variable {n : Nat} {p : Progress}

/-- All that has been read is placed within the first `n` bytes. -/
structure Fits (n : Nat) (p : Progress) : Prop where
  opened : ∀ e ∈ p.opened, e.Spans (Span.Fits n)
  root : ∀ e, p.root = some e → e.Spans (Span.Fits n)
  docType : ∀ d, p.docType = some d → d.span.Fits n

theorem Fits.attach (hp : p.Fits n) {e : Element} (he : e.Spans (Span.Fits n)) :
    Ends (ReadError.Fits n) (Fits n) (p.attach e) := by
  obtain ⟨opened, root, docType⟩ := p
  unfold Progress.attach
  cases opened with
  | cons parent rest =>
    obtain ⟨hparent, hrest⟩ := List.forall_mem_cons.mp hp.opened
    exact .ok ⟨List.forall_mem_cons.mpr ⟨hparent.addChild he, hrest⟩, hp.root, hp.docType⟩
  | nil =>
    cases root with
    | some first =>
      exact .error (marks_cons.mpr ⟨(hp.root first rfl).here, marks_cons.mpr ⟨he.here, marks_nil⟩⟩)
    | none =>
      refine .ok ⟨nofun, ?_, hp.docType⟩
      rintro _ ⟨⟩
      exact he

theorem Fits.addText (hp : p.Fits n) (text : List Char) {span : Span} (hspan : span.Fits n) :
    Ends (ReadError.Fits n) (Fits n) (p.addText text span) := by
  obtain ⟨opened, root, docType⟩ := p
  unfold Progress.addText
  cases opened with
  | cons parent rest =>
    obtain ⟨hparent, hrest⟩ := List.forall_mem_cons.mp hp.opened
    exact .ok ⟨List.forall_mem_cons.mpr ⟨hparent.addText _, hrest⟩, hp.root, hp.docType⟩
  | nil =>
    dsimp only
    split
    · exact .ok hp
    · exact .error (marks_cons.mpr ⟨hspan, marks_nil⟩)

theorem Fits.begin (hp : p.Fits n) {tag : TagText} {span : Span}
    (htag : tag.origin + Text.byteSize tag.content ≤ n) (hspan : span.Fits n) :
    Ends (ReadError.Fits n) (Fits n) (p.begin tag span) := by
  unfold Progress.begin
  split
  · rename_i first _ hroot
    exact .error (marks_cons.mpr ⟨(hp.root first hroot).here, marks_cons.mpr ⟨hspan, marks_nil⟩⟩)
  · refine .bind (elementOf_ends htag hspan) fun e he => .ok ⟨?_, hp.root, hp.docType⟩
    exact List.forall_mem_cons.mpr ⟨he, hp.opened⟩

theorem Fits.close (hp : p.Fits n) (name : String) {span : Span} (hspan : span.Fits n) :
    Ends (ReadError.Fits n) (Fits n) (p.close name span) := by
  obtain ⟨opened, root, docType⟩ := p
  unfold Progress.close
  cases opened with
  | nil => exact .error (malformed_fits hspan)
  | cons e rest =>
    dsimp only
    split
    · obtain ⟨he, hrest⟩ := List.forall_mem_cons.mp hp.opened
      have houter : Fits n ⟨rest, root, docType⟩ := ⟨hrest, hp.root, hp.docType⟩
      exact houter.attach (he.extend hspan)
    · exact .error (malformed_fits hspan)

/-- One token leaves everything in place. The places of its attributes count the bytes that were
skipped, those of the token itself do not. -/
theorem Fits.step {m skipped : Nat} (hn : skipped + m ≤ n) (hp : p.Fits n) {t : Token}
    (ht : t.EndsBy m) : Ends (ReadError.Fits n) (Fits n) (p.step skipped t) := by
  have hspan : t.span.Fits n := (ht.mono (by omega)).fits
  have htag (lead : Nat) (content : List Char) (h : t.markup.tagText? = some (lead, content)) :
      skipped + t.start + lead + Text.byteSize content ≤ n := by
    have hlead := ht.tagText_le lead content h
    have hstop := ht.stop_le
    omega
  obtain ⟨markup, start, stop⟩ := t
  unfold Progress.step
  cases markup with
  | text raw =>
    dsimp only
    split
    · exact hp.addText _ hspan
    · exact .error (malformed_fits hspan)
  | characterData text => exact hp.addText text hspan
  | docType body =>
    dsimp only
    split
    · rename_i docType hdocType
      refine .ok ⟨hp.opened, hp.root, ?_⟩
      rintro _ ⟨⟩
      rw [span_of_ofBody hdocType]
      exact hspan
    · exact .error (marks_cons.mpr ⟨hspan, marks_nil⟩)
  | declaration content =>
    refine .bind_failsOnly (checkDeclaration_fails (htag 2 content rfl) hspan) fun _ => .ok hp
  | opening content => exact hp.begin (htag 1 content rfl) hspan
  | selfClosed content =>
    exact .bind (elementOf_ends (htag 1 content rfl) hspan) fun e he => hp.attach he
  | closing name => exact hp.close _ hspan
  | comment => exact .ok hp
  | instruction => exact .ok hp

theorem Fits.finish (hp : p.Fits n) :
    Ends (ReadError.Fits n) (Document.Fits n) p.finish := by
  unfold Progress.finish
  split
  · rename_i e rest hopened
    have he := hp.opened e (by rw [hopened]; exact List.mem_cons_self)
    exact .error (marks_cons.mpr ⟨he.here, marks_nil⟩)
  · rename_i root _ hroot
    exact .ok ⟨hp.root root hroot, hp.docType⟩
  · exact .error marks_nil

end Progress

/-! ## Documents -/

theorem Document.ofTokens_ends {m n skipped : Nat} (hn : skipped + m ≤ n)
    {r : Reading Misplaced Token} (hr : r.All (Token.EndsBy m) (Misplaced.EndsBy m)) :
    Ends (ReadError.Fits n) (Document.Fits n) (Document.ofTokens skipped r) := by
  unfold ofTokens
  refine .bind (Q := Progress.Fits n) (.foldlM ⟨nofun, nofun, nofun⟩ ?_) fun p hp => ?_
  · exact fun p hp t ht => hp.step hn (hr.items t ht)
  · split
    · exact hp.finish
    · rename_i misplaced hfault
      obtain ⟨hstart, hstop⟩ := hr.fault misplaced hfault
      exact .error (malformed_fits (Span.fits_ofInterval (by omega) (by omega)))

/-- A text is read as a document all of whose places lie in it, or refused at a place in it. -/
theorem Document.read_ends (source : String) :
    Ends (ReadError.Fits (Text.byteSize source.toList))
      (Document.Fits (Text.byteSize source.toList)) (Document.read source) := by
  unfold read
  split
  · rename_i rest hsource
    have hmark : '\uFEFF'.utf8Size = 3 := by decide
    rw [hsource, Text.byteSize_cons, hmark]
    have htokens := tokens_endsBy 0 rest
    exact ofTokens_ends (Nat.le_of_eq (by omega)) htokens
  · have htokens := tokens_endsBy 0 source.toList
    exact ofTokens_ends (Nat.le_of_eq (by omega)) htokens

end Xml

end OrbIdl
