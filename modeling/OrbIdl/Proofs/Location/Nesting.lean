import OrbIdl.Proofs.Conformance.Tree
import OrbIdl.Proofs.Location.Sequence
import OrbIdl.Proofs.Location.Tree
import OrbIdl.Proofs.Reading.Outline

/-!
# Spans inside spans

An element that is still open reaches only to the end of its opening tag, while what it holds is
placed behind that tag. The element is widened to the closing tag before the element around it
takes it in, so that a finished element covers all that it holds.
-/

namespace OrbIdl

/-! ## Spans -/

namespace Span

/-- `a` begins before `b` and ends where `b` begins or earlier. -/
def Precedes (a b : Span) : Prop :=
  a.offset < b.offset ∧ a.stop ≤ b.offset

variable {a b c : Span}

theorem Within.refl (a : Span) : a.Within a :=
  ⟨UInt32.le_refl _, UInt32.le_refl _⟩

theorem Within.trans (hab : a.Within b) (hbc : b.Within c) : a.Within c :=
  ⟨UInt32.le_trans hbc.1 hab.1, UInt32.le_trans hab.2 hbc.2⟩

theorem within_iff : a.Within b ↔
    b.offset.toNat ≤ a.offset.toNat ∧ a.stop.toNat ≤ b.stop.toNat := by
  rw [Within, UInt32.le_iff_toNat_le, UInt32.le_iff_toNat_le]

theorem precedes_iff : a.Precedes b ↔
    a.offset.toNat < b.offset.toNat ∧ a.stop.toNat ≤ b.offset.toNat := by
  rw [Precedes, UInt32.lt_iff_toNat_lt, UInt32.le_iff_toNat_le]

theorem toNat_stop_merge (a b : Span) :
    (a.merge b).stop.toNat = max a.stop.toNat b.stop.toNat := by
  have hoffset := a.offset_le_stop
  have hstopA := a.stop.toNat_lt
  have hstopB := b.stop.toNat_lt
  rw [toNat_stop, toNat_offset_merge, toNat_length_merge]
  simp only [UInt32.size]
  omega

end Span

namespace Xml

/-! ## What a finished element covers -/

/-- The element covers its attributes and children, and its children come one after the other. -/
structure Element.Encloses (e : Element) : Prop where
  attributes : ∀ a ∈ e.attributes, a.span.Within e.span
  children : ∀ child ∈ e.children, child.span.Within e.span
  order : e.children.Pairwise (·.span.Precedes ·.span)

/-- So it is for the element and for all below it. -/
inductive Element.Nested : Element → Prop where
  | intro {e : Element} (here : e.Encloses) (children : ∀ child ∈ e.children, child.Nested) :
      e.Nested

namespace Element.Nested

variable {e : Element}

theorem here (h : e.Nested) : e.Encloses := by
  cases h
  assumption

theorem child (h : e.Nested) {child : Element} (hchild : child ∈ e.children) : child.Nested := by
  cases h with
  | intro _ hchildren => exact hchildren child hchild

/-- What covers the element covers all that it holds. -/
theorem spans_within (h : e.Nested) {s : Span} (hs : e.span.Within s) : e.Spans (·.Within s) := by
  induction h with
  | intro here _ ih =>
    refine ⟨hs, fun a ha => (here.attributes a ha).trans hs, fun child hchild => ?_⟩
    exact ih child hchild ((here.children child hchild).trans hs)

theorem under {root : Element} {path : List Nat} (hroot : root.Nested)
    (h : root.Under (fun _ => True) path e) : e.Nested := by
  induction h with
  | root e => exact hroot
  | child _ hi _ ih => exact ih (hroot.child (List.mem_of_getElem? hi))

end Element.Nested

/-! ## The element of a tag -/

theorem bound_attributeSpan {tag : TagText} {a : RawAttribute}
    (hsize : tag.origin + Text.byteSize tag.content < UInt32.size)
    (ha : a.Quoted (Text.byteSize tag.content)) :
    tag.origin ≤ (tag.attributeSpan a).offset.toNat ∧
      (tag.attributeSpan a).stop.toNat < tag.origin + Text.byteSize tag.content := by
  obtain ⟨hkey, hvalue⟩ := ha
  unfold RawAttribute.valueStop at hvalue
  rw [TagText.attributeSpan, Span.toNat_offset_merge, Span.toNat_stop_merge,
    Span.toNat_offset_ofBytes (by omega), Span.toNat_offset_ofBytes (by omega),
    Span.toNat_stop_ofBytes (by omega), Span.toNat_stop_ofBytes (by omega)]
  omega

/-- The element of a tag has the place that it is given, and the attributes of the tag. -/
theorem spans_of_elementOf {tag : TagText} {span : Span} {e : Element}
    (h : elementOf tag span = .ok e) :
    e.span = span ∧ ∀ a ∈ e.attributes,
      ∃ b ∈ (attributes true tag.content).items, a.span = tag.attributeSpan b := by
  unfold elementOf at h
  split at h
  · cases h
  obtain ⟨e', he', h⟩ := bind_eq_ok_iff.mp h
  have hspans : e'.span = span ∧ ∀ a ∈ e'.attributes,
      ∃ b ∈ (attributes true tag.content).items, a.span = tag.attributeSpan b := by
    refine foldlM_invariant (fun done e => e.span = span ∧
      ∀ a ∈ e.attributes, ∃ b ∈ done, a.span = tag.attributeSpan b) ⟨rfl, nofun⟩ ?_ he'
    intro done e b e' he hadd
    unfold addAttribute at hadd
    dsimp only at hadd
    split at hadd <;> cases hadd
    refine ⟨he.1, fun a ha => ?_⟩
    obtain rfl | ha := Element.mem_putInto ha
    · exact ⟨b, by simp, rfl⟩
    · obtain ⟨b', hb', hspan⟩ := he.2 a ha
      exact ⟨b', List.mem_append_left _ hb', hspan⟩
  split at h
  · cases h
    exact hspans
  · cases h

theorem span_of_elementOf {tag : TagText} {span : Span} {e : Element}
    (h : elementOf tag span = .ok e) : e.span = span :=
  (spans_of_elementOf h).1

/-- The attributes lie in the text of the tag, with a byte left at its end. -/
theorem bound_of_elementOf {tag : TagText} {span : Span} {e : Element}
    (hsize : tag.origin + Text.byteSize tag.content < UInt32.size) (h : elementOf tag span = .ok e)
    {a : Attribute} (ha : a ∈ e.attributes) :
    tag.origin ≤ a.span.offset.toNat ∧
      a.span.stop.toNat < tag.origin + Text.byteSize tag.content := by
  obtain ⟨b, hb, hspan⟩ := (spans_of_elementOf h).2 a ha
  rw [hspan]
  exact bound_attributeSpan hsize (attributes_quoted true tag.content b hb)

namespace Token.Follows

variable {n : Nat} {t : Token}

theorem stop_ge (h : t.Follows n) : n ≤ t.stop :=
  Nat.le_trans (Nat.le_add_right _ _) h.room

theorem offset_span (h : t.Follows n) (hsize : t.stop < UInt32.size) : t.span.offset.toNat = n := by
  have hstop := h.stop_ge
  rw [Token.span, h.start_eq, Span.toNat_offset_ofInterval (by omega) (by omega)]

theorem stop_span (h : t.Follows n) (hsize : t.stop < UInt32.size) :
    t.span.stop.toNat = t.stop := by
  have hstop := h.stop_ge
  rw [Token.span, h.start_eq, Span.toNat_stop_ofInterval (by omega) (by omega)]

end Token.Follows

/-! ## Elements still open -/

/-- The tokens before byte `n` are read, and the element is open. Its own place is behind all that
came before it; its attributes may lie one byte beyond, as their places count a byte order mark. -/
structure Element.OpenAt (n : Nat) (e : Element) : Prop where
  begins : e.span.offset.toNat < n
  ends : e.span.stop.toNat ≤ n
  attributes : ∀ a ∈ e.attributes,
    e.span.offset.toNat ≤ a.span.offset.toNat ∧ a.span.stop.toNat ≤ n + 1
  children : ∀ child ∈ e.children, child.Nested ∧ e.span.offset.toNat ≤ child.span.offset.toNat ∧
    child.span.offset.toNat < n ∧ child.span.stop.toNat ≤ n
  order : e.children.Pairwise (·.span.Precedes ·.span)

namespace Element.OpenAt

variable {n m : Nat} {e : Element}

theorem mono (h : e.OpenAt n) (hnm : n ≤ m) : e.OpenAt m where
  begins := Nat.lt_of_lt_of_le h.begins hnm
  ends := Nat.le_trans h.ends hnm
  attributes a ha := by
    obtain ⟨hoffset, hstop⟩ := h.attributes a ha
    exact ⟨hoffset, by omega⟩
  children child hchild := by
    obtain ⟨hnested, hoffset, hbegin, hend⟩ := h.children child hchild
    exact ⟨hnested, hoffset, by omega, by omega⟩
  order := h.order

theorem addText (h : e.OpenAt n) (text : String) : (e.addText text).OpenAt n :=
  ⟨h.begins, h.ends, h.attributes, h.children, h.order⟩

/-- A finished child that lies between the bytes `n` and `m` is the last one. -/
theorem addChild (h : e.OpenAt n) {child : Element} (hchild : child.Nested)
    (hbegin : n ≤ child.span.offset.toNat) (hnonempty : child.span.offset.toNat < m)
    (hend : child.span.stop.toNat ≤ m) : (e.addChild child).OpenAt m := by
  have hwide := h.mono (show n ≤ m by omega)
  refine ⟨hwide.begins, hwide.ends, hwide.attributes, ?_, ?_⟩
  · intro c hc
    obtain hc | hc := List.mem_append.mp hc
    · exact hwide.children c hc
    · rw [List.mem_singleton.mp hc]
      have hparent := h.begins
      exact ⟨hchild, show e.span.offset.toNat ≤ _ by omega, hnonempty, hend⟩
  · refine List.pairwise_append.mpr ⟨h.order, List.pairwise_singleton _ _, ?_⟩
    intro first hfirst last hlast
    rw [List.mem_singleton.mp hlast, Span.precedes_iff]
    obtain ⟨_, _, hbefore, hstop⟩ := h.children first hfirst
    omega

/-- The closing tag, of three bytes or more, makes up for the byte order mark. -/
theorem extend (h : e.OpenAt n) {span : Span} (hoffset : span.offset.toNat = n)
    (hstop : n + 3 ≤ span.stop.toNat) :
    (e.extend span).Nested ∧ (e.extend span).span.offset.toNat = e.span.offset.toNat ∧
      (e.extend span).span.stop.toNat = span.stop.toNat := by
  have hbegins := h.begins
  have hends := h.ends
  have hfirst : (e.extend span).span.offset.toNat = e.span.offset.toNat := by
    rw [Element.extend, Span.toNat_offset_merge]
    omega
  have hlast : (e.extend span).span.stop.toNat = span.stop.toNat := by
    rw [Element.extend, Span.toNat_stop_merge]
    omega
  refine ⟨⟨⟨fun a ha => ?_, fun child hchild => ?_, h.order⟩, ?_⟩, hfirst, hlast⟩
  · obtain ⟨hleft, hright⟩ := h.attributes a ha
    rw [Span.within_iff, hfirst, hlast]
    omega
  · obtain ⟨_, hleft, _, hright⟩ := h.children child hchild
    rw [Span.within_iff, hfirst, hlast]
    omega
  · exact fun child hchild => (h.children child hchild).1

end Element.OpenAt

/-- The elements still open, the innermost first: each was opened when the ones around it had taken
in all that comes before it. -/
inductive OpenStack : Nat → List Element → Prop where
  | nil (n : Nat) : OpenStack n []
  | cons {n : Nat} {e : Element} {outer : List Element} (he : e.OpenAt n)
      (houter : OpenStack e.span.offset.toNat outer) : OpenStack n (e :: outer)

theorem OpenStack.mono {n m : Nat} {es : List Element} (h : OpenStack n es) (hnm : n ≤ m) :
    OpenStack m es := by
  cases h with
  | nil => exact .nil m
  | cons he houter => exact .cons (he.mono hnm) houter

variable {skipped n m : Nat} {t : Token} {e : Element}

/-! ## One token -/

/-- A token that has an element has room for the text of a tag and its brackets, and for a slash if
nothing is open behind it. -/
theorem Token.elementOf_of_element? (h : t.element? skipped = some e) :
    ∃ content, elementOf ⟨content, skipped + t.start + 1⟩ t.span = .ok e ∧
      Text.byteSize content + 2 ≤ t.markup.leastSize ∧
      ((∀ depth, t.depthAfter depth = depth) →
        Text.byteSize content + 3 ≤ t.markup.leastSize) := by
  obtain ⟨markup, start, stop⟩ := t
  cases markup with
  | opening content =>
    refine ⟨content, toOption_eq_some_iff.mp h, Nat.le_refl _, fun hdepth => ?_⟩
    cases hdepth 0
  | selfClosed content =>
    exact ⟨content, toOption_eq_some_iff.mp h, Nat.le_succ _, fun _ => Nat.le_refl _⟩
  | _ => cases h

theorem Token.leastSize_of_closing (h : ∀ depth, t.depthAfter depth = depth - 1) :
    t.markup.leastSize = 3 := by
  obtain ⟨markup, start, stop⟩ := t
  cases markup with
  | closing name => rfl
  | _ => cases h 1

/-- An element is open behind its tag. -/
theorem openAt_of_elementOf {content : List Char} (hskipped : skipped ≤ 3) (ht : t.Follows n)
    (hroom : n + Text.byteSize content + 2 ≤ t.stop) (hsize : skipped + t.stop < UInt32.size)
    (h : elementOf ⟨content, skipped + t.start + 1⟩ t.span = .ok e) : e.OpenAt t.stop := by
  have hoffset := ht.offset_span (by omega)
  have hstop := ht.stop_span (by omega)
  have hstart := ht.start_eq
  have hspan := span_of_elementOf h
  obtain ⟨-, -, hchildren⟩ := elementOf_eq_ok h
  refine ⟨?_, ?_, fun a ha => ?_, ?_, ?_⟩
  · rw [hspan]
    omega
  · rw [hspan]
    omega
  · have hplace := bound_of_elementOf (by dsimp only; omega) h ha
    dsimp only at hplace
    rw [hspan]
    omega
  · simp [hchildren]
  · simp [hchildren]

/-- A tag that is closed at once covers its attributes, as it has one byte more. -/
theorem nested_of_elementOf {content : List Char} (hskipped : skipped ≤ 3) (ht : t.Follows n)
    (hroom : n + Text.byteSize content + 3 ≤ t.stop) (hsize : skipped + t.stop < UInt32.size)
    (h : elementOf ⟨content, skipped + t.start + 1⟩ t.span = .ok e) : e.Nested := by
  have hoffset := ht.offset_span (by omega)
  have hstop := ht.stop_span (by omega)
  have hstart := ht.start_eq
  have hspan := span_of_elementOf h
  obtain ⟨-, -, hchildren⟩ := elementOf_eq_ok h
  refine ⟨⟨fun a ha => ?_, ?_, ?_⟩, ?_⟩
  · have hplace := bound_of_elementOf (by dsimp only; omega) h ha
    dsimp only at hplace
    rw [hspan, Span.within_iff]
    omega
  all_goals simp [hchildren]

namespace Progress

variable {p p' : Progress}

/-- The tokens before byte `n` are read. -/
structure NestedAt (n : Nat) (p : Progress) : Prop where
  opened : OpenStack n p.opened
  root : ∀ e, p.root = some e → e.Nested

/-- A finished element lies behind all that the one around it has taken in. -/
theorem NestedAt.attach (hp : p.NestedAt n) (he : e.Nested)
    (hbegin : n ≤ e.span.offset.toNat) (hnonempty : e.span.offset.toNat < m)
    (hend : e.span.stop.toNat ≤ m) (h : p.attach e = .ok p') : p'.NestedAt m := by
  obtain ⟨opened, root, docType⟩ := p
  unfold Progress.attach at h
  cases opened with
  | cons parent outer =>
    cases h
    obtain _ | ⟨hparent, houter⟩ := hp.opened
    exact ⟨.cons (hparent.addChild he hbegin hnonempty hend) houter, hp.root⟩
  | nil =>
    cases root with
    | some first => cases h
    | none =>
      cases h
      refine ⟨.nil m, ?_⟩
      rintro _ ⟨⟩
      exact he

/-- One token leaves everything nested. -/
theorem NestedAt.step (hskipped : skipped ≤ 3) (hp : p.NestedAt n) (ht : t.Follows n)
    (hsize : skipped + t.stop < UInt32.size) (h : p.step skipped t = .ok p') :
    p'.NestedAt t.stop := by
  have hoffset := ht.offset_span (by omega)
  have hstop := ht.stop_span (by omega)
  have hroom := ht.room
  cases takes_of_step h with
  | pass => exact ⟨hp.opened.mono ht.stop_ge, hp.root⟩
  | @text parent outer hopened =>
    have hparent := hp.opened
    rw [hopened] at hparent
    obtain _ | ⟨hparent, houter⟩ := hparent
    exact ⟨.cons ((hparent.addText _).mono ht.stop_ge) houter, hp.root⟩
  | @opening e htag =>
    obtain ⟨content, he, hsmall, -⟩ := Token.elementOf_of_element? htag
    have hopen := openAt_of_elementOf hskipped ht (by omega) hsize he
    refine ⟨.cons hopen ?_, hp.root⟩
    rw [span_of_elementOf he, hoffset]
    exact hp.opened
  | selfClosed htag hdepth _ _ _ h =>
    obtain ⟨content, he, -, hlarge⟩ := Token.elementOf_of_element? htag
    have hlarge := hlarge hdepth
    have hnested := nested_of_elementOf hskipped ht (by omega) hsize he
    have hspan := span_of_elementOf he
    refine hp.attach hnested ?_ ?_ ?_ h
    all_goals
      rw [hspan]
      omega
  | @closing e outer p' hopened _ hdepth _ _ h =>
    have hclosing := Token.leastSize_of_closing hdepth
    have hstack := hp.opened
    rw [hopened] at hstack
    obtain _ | ⟨he, houter⟩ := hstack
    obtain ⟨hnested, hbegin, hend⟩ := he.extend hoffset (by omega)
    have hbegins := he.begins
    have houter : NestedAt e.span.offset.toNat { p with opened := outer } := ⟨houter, hp.root⟩
    exact houter.attach hnested (by omega) (by omega) (by omega) h

/-- So do all of them in a row. -/
theorem NestedAt.run {ts : List Token} (hskipped : skipped ≤ 3) (hts : Consecutive n ts)
    (hsize : ∀ t ∈ ts, skipped + t.stop < UInt32.size) (hp : p.NestedAt n)
    (h : ts.foldlM (Progress.step skipped) p = .ok p') : ∃ m, p'.NestedAt m := by
  induction hts generalizing p with
  | nil n =>
    cases h
    exact ⟨n, hp⟩
  | cons ht _ ih =>
    rw [List.foldlM_cons] at h
    obtain ⟨p'', hstep, h⟩ := bind_eq_ok_iff.mp h
    obtain ⟨hfirst, hrest⟩ := List.forall_mem_cons.mp hsize
    exact ih hrest (hp.step hskipped ht hfirst hstep) h

end Progress

/-! ## Documents -/

theorem Document.nested_of_ofTokens {r : Reading Misplaced Token} {d : Document}
    (hskipped : skipped ≤ 3) (htokens : Consecutive 0 r.items)
    (hends : ∀ t ∈ r.items, t.EndsBy m) (hsize : skipped + m < UInt32.size)
    (h : Document.ofTokens skipped r = .ok d) : d.root.Nested := by
  obtain ⟨p, hp, h⟩ := bind_eq_ok_iff.mp h
  split at h
  · have hfits (t) (ht : t ∈ r.items) : skipped + t.stop < UInt32.size := by
      have hstop := (hends t ht).stop_le
      omega
    have hempty : Progress.NestedAt 0 {} := ⟨.nil 0, nofun⟩
    obtain ⟨_, hnested⟩ := hempty.run hskipped htokens hfits hp
    exact hnested.root d.root (Progress.of_finish h).2
  · cases h

theorem Document.nested_of_read {source : String} {d : Document}
    (hsize : Text.byteSize source.toList < UInt32.size) (h : Document.read source = .ok d) :
    d.root.Nested := by
  unfold read at h
  split at h
  · rename_i rest hsource
    have hmark : '\uFEFF'.utf8Size = 3 := by decide
    rw [hsource, Text.byteSize_cons, hmark] at hsize
    exact nested_of_ofTokens (Nat.le_refl 3) (tokens_consecutive 0 rest)
      (tokens_endsBy 0 rest).items (by omega) h
  · exact nested_of_ofTokens (Nat.zero_le 3) (tokens_consecutive 0 _) (tokens_endsBy 0 _).items
      (by omega) h

end Xml

end OrbIdl
