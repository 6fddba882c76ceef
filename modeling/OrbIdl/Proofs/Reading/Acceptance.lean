import OrbIdl.Proofs.Reading.Outline

/-!
# Which tokens make a document

The reader is a machine with a stack. What it takes can be said without it: tags that match, one
element outside of all others, and no text there.
-/

namespace OrbIdl.Xml

/-! ## What is required of tokens -/

namespace Token

/-- Nothing is wrong with the token itself, whatever is around it. -/
def isInOrder (skipped : Nat) (t : Token) : Bool :=
  match t.markup with
  | .text raw => (resolve raw).isOk
  | .docType body => (DocType.ofBody t.span body).isOk
  | .declaration content => (checkDeclaration ⟨content, skipped + t.start + 2⟩ t.span).isOk
  | .opening content | .selfClosed content =>
    (elementOf ⟨content, skipped + t.start + 1⟩ t.span).isOk
  | .characterData _ | .closing _ | .comment | .instruction => true

/-- A comment or an instruction. -/
def isAside (t : Token) : Bool :=
  t.markup = .comment ∨ t.markup = .instruction

end Token

/-- Text outside of all elements is blank. -/
def BlankOutside (tokens : List (Nat × Token)) : Prop :=
  ∀ x ∈ tokens, x.1 = 0 → x.2.characters.all Text.isBlank = true

/-- How many elements are outside of all others. -/
def topLevel (entries : List Entry) : Nat :=
  entries.countP (·.depth = 0)

/-! ## Elements outside of all others -/

theorem topLevel_append (xs ys : List Entry) : topLevel (xs ++ ys) = topLevel xs + topLevel ys :=
  List.countP_append

theorem topLevel_cons_zero {x : Entry} (h : x.depth = 0) (xs : List Entry) :
    topLevel (x :: xs) = topLevel xs + 1 :=
  List.countP_cons_of_pos (by simpa using h)

mutual

theorem le_depth_of_mem_outline {depth : Nat} {x : Entry} :
    ∀ {e : Element}, x ∈ e.outline depth → depth ≤ x.depth
  | ⟨_, _, _, _, children⟩, h => by
    rw [Element.outline] at h
    obtain rfl | h := List.mem_cons.mp h
    · exact Nat.le_refl _
    · exact Nat.le_of_succ_le (le_depth_of_mem_outlineAll h)

theorem le_depth_of_mem_outlineAll {depth : Nat} {x : Entry} :
    ∀ {es : List Element}, x ∈ outlineAll depth es → depth ≤ x.depth
  | [], h => by cases h
  | e :: es, h => by
    rw [outlineAll] at h
    obtain h | h := List.mem_append.mp h
    · exact le_depth_of_mem_outline h
    · exact le_depth_of_mem_outlineAll h

end

@[simp] theorem topLevel_outline (e : Element) : topLevel (e.outline 0) = 1 := by
  have hinside : topLevel (outlineAll 1 e.children) = 0 := by
    refine List.countP_eq_zero.mpr fun x hx => ?_
    have hdepth := le_depth_of_mem_outlineAll hx
    simp only [decide_eq_true_eq]
    omega
  rw [Element.outline_eq, topLevel_cons_zero rfl, hinside]

/-! ## Which tokens are taken -/

namespace Progress

variable {skipped : Nat} {p p' : Progress} {t : Token}

theorem topLevel_openOutline_pos (rest : List (Nat × Token)) {opened : List Element}
    (h : opened ≠ []) : 0 < topLevel (openOutline rest opened) := by
  induction opened with
  | nil => exact absurd rfl h
  | cons e outer ih =>
    rw [openOutline, topLevel_append]
    cases outer with
    | nil => rw [topLevel_cons_zero rfl]; omega
    | cons parent outer =>
      have := ih (List.cons_ne_nil _ _)
      omega

theorem root_eq_none_of_topLevel {rest : List (Nat × Token)} {after : List Entry}
    (h : topLevel (p.outline rest ++ after) = 1)
    (hmore : 0 < topLevel (openOutline rest p.opened) + topLevel after) : p.root = none := by
  unfold outline at h
  cases hroot : p.root with
  | none => rfl
  | some root =>
    simp only [hroot, Option.toList_some, List.flatMap_singleton, topLevel_append,
      topLevel_outline] at h
    omega

theorem Takes.openAfter (h : Takes skipped p t p') :
    t.openAfter (p.opened.map (·.name)) = some (p'.opened.map (·.name)) := by
  cases h with
  | pass _ _ _ hopen => exact hopen _
  | text hopened _ _ hopen =>
    rw [hopen, hopened]
    rfl
  | opening _ _ hopen => exact hopen _
  | selfClosed _ _ hopen _ _ h => rw [hopen, names_opened_of_attach h]
  | closing hopened _ _ hopen _ h =>
    rw [hopened, List.map_cons, hopen, names_opened_of_attach h]

theorem Takes.blank (h : Takes skipped p t p') (hopened : p.opened = []) :
    t.characters.all Text.isBlank = true := by
  cases h with
  | pass _ _ _ _ htext => exact htext
  | text hparent =>
    rw [hopened] at hparent
    cases hparent
  | opening _ _ _ htext => rw [htext]; rfl
  | selfClosed _ _ _ htext => rw [htext]; rfl
  | closing _ _ _ _ htext => rw [htext]; rfl

theorem exists_addText (text : List Char) (span : Span)
    (h : p.opened = [] → text.all Text.isBlank = true) : ∃ p', p.addText text span = .ok p' := by
  unfold addText
  split
  · exact ⟨_, rfl⟩
  · rename_i hopened
    rw [if_pos (h hopened)]
    exact ⟨_, rfl⟩

theorem exists_attach (e : Element) (h : p.opened = [] → p.root = none) :
    ∃ p', p.attach e = .ok p' := by
  unfold attach
  split
  · exact ⟨_, rfl⟩
  · rename_i hopened hroot
    rw [h hopened] at hroot
    cases hroot
  · exact ⟨_, rfl⟩

/-- A token that is in order is refused only outside of the root, as text or as a second root. -/
theorem exists_step (ht : t.isInOrder skipped = true) (hroot : p.opened ≠ [] → p.root = none)
    {names : List String} (hnames : t.openAfter (p.opened.map (·.name)) = some names)
    (htext : p.opened = [] → t.characters.all Text.isBlank = true)
    (htag : t.element? skipped ≠ none → p.root = none) : ∃ p', p.step skipped t = .ok p' := by
  obtain ⟨markup, start, stop⟩ := t
  unfold step
  cases markup with
  | text raw =>
    obtain ⟨text, hresolve⟩ := isOk_iff.mp ht
    rw [Token.characters_text hresolve] at htext
    simp only [hresolve]
    exact exists_addText text _ htext
  | characterData text => exact exists_addText text _ htext
  | docType body =>
    obtain ⟨docType, hdocType⟩ := isOk_iff.mp ht
    simp only [hdocType]
    exact ⟨_, rfl⟩
  | declaration content =>
    obtain ⟨_, hcheck⟩ := isOk_iff.mp ht
    exact ⟨p, bind_eq_ok_iff.mpr ⟨(), hcheck, rfl⟩⟩
  | opening content =>
    obtain ⟨e, he⟩ := isOk_iff.mp ht
    have hnone : p.root = none := htag (by simp [Token.element?, he, Except.toOption])
    dsimp only
    unfold begin
    split
    · rename_i hsome
      rw [hnone] at hsome
      cases hsome
    · exact ⟨_, bind_eq_ok_iff.mpr ⟨e, he, rfl⟩⟩
  | selfClosed content =>
    obtain ⟨e, he⟩ := isOk_iff.mp ht
    have hnone : p.root = none := htag (by simp [Token.element?, he, Except.toOption])
    obtain ⟨p', hp'⟩ := exists_attach (p := p) e fun _ => hnone
    exact ⟨p', bind_eq_ok_iff.mpr ⟨e, he, hp'⟩⟩
  | closing name =>
    dsimp only
    unfold close
    cases hopened : p.opened with
    | nil =>
      rw [hopened] at hnames
      cases hnames
    | cons e outer =>
      have hname : e.name = String.ofList name := by
        rw [hopened] at hnames
        exact Option.some.inj (Option.ite_none_right_eq_some.mp hnames).1
      simp only [if_pos hname]
      exact exists_attach _ fun _ => hroot (by simp [hopened])
  | comment => exact ⟨p, rfl⟩
  | instruction => exact ⟨p, rfl⟩

/-! ## All tokens -/

theorem openAfter_of_foldlM {ts : List Token} (h : ts.foldlM (step skipped) p = .ok p') :
    ts.foldlM Token.openAfter (p.opened.map (·.name)) = some (p'.opened.map (·.name)) ∧
      BlankOutside (leveled p.opened.length ts) := by
  induction ts generalizing p with
  | nil =>
    cases h
    exact ⟨rfl, nofun⟩
  | cons t ts ih =>
    rw [List.foldlM_cons] at h
    obtain ⟨p'', hstep, h⟩ := bind_eq_ok_iff.mp h
    have htakes := takes_of_step hstep
    obtain ⟨hopen, hblank⟩ := ih h
    rw [htakes.length_opened] at hblank
    refine ⟨?_, ?_⟩
    · rw [List.foldlM_cons]
      exact Option.bind_eq_some_iff.mpr ⟨_, htakes.openAfter, hopen⟩
    · intro x hx hdepth
      obtain rfl | hx := List.mem_cons.mp hx
      · exact htakes.blank (List.length_eq_zero_iff.mp hdepth)
      · exact hblank x hx hdepth

theorem exists_foldlM {ts : List Token} (ht : ∀ t ∈ ts, t.isInOrder skipped = true)
    (hopen : ts.foldlM Token.openAfter (p.opened.map (·.name)) = some [])
    (hblank : BlankOutside (leveled p.opened.length ts))
    (hone : topLevel (p.outline (leveled p.opened.length ts) ++
      Xml.outline skipped (leveled p.opened.length ts)) = 1) :
    ∃ p', ts.foldlM (step skipped) p = .ok p' ∧ p'.opened = [] ∧ p'.root ≠ none := by
  -- No token changes the outline as a whole, so one element is outside of all others throughout.
  induction ts generalizing p with
  | nil =>
    have hopened : p.opened = [] := List.map_eq_nil_iff.mp (Option.some.inj hopen)
    refine ⟨p, rfl, hopened, fun hroot => ?_⟩
    simp [Progress.outline, hopened, hroot, openOutline, leveled, Xml.outline, topLevel] at hone
  | cons t ts ih =>
    rw [List.foldlM_cons] at hopen
    obtain ⟨names, hnames, hopen⟩ := Option.bind_eq_some_iff.mp hopen
    have hopened : p.opened ≠ [] → p.root = none := by
      intro hne
      exact root_eq_none_of_topLevel hone (Nat.add_pos_left (topLevel_openOutline_pos _ hne) _)
    have htag : t.element? skipped ≠ none → p.root = none := by
      intro hsome
      by_cases hnil : p.opened = []
      · -- The tag is another element outside of all others.
        obtain ⟨e, he⟩ := Option.ne_none_iff_exists'.mp hsome
        refine root_eq_none_of_topLevel hone (Nat.add_pos_right _ ?_)
        simp only [hnil, List.length_nil, leveled, Xml.outline, he]
        rw [topLevel_cons_zero rfl]
        exact Nat.succ_pos _
      · exact hopened hnil
    have htext : p.opened = [] → t.characters.all Text.isBlank = true := by
      intro hnil
      exact hblank (p.opened.length, t) List.mem_cons_self (by rw [hnil]; rfl)
    obtain ⟨p'', hstep⟩ := exists_step (ht t List.mem_cons_self) hopened hnames htext htag
    have htakes := takes_of_step hstep
    obtain rfl := Option.some.inj (hnames.symm.trans htakes.openAfter)
    rw [htakes.outline] at hone
    have hrest : BlankOutside (leveled p''.opened.length ts) := by
      rw [htakes.length_opened]
      exact fun x hx => hblank x (List.mem_cons_of_mem _ hx)
    obtain ⟨p', hp', hfinished⟩ :=
      ih (fun t' h => ht t' (List.mem_cons_of_mem _ h)) hopen hrest hone
    refine ⟨p', ?_, hfinished⟩
    rw [List.foldlM_cons]
    exact bind_eq_ok_iff.mpr ⟨p'', hstep, hp'⟩

end Progress

/-! ## Comments and instructions -/

theorem foldlM_filter_aside (skipped : Nat) (ts : List Token) (p : Progress) :
    (ts.filter (!·.isAside)).foldlM (Progress.step skipped) p =
      ts.foldlM (Progress.step skipped) p := by
  induction ts generalizing p with
  | nil => rfl
  | cons t ts ih =>
    cases haside : t.isAside with
    | false =>
      rw [List.filter_cons_of_pos (by simp [haside]), List.foldlM_cons, List.foldlM_cons]
      simp only [ih]
    | true =>
      have hstep : p.step skipped t = .ok p := by
        obtain ⟨markup, start, stop⟩ := t
        obtain rfl | rfl := of_decide_eq_true haside
        · rfl
        · rfl
      rw [List.filter_cons_of_neg (by simp [haside]), List.foldlM_cons, hstep, ih]
      rfl

/-! ## Documents -/

namespace Document

end Document

end OrbIdl.Xml
