import OrbIdl.Proofs.Results
import OrbIdl.Xml.Reader

/-!
# The tree of a list of tokens

The depth of a token, the number of tags open around it, says all about the tree: which tokens are
elements and in what order, which is inside which, and whose text is whose.
-/

namespace OrbIdl.Xml

/-! ## Tokens by themselves -/

namespace Token

/-- The element of a tag, without what may be in it. -/
def element? (skipped : Nat) (t : Token) : Option Element :=
  match t.markup with
  | .opening content | .selfClosed content =>
    (elementOf ⟨content, skipped + t.start + 1⟩ t.span).toOption
  | _ => none

/-- The character data that a token stands for. -/
def characters (t : Token) : List Char :=
  match t.markup with
  | .text raw => (resolve raw).toOption.getD []
  | .characterData text => text
  | _ => []

/-- The depth behind a token. -/
def depthAfter (depth : Nat) (t : Token) : Nat :=
  match t.markup with
  | .opening _ => depth + 1
  | .closing _ => depth - 1
  | _ => depth

/-- The names of the tags that are open behind a token, the innermost first. There are none if it
closes another tag than the innermost. -/
def openAfter (names : List String) (t : Token) : Option (List String) :=
  match t.markup with
  | .opening content => some (String.ofList (tagName content) :: names)
  | .closing name => if names.head? = some (String.ofList name) then some names.tail else none
  | _ => some names

theorem characters_text {raw text : List Char} (h : resolve raw = .ok text) (start stop : Nat) :
    (Token.mk (.text raw) start stop).characters = text := by
  simp [characters, h, Except.toOption]

end Token

/-! ## Tokens in order -/

/-- Tokens with their depths. -/
def leveled : Nat → List Token → List (Nat × Token)
  | _, [] => []
  | depth, t :: ts => (depth, t) :: leveled (t.depthAfter depth) ts

/-- The character data directly inside an element of the given depth, of what follows its tag: what
is one deeper, up to where the depth falls back. -/
def directText (depth : Nat) (rest : List (Nat × Token)) : List Char :=
  (rest.takeWhile (depth < ·.1)).flatMap fun (d, t) => if d = depth + 1 then t.characters else []

/-- An element with its depth and the text directly in it. -/
structure Entry where
  depth : Nat
  name : String
  attributes : List Attribute
  text : String
deriving DecidableEq

/-- The elements of a list of tokens, in the order of their tags. -/
def outline (skipped : Nat) : List (Nat × Token) → List Entry
  | [] => []
  | (depth, t) :: rest =>
    match t.element? skipped with
    | some e =>
      ⟨depth, e.name, e.attributes, String.ofList (directText depth rest)⟩ :: outline skipped rest
    | none => outline skipped rest

/-! ## Trees in order -/

mutual

/-- The elements of a tree, each before those in it. -/
def Element.outline (depth : Nat) : Element → List Entry
  | ⟨name, _, attributes, text, children⟩ =>
    ⟨depth, name, attributes, text⟩ :: outlineAll (depth + 1) children

def outlineAll (depth : Nat) : List Element → List Entry
  | [] => []
  | e :: es => e.outline depth ++ outlineAll depth es

end

theorem Element.outline_eq (depth : Nat) (e : Element) :
    e.outline depth =
      ⟨depth, e.name, e.attributes, e.text⟩ :: outlineAll (depth + 1) e.children := by
  cases e
  rw [Element.outline]

theorem outlineAll_append (depth : Nat) (es es' : List Element) :
    outlineAll depth (es ++ es') = outlineAll depth es ++ outlineAll depth es' := by
  induction es with
  | nil => rfl
  | cons e es ih => rw [List.cons_append, outlineAll, outlineAll, ih, List.append_assoc]

@[simp] theorem Element.outline_extend (depth : Nat) (e : Element) (span : Span) :
    (e.extend span).outline depth = e.outline depth := by
  rw [outline_eq, outline_eq]
  rfl

theorem outlineAll_addChild (depth : Nat) (e child : Element) :
    outlineAll depth (e.addChild child).children =
      outlineAll depth e.children ++ child.outline depth := by
  unfold Element.addChild
  rw [outlineAll_append, outlineAll, outlineAll, List.append_nil]

/-! ## Text -/

section

variable {depth n : Nat} {t : Token} {rest : List (Nat × Token)}

theorem directText_cons (h : depth < n) :
    directText depth ((n, t) :: rest) =
      (if n = depth + 1 then t.characters else []) ++ directText depth rest := by
  unfold directText
  rw [List.takeWhile_cons_of_pos (by simpa using h), List.flatMap_cons]

theorem directText_cons_of_no_characters (h : depth < n) (ht : t.characters = []) :
    directText depth ((n, t) :: rest) = directText depth rest := by
  rw [directText_cons h, ht, ite_self, List.nil_append]

/-- Nothing is inside an element once the depth has fallen back to its own. -/
theorem directText_leveled (h : n ≤ depth) (ts : List Token) :
    directText depth (leveled n ts) = [] := by
  cases ts with
  | nil => rfl
  | cons t ts =>
    unfold leveled directText
    rw [List.takeWhile_cons_of_neg (by simpa using h)]
    rfl

end

/-! ## The element of a tag -/

theorem elementOf_eq_ok {tag : TagText} {span : Span} {e : Element}
    (h : elementOf tag span = .ok e) :
    e.name = String.ofList (tagName tag.content) ∧ e.text = "" ∧ e.children = [] := by
  unfold elementOf at h
  split at h
  · cases h
  rename_i name hname
  obtain ⟨e', he', h⟩ := bind_eq_ok_iff.mp h
  have hframe : e'.name = String.ofList (tagName tag.content) ∧ e'.text = "" ∧ e'.children = [] := by
    refine foldlM_invariant (fun _ e => e.name = String.ofList (tagName tag.content) ∧
      e.text = "" ∧ e.children = []) ⟨rfl, rfl, rfl⟩ ?_ he'
    intro _ e a e' he hadd
    unfold addAttribute at hadd
    dsimp only at hadd
    split at hadd <;> cases hadd
    exact he
  split at h
  · cases h
    exact hframe
  · cases h

/-! ## One token -/

namespace Progress

/-- What a token does: nothing to the tree, or it adds text to the innermost open element, opens an
element, adds an element, or finishes the innermost one. -/
inductive Takes (skipped : Nat) (p : Progress) (t : Token) : Progress → Prop where
  | pass (docType : Option DocType) (htag : t.element? skipped = none)
      (hdepth : ∀ n, t.depthAfter n = n) (hopen : ∀ names, t.openAfter names = some names)
      (htext : t.characters.all Text.isBlank = true) (hinside : p.opened ≠ [] → t.characters = []) :
      Takes skipped p t { p with docType }
  | text {parent : Element} {outer : List Element} (hopened : p.opened = parent :: outer)
      (htag : t.element? skipped = none) (hdepth : ∀ n, t.depthAfter n = n)
      (hopen : ∀ names, t.openAfter names = some names) :
      Takes skipped p t
        { p with opened := parent.addText (String.ofList t.characters) :: outer }
  | opening {e : Element} (htag : t.element? skipped = some e)
      (hdepth : ∀ n, t.depthAfter n = n + 1)
      (hopen : ∀ names, t.openAfter names = some (e.name :: names))
      (htext : t.characters = []) (he : e.text = "" ∧ e.children = [])
      (hroot : p.opened = [] → p.root = none) : Takes skipped p t { p with opened := e :: p.opened }
  | selfClosed {e : Element} {p' : Progress} (htag : t.element? skipped = some e)
      (hdepth : ∀ n, t.depthAfter n = n) (hopen : ∀ names, t.openAfter names = some names)
      (htext : t.characters = []) (he : e.text = "" ∧ e.children = []) (h : p.attach e = .ok p') :
      Takes skipped p t p'
  | closing {e : Element} {outer : List Element} {p' : Progress} (hopened : p.opened = e :: outer)
      (htag : t.element? skipped = none) (hdepth : ∀ n, t.depthAfter n = n - 1)
      (hopen : ∀ names, t.openAfter (e.name :: names) = some names) (htext : t.characters = [])
      (h : { p with opened := outer }.attach (e.extend t.span) = .ok p') : Takes skipped p t p'

theorem takes_of_addText {skipped : Nat} {p p' : Progress} {t : Token}
    (htag : t.element? skipped = none) (hdepth : ∀ n, t.depthAfter n = n)
    (hopen : ∀ names, t.openAfter names = some names)
    (h : p.addText t.characters t.span = .ok p') : Takes skipped p t p' := by
  obtain ⟨opened, root, docType⟩ := p
  unfold addText at h
  cases opened with
  | cons parent outer =>
    cases h
    exact .text rfl htag hdepth hopen
  | nil =>
    dsimp only at h
    split at h
    · rename_i hblank
      cases h
      exact .pass docType htag hdepth hopen hblank (absurd rfl)
    · cases h

theorem takes_of_step {skipped : Nat} {p p' : Progress} {t : Token}
    (h : p.step skipped t = .ok p') : Takes skipped p t p' := by
  obtain ⟨markup, start, stop⟩ := t
  unfold step at h
  cases markup with
  | text raw =>
    dsimp only at h
    split at h
    · rename_i text htext
      rw [← Token.characters_text htext start stop] at h
      exact takes_of_addText rfl (fun _ => rfl) (fun _ => rfl) h
    · cases h
  | characterData text => exact takes_of_addText rfl (fun _ => rfl) (fun _ => rfl) h
  | docType body =>
    dsimp only at h
    split at h
    · cases h
      exact .pass _ rfl (fun _ => rfl) (fun _ => rfl) rfl fun _ => rfl
    · cases h
  | declaration content =>
    obtain ⟨_, _, h⟩ := bind_eq_ok_iff.mp h
    cases h
    exact .pass p.docType rfl (fun _ => rfl) (fun _ => rfl) rfl fun _ => rfl
  | opening content =>
    dsimp only at h
    unfold begin at h
    split at h
    · cases h
    · rename_i hroot
      obtain ⟨e, he, h⟩ := bind_eq_ok_iff.mp h
      cases h
      obtain ⟨hname, hempty⟩ := elementOf_eq_ok he
      have htag : (Token.mk (.opening content) start stop).element? skipped = some e :=
        toOption_eq_some_iff.mpr he
      refine .opening htag (fun _ => rfl) (fun names => ?_) rfl hempty fun hopened => ?_
      · rw [hname]
        rfl
      · cases hfirst : p.root with
        | none => rfl
        | some first => exact absurd hfirst (hroot first hopened)
  | selfClosed content =>
    obtain ⟨e, he, h⟩ := bind_eq_ok_iff.mp h
    have htag : (Token.mk (.selfClosed content) start stop).element? skipped = some e :=
      toOption_eq_some_iff.mpr he
    exact .selfClosed htag (fun _ => rfl) (fun _ => rfl) rfl (elementOf_eq_ok he).2 h
  | closing name =>
    dsimp only at h
    unfold close at h
    split at h
    · cases h
    · rename_i e outer hopened
      split at h
      · rename_i hname
        refine .closing hopened rfl (fun _ => rfl) (fun names => ?_) rfl h
        simp [Token.openAfter, hname]
      · cases h
  | comment =>
    cases h
    exact .pass p.docType rfl (fun _ => rfl) (fun _ => rfl) rfl fun _ => rfl
  | instruction =>
    cases h
    exact .pass p.docType rfl (fun _ => rfl) (fun _ => rfl) rfl fun _ => rfl

/-! ## The outline of the tree so far -/

/-- The open elements and what is finished in them, when `rest` is still to come. -/
def openOutline (rest : List (Nat × Token)) : List Element → List Entry
  | [] => []
  | e :: outer =>
    openOutline rest outer ++
      ⟨outer.length, e.name, e.attributes, e.text ++ String.ofList (directText outer.length rest)⟩ ::
        outlineAll (outer.length + 1) e.children

def outline (p : Progress) (rest : List (Nat × Token)) : List Entry :=
  p.root.toList.flatMap (·.outline 0) ++ openOutline rest p.opened

theorem openOutline_congr {rest rest' : List (Nat × Token)} {opened : List Element}
    (h : ∀ depth < opened.length, directText depth rest = directText depth rest') :
    openOutline rest opened = openOutline rest' opened := by
  induction opened with
  | nil => rfl
  | cons e outer ih =>
    have houter := ih fun depth hdepth => h depth (Nat.lt_succ_of_lt hdepth)
    rw [openOutline, openOutline, houter, h outer.length (Nat.lt_succ_self _)]

/-- A finished element goes behind all that there is. -/
theorem outline_attach {p p' : Progress} {e : Element} (h : p.attach e = .ok p')
    (rest : List (Nat × Token)) : p'.outline rest = p.outline rest ++ e.outline p.opened.length := by
  obtain ⟨opened, root, docType⟩ := p
  unfold attach at h
  cases opened with
  | cons parent outer =>
    cases h
    simp only [outline, openOutline, outlineAll_addChild, List.length_cons, List.append_assoc,
      List.cons_append]
    rfl
  | nil =>
    cases root with
    | some first => cases h
    | none =>
      cases h
      simp [outline, openOutline]

theorem names_opened_of_attach {p p' : Progress} {e : Element} (h : p.attach e = .ok p') :
    p'.opened.map (·.name) = p.opened.map (·.name) := by
  obtain ⟨opened, root, docType⟩ := p
  unfold attach at h
  cases opened with
  | cons parent outer =>
    cases h
    rfl
  | nil =>
    cases root <;> cases h
    rfl

theorem length_opened_of_attach {p p' : Progress} {e : Element} (h : p.attach e = .ok p') :
    p'.opened.length = p.opened.length := by
  simpa using congrArg List.length (names_opened_of_attach h)

variable {skipped : Nat} {p p' : Progress} {t : Token}

theorem Takes.length_opened (h : Takes skipped p t p') :
    p'.opened.length = t.depthAfter p.opened.length := by
  cases h with
  | pass _ _ hdepth => rw [hdepth]
  | text hopened _ hdepth => rw [hdepth, hopened]; rfl
  | opening _ hdepth => rw [hdepth]; rfl
  | selfClosed _ hdepth _ _ _ h => rw [hdepth, length_opened_of_attach h]
  | closing hopened _ hdepth _ _ h =>
    rw [hdepth, length_opened_of_attach h, hopened]
    rfl

theorem outline_cons (h : p.opened ≠ [] → t.characters = []) (rest : List (Nat × Token)) :
    p.outline ((p.opened.length, t) :: rest) = p.outline rest := by
  unfold outline
  rw [openOutline_congr]
  intro depth hdepth
  have hopened : p.opened ≠ [] := by
    intro hnil
    rw [hnil] at hdepth
    exact Nat.not_lt_zero _ hdepth
  exact directText_cons_of_no_characters hdepth (h hopened)

theorem outline_text {parent : Element} {outer : List Element} (hopened : p.opened = parent :: outer)
    (rest : List (Nat × Token)) :
    p.outline ((p.opened.length, t) :: rest) =
      { p with opened := parent.addText (String.ofList t.characters) :: outer }.outline rest := by
  have houter : openOutline ((outer.length + 1, t) :: rest) outer = openOutline rest outer := by
    refine openOutline_congr fun depth hdepth => ?_
    rw [directText_cons (by omega), if_neg (by omega), List.nil_append]
  have hparent : directText outer.length ((outer.length + 1, t) :: rest) =
      t.characters ++ directText outer.length rest := by
    rw [directText_cons (Nat.lt_succ_self _), if_pos rfl]
  unfold outline
  rw [hopened, List.length_cons, openOutline, openOutline, houter, hparent, String.ofList_append,
    ← String.append_assoc]
  rfl

/-- What is left to come may be read from the tokens or from the tree. -/
theorem Takes.outline (h : Takes skipped p t p') (ts : List Token) :
    p.outline (leveled p.opened.length (t :: ts)) ++
        Xml.outline skipped (leveled p.opened.length (t :: ts)) =
      p'.outline (leveled p'.opened.length ts) ++
        Xml.outline skipped (leveled p'.opened.length ts) := by
  rw [leveled, ← h.length_opened]
  have hnone (htag : t.element? skipped = none) (rest : List (Nat × Token)) :
      Xml.outline skipped ((p.opened.length, t) :: rest) = Xml.outline skipped rest := by
    simp only [Xml.outline, htag]
  have hsome {e : Element} (htag : t.element? skipped = some e) (rest : List (Nat × Token)) :
      Xml.outline skipped ((p.opened.length, t) :: rest) =
        ⟨p.opened.length, e.name, e.attributes, String.ofList (directText p.opened.length rest)⟩ ::
          Xml.outline skipped rest := by
    simp only [Xml.outline, htag]
  cases h with
  | pass docType htag _ _ _ hinside =>
    rw [hnone htag, outline_cons hinside]
    rfl
  | text hopened htag _ _ =>
    rw [hnone htag, outline_text hopened]
  | @opening e htag _ _ htext he _ =>
    rw [hsome htag, outline_cons fun _ => htext]
    simp [Progress.outline, openOutline, he.1, he.2, outlineAll]
  | @selfClosed e p' htag hdepth _ htext he h =>
    -- The depth does not rise, so nothing is inside the element.
    have hinside : directText p.opened.length (leveled p'.opened.length ts) = [] := by
      rw [length_opened_of_attach h]
      exact directText_leveled (Nat.le_refl _) ts
    rw [hsome htag, outline_cons fun _ => htext, outline_attach h, hinside, Element.outline_eq]
    simp [he.1, he.2, outlineAll]
  | @closing e outer p' hopened htag _ _ htext h =>
    have hinside : directText outer.length (leveled p'.opened.length ts) = [] := by
      rw [length_opened_of_attach h]
      exact directText_leveled (Nat.le_refl _) ts
    rw [hnone htag, outline_cons fun _ => htext, outline_attach h, Element.outline_extend,
      Element.outline_eq]
    simp [Progress.outline, hopened, openOutline, hinside]

/-- All that is read stands in the outline of the tokens. -/
theorem outline_of_foldlM {ts : List Token} (h : ts.foldlM (step skipped) p = .ok p') :
    p.outline (leveled p.opened.length ts) ++ Xml.outline skipped (leveled p.opened.length ts) =
      p'.outline [] := by
  induction ts generalizing p with
  | nil =>
    cases h
    exact List.append_nil _
  | cons t ts ih =>
    rw [List.foldlM_cons] at h
    obtain ⟨p'', hstep, h⟩ := bind_eq_ok_iff.mp h
    rw [(takes_of_step hstep).outline, ih h]

theorem of_finish {d : Document} (h : p.finish = .ok d) : p.opened = [] ∧ p.root = some d.root := by
  unfold finish at h
  split at h
  · cases h
  · rename_i hopened hroot
    cases h
    exact ⟨hopened, hroot⟩
  · cases h

end Progress

/-- The elements of a tree are those of its tokens, in order and at the same depths, each with the
text that is directly inside. -/
theorem Document.outline_of_ofTokens {skipped : Nat} {ts : List Token} {d : Document}
    (h : Document.ofTokens skipped ⟨ts, none⟩ = .ok d) :
    d.root.outline 0 = outline skipped (leveled 0 ts) := by
  obtain ⟨p, hp, hfinish⟩ := bind_eq_ok_iff.mp h
  have houtline := Progress.outline_of_foldlM hp
  obtain ⟨hopened, hroot⟩ := Progress.of_finish hfinish
  simp only [Progress.outline, hopened, hroot, Progress.openOutline, Option.toList_some,
    List.flatMap_singleton, List.append_nil] at houtline
  exact houtline.symm

end OrbIdl.Xml
