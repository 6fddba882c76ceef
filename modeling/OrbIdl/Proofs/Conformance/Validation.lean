import OrbIdl.Proofs.Conformance.Defect

/-! # Validation finds what is wrong, and nothing else -/

namespace OrbIdl.Schema

open Xml

/-! ## Document order -/

theorem Site.before_irrefl (a : Site) : ¬ a.Before a := by
  rintro (h | ⟨_, h⟩)
  · exact Nat.lt_irrefl _ h
  · exact Nat.lt_irrefl _ h

theorem Place.before_irrefl (a : Place) : ¬ a.Before a := by
  rintro (h | ⟨_, h⟩)
  · exact List.lt_irrefl _ h
  · exact Site.before_irrefl _ h

def Place.inChild (i : Nat) (place : Place) : Place :=
  ⟨i :: place.path, place.site⟩

theorem Place.inChild_before {i j : Nat × Place} (h : Lists.IndexOrder Place.Before i j) :
    (Place.inChild i.1 i.2).Before (Place.inChild j.1 j.2) := by
  simp only [Place.Before, Place.inChild, List.cons_lt_cons_iff, List.cons.injEq]
  rcases h with h | ⟨heq, h | ⟨hpath, hsite⟩⟩
  · exact Or.inl (Or.inl h)
  · exact Or.inl (Or.inr ⟨heq, h⟩)
  · exact Or.inr ⟨⟨heq, hpath⟩, hsite⟩

/-! ## The defects of a tree -/

section

variable {s : Schema} {e : Element}

theorem defect_iff (place : Place) (v : Violation) :
    Defect s e place v ↔
      (∃ site, ⟨[], site⟩ = place ∧ ElementDefect s e site v) ∨
      (Declared s e ∧ ∃ i : Nat × Place, i.2.inChild i.1 = place ∧
        ∃ child, e.children[i.1]? = some child ∧ Defect s child i.2 v) := by
  obtain ⟨path, site⟩ := place
  constructor
  · rintro ⟨x, hx, hv⟩
    cases hx with
    | root => exact Or.inl ⟨site, rfl, hv⟩
    | @child _ child _ i path hdeclared hi hx =>
      exact Or.inr ⟨hdeclared, (i, ⟨path, site⟩), rfl, child, hi, x, hx, hv⟩
  · rintro (⟨_, hplace, hv⟩ | ⟨hdeclared, ⟨i, place⟩, hplace, child, hi, x, hx, hv⟩)
    · obtain ⟨rfl, rfl⟩ := Place.mk.inj hplace
      exact ⟨e, .root e, hv⟩
    · obtain ⟨rfl, rfl⟩ := Place.mk.inj hplace
      exact ⟨x, .child hdeclared hi hx, hv⟩

theorem lists_undeclared (h : s.element? e.name = none) :
    Lists Place.Before (Defect s e) [.undeclaredElement e.name e.span] := by
  refine (Lists.singleton ⟨[], .element⟩ _).congr fun place v => ?_
  rw [defect_iff]
  constructor
  · rintro ⟨rfl, rfl⟩
    exact Or.inl ⟨.element, rfl, .undeclared h⟩
  · rintro (⟨site, rfl, hv⟩ | ⟨⟨d, hd⟩, _⟩)
    · cases hv with
      | undeclared => exact ⟨rfl, rfl⟩
      | undeclaredAttribute hd | badToken hd | notListed hd | notInEntity hd | missing hd
      | text hd | content hd => cases h.symm.trans hd
    · cases h.symm.trans hd

/-- The violations of a tree are its defects, each once, in document order. -/
theorem lists_validate (s : Schema) (e : Element) :
    Lists Place.Before (Defect s e) (validate s e).2 := by
  induction e using Element.children_induction with
  | step e ih =>
    cases hd : s.element? e.name with
    | none =>
      rw [validate_undeclared hd]
      exact lists_undeclared hd
    | some d =>
      rw [validate_declared hd]
      -- The places below carry the index of a child in front, so those of the element come first.
      have hhere := (lists_element hd).relabel (S := Place.Before) (fun site => ⟨[], site⟩)
        fun _ _ h => Or.inr ⟨rfl, h⟩
      have hbelow := (Lists.flatMap e.children ih).relabel (S := Place.Before)
        (fun i => i.2.inChild i.1) fun _ _ h => Place.inChild_before h
      refine (hhere.append hbelow ?_).congr fun place v => ?_
      · rintro _ v _ w ⟨site, rfl, _⟩ ⟨i, rfl, _⟩
        exact Or.inl (List.nil_lt_cons _ _)
      · rw [defect_iff]
        simp only [show Declared s e from ⟨d, hd⟩, true_and]

/-! ## Trees without defects -/

theorem conforms_iff {d : ElementDeclaration} (hd : s.element? e.name = some d) :
    Conforms s d e ↔ ∀ site v, ¬ ElementDefect s e site v := by
  constructor
  · intro h site v hv
    cases hv with
    | undeclared hnone => cases hd.symm.trans hnone
    | undeclaredAttribute hd' ha hb =>
      obtain rfl := Option.some.inj (hd.symm.trans hd')
      obtain ⟨b, hb', _⟩ := h.given _ (List.mem_of_getElem? ha)
      cases hb.symm.trans hb'
    | badToken hd' ha hb _ hv | notListed hd' ha hb _ hv | notInEntity hd' ha hb _ hv =>
      obtain rfl := Option.some.inj (hd.symm.trans hd')
      obtain ⟨b, hb', hadmits⟩ := h.given _ (List.mem_of_getElem? ha)
      obtain rfl := Option.some.inj (hb.symm.trans hb')
      exact hv hadmits
    | missing hd' hb hreq hnone =>
      obtain rfl := Option.some.inj (hd.symm.trans hd')
      exact hnone (h.required _ (List.mem_of_getElem? hb) hreq)
    | text hd' hv =>
      obtain rfl := Option.some.inj (hd.symm.trans hd')
      exact hv h.text
    | content hd' hv =>
      obtain rfl := Option.some.inj (hd.symm.trans hd')
      exact hv h.children
  · intro h
    refine ⟨?_, ?_, ?_, ?_⟩
    · intro a ha
      obtain ⟨i, hi⟩ := List.getElem?_of_mem ha
      cases hb : d.attribute? a.name with
      | none => exact absurd (.undeclaredAttribute hd hi hb) (h _ _)
      | some b =>
        refine ⟨b, rfl, Classical.not_not.mp fun hv => ?_⟩
        cases ht : b.type with
        | text => exact hv (by rw [ht]; trivial)
        | token => exact h _ _ (.badToken hd hi hb ht hv)
        | oneOf => exact h _ _ (.notListed hd hi hb ht hv)
        | oneOfEntity => exact h _ _ (.notInEntity hd hi hb ht hv)
    · intro b hb hreq
      obtain ⟨j, hj⟩ := List.getElem?_of_mem hb
      exact Classical.not_not.mp fun hnone => h _ _ (.missing hd hj hreq hnone)
    · exact Classical.not_not.mp fun hv => h _ _ (.text hd hv)
    · exact Classical.not_not.mp fun hv => h _ _ (.content hd hv)

theorem under_declared_of_no_defect {root x : Element} {path : List Nat}
    (h : ∀ place v, ¬ Defect s root place v) (hx : root.Under (fun _ => True) path x) :
    root.Under (Declared s) path x ∧ Declared s x := by
  have hdeclared {e : Element} (h : ∀ place v, ¬ Defect s e place v) : Declared s e :=
    Option.ne_none_iff_exists'.mp fun hnone =>
      h ⟨[], .element⟩ _ ⟨e, .root e, .undeclared hnone⟩
  induction hx with
  | root e => exact ⟨.root e, hdeclared h⟩
  | child _ hi _ ih =>
    have hbelow := ih fun place v hv =>
      h _ v ((defect_iff _ v).mpr (Or.inr ⟨hdeclared h, (_, place), rfl, _, hi, hv⟩))
    exact ⟨.child (hdeclared h) hi hbelow.1, hbelow.2⟩

theorem valid_iff (s : Schema) (root : Element) :
    Valid s root ↔ ∀ place v, ¬ Defect s root place v := by
  constructor
  · rintro h place v ⟨x, hx, hv⟩
    obtain ⟨d, hd, hconforms⟩ := h _ x (hx.mono fun _ _ => trivial)
    exact (conforms_iff hd).mp hconforms _ v hv
  · intro h path x hx
    obtain ⟨hunder, d, hd⟩ := under_declared_of_no_defect h hx
    exact ⟨d, hd, (conforms_iff hd).mpr fun site v hv => h ⟨path, site⟩ v ⟨x, hunder, hv⟩⟩

end

/-! ## Soundness and completeness -/

/-- A document passes if and only if each of its elements is as the schema says. Otherwise the
violations are the defects of all elements with declared ancestors, in document order, with one
at each place at most. -/
theorem validate_sound_and_complete (root : Element) :
    ((validate interfaceDocument root).2 = [] ↔ Valid interfaceDocument root) ∧
    Lists Place.Before (Defect interfaceDocument root) (validate interfaceDocument root).2 ∧
    ∀ place, {v | Defect interfaceDocument root place v}.Subsingleton := by
  have hlists := lists_validate interfaceDocument root
  refine ⟨?_, hlists, fun place v hv w hw => hlists.unique Place.before_irrefl hv hw⟩
  rw [hlists.eq_nil_iff, valid_iff]

end OrbIdl.Schema
