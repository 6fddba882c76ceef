import Mathlib.Logic.Relation
import OrbIdl.Proofs.Structures.References

/-!
# The order of structures

When all references are to earlier structures and names are distinct, references lead back: they
make no cycle, and in any part of the list a structure comes after those that it refers to.
-/

namespace OrbIdl.Model

open Xml

/-- A member of `s` has the type `t`. -/
def Structure.RefersTo (s t : Structure) : Prop :=
  ∃ field span, .sub field t.name span ∈ s.members

/-! ## References that lead back -/

/-- No structure refers to itself or to a later one. -/
structure LeadBack (ss : List Structure) : Prop where
  irrefl : ∀ s ∈ ss, ¬s.RefersTo s
  pairwise : ss.Pairwise fun s t => ¬s.RefersTo t

/-- Wherever a structure stands, those that it refers to stand before it, if they stand there. -/
def BeforeUse (ss : List Structure) : Prop :=
  ∀ before s after, ss = before ++ s :: after → ∀ t ∈ ss, s.RefersTo t → t ∈ before

/-- One of the structures refers to the other. -/
def RefersAmong (ss : List Structure) (s t : Structure) : Prop :=
  s ∈ ss ∧ t ∈ ss ∧ s.RefersTo t

section

variable {done ss ss' : List Structure}

/-- A name tells a structure from all others, so it means the one that comes before. -/
theorem leadBack_of_grounded (h : Grounded done ss)
    (hnames : ((done ++ ss).map (·.name)).Nodup) : LeadBack ss := by
  induction ss generalizing done with
  | nil => exact ⟨nofun, .nil⟩
  | cons s ss ih =>
    obtain ⟨hfirst, hrest⟩ := grounded_cons.mp h
    have hs : ∀ t ∈ s :: ss, ¬s.RefersTo t := by
      rintro t ht ⟨field, span, hm⟩
      obtain ⟨t', ht', hname⟩ := hfirst _ hm
      rw [List.map_append, List.nodup_append] at hnames
      exact hnames.2.2 _ (List.mem_map_of_mem ht') _ (List.mem_map_of_mem ht) hname
    rw [List.forall_mem_cons] at hs
    have hback := ih hrest (by rwa [List.append_assoc])
    exact {
      irrefl := List.forall_mem_cons.mpr ⟨hs.1, hback.irrefl⟩
      pairwise := List.pairwise_cons.mpr ⟨hs.2, hback.pairwise⟩ }

theorem LeadBack.sublist (h : LeadBack ss) (hsub : ss'.Sublist ss) : LeadBack ss' :=
  ⟨fun s hs => h.irrefl s (hsub.subset hs), h.pairwise.sublist hsub⟩

theorem LeadBack.idxOf_lt (h : LeadBack ss) {s t : Structure} (hst : RefersAmong ss s t) :
    ss.idxOf t < ss.idxOf s := by
  obtain ⟨hs, ht, hrefers⟩ := hst
  by_contra hle
  obtain hlt | heq := Nat.lt_or_eq_of_le (Nat.le_of_not_lt hle)
  · have hnot := List.pairwise_iff_getElem.mp h.pairwise _ _ (List.idxOf_lt_length_of_mem hs)
      (List.idxOf_lt_length_of_mem ht) hlt
    rw [List.getElem_idxOf, List.getElem_idxOf] at hnot
    exact hnot hrefers
  · obtain rfl := (List.idxOf_inj hs).mp heq
    exact h.irrefl s hs hrefers

theorem LeadBack.acyclic (h : LeadBack ss) (s : Structure) :
    ¬Relation.TransGen (RefersAmong ss) s s := by
  have hlt {t : Structure} (hst : Relation.TransGen (RefersAmong ss) s t) :
      ss.idxOf t < ss.idxOf s := by
    induction hst with
    | single hst => exact h.idxOf_lt hst
    | tail _ hst ih => exact Nat.lt_trans (h.idxOf_lt hst) ih
  exact fun hcycle => Nat.lt_irrefl _ (hlt hcycle)

theorem LeadBack.beforeUse (h : LeadBack ss) : BeforeUse ss := by
  rintro before s after rfl t ht hrefers
  obtain ht | ht := List.mem_append.mp ht
  · exact ht
  obtain rfl | ht := List.mem_cons.mp ht
  · exact absurd hrefers (h.irrefl t (by simp))
  · have hafter := (List.pairwise_cons.mp (List.pairwise_append.mp h.pairwise).2.1).1
    exact absurd hrefers (hafter t ht)

/-- A second list may refer to the first, but not the other way round. -/
theorem BeforeUse.append (h : BeforeUse ss) (h' : BeforeUse ss')
    (hback : ∀ s ∈ ss, ∀ t ∈ ss', s.RefersTo t → t ∈ ss) : BeforeUse (ss ++ ss') := by
  intro before s after hsplit t ht hrefers
  have hsecond (between : List Structure) (hbefore : before = ss ++ between)
      (hss' : ss' = between ++ s :: after) : t ∈ before := by
    rw [hbefore]
    obtain ht | ht := List.mem_append.mp ht
    · exact List.mem_append_left _ ht
    · exact List.mem_append_right _ (h' between s after hss' t ht hrefers)
  obtain ⟨between, hbefore, hss'⟩ | ⟨between, hss, hafter⟩ := List.append_eq_append_iff.mp hsplit
  · exact hsecond between hbefore hss'
  obtain ⟨rfl, hss'⟩ | ⟨rest, rfl, -⟩ := List.cons_eq_append_iff.mp hafter
  · exact hsecond [] (by rw [hss, List.append_nil, List.append_nil]) hss'
  · have hmem : t ∈ ss :=
      (List.mem_append.mp ht).elim id fun ht => hback s (by simp [hss]) t ht hrefers
    exact h before s rest hss t hmem hrefers

end

namespace Document

/-! ## The structures of a document -/

def globalStructures (d : Document) : List Structure :=
  (d.globals.flatMap (·.typeDecls)).filterMap (·.struct?)

def interfaceStructures (d : Document) : List Structure :=
  ((d.classInterface.bind (·.types)).getD []).filterMap (·.struct?)

/-- All structures, those of the globals first. -/
def structures (d : Document) : List Structure :=
  d.globalStructures ++ d.interfaceStructures

theorem filterMap_typeDecls (d : Document) :
    d.typeDecls.filterMap (·.struct?) = d.structures :=
  List.filterMap_append

theorem dangling?_eq_none_iff (d : Document) : d.dangling? = none ↔ Grounded [] d.structures := by
  rw [dangling?, filterMap_typeDecls]
  exact danglingFrom_eq_none_iff (by simp [Declared])

theorem firstDangling_of_dangling? {d : Document} {s : Structure} {name : String} {span : Span}
    (h : d.dangling? = some (s, name, span)) : FirstDangling [] d.structures s name span := by
  rw [dangling?, filterMap_typeDecls] at h
  exact firstDangling_of_danglingFrom (by simp [Declared]) h

end Document

end OrbIdl.Model
