/-!
# Lists of what is found at places

A check that walks through a document gives a list. `Lists` says which list it is: what there is to
find, each at its place, in the order of the places.
-/

namespace OrbIdl.Schema

/-- `out` is what `P` puts at the places, once for each place, in the order `R` of the places. -/
def Lists {ι β : Type} (R : ι → ι → Prop) (P : ι → β → Prop) (out : List β) : Prop :=
  ∃ found : List (ι × β), found.map Prod.snd = out ∧
    found.Pairwise (fun a b => R a.1 b.1) ∧ ∀ i b, (i, b) ∈ found ↔ P i b

namespace Lists

variable {ι κ α β : Type} {R : ι → ι → Prop} {S : κ → κ → Prop} {P Q : ι → β → Prop}
  {out out' : List β}

theorem nil (h : ∀ i b, ¬ P i b) : Lists R P [] :=
  ⟨[], rfl, .nil, fun i b => by simp [h i b]⟩

theorem singleton (i : ι) (b : β) : Lists R (fun j c => j = i ∧ c = b) [b] :=
  ⟨[(i, b)], rfl, List.pairwise_singleton _ _, fun j c => by simp⟩

theorem congr (h : Lists R P out) (hPQ : ∀ i b, P i b ↔ Q i b) : Lists R Q out := by
  obtain ⟨found, hout, hsorted, hmem⟩ := h
  exact ⟨found, hout, hsorted, fun i b => (hmem i b).trans (hPQ i b)⟩

theorem ite_not (i : ι) (b : β) (c : Prop) [Decidable c] :
    Lists R (fun j d => j = i ∧ ¬ c ∧ d = b) (if c then [] else [b]) := by
  by_cases h : c
  · rw [if_pos h]
    exact nil fun j d => by simp [h]
  · rw [if_neg h]
    exact (singleton i b).congr fun j d => by simp [h]

theorem atMostOne (out : List β) (h : out.length ≤ 1) :
    Lists (fun _ _ : Unit => False) (fun _ b => b ∈ out) out := by
  match out, h with
  | [], _ => exact nil fun _ _ => List.not_mem_nil
  | [b], _ => exact (singleton () b).congr fun _ c => by simp

theorem append (hout : Lists R P out) (hout' : Lists R Q out')
    (h : ∀ i b j c, P i b → Q j c → R i j) : Lists R (fun i b => P i b ∨ Q i b) (out ++ out') := by
  obtain ⟨found, rfl, hsorted, hmem⟩ := hout
  obtain ⟨found', rfl, hsorted', hmem'⟩ := hout'
  refine ⟨found ++ found', List.map_append, ?_, fun i b => ?_⟩
  · rw [List.pairwise_append]
    refine ⟨hsorted, hsorted', fun a ha b hb => ?_⟩
    exact h a.1 a.2 b.1 b.2 ((hmem _ _).mp ha) ((hmem' _ _).mp hb)
  · rw [List.mem_append, hmem, hmem']

theorem relabel (h : Lists R P out) (g : ι → κ) (hg : ∀ i j, R i j → S (g i) (g j)) :
    Lists S (fun k b => ∃ i, g i = k ∧ P i b) out := by
  obtain ⟨found, rfl, hsorted, hmem⟩ := h
  refine ⟨found.map fun a => (g a.1, a.2), by simp, ?_, fun k b => ?_⟩
  · rw [List.pairwise_map]
    exact hsorted.imp fun hab => hg _ _ hab
  · simp only [List.mem_map, Prod.mk.injEq, Prod.exists]
    constructor
    · rintro ⟨i, c, hic, rfl, rfl⟩
      exact ⟨i, rfl, (hmem _ _).mp hic⟩
    · rintro ⟨i, rfl, hib⟩
      exact ⟨i, b, (hmem _ _).mpr hib, rfl, rfl⟩

/-- First by the index of the item that is searched, then by the place in it. -/
def IndexOrder (R : ι → ι → Prop) (a b : Nat × ι) : Prop :=
  a.1 < b.1 ∨ a.1 = b.1 ∧ R a.2 b.2

theorem flatMap {P : α → ι → β → Prop} {f : α → List β} (xs : List α)
    (h : ∀ x ∈ xs, Lists R (P x) (f x)) :
    Lists (IndexOrder R) (fun i b => ∃ x, xs[i.1]? = some x ∧ P x i.2 b) (xs.flatMap f) := by
  induction xs with
  | nil => exact nil fun i b => by simp
  | cons x xs ih =>
    have hx := (h x List.mem_cons_self).relabel (S := IndexOrder R) (fun j => (0, j))
      fun i j hij => Or.inr ⟨rfl, hij⟩
    have hxs := (ih fun y hy => h y (List.mem_cons_of_mem _ hy)).relabel (S := IndexOrder R)
      (fun i => (i.1 + 1, i.2)) (by
        rintro i j (hij | ⟨hij, hR⟩)
        · exact Or.inl (Nat.succ_lt_succ hij)
        · exact Or.inr ⟨congrArg Nat.succ hij, hR⟩)
    rw [List.flatMap_cons]
    refine (hx.append hxs ?_).congr ?_
    · rintro _ b _ c ⟨j, rfl, _⟩ ⟨i, rfl, _⟩
      exact Or.inl (Nat.succ_pos _)
    · rintro ⟨i, j⟩ b
      cases i with
      | zero => simp
      | succ i => simp [and_assoc]

theorem exists_of_mem (h : Lists R P out) {b : β} (hb : b ∈ out) : ∃ i, P i b := by
  obtain ⟨found, rfl, -, hmem⟩ := h
  obtain ⟨⟨i, b⟩, hfound, rfl⟩ := List.mem_map.mp hb
  exact ⟨i, (hmem i b).mp hfound⟩

theorem eq_nil_iff (h : Lists R P out) : out = [] ↔ ∀ i b, ¬ P i b := by
  obtain ⟨found, rfl, _, hmem⟩ := h
  rw [List.map_eq_nil_iff, List.eq_nil_iff_forall_not_mem]
  constructor
  · intro h i b hib
    exact h (i, b) ((hmem i b).mpr hib)
  · rintro h ⟨i, b⟩ hib
    exact h i b ((hmem i b).mp hib)

theorem unique (h : Lists R P out) (hirrefl : ∀ i, ¬ R i i) {i : ι} {b c : β} (hb : P i b)
    (hc : P i c) : b = c := by
  obtain ⟨found, _, hsorted, hmem⟩ := h
  rw [List.pairwise_iff_getElem] at hsorted
  obtain ⟨m, hm, hbm⟩ := List.mem_iff_getElem.mp ((hmem i b).mpr hb)
  obtain ⟨n, hn, hcn⟩ := List.mem_iff_getElem.mp ((hmem i c).mpr hc)
  rcases Nat.lt_trichotomy m n with hlt | rfl | hlt
  · have hR := hsorted m n hm hn hlt
    rw [hbm, hcn] at hR
    exact absurd hR (hirrefl i)
  · exact congrArg Prod.snd (hbm.symm.trans hcn)
  · have hR := hsorted n m hn hm hlt
    rw [hbm, hcn] at hR
    exact absurd hR (hirrefl i)

end Lists

end OrbIdl.Schema
