import Mathlib.Data.List.Nodup
import Mathlib.Logic.Relation
import OrbIdl.Schema.Particle

/-! # What the worklist reaches -/

namespace OrbIdl.Schema

open Relation

/-! ## Lists without duplicates -/

@[simp] theorem mem_insertNew (out : List Nat) (pos x : Nat) :
    x ∈ insertNew out pos ↔ x ∈ out ∨ x = pos := by
  unfold insertNew
  split
  · rename_i h
    rw [List.contains_iff_mem] at h
    constructor
    · exact Or.inl
    · rintro (hx | rfl)
      · exact hx
      · exact h
  · simp

theorem nodup_insertNew (out : List Nat) (pos : Nat) (h : out.Nodup) : (insertNew out pos).Nodup := by
  unfold insertNew
  split
  · exact h
  · rename_i hpos
    rw [List.contains_iff_mem] at hpos
    rw [List.nodup_append]
    refine ⟨h, by simp, ?_⟩
    rintro x hx y hy rfl
    rw [List.mem_singleton] at hy
    exact hpos (hy ▸ hx)

@[simp] theorem mem_insertAll (out more : List Nat) (x : Nat) :
    x ∈ insertAll out more ↔ x ∈ out ∨ x ∈ more := by
  unfold insertAll
  induction more generalizing out with
  | nil => simp
  | cons pos more ih =>
    rw [List.foldl_cons, ih, mem_insertNew, List.mem_cons, or_assoc]

theorem nodup_insertAll (out more : List Nat) (h : out.Nodup) : (insertAll out more).Nodup := by
  unfold insertAll
  induction more generalizing out with
  | nil => exact h
  | cons pos more ih => exact ih _ (nodup_insertNew _ _ h)

/-! ## Meeting positions -/

namespace Worklist

theorem seen_meet (w : Worklist) (pos : Nat) : (w.meet pos).seen = insertNew w.seen pos := by
  unfold meet insertNew
  split <;> rfl

theorem mem_frontier_meet (w : Worklist) (pos x : Nat) :
    x ∈ (w.meet pos).frontier ↔ x ∈ w.frontier ∨ (x = pos ∧ x ∉ w.seen) := by
  unfold meet
  split
  · rename_i h
    rw [List.contains_iff_mem] at h
    constructor
    · exact Or.inl
    · rintro (hx | ⟨rfl, hx⟩)
      · exact hx
      · exact absurd h hx
  · rename_i h
    rw [List.contains_iff_mem] at h
    rw [List.mem_cons]
    constructor
    · rintro (rfl | hx)
      · exact Or.inr ⟨rfl, h⟩
      · exact Or.inl hx
    · rintro (hx | ⟨rfl, _⟩)
      · exact Or.inr hx
      · exact Or.inl rfl

theorem seen_meets (w : Worklist) (ps : List Nat) :
    (ps.foldl meet w).seen = insertAll w.seen ps := by
  induction ps generalizing w with
  | nil => rfl
  | cons p ps ih =>
    rw [List.foldl_cons, ih, seen_meet]
    rfl

theorem mem_frontier_meets (w : Worklist) (ps : List Nat) (x : Nat) :
    x ∈ (ps.foldl meet w).frontier ↔ x ∈ w.frontier ∨ (x ∈ ps ∧ x ∉ w.seen) := by
  induction ps generalizing w with
  | nil => simp
  | cons p ps ih =>
    rw [List.foldl_cons, ih, mem_frontier_meet, seen_meet, mem_insertNew, List.mem_cons]
    by_cases h : x = p <;> simp [h]

/-- Every position that waits was met, and none is met or waits twice. -/
structure Proper (w : Worklist) : Prop where
  seen : w.seen.Nodup
  frontier : w.frontier.Nodup
  waiting : ∀ p ∈ w.frontier, p ∈ w.seen

theorem Proper.meet {w : Worklist} (h : w.Proper) (pos : Nat) : (w.meet pos).Proper where
  seen := by
    rw [seen_meet]
    exact nodup_insertNew _ _ h.seen
  frontier := by
    unfold Worklist.meet
    split
    · exact h.frontier
    · rename_i hpos
      rw [List.contains_iff_mem] at hpos
      exact List.nodup_cons.mpr ⟨fun hp => hpos (h.waiting pos hp), h.frontier⟩
  waiting := by
    intro p hp
    rw [seen_meet, mem_insertNew]
    rcases (mem_frontier_meet w pos p).mp hp with hp | ⟨rfl, _⟩
    · exact Or.inl (h.waiting p hp)
    · exact Or.inr rfl

theorem Proper.meets {w : Worklist} (h : w.Proper) (ps : List Nat) :
    (ps.foldl Worklist.meet w).Proper := by
  induction ps generalizing w with
  | nil => exact h
  | cons p ps ih => exact ih (h.meet p)

/-- What is met for the first time is added to both lists. -/
theorem exists_fresh (w : Worklist) (ps : List Nat) :
    ∃ fresh, (ps.foldl meet w).seen = w.seen ++ fresh ∧
      (ps.foldl meet w).frontier = fresh.reverse ++ w.frontier := by
  induction ps generalizing w with
  | nil => exact ⟨[], by simp⟩
  | cons p ps ih =>
    obtain ⟨fresh, hseen, hfrontier⟩ := ih (w.meet p)
    rw [List.foldl_cons, hseen, hfrontier]
    unfold meet
    split
    · exact ⟨fresh, rfl, rfl⟩
    · exact ⟨p :: fresh, by simp⟩

theorem length_meets (w : Worklist) (ps : List Nat) :
    (ps.foldl meet w).frontier.length + w.seen.length =
      w.frontier.length + (ps.foldl meet w).seen.length := by
  obtain ⟨fresh, hseen, hfrontier⟩ := exists_fresh w ps
  rw [hseen, hfrontier, List.length_append, List.length_append, List.length_reverse]
  omega

/-! ## The loop without a bound -/

/-- The loop that visits until nothing waits: from `w` it visits `visited`, in this order, and ends
with `met`. -/
inductive Drains (next : Nat → List Nat) : Worklist → List Nat → List Nat → Prop where
  | done (seen : List Nat) : Drains next ⟨[], seen⟩ [] seen
  | visit {pos : Nat} {rest seen visited met : List Nat}
      (h : Drains next (visit next ⟨pos :: rest, seen⟩) visited met) :
      Drains next ⟨pos :: rest, seen⟩ (pos :: visited) met

theorem run_of_nil (next : Nat → List Nat) (n : Nat) (seen : List Nat) :
    run next n ⟨[], seen⟩ = ⟨[], seen⟩ := by
  induction n with
  | zero => rfl
  | succ n ih => exact ih

end Worklist

/-! ## Reachability -/

/-- From a position up to `last` all steps lead forward or stay, and not past `last`. -/
def Advances (next : Nat → List Nat) (last : Nat) : Prop :=
  ∀ p ≤ last, ∀ q ∈ next p, p ≤ q ∧ q ≤ last

def Reached (next : Nat → List Nat) (seeds : List Nat) (p : Nat) : Prop :=
  ∃ s ∈ seeds, ReflTransGen (fun a b => b ∈ next a) s p

theorem Reached.le {next : Nat → List Nat} {last : Nat} {seeds : List Nat} {p : Nat}
    (h : Reached next seeds p) (hnext : Advances next last) (hseeds : ∀ s ∈ seeds, s ≤ last) :
    p ≤ last := by
  obtain ⟨s, hs, hp⟩ := h
  induction hp with
  | refl => exact hseeds s hs
  | tail _ hstep ih => exact (hnext _ ih _ hstep).2

/-- What holds of a worklist whenever the loop looks at it. -/
structure Worklist.Inv (next : Nat → List Nat) (seeds : List Nat) (w : Worklist) : Prop where
  proper : w.Proper
  seeds_met : ∀ s ∈ seeds, s ∈ w.seen
  reached : ∀ p ∈ w.seen, Reached next seeds p
  closed : ∀ p ∈ w.seen, p ∉ w.frontier → ∀ q ∈ next p, q ∈ w.seen

namespace Worklist

variable {next : Nat → List Nat} {last : Nat} {seeds : List Nat}

theorem Inv.start (h : seeds.Nodup) : Inv next seeds ⟨seeds.reverse, seeds⟩ where
  proper := ⟨h, List.nodup_reverse.mpr h, fun _ hp => List.mem_reverse.mp hp⟩
  seeds_met := fun _ hs => hs
  reached := fun p hp => ⟨p, hp, .refl⟩
  closed := fun _ hp hwait => absurd (List.mem_reverse.mpr hp) hwait

theorem Inv.visit {pos : Nat} {rest seen : List Nat} (h : Inv next seeds ⟨pos :: rest, seen⟩)
    (hnext : Advances next last) (hseeds : ∀ s ∈ seeds, s ≤ last) :
    Inv next seeds (visit next ⟨pos :: rest, seen⟩) := by
  have hpos : pos ∈ seen := h.proper.waiting pos List.mem_cons_self
  have hle : pos ≤ last := (h.reached pos hpos).le hnext hseeds
  have hproper : Proper ⟨rest, seen⟩ :=
    ⟨h.proper.seen, (List.nodup_cons.mp h.proper.frontier).2,
      fun p hp => h.proper.waiting p (List.mem_cons_of_mem _ hp)⟩
  have hmet (x : Nat) : x ∈ (Worklist.visit next ⟨pos :: rest, seen⟩).seen ↔
      x ∈ seen ∨ x ∈ (next pos).filter (pos < ·) := by
    rw [Worklist.visit, seen_meets, mem_insertAll]
  have hwait (x : Nat) : x ∈ (Worklist.visit next ⟨pos :: rest, seen⟩).frontier ↔
      x ∈ rest ∨ (x ∈ (next pos).filter (pos < ·) ∧ x ∉ seen) := mem_frontier_meets _ _ _
  refine ⟨hproper.meets _, ?_, ?_, ?_⟩
  · intro s hs
    exact (hmet s).mpr (Or.inl (h.seeds_met s hs))
  · -- What is met now was met before or is one step from the visited position.
    intro p hp
    rcases (hmet p).mp hp with hp | hp
    · exact h.reached p hp
    · obtain ⟨s, hs, hreach⟩ := h.reached pos hpos
      exact ⟨s, hs, hreach.tail (List.mem_filter.mp hp).1⟩
  · intro p hp hnot q hq
    rw [hwait] at hnot
    by_cases hpp : p = pos
    · -- A step of the visited position leads forward and is met, or it stays.
      rw [hpp] at hq
      rcases Nat.lt_or_eq_of_le (hnext pos hle q hq).1 with hlt | heq
      · exact (hmet q).mpr (Or.inr (List.mem_filter.mpr ⟨hq, by simpa using hlt⟩))
      · exact (hmet q).mpr (Or.inl (heq ▸ hpos))
    · have hseen : p ∈ seen := by
        rcases (hmet p).mp hp with hp | hp
        · exact hp
        · exact Classical.not_not.mp fun hn => hnot (Or.inr ⟨hp, hn⟩)
      have hfront : p ∉ pos :: rest := by
        intro hmem
        rcases List.mem_cons.mp hmem with rfl | hmem
        · exact hpp rfl
        · exact hnot (Or.inl hmem)
      exact (hmet q).mpr (Or.inl (h.closed p hseen hfront q hq))

theorem Drains.inv {w : Worklist} {visited met : List Nat} (hrun : Drains next w visited met)
    (h : Inv next seeds w) (hnext : Advances next last) (hseeds : ∀ s ∈ seeds, s ≤ last) :
    Inv next seeds ⟨[], met⟩ := by
  induction hrun with
  | done => exact h
  | visit _ ih => exact ih (h.visit hnext hseeds)

theorem Inv.length_le {w : Worklist} (h : Inv next seeds w) (hnext : Advances next last)
    (hseeds : ∀ s ∈ seeds, s ≤ last) : w.seen.length ≤ last + 1 := by
  have hsub : w.seen ⊆ List.range (last + 1) := by
    intro p hp
    have := (h.reached p hp).le hnext hseeds
    rw [List.mem_range]
    omega
  simpa using h.proper.seen.length_le_of_subset hsub

/-- Enough visits for the positions that wait and those not met yet drain the worklist. -/
theorem run_drains (n : Nat) (w : Worklist) (h : Inv next seeds w) (hnext : Advances next last)
    (hseeds : ∀ s ∈ seeds, s ≤ last)
    (hn : w.frontier.length + (last + 1) ≤ n + w.seen.length) :
    ∃ visited, Drains next w visited (run next n w).seen := by
  -- A visit uses up one waiting position, and what it meets counts on both sides.
  induction n generalizing w with
  | zero =>
    have hle := h.length_le hnext hseeds
    obtain ⟨frontier, seen⟩ := w
    simp only at hn hle
    obtain rfl : frontier = [] := List.eq_nil_of_length_eq_zero (by omega)
    exact ⟨[], .done seen⟩
  | succ n ih =>
    obtain ⟨frontier, seen⟩ := w
    cases frontier with
    | nil =>
      rw [run_of_nil]
      exact ⟨[], .done seen⟩
    | cons pos rest =>
      have hlen := length_meets ⟨rest, seen⟩ ((next pos).filter (pos < ·))
      simp only [List.length_cons] at hn
      obtain ⟨visited, hv⟩ := ih (Worklist.visit next ⟨pos :: rest, seen⟩) (h.visit hnext hseeds) (by
        simp only [Worklist.visit] at hlen ⊢
        omega)
      exact ⟨pos :: visited, .visit hv⟩

end Worklist

/-! ## What `reach` computes -/

section

variable {next : Nat → List Nat} {last : Nat} {seeds : List Nat}

/-- The bound of `reach` is never met: the loop without it ends with the same positions. -/
theorem reach_drains (hnext : Advances next last) (hnodup : seeds.Nodup)
    (hseeds : ∀ s ∈ seeds, s ≤ last) :
    ∃ visited, Worklist.Drains next ⟨seeds.reverse, seeds⟩ visited (reach next last seeds) :=
  Worklist.run_drains _ _ (.start hnodup) hnext hseeds (by simp; omega)

theorem inv_reach (hnext : Advances next last) (hnodup : seeds.Nodup)
    (hseeds : ∀ s ∈ seeds, s ≤ last) : Worklist.Inv next seeds ⟨[], reach next last seeds⟩ := by
  obtain ⟨_, h⟩ := reach_drains hnext hnodup hseeds
  exact h.inv (.start hnodup) hnext hseeds

theorem nodup_reach (hnext : Advances next last) (hnodup : seeds.Nodup)
    (hseeds : ∀ s ∈ seeds, s ≤ last) : (reach next last seeds).Nodup :=
  (inv_reach hnext hnodup hseeds).proper.seen

theorem mem_reach_iff (hnext : Advances next last) (hnodup : seeds.Nodup)
    (hseeds : ∀ s ∈ seeds, s ≤ last) (p : Nat) :
    p ∈ reach next last seeds ↔ Reached next seeds p := by
  have h := inv_reach hnext hnodup hseeds
  constructor
  · exact h.reached p
  · rintro ⟨s, hs, hp⟩
    induction hp with
    | refl => exact h.seeds_met s hs
    | tail _ hstep ih => exact h.closed _ ih List.not_mem_nil _ hstep

end

end OrbIdl.Schema
