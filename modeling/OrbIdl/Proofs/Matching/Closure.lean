import OrbIdl.Proofs.Matching.Language

/-!
# The closure of a particle

The loop behind a star and a plus keeps a stack of positions. A position is put there the first time
it is met and is taken from there once, so that the loop turns once for each position it reaches,
whatever the particle matches.
-/

namespace OrbIdl.Schema

open Relation
open scoped List

/-! ## What a run visits -/

namespace Worklist

variable {next : Nat → List Nat} {w : Worklist} {visited met : List Nat}

/-- What was met before and what is visited are what waited and what is met in the end. -/
theorem Drains.perm (h : Drains next w visited met) : w.seen ++ visited ~ w.frontier ++ met := by
  induction h with
  | done seen => simp
  | @visit pos rest seen visited met _ ih =>
    obtain ⟨fresh, hseen, hfrontier⟩ := exists_fresh ⟨rest, seen⟩ ((next pos).filter (pos < ·))
    rw [Worklist.visit, hseen, hfrontier] at ih
    -- What the visit meets stands on both sides of `ih` and is taken away.
    have hfresh :=
      calc fresh ++ (seen ++ visited)
          ~ seen ++ fresh ++ visited := by
            rw [← List.append_assoc]
            exact List.perm_append_comm.append_right visited
        _ ~ fresh.reverse ++ rest ++ met := ih
        _ ~ fresh ++ (rest ++ met) := by
            rw [List.append_assoc]
            exact fresh.reverse_perm.append_right _
    have hrest := (List.perm_append_left_iff fresh).mp hfresh
    exact List.perm_middle.trans (hrest.cons pos)

theorem Drains.unique {visited' met' : List Nat} (h : Drains next w visited met)
    (h' : Drains next w visited' met') : visited' = visited ∧ met' = met := by
  induction h generalizing visited' met' with
  | done =>
    cases h'
    exact ⟨rfl, rfl⟩
  | visit _ ih =>
    cases h' with
    | visit hrest =>
      obtain ⟨rfl, rfl⟩ := ih hrest
      exact ⟨rfl, rfl⟩

end Worklist

section

variable {next : Nat → List Nat} {last : Nat} {seeds : List Nat}

/-- The loop has one run, and it visits what it meets, each position once. -/
theorem reach_visits (hnext : Advances next last) (hnodup : seeds.Nodup)
    (hseeds : ∀ s ∈ seeds, s ≤ last) :
    ∃ visited,
      (∀ v met, Worklist.Drains next ⟨seeds.reverse, seeds⟩ v met ↔
        v = visited ∧ met = reach next last seeds) ∧
      visited ~ reach next last seeds := by
  obtain ⟨visited, hrun⟩ := reach_drains hnext hnodup hseeds
  refine ⟨visited, fun v met => ⟨hrun.unique, ?_⟩, ?_⟩
  · rintro ⟨rfl, rfl⟩
    exact hrun
  · have hperm : seeds ++ visited ~ seeds ++ reach next last seeds :=
      hrun.perm.trans (seeds.reverse_perm.append_right _)
    exact (List.perm_append_left_iff seeds).mp hperm

theorem length_reach_le (hnext : Advances next last) (hnodup : seeds.Nodup)
    (hseeds : ∀ s ∈ seeds, s ≤ last) : (reach next last seeds).length ≤ last + 1 :=
  (inv_reach hnext hnodup hseeds).length_le hnext hseeds

end

/-! ## The closure -/

/-- The closure of a particle from some seeds ends with one run, takes each position from its stack
once at most, and ends with the positions that any number of matches lead to, each once. -/
theorem closure_reaches_by_matches (s : Schema) (p : Particle) (names : List String)
    (seeds : List Nat) (hnodup : seeds.Nodup) (hseeds : ∀ seed ∈ seeds, seed ≤ names.length) :
    let next := p.ends s.entityValues names
    let closure := reach next names.length seeds
    (∃ visited,
      (∀ v met, Worklist.Drains next ⟨seeds.reverse, seeds⟩ v met ↔ v = visited ∧ met = closure) ∧
      visited.Nodup ∧ visited.length ≤ names.length + 1) ∧
    closure.Nodup ∧
    ∀ pos, pos ∈ closure ↔
      ∃ seed ∈ seeds, ReflTransGen (Spells names (p.language s.entityValues)) seed pos := by
  intro next closure
  have hexact (start : Nat) (hstart : start ≤ names.length) :
      Exact names (p.language s.entityValues) start (next start) := exact_ends p start hstart
  have hnext : Advances next names.length := advances_of_exact hexact
  have hclosure : closure.Nodup := nodup_reach hnext hnodup hseeds
  obtain ⟨visited, hruns, hperm⟩ := reach_visits hnext hnodup hseeds
  refine ⟨⟨visited, hruns, hperm.nodup_iff.mpr hclosure, ?_⟩, hclosure, fun pos => ?_⟩
  · rw [hperm.length_eq]
    exact length_reach_le hnext hnodup hseeds
  · rw [mem_reach_iff hnext hnodup hseeds, reached_iff hexact hseeds]
    exact exists_congr fun seed => and_congr_right fun hseed =>
      spells_kstar_iff (hseeds seed hseed)

theorem closure_of_optional :
    let s : Schema := ⟨"", "", [⟨"Sides", ["left", "right"]⟩], []⟩
    let p := Particle.optional (.entity "Sides")
    let names := ["right", "left"]
    let next := p.ends s.entityValues names
    ([2, 0].Nodup ∧ ∀ seed ∈ [2, 0], seed ≤ names.length) ∧
    (∃ visited,
      (∀ v met, Worklist.Drains next ⟨[0, 2], [2, 0]⟩ v met ↔ v = visited ∧ met = [2, 0, 1]) ∧
      visited.Nodup ∧ visited.length ≤ 3) ∧
    ∃ seed ∈ [2, 0], ReflTransGen (Spells names (p.language s.entityValues)) seed 1 := by
  intro s p names next
  have hnodup : [2, 0].Nodup := by decide
  have hseeds : ∀ seed ∈ [2, 0], seed ≤ names.length := by decide
  have h := closure_reaches_by_matches s p names [2, 0] hnodup hseeds
  exact ⟨⟨hnodup, hseeds⟩, h.1, (h.2.2 1).mp (by decide)⟩

end OrbIdl.Schema
