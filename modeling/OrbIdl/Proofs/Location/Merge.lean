import OrbIdl.Proofs.Location.Nesting

/-!
# The span that covers two

A span whose end does not fit into 32 bits ends at the largest number. A merged span has the exact
distance as its length, so that it ends where the later of the two ends, held or not.
-/

namespace OrbIdl.Span

theorem eq_of_toNat {a b : Span} (hoffset : a.offset.toNat = b.offset.toNat)
    (hlength : a.length.toNat = b.length.toNat) : a = b := by
  obtain ⟨_, _⟩ := a
  obtain ⟨_, _⟩ := b
  rw [UInt32.toNat_inj] at hoffset hlength
  rw [mk.injEq]
  exact ⟨hoffset, hlength⟩

/-- The end of a merged span is the exact sum, also where those of the two are not. -/
theorem toNat_offset_add_length_merge (a b : Span) :
    (a.merge b).offset.toNat + (a.merge b).length.toNat = max a.stop.toNat b.stop.toNat := by
  have hoffset := a.offset_le_stop
  rw [toNat_offset_merge, toNat_length_merge]
  omega

theorem merge_comm (a b : Span) : a.merge b = b.merge a := by
  apply eq_of_toNat
  · rw [toNat_offset_merge, toNat_offset_merge, Nat.min_comm]
  · rw [toNat_length_merge, toNat_length_merge, Nat.min_comm, Nat.max_comm]

theorem merge_assoc (a b c : Span) : (a.merge b).merge c = a.merge (b.merge c) := by
  apply eq_of_toNat
  · simp only [toNat_offset_merge, Nat.min_assoc]
  · simp only [toNat_length_merge, toNat_offset_merge, toNat_stop_merge, Nat.min_assoc,
      Nat.max_assoc]

theorem merge_within_iff {a b c : Span} : (a.merge b).Within c ↔ a.Within c ∧ b.Within c := by
  rw [within_iff, within_iff, within_iff, toNat_offset_merge, toNat_stop_merge]
  omega

/-- Merging gives the least span around two, whether or not their ends are held to 32 bits: nothing
is subtracted from less, order and grouping do not matter, and what both lie within is what the
merged span lies within. -/
theorem merge_least_upper_bound (a b c : Span) :
    min a.offset b.offset ≤ max a.stop b.stop ∧
    (a.merge b).offset.toNat + (a.merge b).length.toNat = max a.stop.toNat b.stop.toNat ∧
    a.merge b = b.merge a ∧
    (a.merge b).merge c = a.merge (b.merge c) ∧
    (a.Within (a.merge b) ∧ b.Within (a.merge b)) ∧
    ((a.merge b).Within c ↔ a.Within c ∧ b.Within c) :=
  ⟨min_offset_le_max_stop a b, toNat_offset_add_length_merge a b, merge_comm a b, merge_assoc a b c,
    merge_within_iff.mp (Within.refl _), merge_within_iff⟩

example : (⟨0xFFFFFFF0, 100⟩ : Span).merge ⟨5, 2⟩ = ⟨5, 0xFFFFFFFA⟩ := by decide

end OrbIdl.Span
