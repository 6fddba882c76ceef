/-! # Sets of characters given by ranges -/

namespace OrbIdl.Text

/-- A set of code points: closed ranges, in ascending order. -/
abbrev Ranges := List (Nat × Nat)

namespace Ranges

/-- The code point of `c` lies in one of the ranges. -/
def contains (ranges : Ranges) (c : Char) : Bool :=
  ranges.any fun r => r.1 ≤ c.toNat && c.toNat ≤ r.2

theorem contains_iff (ranges : Ranges) (c : Char) :
    ranges.contains c = true ↔ ∃ r ∈ ranges, r.1 ≤ c.toNat ∧ c.toNat ≤ r.2 := by
  simp [contains]

end Ranges

end OrbIdl.Text
