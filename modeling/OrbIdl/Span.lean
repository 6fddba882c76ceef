/-! # Byte intervals of a document -/

namespace OrbIdl

/-- A byte interval: where it begins and how long it is, both held to 32 bits. -/
structure Span where
  offset : UInt32
  length : UInt32
deriving DecidableEq, Inhabited

namespace Span

/-- The nearest 32-bit number: a larger one becomes the largest. -/
def clamp (n : Nat) : UInt32 :=
  if h : n < UInt32.size then UInt32.ofNatLT n h else 0xFFFFFFFF

theorem toNat_clamp (n : Nat) : (clamp n).toNat = min n (UInt32.size - 1) := by
  unfold clamp
  split
  · rename_i h
    simp only [UInt32.toNat_ofNatLT]
    omega
  · simp [UInt32.size] at *
    omega

/-- The place of what the document does not spell out. -/
def unknown : Span := ⟨0, 0⟩

def ofBytes (offset length : Nat) : Span :=
  ⟨clamp offset, clamp length⟩

/-- The bytes from `start` up to `stop`; none when `stop` comes first. -/
def ofInterval (start stop : Nat) : Span :=
  ofBytes start (stop - start)

/-- One past the last byte, held to 32 bits. -/
def stop (s : Span) : UInt32 :=
  clamp (s.offset.toNat + s.length.toNat)

theorem toNat_stop (s : Span) :
    s.stop.toNat = min (s.offset.toNat + s.length.toNat) (UInt32.size - 1) :=
  toNat_clamp _

theorem offset_le_stop (s : Span) : s.offset.toNat ≤ s.stop.toNat := by
  have h := s.offset.toNat_lt
  rw [toNat_stop]
  simp only [UInt32.size]
  omega

def isEmpty (s : Span) : Bool :=
  s.length == 0

/-- The empty spans at the two ends. -/
def endpoints (s : Span) : Span × Span :=
  (⟨s.offset, 0⟩, ⟨s.stop, 0⟩)

/-- The span that covers both and all between them. -/
def merge (a b : Span) : Span :=
  let start := min a.offset b.offset
  ⟨start, max a.stop b.stop - start⟩

/-- `a` begins and ends inside `b`. -/
def Within (a b : Span) : Prop :=
  b.offset ≤ a.offset ∧ a.stop ≤ b.stop

instance (a b : Span) : Decidable (a.Within b) :=
  inferInstanceAs (Decidable (_ ∧ _))

/-- The span as counted from the beginning of `parent`, if it lies within it. -/
def relativeTo? (s parent : Span) : Option Span :=
  if s.Within parent then some ⟨s.offset - parent.offset, s.length⟩ else none

/-- Spans are ordered by where they begin, then by length. -/
def compare (a b : Span) : Ordering :=
  (Ord.compare a.offset.toNat b.offset.toNat).then (Ord.compare a.length.toNat b.length.toNat)

def render (s : Span) : String :=
  s!"[{s.offset}, {s.stop}]"

end Span

end OrbIdl
