import OrbIdl.Span

/-! # What a diagnostic says and where -/

namespace OrbIdl

/-- How serious a remark is, the most serious first. -/
inductive Level where
  | internalError
  | error
  | note
  | help
deriving DecidableEq, Inhabited

namespace Level

def rank : Level → Nat
  | internalError => 1
  | error => 2
  | note => 3
  | help => 4

/-- The more serious of two levels. -/
def worse (a b : Level) : Level :=
  if b.rank < a.rank then b else a

def render : Level → String
  | internalError => "internal error"
  | error => "error"
  | note => "note"
  | help => "help"

theorem rank_worse (a b : Level) : (worse a b).rank = min a.rank b.rank := by
  cases a <;> cases b <;> rfl

theorem rank_inj {a b : Level} (h : a.rank = b.rank) : a = b := by
  cases a <;> cases b <;> simp_all [rank]

end Level

/-- A remark on a span, with or without words. -/
structure Remark where
  span : Span
  level : Level
  label : Option String
deriving DecidableEq

namespace Remark

/-- Marks a span as wrong without saying more. -/
def mark (span : Span) : Remark := ⟨span, .error, none⟩

def error (span : Span) (label : String) : Remark := ⟨span, .error, some label⟩

def note (span : Span) (label : String) : Remark := ⟨span, .note, some label⟩

def help (span : Span) (label : String) : Remark := ⟨span, .help, some label⟩

/-- Advice stands right after the remark that it belongs to, on the same span. -/
def withHelp (r : Remark) (label : String) : List Remark :=
  [r, help r.span label]

end Remark

/-- A message and the places that explain it. -/
structure Diagnostic where
  message : String
  remarks : List Remark
deriving DecidableEq

end OrbIdl
