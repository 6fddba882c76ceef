/-! # Results that keep a record of the way to them -/

namespace OrbIdl

/-- How important a log record is, the most important first. -/
inductive Severity where
  | error
  | warn
  | debug
  | trace
deriving DecidableEq

namespace Severity

def rank : Severity → Nat
  | error => 1
  | warn => 2
  | debug => 3
  | trace => 4

def render : Severity → String
  | error => "ERROR"
  | warn => "WARN"
  | debug => "DEBUG"
  | trace => "TRACE"

end Severity

structure LogRecord where
  severity : Severity
  text : String
deriving DecidableEq

namespace LogRecord

def error (text : String) : LogRecord := ⟨.error, text⟩
def warn (text : String) : LogRecord := ⟨.warn, text⟩
def debug (text : String) : LogRecord := ⟨.debug, text⟩
def trace (text : String) : LogRecord := ⟨.trace, text⟩

def render (r : LogRecord) : String :=
  s!"{r.severity.render} {r.text}"

/-- At least as important as `least`. -/
def reaches (least : Severity) (r : LogRecord) : Bool :=
  r.severity.rank ≤ least.rank

end LogRecord

/-- A result or an error, with what was logged before it came. -/
structure Logged (ε α : Type) where
  log : List LogRecord
  result : Except ε α

namespace Logged

variable {ε α β : Type}

def pure (a : α) : Logged ε α := ⟨[], .ok a⟩

def fail (e : ε) : Logged ε α := ⟨[], .error e⟩

/-- A result that logs nothing. -/
def lift (r : Except ε α) : Logged ε α := ⟨[], r⟩

def note (r : LogRecord) : Logged ε Unit := ⟨[r], .ok ()⟩

/-- What comes after an error is neither run nor logged. -/
def bind (x : Logged ε α) (f : α → Logged ε β) : Logged ε β :=
  match x.result with
  | .error e => ⟨x.log, .error e⟩
  | .ok a => ⟨x.log ++ (f a).log, (f a).result⟩

/-- The same with another kind of error. -/
def mapError {ε' : Type} (f : ε → ε') (x : Logged ε α) : Logged ε' α :=
  ⟨x.log, x.result.mapError f⟩

instance : Monad (Logged ε) where
  pure := Logged.pure
  bind := Logged.bind

instance : MonadExceptOf ε (Logged ε) where
  throw := fail
  tryCatch x handler :=
    match x.result with
    | .error e => ⟨x.log ++ (handler e).log, (handler e).result⟩
    | .ok a => ⟨x.log, .ok a⟩

instance : MonadLift (Except ε) (Logged ε) where
  monadLift := lift

@[simp] theorem result_pure (a : α) : (Pure.pure a : Logged ε α).result = .ok a := rfl

@[simp] theorem result_fail (e : ε) : (fail e : Logged ε α).result = .error e := rfl

@[simp] theorem result_throw (e : ε) : (throw e : Logged ε α).result = .error e := rfl

@[simp] theorem result_lift (r : Except ε α) : (lift r).result = r := rfl

@[simp] theorem result_note (r : LogRecord) : (note r : Logged ε Unit).result = .ok () := rfl

/-- Without its log a sequence is the sequence of the results. -/
@[simp] theorem result_bind (x : Logged ε α) (f : α → Logged ε β) :
    (x >>= f).result = x.result >>= fun a => (f a).result := by
  show (Logged.bind x f).result = _
  unfold Logged.bind
  cases h : x.result <;> simp [Bind.bind, Except.bind]

instance : LawfulMonad (Logged ε) := by
  refine LawfulMonad.mk' (Logged ε) ?_ ?_ ?_
  · rintro α ⟨log, result⟩
    cases result <;> simp [Functor.map, Logged.bind, Logged.pure]
  · intro α β a f
    simp [Bind.bind, Pure.pure, Logged.bind, Logged.pure]
  · rintro α β γ ⟨log, result⟩ f g
    cases result with
    | error e => rfl
    | ok a => cases h : (f a).result <;> simp [Bind.bind, Logged.bind, h]

end Logged

end OrbIdl
