import OrbIdl.Compile
import OrbIdl.Proofs.Results

/-! # What a backend receives in a run -/

namespace OrbIdl.Emission

variable {σ : Type} {backend : Backend σ} {s s' : σ}

/-! ## Calls that are made -/

/-- The calls among some steps, in order. -/
def callsOf (steps : List Step) : List Call :=
  steps.filterMap (·.call?)

@[simp] theorem callsOf_nil : callsOf [] = [] := rfl

@[simp] theorem callsOf_note (r : LogRecord) (steps : List Step) :
    callsOf (.note r :: steps) = callsOf steps := rfl

@[simp] theorem callsOf_call (c : Call) (steps : List Step) :
    callsOf (.call c :: steps) = c :: callsOf steps := rfl

@[simp] theorem callsOf_append (steps steps' : List Step) :
    callsOf (steps ++ steps') = callsOf steps ++ callsOf steps' :=
  List.filterMap_append

/-- The same backend with a record of all calls that reach it, those that it refuses included. -/
def traced (backend : Backend σ) : Backend (σ × List Call) := fun (s, received) c =>
  let response := backend s c
  ⟨(response.state, received ++ [c]), response.log, response.result⟩

theorem result_recorder_none (calls : List Call) (c : Call) :
    (recorder none calls c).result = .ok () := rfl

/-- The backend takes the calls one after the other, which leads it from one state to another. -/
inductive Takes (backend : Backend σ) : σ → List Call → σ → Prop where
  | nil (s : σ) : Takes backend s [] s
  | cons {s s' : σ} {c : Call} {cs : List Call} (hc : (backend s c).result = .ok ())
      (hcs : Takes backend (backend s c).state cs s') : Takes backend s (c :: cs) s'

theorem Takes.of_never_refuses (h : ∀ s c, (backend s c).result = .ok ()) (s : σ)
    (cs : List Call) : ∃ s', Takes backend s cs s' := by
  induction cs generalizing s with
  | nil => exact ⟨s, .nil s⟩
  | cons c cs ih =>
    obtain ⟨s', hs'⟩ := ih (backend s c).state
    exact ⟨s', .cons (h s c) hs'⟩

theorem Takes.append {s s' s'' : σ} {cs cs' : List Call} (h : Takes backend s cs s')
    (h' : Takes backend s' cs' s'') : Takes backend s (cs ++ cs') s'' := by
  induction h with
  | nil s => exact h'
  | cons hc _ ih => exact .cons hc (ih h')

/-! ## Runs -/

/-- The record is kept beside a run and does not change it. -/
theorem run_eq_run_traced (s : σ) (received : List Call) (steps : List Step) :
    run backend s steps =
      let r := run (traced backend) (s, received) steps
      ⟨r.state.1, r.log, r.result⟩ := by
  induction steps generalizing s received with
  | nil => rfl
  | cons step steps ih =>
    cases step with
    | note r => simp only [run, ih s received]
    | call c =>
      cases hc : (backend s c).result with
      | error e => simp only [run, traced, hc]
      | ok _ =>
        rw [run, run]
        simp only [traced, hc, ih (backend s c).state (received ++ [c])]

theorem run_of_takes {steps : List Step} (received : List Call)
    (h : Takes backend s (callsOf steps) s') :
    (run (traced backend) (s, received) steps).state = (s', received ++ callsOf steps) ∧
      (run (traced backend) (s, received) steps).result = .ok () := by
  induction steps generalizing s received with
  | nil =>
    cases h
    simp [run, Response.accept]
  | cons step steps ih =>
    cases step with
    | note r => exact ih received h
    | call c =>
      rw [callsOf_call] at h
      cases h with
      | cons hc hcs =>
        obtain ⟨hstate, hresult⟩ := ih (received ++ [c]) hcs
        simp only [run, traced, hc]
        exact ⟨by simpa [traced] using hstate, hresult⟩

theorem run_of_refused {steps : List Step} {before after : List Call} {c : Call} {e : EmitError}
    (received : List Call) (hsteps : callsOf steps = before ++ c :: after)
    (h : Takes backend s before s') (hc : (backend s' c).result = .error e) :
    (run (traced backend) (s, received) steps).state =
        ((backend s' c).state, received ++ before ++ [c]) ∧
      (run (traced backend) (s, received) steps).result = .error e := by
  induction steps generalizing s received before with
  | nil => simp at hsteps
  | cons step steps ih =>
    cases step with
    | note r => exact ih received hsteps h
    | call c' =>
      rw [callsOf_call] at hsteps
      cases h with
      | nil =>
        obtain ⟨rfl, -⟩ := List.cons.inj hsteps
        simp [run, traced, hc]
      | cons hc' hcs =>
        obtain ⟨rfl, hrest⟩ := List.cons.inj hsteps
        obtain ⟨hstate, hresult⟩ := ih (received ++ [c']) hrest hcs
        simp only [run, traced, hc']
        exact ⟨by simpa [traced] using hstate, hresult⟩

end OrbIdl.Emission

namespace OrbIdl

open Emission

variable {σ : Type} {backend : Backend σ} {s s' : σ} {options : Options}
  {document : Model.Document} {source : String}

/-! ## Who is at fault -/

/-- The source is at fault, and not the backend. -/
def CompileError.ofSource : CompileError → Bool
  | unreadable _ | invalid _ | faulty _ => true
  | aborted _ => false

theorem checkedTree_error {mappings : Schema.Mappings} {source : String} {e : CompileError}
    (h : checkedTree mappings source = .error e) : e.ofSource = true := by
  rw [checkedTree, bind_eq_error_iff] at h
  obtain h | ⟨document, _, h⟩ := h
  · obtain ⟨_, _, rfl⟩ := mapError_eq_error_iff.mp h
    rfl
  rw [bind_eq_error_iff] at h
  obtain h | ⟨_, _, h⟩ := h
  · obtain ⟨_, _, rfl⟩ := mapError_eq_error_iff.mp h
    rfl
  split at h
  · cases h
  · cases h
    rfl

/-- Before there is a document only the source can be at fault. -/
theorem readDocument_error {mappings : Schema.Mappings} {source : String} {e : CompileError}
    (h : (readDocument mappings source).result = .error e) : e.ofSource = true := by
  rw [readDocument, Logged.bind_error_iff] at h
  obtain h | ⟨root, _, h⟩ := h
  · exact checkedTree_error h
  rw [Logged.bind_error_iff] at h
  obtain h | ⟨_, _, h⟩ := h
  · cases h
  · obtain ⟨_, _, rfl⟩ := mapError_eq_error_iff.mp h
    rfl

/-! ## The backend on a document -/

theorem emit_eq_emit_traced (s : σ) (options : Options) (document : Model.Document) :
    emit backend s options document =
      let r := emit (traced backend) (s, []) options document
      ⟨r.state.1, r.log, r.result⟩ := by
  unfold emit
  rw [run_eq_run_traced s []]
  dsimp only
  split <;> rfl

theorem emit_of_takes (h : Takes backend s (calls options document) s') :
    (emit (traced backend) (s, []) options document).state = (s', calls options document) ∧
      (emit (traced backend) (s, []) options document).result = .ok () := by
  obtain ⟨hstate, hresult⟩ := run_of_takes [] h
  unfold emit
  simp only [hresult]
  exact ⟨hstate, trivial⟩

theorem emit_of_refused {before after : List Call} {c : Call} {e : EmitError}
    (hcalls : calls options document = before ++ c :: after) (h : Takes backend s before s')
    (hc : (backend s' c).result = .error e) :
    (emit (traced backend) (s, []) options document).state =
        ((backend s' c).state, before ++ [c]) ∧
      (emit (traced backend) (s, []) options document).result = .error (.aborted e) := by
  obtain ⟨hstate, hresult⟩ := run_of_refused [] hcalls h hc
  unfold emit
  simp only [hresult]
  exact ⟨hstate, trivial⟩

/-- Where all calls but the last are taken, the last one decides. -/
theorem emit_of_last {before : List Call} {c : Call}
    (hcalls : calls options document = before ++ [c]) (h : Takes backend s before s') :
    (emit backend s options document).state = (backend s' c).state ∧
      (emit backend s options document).result = (backend s' c).result.mapError .aborted := by
  rw [emit_eq_emit_traced]
  dsimp only
  cases hc : (backend s' c).result with
  | ok _ =>
    have hall : Takes backend s (calls options document) (backend s' c).state := by
      rw [hcalls]
      exact h.append (.cons hc (.nil _))
    obtain ⟨hstate, hresult⟩ := emit_of_takes hall
    rw [hstate, hresult]
    exact ⟨rfl, rfl⟩
  | error e =>
    obtain ⟨hstate, hresult⟩ := emit_of_refused hcalls h hc
    rw [hstate, hresult]
    exact ⟨rfl, rfl⟩

/-- A backend that never refuses receives the calls that are laid out, whatever it does. -/
theorem received_of_never_refuses (h : ∀ s c, (backend s c).result = .ok ()) (s : σ)
    (options : Options) (document : Model.Document) :
    (emit (traced backend) (s, []) options document).state.2 = calls options document := by
  obtain ⟨s', hs'⟩ := Takes.of_never_refuses h s (calls options document)
  rw [(emit_of_takes hs').1]

theorem emit_error {e : CompileError}
    (h : (emit backend s options document).result = .error e) : e.ofSource = false := by
  unfold emit at h
  dsimp only at h
  split at h
  · cases h
  · cases h
    rfl

/-! ## Compilation -/

theorem compile_of_error {e : CompileError}
    (h : (readDocument options.mappings source).result = .error e) :
    compile backend s options source =
      ⟨s, (readDocument options.mappings source).log ++ [.error e.message], .error e⟩ := by
  unfold compile
  simp only [h]

theorem compile_of_document
    (h : (readDocument options.mappings source).result = .ok document) :
    compile backend s options source =
      let r := emit backend s options document
      { r with log := (readDocument options.mappings source).log ++ r.log } := by
  unfold compile
  simp only [h]

theorem readDocument_emptyGlobals :
    (readDocument [] "<CIDIDL:Interface><CIDIDL:Globals/></CIDIDL:Interface>").result =
      .ok ⟨[⟨[], ⟨18, 17⟩⟩], none⟩ := by
  rw [← toOption_eq_some_iff]
  decide +kernel

theorem readDocument_unclosed :
    ∃ e, (readDocument [] "<CIDIDL:Interface>").result = .error e := by
  rw [← toOption_eq_none_iff]
  decide +kernel

end OrbIdl
