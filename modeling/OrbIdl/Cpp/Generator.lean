import OrbIdl.Cpp.FilePair

/-! # The backend that writes C++

Nothing is written before the run ends; then all files go to the sink at once.
-/

namespace OrbIdl.Cpp

open Model Emission Output

/-- The state of the backend over a sink with state `σ`. -/
structure Generator (σ : Type) where
  sink : σ
  interfaceName : String := ""
  /-- The pair that calls add to. -/
  current : FilePair := {}
  /-- Globals that wait for a further section with the same header. -/
  parked : Option FilePair := none
  /-- Finished files that wait for the end of the run. -/
  pending : List File := []

namespace Generator

variable {σ : Type}

/-- A backend that has not answered any call. -/
def fresh (sink : σ) : Generator σ := { sink }

/-- Finishes a pair: its files wait for the end of the run. -/
def close (g : Generator σ) (p : FilePair) : Generator σ :=
  { g with pending := g.pending ++ p.files }

/-- Changes the pair that calls add to. -/
def edit (g : Generator σ) (change : FilePair → FilePair) : Generator σ :=
  { g with current := change g.current }

/-- The record that a pair was begun. -/
def begun (p : FilePair) : LogRecord :=
  .trace s!"began {p.frame.kind.name} unit {p.frame.header.text}"

/-! ## Sections -/

/-- Globals with the header of those that wait go on in the same pair; others finish it. -/
def beginGlobals (g : Generator σ) (d : Destination) : Generator σ :=
  let p := FilePair.globals d
  match g.parked with
  | some parked =>
    if parked.frame.header.same p.frame.header then { g with current := parked, parked := none }
    else { g with current := p, parked := none }.close parked
  | none => { g with current := p }

def endGlobals (g : Generator σ) : Generator σ :=
  { g with current := {}, parked := some g.current }

/-- Finishes the pair that calls add to. -/
def closeCurrent (g : Generator σ) : Generator σ :=
  { g with current := {} }.close g.current

/-! ## The run -/

/-- Forgets what an earlier run left behind. -/
def beginRun (g : Generator σ) : Generator σ :=
  { g with parked := none, pending := [] }

/-- All files of the run: those that wait, and last the globals. -/
def outputs (g : Generator σ) : List File :=
  g.pending ++ (g.parked.map (·.files)).getD []

/-- Hands all files over. Whether or not the sink takes them, none is left. -/
def endRun (sink : Sink σ) (g : Generator σ) : Response (Generator σ) :=
  let (state, result) := writeAll sink g.sink g.outputs
  ⟨{ g with sink := state, parked := none, pending := [] }, [],
    result.mapError fun (path, error) => .write path error⟩

/-! ## Answers -/

/-- The backend that hands its files to `sink`. -/
def backend (sink : Sink σ) : Backend (Generator σ) := fun g call =>
  match call with
  | .beginRun => .accept g.beginRun []
  | .endRun => endRun sink g
  | .beginGlobals d => .accept (g.beginGlobals d) [begun (FilePair.globals d)]
  | .endGlobals => .accept g.endGlobals []
  | .beginInterface name _ => .accept { g with interfaceName := name } []
  | .endInterface => .accept { g with interfaceName := "" } []
  | .beginClient base d =>
    let p := FilePair.client g.interfaceName base d
    .accept (g.edit fun _ => p) [begun p]
  | .endClient => .accept g.closeCurrent []
  | .beginServer base d constructor =>
    let p := FilePair.server g.interfaceName base d constructor
    .accept (g.edit fun _ => p) [begun p]
  | .endServer => .accept g.closeCurrent []
  | .beginConstants => .accept (g.edit FilePair.beginConstants) []
  | .constant c =>
    .accept (g.edit (·.add (.constant c))) [.trace s!"constant `{c.name}`"]
  | .endConstants => .accept (g.edit (·.add .gap)) []
  | .beginTypes => .accept (g.edit FilePair.beginTypes) []
  | .enumeration doc info =>
    .accept (g.edit (·.add (.enumeration doc info))) [.trace s!"enum `{info.name}`"]
  | .struct info =>
    .accept (g.edit (·.add (.struct info))) [.trace s!"struct `{info.name}`"]
  | .endTypes => .accept g []
  | .beginMethods => .accept (g.edit FilePair.beginMethods) []
  | .method m =>
    .accept (g.edit (·.method m)) [.trace s!"method {m.ordinal} `{m.name}`"]
  | .endMethods => .accept (g.edit FilePair.endMethods) []

end Generator

end OrbIdl.Cpp
