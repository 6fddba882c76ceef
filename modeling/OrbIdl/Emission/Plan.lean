import OrbIdl.Emission.Call

/-! # The calls that lay a document out -/

namespace OrbIdl.Emission

open Model

/-- A call on the backend, or a record of how far the run has come. -/
inductive Step where
  | note (record : LogRecord)
  | call (call : Call)

/-- The call of a step, if it is one. -/
def Step.call? : Step → Option Call
  | call c => some c
  | note _ => none

namespace Plan

/-! ## Sections -/

def constants (cs : List Constant) : List Step :=
  .call .beginConstants ::
    cs.flatMap (fun c => [.note (.trace s!"constant `{c.name}`"), .call (.constant c)]) ++
    [.call .endConstants]

def typeDecl : TypeDecl → Call
  | .enumeration doc info => .enumeration doc info
  | .struct info => .struct info

def types (ts : List TypeDecl) : List Step :=
  .call .beginTypes ::
    ts.flatMap (fun t => [.note (.trace s!"type `{t.name}`"), .call (typeDecl t)]) ++
    [.call .endTypes]

def block : Block → List Step
  | .constants cs => constants cs
  | .types ts => types ts

def globals (d : Destination) (g : Globals) : List Step :=
  [.note (.debug "begin globals"), .call (.beginGlobals d)] ++ g.blocks.flatMap block ++
    [.call .endGlobals, .note (.debug "end globals")]

/-! ## The two halves of an interface -/

inductive Side where
  | client
  | server
deriving DecidableEq

namespace Side

def name : Side → String
  | client => "client"
  | server => "server"

def opening (i : ClassInterface) (d : Destination) : Side → Call
  | client => .beginClient i.clientBase d
  | server => .beginServer i.serverBase d i.constructor

def closing : Side → Call
  | client => .endClient
  | server => .endServer

end Side

/-- What stands in each half. The id of the interface is always the first constant. -/
def sideBody (word : String) (i : ClassInterface) : List Step :=
  [.call .beginConstants, .call (.constant (.interfaceId i.id i.span))] ++
    i.constants.flatMap (fun c =>
      [.note (.trace s!"{word} constant `{c.name}`"), .call (.constant c)]) ++
    [.call .endConstants] ++
    (match i.types with
      | some ts => types ts
      | none => []) ++
    [.call .beginMethods] ++
    i.methods.flatMap (fun m =>
      [.note (.trace s!"{word} method {m.ordinal} `{m.name}`"), .call (.method m)]) ++
    [.call .endMethods]

def side (s : Side) (i : ClassInterface) (d : Destination) : List Step :=
  [.note (.debug s!"begin {s.name} interface"), .call (s.opening i d)] ++ sideBody s.name i ++
    [.call s.closing, .note (.debug s!"end {s.name} interface")]

/-! ## The whole run -/

def allGlobals (o : Options) (gs : List Globals) : List Step :=
  match globalsDestination o with
  | some d => gs.flatMap (globals d)
  | none =>
    if gs.isEmpty then [] else [.note (.debug "no globals target; skipping globals")]

def classInterface (o : Options) (i : ClassInterface) : List Step :=
  [.note (.debug s!"begin interface `{i.name}` ({i.id})"), .call (.beginInterface i.name i.id)] ++
    ((clientDestination o).map (side .client i)).getD [] ++
    ((serverDestination o).map (side .server i)).getD [] ++
    [.call .endInterface, .note (.debug s!"end interface `{i.name}`")]

/-- All steps of a run. They hang on the options and the document alone. -/
def document (o : Options) (d : Document) : List Step :=
  [.note (.debug "begin code generation"), .call .beginRun] ++ allGlobals o d.globals ++
    (d.classInterface.map (classInterface o)).getD [] ++
    [.call .endRun, .note (.debug "end code generation")]

end Plan

/-- The calls of a run, in order. -/
def calls (o : Options) (d : Document) : List Call :=
  (Plan.document o d).filterMap (·.call?)

/-- Takes the steps one after the other and stops at the first call that is refused. -/
def run {σ : Type} (backend : Backend σ) : σ → List Step → Response σ
  | s, [] => .accept s []
  | s, .note r :: rest =>
    let after := run backend s rest
    { after with log := r :: after.log }
  | s, .call c :: rest =>
    let response := backend s c
    match response.result with
    | .error e => ⟨response.state, response.log, .error e⟩
    | .ok () =>
      let after := run backend response.state rest
      { after with log := response.log ++ after.log }

end OrbIdl.Emission
