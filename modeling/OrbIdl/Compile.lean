import OrbIdl.Emission.Plan
import OrbIdl.Schema.Conformance
import OrbIdl.Schema.Interface
import OrbIdl.Xml.Reader

/-! # From source text to calls on a backend -/

namespace OrbIdl

open Model Emission

/-- Why a source is not compiled. -/
inductive CompileError where
  | unreadable (error : Xml.ReadError)
  | invalid (violations : List Schema.Violation)
  | faulty (fault : Model.Fault)
  | aborted (error : EmitError)

namespace CompileError

/-- One violation speaks for itself; several are counted. -/
def message : CompileError → String
  | unreadable error => error.message
  | invalid [only] => only.message
  | invalid all => s!"{all.length} schema violations"
  | faulty fault => fault.message
  | aborted error => error.message

def remarks : CompileError → List Remark
  | unreadable error => error.remarks
  | invalid violations => violations.flatMap (·.remarks)
  | faulty fault => fault.remarks
  | aborted _ => []

/-- The error as one diagnostic. -/
def diagnostic (e : CompileError) : Diagnostic := ⟨e.message, e.remarks⟩

/-- The diagnostics to report: every violation for itself. -/
def diagnostics : CompileError → List Diagnostic
  | invalid violations => violations.map (·.diagnostic)
  | e => [e.diagnostic]

end CompileError

/-! ## The front end -/

/-- The tree of a source, checked and with defaults added. -/
def checkedTree (mappings : Schema.Mappings) (source : String) :
    Except CompileError Xml.Element := do
  let document ← (Xml.Document.read source).mapError .unreadable
  (Schema.checkDocType Schema.interfaceDocument mappings document.docType document.root).mapError
    fun v => .invalid [v]
  match Schema.validate Schema.interfaceDocument document.root with
  | (root, []) => return root
  | (_, violations) => throw (.invalid violations)

/-- The document that a source describes. -/
def readDocument (mappings : Schema.Mappings) (source : String) :
    Logged CompileError Model.Document := do
  let root ← checkedTree mappings source
  Logged.note (.debug s!"document is valid against {Schema.interfaceDocument.systemId}")
  (Model.Document.ofElement root).mapError .faulty

/-! ## The whole run -/

/-- What a run leaves behind. -/
structure Compiled (σ : Type) where
  state : σ
  log : List LogRecord
  result : Except CompileError Unit

/-- Runs the backend on a document. An error is logged as it ends the run. -/
def emit {σ : Type} (backend : Backend σ) (state : σ) (options : Options)
    (document : Model.Document) : Compiled σ :=
  let response := run backend state (Plan.document options document)
  match response.result with
  | .ok () => ⟨response.state, response.log, .ok ()⟩
  | .error e => ⟨response.state, response.log ++ [.error e.message], .error (.aborted e)⟩

/-- Reads a source and runs the backend on its document, if it has one. -/
def compile {σ : Type} (backend : Backend σ) (state : σ) (options : Options) (source : String) :
    Compiled σ :=
  let front := readDocument options.mappings source
  match front.result with
  | .ok document =>
    let compiled := emit backend state options document
    { compiled with log := front.log ++ compiled.log }
  | .error e => ⟨state, front.log ++ [.error e.message], .error e⟩

end OrbIdl
