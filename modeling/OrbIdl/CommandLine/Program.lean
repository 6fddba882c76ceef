import OrbIdl.CommandLine.Command
import OrbIdl.Compile
import OrbIdl.Cpp.Generator
import OrbIdl.Report.Report

/-! # The program, whatever the world around it -/

namespace OrbIdl.CommandLine

open Output

/-- What a run prints and how it ends. -/
structure Outcome where
  code : UInt8
  output : String := ""
  errors : String := ""
deriving DecidableEq

/-- What the program needs from outside: files by their path, a place to write to, and new ids.
What goes wrong is told in words. -/
structure Host (m : Type → Type) where
  read : String → m (Except String ByteArray)
  write : File → m (Except String Unit)
  newId : m String

namespace Outcome

def done (output : String) : Outcome := { code := 0, output }

def usageError (e : UsageError) : Outcome where
  code := 64
  output := usage ++ "\n"
  errors := e.message ++ "\n"

def failure (output errors : String) : Outcome := ⟨1, output, errors⟩

end Outcome

/-! ## Generating code -/

def logo (o : Options) : String :=
  if o.noLogo then "" else "idlc: CIDLib IDL compiler, version 0.0.0\n"

/-- The files that a source asks for, in the order of writing, each path once, and whether that is
all there is to it. -/
def generated (options : Options) (source : String) : List File × Except CompileError Unit :=
  let sink := Once.sink Memory.sink
  let compiled := compile (Cpp.Generator.backend sink) (.fresh { inner := [] }) options source
  (compiled.state.sink.inner, compiled.result)

/-- The reports of an error and a last line that counts them. -/
def failureText (input source : String) (e : CompileError) : String :=
  let reports := e.diagnostics.map (Report.ofDiagnostic ⟨input, source⟩)
  String.join (reports.map fun r => r.render ++ "\n") ++
    s!"fatal: failed to compile `{input}`: " ++
    s!"aborting due to {Report.errorCount reports} previous error(s)\n"

variable {m : Type → Type} [Monad m]

/-- Writes files in order and stops at the first that the host refuses. -/
def writeFiles (host : Host m) : List File → m (Except Emission.EmitError Unit)
  | [] => return .ok ()
  | file :: rest => do
    match ← host.write file with
    | .ok () => writeFiles host rest
    | .error text => return .error (.write file.path (.device text))

def generate (host : Host m) (input : String) (options : Options) : m Outcome := do
  match ← host.read input with
  | .error text => return .failure (logo options) s!"error: {input}: {text}\n"
  | .ok bytes =>
    match String.fromUTF8? bytes with
    | none =>
      return .failure (logo options) s!"error: {input}: stream did not contain valid UTF-8\n"
    | some source =>
      let (files, result) := generated options source
      match ← writeFiles host files, result with
      | .error e, _ => return .failure (logo options) (failureText input source (.aborted e))
      | .ok (), .error e => return .failure (logo options) (failureText input source e)
      | .ok (), .ok () => return .done (logo options)

/-! ## The whole program -/

/-- Runs the program on its arguments. -/
def run (host : Host m) (arguments : List String) : m Outcome :=
  match Command.ofList arguments with
  | .error e => return .usageError e
  | .ok .showUsage => return .done (usage ++ "\n")
  | .ok .newId => return .done ((← host.newId) ++ "\n")
  | .ok (.generate input options) => generate host input options

end OrbIdl.CommandLine
