import OrbIdl.Model.Document
import OrbIdl.Options
import OrbIdl.Output.Sink

/-! # The calls that a backend answers -/

namespace OrbIdl.Emission

open Model

/-- Where and how an output is generated. -/
structure Destination where
  target : Target
  /-- The word that exports declarations, or nothing. -/
  exportWord : String
  privateHeader : Bool
deriving DecidableEq

/-! ## Where each output goes -/

def clientDestination (o : Options) : Option Destination :=
  o.client.map fun t => ⟨t, o.clientExport, o.privateHeaders⟩

def serverDestination (o : Options) : Option Destination :=
  o.server.map fun t => ⟨t, o.serverExport, o.privateHeaders⟩

def globalsDestination (o : Options) : Option Destination :=
  o.globals.map fun t => ⟨t, o.globalsExport, o.privateHeaders⟩

/-! ## Calls -/

/-- One call on a backend. Sections are opened and closed around what they hold. -/
inductive Call where
  | beginRun
  | endRun
  | beginGlobals (destination : Destination)
  | endGlobals
  | beginInterface (name id : String)
  | endInterface
  | beginClient (base : String) (destination : Destination)
  | endClient
  | beginServer (base : String) (destination : Destination) (constructor : List Param)
  | endServer
  | beginConstants
  | constant (constant : Constant)
  | endConstants
  | beginTypes
  | enumeration (doc : Option String) (info : Enumeration)
  | struct (info : Structure)
  | endTypes
  | beginMethods
  | method (method : Method)
  | endMethods
deriving DecidableEq

/-- Why a backend gives up. -/
inductive EmitError where
  | format
  | write (path : Output.Path) (error : Output.WriteError)
deriving DecidableEq

namespace EmitError

def message : EmitError → String
  | format => "failed to format generated code"
  | write path error => s!"failed to write {path.text}: {error.message}"

/-- The error behind the error. -/
def cause : EmitError → String
  | format => "an error occurred when formatting an argument"
  | write _ error => error.message

/-- Output has no place in the document. -/
def diagnostic (e : EmitError) : Diagnostic := ⟨e.message, []⟩

end EmitError

/-! ## Backends -/

/-- What a backend does with a call: the state that it is left in, what it logs, and whether it
takes the call. -/
structure Response (σ : Type) where
  state : σ
  log : List LogRecord
  result : Except EmitError Unit

/-- A backend is how its state answers calls. -/
abbrev Backend (σ : Type) := σ → Call → Response σ

namespace Response

variable {σ : Type}

def accept (s : σ) (log : List LogRecord) : Response σ := ⟨s, log, .ok ()⟩

end Response

/-- A backend that keeps the calls and refuses the one with number `failAt`. -/
def recorder (failAt : Option Nat) : Backend (List Call) :=
  fun calls call =>
    if failAt = some calls.length then ⟨calls, [], .error .format⟩
    else .accept (calls ++ [call]) []

end OrbIdl.Emission
