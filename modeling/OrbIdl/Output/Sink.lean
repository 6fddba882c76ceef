import OrbIdl.Output.Path

/-! # Where generated files go -/

namespace OrbIdl.Output

/-- Why a file could not be written. -/
inductive WriteError where
  | alreadyGenerated (path : Path)
  | device (text : String)
deriving DecidableEq

def WriteError.message : WriteError → String
  | alreadyGenerated path => s!"{path.text} was already generated by this run"
  | device text => text

/-- A generated file: its path and its whole text. -/
structure File where
  path : Path
  text : String
deriving DecidableEq

/-- A place for files: how its state answers a request to write one. -/
abbrev Sink (σ : Type) := σ → File → σ × Except WriteError Unit

/-! ## Files kept in memory -/

namespace Memory

/-- Keeps every file, in the order of writing. -/
def sink : Sink (List File) :=
  fun files file => (files ++ [file], .ok ())

/-- Keeps files until it holds `limit` of them. -/
def limited (limit : Option Nat) : Sink (List File) :=
  fun files file =>
    if limit.any (· ≤ files.length) then (files, .error (.device "disk full"))
    else sink files file

/-- The text last written to a path. -/
def get? (files : List File) (path : Path) : Option String :=
  (files.reverse.find? (·.path.same path)).map (·.text)

end Memory

/-! ## Writing each path once -/

/-- A sink and the paths that were written to it. -/
structure Once (σ : Type) where
  inner : σ
  written : List Path := []

namespace Once

variable {σ : Type}

def isWritten (s : Once σ) (path : Path) : Bool :=
  s.written.any (·.same path)

/-- Refuses a path that was written before. A write that fails leaves no mark. -/
def sink (inner : Sink σ) : Sink (Once σ) :=
  fun s file =>
    if s.isWritten file.path then (s, .error (.alreadyGenerated file.path))
    else match inner s.inner file with
      | (state, .ok ()) => (⟨state, s.written ++ [file.path]⟩, .ok ())
      | (state, .error e) => ({ s with inner := state }, .error e)

end Once

/-! ## Writing several files -/

/-- Hands files over in order and stops at the first that is refused. -/
def writeAll {σ : Type} (sink : Sink σ) : σ → List File → σ × Except (Path × WriteError) Unit
  | s, [] => (s, .ok ())
  | s, file :: rest =>
    match sink s file with
    | (s, .ok ()) => writeAll sink s rest
    | (s, .error e) => (s, .error (file.path, e))

end OrbIdl.Output
