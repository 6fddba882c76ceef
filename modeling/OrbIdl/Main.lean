import OrbIdl.CommandLine.FileFault
import OrbIdl.CommandLine.Program
import OrbIdl.Text.Numeral

/-! # The program in the real world -/

namespace OrbIdl

open CommandLine

/-- The number of an error, which some actions give with a minus sign. -/
def errorNumber (code : UInt32) : Nat :=
  min code.toNat (0 - code).toNat

/-- An error of the system in words, with its number. -/
def systemMessage (e : IO.Error) : String :=
  match e with
  | .noFileOrDirectory .. => FileFault.notFound.message
  | .alreadyExists .. => FileFault.alreadyExists.message
  | .inappropriateType _ code _ =>
    if errorNumber code = FileFault.notDirectory.number then FileFault.notDirectory.message
    else FileFault.isDirectory.message
  | .invalidArgument _ code _ =>
    if errorNumber code = FileFault.nameTooLong.number then FileFault.nameTooLong.message
    else e.toString
  | .permissionDenied _ code _ => s!"Permission denied (os error {errorNumber code})"
  | _ => e.toString

/-- An action, or its error in words. -/
def told {α : Type} (action : IO α) : IO (Except String α) := do
  try
    return .ok (← action)
  catch e =>
    return .error (systemMessage e)

/-- Sixteen bytes as hexadecimal digits. -/
def idText (bytes : List UInt8) : String :=
  String.ofList (bytes.flatMap fun b =>
    [Text.hexDigit (b.toNat / 16), Text.hexDigit (b.toNat % 16)])

/-- Adds a directory and those above it, unless they are there. -/
def ensureDirectories (path : String) : IO Unit := do
  try
    IO.FS.createDir path
  catch
    | .noFileOrDirectory .. | .alreadyExists .. => IO.FS.createDirAll path
    | e => throw e

/-- The files of the system. -/
def systemHost : Host IO where
  read path := told (IO.FS.readBinFile path)
  write file := told do
    let directory := file.path.parent.text
    unless directory.isEmpty do
      ensureDirectories directory
    IO.FS.writeFile file.path.text file.text
  newId := return idText (← IO.getRandomBytes 16).toList

end OrbIdl

def main (args : List String) : IO UInt32 := do
  let outcome ← OrbIdl.CommandLine.run OrbIdl.systemHost args
  IO.print outcome.output
  IO.eprint outcome.errors
  return outcome.code.toUInt32
