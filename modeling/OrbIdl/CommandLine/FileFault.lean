/-! # Why a file cannot be read or written -/

namespace OrbIdl.CommandLine

inductive FileFault where
  | notFound
  | alreadyExists
  | notDirectory
  | isDirectory
  | nameTooLong
deriving DecidableEq

namespace FileFault

/-- The number that the system gives to a fault. -/
def number : FileFault → Nat
  | notFound => 2
  | alreadyExists => 17
  | notDirectory => 20
  | isDirectory => 21
  | nameTooLong => 36

def wording : FileFault → String
  | notFound => "No such file or directory"
  | alreadyExists => "File exists"
  | notDirectory => "Not a directory"
  | isDirectory => "Is a directory"
  | nameTooLong => "File name too long"

def message (f : FileFault) : String :=
  s!"{f.wording} (os error {f.number})"

end FileFault

end OrbIdl.CommandLine
