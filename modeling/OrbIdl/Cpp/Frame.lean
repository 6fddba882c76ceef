import OrbIdl.Cpp.Comment
import OrbIdl.Cpp.Enum.Code
import OrbIdl.Emission.Call

/-! # What a pair of generated files is about -/

namespace OrbIdl.Cpp

/-- What a header and its implementation hold. -/
inductive PairKind where
  | globals
  | client
  | server
deriving DecidableEq

def PairKind.name : PairKind → String
  | globals => "Globals"
  | client => "Client"
  | server => "Server"

/-- What is settled about a pair of files when it is begun. -/
structure Frame where
  kind : PairKind := .globals
  /-- The namespace or class around the declarations. -/
  scope : String := ""
  /-- The word that exports declarations, or nothing. -/
  exportWord : String := ""
  /-- The class that the class is derived from. -/
  base : String := ""
  header : Output.Path := ⟨""⟩
  implementation : Output.Path := ⟨""⟩
deriving DecidableEq

namespace Frame

def inClass (f : Frame) : Bool :=
  f.kind != .globals

/-- How far declarations are indented. -/
def width (f : Frame) : Nat :=
  if f.inClass then 8 else 4

def surroundings (f : Frame) : Enum.Surroundings :=
  ⟨f.inClass, f.scope, f.exportWord⟩

/-- What opens the scope. -/
def opening (f : Frame) : String :=
  match f.kind with
  | .globals => s!"namespace {f.scope}\n\x7b\n"
  | .client | .server =>
    s!"class {exportLead f.exportWord}{f.scope} : public {f.base}\n\x7b\n    public :\n"

/-- What closes it. -/
def closing (f : Frame) : String :=
  match f.kind with
  | .globals => "\x7d\n\n"
  | .client | .server => "\x7d;\n\n"

end Frame

/-! ## Names of files -/

open Emission

/-- The two file names: facility and stem, and for a private header an underscore at the end. -/
structure FileNames where
  header : String
  implementation : String
deriving DecidableEq

def fileNames (d : Destination) (stem : String) : FileNames :=
  let mark := if d.privateHeader then "_" else ""
  ⟨s!"{d.target.facility}_{stem}{mark}.hpp", s!"{d.target.facility}_{stem}.cpp"⟩

namespace Frame

/-- The frame of a pair that goes to `d`. A private header exports nothing. -/
def make (kind : PairKind) (scope base stem : String) (d : Destination) : Frame where
  kind := kind
  scope := scope
  exportWord := if d.privateHeader then "" else d.exportWord
  base := base
  header := d.target.directory.join (fileNames d stem).header
  implementation := d.target.directory.join (fileNames d stem).implementation

def globalsStem (d : Destination) : String :=
  d.target.name.getD "Globals"

def clientStem (interfaceName : String) (d : Destination) : String :=
  d.target.name.getD s!"{interfaceName}ClientProxy"

def serverStem (interfaceName : String) (d : Destination) : String :=
  d.target.name.getD s!"{interfaceName}ServerBase"

def globals (d : Destination) : Frame :=
  make .globals s!"t{d.target.facility}" "" (globalsStem d) d

def client (interfaceName base : String) (d : Destination) : Frame :=
  make .client s!"T{interfaceName}ClientProxy" base (clientStem interfaceName d) d

def server (interfaceName base : String) (d : Destination) : Frame :=
  make .server s!"T{interfaceName}ServerBase" base (serverStem interfaceName d) d

end Frame

end OrbIdl.Cpp
