import OrbIdl.Cpp.Piece

/-! # A header and its implementation -/

namespace OrbIdl.Cpp

open Model Emission Output

/-- A pair of files under construction: what it is about and the pieces so far. -/
structure FilePair where
  frame : Frame := {}
  pieces : List Piece := []
deriving DecidableEq

namespace FilePair

/-- A pair that has nothing but its beginning. -/
def start (frame : Frame) (d : Destination) (stem : String) : FilePair :=
  ⟨frame, [.opening d.target.facility (fileNames d stem)]⟩

def add (p : FilePair) (piece : Piece) : FilePair :=
  { p with pieces := p.pieces ++ [piece] }

/-- The cases of all server methods so far. -/
def cases (p : FilePair) : List DispatchCase :=
  p.pieces.filterMap (·.case?)

/-! ## Texts -/

/-- The header: the pieces, the end of the scope, and what has to follow it. -/
def headerText (p : FilePair) : String :=
  String.join (p.pieces.map (·.header p.frame)) ++ p.frame.closing ++
    "#pragma CIDLIB_POPPACK\n\n" ++ String.join (p.pieces.map (·.trailer p.frame))

def implementationText (p : FilePair) : String :=
  String.join (p.pieces.map (·.implementation p.frame))

/-- The finished files, the header first. -/
def files (p : FilePair) : List File :=
  [⟨p.frame.header, p.headerText⟩, ⟨p.frame.implementation, p.implementationText⟩]

/-! ## What is added for a call -/

def beginConstants (p : FilePair) : FilePair :=
  p.add (.heading p.frame.width "Constants")

def beginTypes (p : FilePair) : FilePair :=
  p.add (.heading p.frame.width "Types")

def beginMethods (p : FilePair) : FilePair :=
  let p := if p.frame.kind = .client then p.add .clientLifecycle else p
  p.add (.heading 8 "Methods")

/-- A pair of globals has no methods. -/
def method (p : FilePair) (m : Method) : FilePair :=
  match p.frame.kind with
  | .client => p.add (.clientMethod m)
  | .server => p.add (.serverMethod m)
  | .globals => p

def endMethods (p : FilePair) : FilePair :=
  if p.frame.kind = .server then p.add (.dispatch p.cases) else p

/-! ## Pairs as they are begun -/

def globals (d : Destination) : FilePair :=
  start (.globals d) d (Frame.globalsStem d)

def client (interfaceName base : String) (d : Destination) : FilePair :=
  start (.client interfaceName base d) d (Frame.clientStem interfaceName d)

def server (interfaceName base : String) (d : Destination) (constructor : List Param) : FilePair :=
  (start (.server interfaceName base d) d (Frame.serverStem interfaceName d)).add
    (.serverLifecycle constructor)

end FilePair

end OrbIdl.Cpp
