import OrbIdl.Cpp.Statement
import OrbIdl.Model.Method

/-! # The code of methods on both sides of the wire -/

namespace OrbIdl.Cpp

open Model Statement

/-! ## Declarations -/

/-- The declaration of a method in a class. -/
structure Prototype where
  result : String
  name : String
  params : List Declarator
deriving DecidableEq

def prototype (m : Method) : Prototype :=
  ⟨typeText m.result, m.name, paramList m.params⟩

def returnsValue (m : Method) : Bool :=
  m.result.type != .void

/-! ## Parameters on the wire -/

/-- Writes a parameter: a sized buffer as its count and its bytes, anything else as one value. -/
def putParam (stream : Stream) (p : Param) : List Statement :=
  if isSized p then
    [put stream (.size (sizeName p)), put stream (.bytes p.name (sizeName p))]
  else [put stream (.value p.name)]

/-- Reads a parameter: for a sized buffer first the count and then so many bytes. -/
def getParam (stream : Stream) (p : Param) : List Statement :=
  if isSized p then
    [get stream (.size (sizeName p)), get stream (.bytes p.name (sizeName p))]
  else [get stream (.value p.name)]

def sent (m : Method) : List Param :=
  m.params.filter (·.direction.isSent)

def returned (m : Method) : List Param :=
  m.params.filter (·.direction.isReturned)

/-! ## The client -/

/-- The body of a proxy method: writes the ordinal and what is sent, waits for the answer, and reads
what comes back. -/
def clientBody (m : Method) : List Statement :=
  [plain "TCmdQItem* pcqiToUse = pcqiGetCmdItem(ooidThis().oidKey());",
    plain "TCmdItemJan janCmdQItem(pcqiToUse);",
    plain "TOrbCmd& ocmdToUse = pcqiToUse->ocmdData();"] ++
    (if returnsValue m then [declare (typeText m.result) resultName] else []) ++
    [putOrdinal m.ordinal] ++
    (sent m).flatMap (putParam .clientOut) ++
    [send m.isPoll m.timeout, reset .clientIn] ++
    (if returnsValue m then [get .clientIn (.value resultName)] else []) ++
    (returned m).flatMap (getParam .clientIn) ++
    (if returnsValue m then [answer] else [])

/-! ## The server -/

/-- The type under which the server keeps a parameter. The abstract buffer is received into a
concrete one. -/
def localType (p : Param) : String :=
  if p.type.type = .memBuf then "THeapBuf" else typeText p.type

/-- The variables for one parameter. -/
def locals (p : Param) : List Statement :=
  (if isSized p then [counter (sizeName p)] else []) ++ [declare (localType p) p.name]

/-- The arguments for one parameter: its byte count, if it has one, stands before it. -/
def callArguments (p : Param) : List Argument :=
  (if isSized p then [⟨sizeName p, false⟩] else []) ++ [⟨p.name, p.moveable⟩]

/-- What the server does for a method: reads what is sent, calls the method, and writes back. -/
def serverBody (m : Method) : List Statement :=
  m.params.flatMap locals ++
    (sent m).flatMap (getParam .serverIn) ++
    [invoke (if returnsValue m then some (typeText m.result) else none) m.name
      (m.params.flatMap callArguments), reset .serverOut] ++
    (if returnsValue m then [put .serverOut (.value resultName)] else []) ++
    (returned m).flatMap (putParam .serverOut) ++
    [leave]

/-- A case of the switch over method ordinals. -/
structure DispatchCase where
  label : Nat
  body : List Statement
deriving DecidableEq

def dispatchCase (m : Method) : DispatchCase :=
  ⟨m.ordinal, serverBody m⟩

def DispatchCase.render (c : DispatchCase) : String :=
  Text.indent 8 (s!"case {c.label} :\n\x7b\n" ++ Text.indent 4 (renderAll c.body) ++ "\x7d\n")

end OrbIdl.Cpp
