import OrbIdl.Cpp.Declarator
import OrbIdl.Text.Indent

/-! # Statements of generated functions -/

namespace OrbIdl.Cpp

/-- What goes over the wire in one piece. -/
inductive WireItem where
  | value (name : String)
  | size (name : String)
  | bytes (name size : String)
deriving DecidableEq

/-- The streams of a call, named for the half that uses them and the way of the data. -/
inductive Stream where
  | clientOut
  | clientIn
  | serverIn
  | serverOut
deriving DecidableEq

def Stream.render : Stream → String
  | clientOut => "ocmdToUse.strmOut()"
  | clientIn => "ocmdToUse.strmIn()"
  | serverIn => "orbcToDispatch.strmIn()"
  | serverOut => "orbcToDispatch.strmOut()"

inductive Statement where
  /-- Any other text. -/
  | plain (text : String)
  | declare (type name : String)
  | counter (name : String)
  | putOrdinal (ordinal : Nat)
  | put (stream : Stream) (item : WireItem)
  | get (stream : Stream) (item : WireItem)
  | reset (stream : Stream)
  | send (isPoll : Bool) (timeout : UInt32)
  /-- Calls a method; the result, if any, is kept under its type. -/
  | invoke (resultType : Option String) (name : String) (arguments : List Argument)
  | answer
  | leave
deriving DecidableEq

namespace Statement

/-- The local variable that holds the result of a method. -/
def resultName : String := "retVal"

def render : Statement → String
  | plain text => text
  | declare type name => s!"{type} {name};"
  | counter name => s!"tCIDLib::TCard4 {name} = 0;"
  | putOrdinal ordinal => s!"{Stream.clientOut.render} << tCIDLib::TCard4({ordinal});"
  | put stream (.value name) => s!"{stream.render} << {name};"
  | put stream (.size name) => s!"{stream.render} << {name};"
  | put stream (.bytes name size) => s!"{stream.render}.WriteBuffer({name}.pc1Data(), {size});"
  | get stream (.value name) => s!"{stream.render} >> {name};"
  | get stream (.size name) => s!"{stream.render} >> {name};"
  | get stream (.bytes name size) => s!"{stream.render}.c4ReadBuffer({name}, {size});"
  | reset stream => s!"{stream.render}.Reset();"
  | send isPoll timeout =>
    (if isPoll then "DispatchPoll" else "Dispatch") ++ s!"({timeout}, pcqiToUse);"
  | invoke none name arguments => s!"{name}({Argument.list arguments});"
  | invoke (some type) name arguments =>
    s!"{type} {resultName} = {name}({Argument.list arguments});"
  | answer => s!"return {resultName};"
  | leave => "break;"

/-- Each statement on a line of its own. -/
def renderAll (body : List Statement) : String :=
  String.join (body.map fun s => s.render ++ "\n")

/-- What a body writes to a stream, in order. -/
def putItems (stream : Stream) (body : List Statement) : List WireItem :=
  body.filterMap fun
    | put s item => if s = stream then some item else none
    | _ => none

/-- What a body reads from a stream, in order. -/
def getItems (stream : Stream) (body : List Statement) : List WireItem :=
  body.filterMap fun
    | get s item => if s = stream then some item else none
    | _ => none

end Statement

end OrbIdl.Cpp
