import OrbIdl.Proofs.Emission.Run

/-! # The calls that each part of a document leads to -/

namespace OrbIdl.Emission

open Model

/-! ## Blocks -/

theorem callsOf_flatMap {α : Type} (f : α → List Step) (xs : List α) :
    callsOf (xs.flatMap f) = xs.flatMap fun x => callsOf (f x) :=
  List.filterMap_flatMap

/-- Notes between the calls of a list leave no trace. -/
theorem callsOf_noted {α : Type} (note : α → LogRecord) (call : α → Call) (xs : List α) :
    callsOf (xs.flatMap fun x => [.note (note x), .call (call x)]) = xs.map call := by
  rw [callsOf_flatMap, List.map_eq_flatMap]
  rfl

def constantsBlock (cs : List Constant) : List Call :=
  .beginConstants :: cs.map .constant ++ [.endConstants]

def typesBlock (ts : List TypeDecl) : List Call :=
  .beginTypes :: ts.map Plan.typeDecl ++ [.endTypes]

def methodsBlock (ms : List Method) : List Call :=
  .beginMethods :: ms.map .method ++ [.endMethods]

def blockCalls : Block → List Call
  | .constants cs => constantsBlock cs
  | .types ts => typesBlock ts

theorem callsOf_constants (cs : List Constant) :
    callsOf (Plan.constants cs) = constantsBlock cs := by
  simp [Plan.constants, constantsBlock, callsOf_noted]

theorem callsOf_types (ts : List TypeDecl) : callsOf (Plan.types ts) = typesBlock ts := by
  simp [Plan.types, typesBlock, callsOf_noted]

theorem callsOf_block (b : Block) : callsOf (Plan.block b) = blockCalls b := by
  cases b with
  | constants cs => exact callsOf_constants cs
  | types ts => exact callsOf_types ts

/-! ## Globals -/

def globalsCalls (d : Destination) (g : Globals) : List Call :=
  .beginGlobals d :: g.blocks.flatMap blockCalls ++ [.endGlobals]

def allGlobalsCalls (o : Options) (gs : List Globals) : List Call :=
  match globalsDestination o with
  | some d => gs.flatMap (globalsCalls d)
  | none => []

theorem callsOf_globals (d : Destination) (g : Globals) :
    callsOf (Plan.globals d g) = globalsCalls d g := by
  simp [Plan.globals, globalsCalls, callsOf_flatMap, callsOf_block]

theorem callsOf_allGlobals (o : Options) (gs : List Globals) :
    callsOf (Plan.allGlobals o gs) = allGlobalsCalls o gs := by
  unfold Plan.allGlobals allGlobalsCalls
  cases globalsDestination o with
  | some d => simp only [callsOf_flatMap, callsOf_globals]
  | none => cases gs <;> rfl

/-! ## Interfaces -/

/-- What each half receives between its begin and its end. -/
def halfCalls (i : ClassInterface) : List Call :=
  constantsBlock (.interfaceId i.id i.span :: i.constants) ++
    (i.types.map typesBlock).getD [] ++ methodsBlock i.methods

def sideCalls (s : Plan.Side) (i : ClassInterface) (d : Destination) : List Call :=
  s.opening i d :: halfCalls i ++ [s.closing]

def interfaceCalls (o : Options) (i : ClassInterface) : List Call :=
  .beginInterface i.name i.id ::
    ((clientDestination o).map (sideCalls .client i)).getD [] ++
    ((serverDestination o).map (sideCalls .server i)).getD [] ++ [.endInterface]

theorem callsOf_sideBody (word : String) (i : ClassInterface) :
    callsOf (Plan.sideBody word i) = halfCalls i := by
  unfold Plan.sideBody halfCalls constantsBlock methodsBlock
  cases i.types with
  | none => simp [callsOf_noted]
  | some ts => simp [callsOf_noted, callsOf_types]

theorem callsOf_side (s : Plan.Side) (i : ClassInterface) (d : Destination) :
    callsOf (Plan.side s i d) = sideCalls s i d := by
  simp [Plan.side, sideCalls, callsOf_sideBody]

theorem callsOf_classInterface (o : Options) (i : ClassInterface) :
    callsOf (Plan.classInterface o i) = interfaceCalls o i := by
  unfold Plan.classInterface interfaceCalls
  cases clientDestination o <;> cases serverDestination o <;> simp [callsOf_side]

/-! ## Documents -/

theorem calls_eq (o : Options) (d : Document) :
    calls o d = .beginRun :: allGlobalsCalls o d.globals ++
      (d.classInterface.map (interfaceCalls o)).getD [] ++ [.endRun] := by
  show callsOf (Plan.document o d) = _
  unfold Plan.document
  cases d.classInterface <;> simp [callsOf_allGlobals, callsOf_classInterface]

end OrbIdl.Emission
