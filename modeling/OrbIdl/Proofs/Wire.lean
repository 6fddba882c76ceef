import OrbIdl.Cpp.MethodCode

/-! # What client and server say to each other -/

namespace OrbIdl.Cpp

open Model Statement

/-! ## The items of a method -/

/-- A sized buffer travels as its count and then its bytes, anything else in one piece. -/
def wireItems (p : Param) : List WireItem :=
  if isSized p then [.size (sizeName p), .bytes p.name (sizeName p)] else [.value p.name]

/-- What goes from client to server after the ordinal. -/
def request (m : Method) : List WireItem :=
  (m.params.filter (·.direction.isSent)).flatMap wireItems

def reply (m : Method) : List WireItem :=
  (if m.result.type = .void then [] else [.value resultName]) ++
    (m.params.filter (·.direction.isReturned)).flatMap wireItems

/-! ## Traffic -/

inductive Traffic where
  | ordinal (ordinal : Nat)
  | put (item : WireItem)
  | get (item : WireItem)
  | reset
deriving DecidableEq

/-- What a statement does with a stream. The ordinal goes out from the client. -/
def Statement.traffic? (s : Stream) : Statement → Option Traffic
  | .putOrdinal n => if s = .clientOut then some (.ordinal n) else none
  | .put t item => if s = t then some (.put item) else none
  | .get t item => if s = t then some (.get item) else none
  | .reset t => if s = t then some .reset else none
  | _ => none

def Statement.traffic (s : Stream) (body : List Statement) : List Traffic :=
  body.filterMap (traffic? s)

@[simp] theorem traffic_nil (s : Stream) : traffic s [] = [] := rfl

@[simp] theorem traffic_append (s : Stream) (xs ys : List Statement) :
    traffic s (xs ++ ys) = traffic s xs ++ traffic s ys :=
  List.filterMap_append

theorem traffic_cons (s : Stream) (x : Statement) (xs : List Statement) :
    traffic s (x :: xs) = (traffic? s x).toList ++ traffic s xs := by
  unfold traffic
  cases h : traffic? s x <;> simp [h]

theorem traffic_flatMap (s : Stream) (f : Param → List Statement) (ps : List Param) :
    traffic s (ps.flatMap f) = ps.flatMap fun p => traffic s (f p) :=
  List.filterMap_flatMap

theorem traffic_putParam (s t : Stream) (p : Param) :
    traffic s (putParam t p) = if s = t then (wireItems p).map .put else [] := by
  unfold putParam wireItems
  split <;> split <;> simp [traffic_cons, traffic?, *]

theorem traffic_getParam (s t : Stream) (p : Param) :
    traffic s (getParam t p) = if s = t then (wireItems p).map .get else [] := by
  unfold getParam wireItems
  split <;> split <;> simp [traffic_cons, traffic?, *]

theorem traffic_putParams (s t : Stream) (ps : List Param) :
    traffic s (ps.flatMap (putParam t)) = if s = t then (ps.flatMap wireItems).map .put else [] := by
  rw [traffic_flatMap]
  split <;> simp [traffic_putParam, List.map_flatMap, *]

theorem traffic_getParams (s t : Stream) (ps : List Param) :
    traffic s (ps.flatMap (getParam t)) = if s = t then (ps.flatMap wireItems).map .get else [] := by
  rw [traffic_flatMap]
  split <;> simp [traffic_getParam, List.map_flatMap, *]

theorem traffic_locals (s : Stream) (ps : List Param) : traffic s (ps.flatMap locals) = [] := by
  rw [traffic_flatMap]
  simp only [List.flatMap_eq_nil_iff]
  intro p _
  unfold locals
  split <;> simp [traffic_cons, traffic?]

/-! ## Both halves of a call -/

theorem returnsValue_iff (m : Method) : returnsValue m = true ↔ m.result.type ≠ .void := by
  simp [returnsValue]

theorem traffic_clientBody_out (m : Method) :
    traffic .clientOut (clientBody m) = .ordinal m.ordinal :: (request m).map .put := by
  unfold clientBody request sent
  by_cases h : m.result.type = .void <;>
    simp [returnsValue_iff, h, traffic_cons, traffic?, traffic_putParams, traffic_getParams]

theorem traffic_clientBody_in (m : Method) :
    traffic .clientIn (clientBody m) = .reset :: (reply m).map .get := by
  unfold clientBody reply sent returned
  by_cases h : m.result.type = .void <;>
    simp [returnsValue_iff, h, traffic_cons, traffic?, traffic_putParams, traffic_getParams]

theorem traffic_serverBody_in (m : Method) :
    traffic .serverIn (serverBody m) = (request m).map .get := by
  unfold serverBody request sent returned
  by_cases h : m.result.type = .void <;>
    simp [returnsValue_iff, h, traffic_cons, traffic?, traffic_putParams, traffic_getParams,
      traffic_locals]

theorem traffic_serverBody_out (m : Method) :
    traffic .serverOut (serverBody m) = .reset :: (reply m).map .put := by
  unfold serverBody reply sent returned
  by_cases h : m.result.type = .void <;>
    simp [returnsValue_iff, h, traffic_cons, traffic?, traffic_putParams, traffic_getParams,
      traffic_locals]

/-! ## Variables of the server -/

def Statement.binding? : Statement → Option (String × String)
  | .declare type name => some (type, name)
  | .counter name => some ("tCIDLib::TCard4", name)
  | _ => none

def Statement.bindings (body : List Statement) : List (String × String) :=
  body.filterMap binding?

/-- The type in which the server keeps a parameter that the client passes as `type`: an abstract
buffer is received into a concrete one. -/
def keptAs (p : Param) (type : String) : String :=
  if p.type.type = .memBuf ∧ type = DataType.memBuf.name then DataType.heapBuf.name else type

@[simp] theorem bindings_append (xs ys : List Statement) :
    bindings (xs ++ ys) = bindings xs ++ bindings ys :=
  List.filterMap_append

theorem bindings_flatMap (f : Param → List Statement) (ps : List Param) :
    bindings (ps.flatMap f) = ps.flatMap fun p => bindings (f p) :=
  List.filterMap_flatMap

theorem bindings_putParam (t : Stream) (p : Param) : bindings (putParam t p) = [] := by
  unfold putParam
  split <;> rfl

theorem bindings_getParam (t : Stream) (p : Param) : bindings (getParam t p) = [] := by
  unfold getParam
  split <;> rfl

theorem typeText_memBuf (t : TypeRef) (h : t.type = .memBuf) : typeText t = DataType.memBuf.name := by
  simp [typeText, h, DataType.isFundamental, DataType.isCollection]

theorem bindings_locals (p : Param) :
    bindings (locals p) = (declarators p).map fun d => (keptAs p d.type, d.name) := by
  have hcount : keptAs p "tCIDLib::TCard4" = "tCIDLib::TCard4" := by simp [keptAs, DataType.name]
  have hparam : keptAs p (typeText p.type) = localType p := by
    unfold keptAs localType
    by_cases h : p.type.type = .memBuf
    · simp [h, typeText_memBuf _ h, DataType.name]
    · simp [h]
  unfold locals declarators
  split <;> simp [bindings, binding?, sizeDeclarator, hcount, hparam]

theorem bindings_serverBody (m : Method) :
    bindings (serverBody m) = m.params.flatMap fun p =>
      (declarators p).map fun d => (keptAs p d.type, d.name) := by
  unfold serverBody
  simp only [bindings_append, bindings_flatMap, bindings_locals, bindings_putParam,
    bindings_getParam]
  by_cases h : returnsValue m <;> simp [h, bindings, binding?]

/-! ## The agreement -/

end OrbIdl.Cpp
