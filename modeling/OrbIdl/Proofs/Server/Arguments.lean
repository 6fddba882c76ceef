import OrbIdl.Cpp.Piece
import OrbIdl.Proofs.Wire

/-!
# The arguments of a dispatched call

A parameter is declared, received into a variable and passed on, each time under one name or, with
its byte count, under two.
-/

namespace OrbIdl.Cpp

open Model Statement

/-! ## Calls -/

def Statement.calls (body : List Statement) : List (String × List Argument) :=
  body.filterMap fun
    | invoke _ name arguments => some (name, arguments)
    | _ => none

@[simp] theorem calls_append (xs ys : List Statement) : calls (xs ++ ys) = calls xs ++ calls ys :=
  List.filterMap_append

theorem calls_flatMap_eq_nil {f : Param → List Statement} (hf : ∀ p, calls (f p) = [])
    (ps : List Param) : calls (ps.flatMap f) = [] := by
  rw [calls, List.filterMap_flatMap, List.flatMap_eq_nil_iff]
  exact fun p _ => hf p

theorem calls_locals (p : Param) : calls (locals p) = [] := by
  unfold locals
  split <;> rfl

theorem calls_getParam (s : Stream) (p : Param) : calls (getParam s p) = [] := by
  unfold getParam
  split <;> rfl

theorem calls_putParam (s : Stream) (p : Param) : calls (putParam s p) = [] := by
  unfold putParam
  split <;> rfl

/-! ## The body around its call -/

/-- What the server does before it calls the method. -/
def receiving (m : Method) : List Statement :=
  m.params.flatMap locals ++ (sent m).flatMap (getParam .serverIn)

def invocation (m : Method) : Statement :=
  .invoke (if returnsValue m then some (typeText m.result) else none) m.name
    (m.params.flatMap callArguments)

/-- What the server does after the call. -/
def replying (m : Method) : List Statement :=
  .reset .serverOut :: (if returnsValue m then [put .serverOut (.value resultName)] else []) ++
    (returned m).flatMap (putParam .serverOut) ++ [leave]

theorem serverBody_eq (m : Method) :
    serverBody m = receiving m ++ invocation m :: replying m := by
  simp [serverBody, receiving, invocation, replying]

theorem calls_receiving (m : Method) : calls (receiving m) = [] := by
  rw [receiving, calls_append, calls_flatMap_eq_nil calls_locals,
    calls_flatMap_eq_nil (calls_getParam _), List.append_nil]

theorem calls_replying (m : Method) : calls (replying m) = [] := by
  have hresult : calls (if returnsValue m then [put .serverOut (.value resultName)] else []) = [] := by
    split <;> rfl
  rw [replying, calls_append, List.cons_append, ← List.singleton_append, calls_append,
    calls_append, hresult, calls_flatMap_eq_nil (calls_putParam _)]
  rfl

theorem calls_serverBody (m : Method) :
    calls (serverBody m) = [(m.name, m.params.flatMap callArguments)] := by
  rw [serverBody_eq, calls_append, calls_receiving, ← List.singleton_append, calls_append,
    calls_replying]
  rfl

theorem bindings_receiving (m : Method) :
    bindings (receiving m) = m.params.flatMap fun p =>
      (declarators p).map fun d => (keptAs p d.type, d.name) := by
  unfold receiving
  simp [bindings_flatMap, bindings_locals, bindings_getParam]

/-! ## Names -/

/-- The names of a parameter: that of a byte count stands before a buffer that is not moved. -/
def passedNames (p : Param) : List String :=
  if p.type.type.isBuffer = true ∧ p.moveable = false then [sizeName p, p.name] else [p.name]

theorem isSized_iff (p : Param) :
    isSized p = true ↔ p.type.type.isBuffer = true ∧ p.moveable = false := by
  simp [isSized]

theorem names_declarators (p : Param) : (declarators p).map (·.name) = passedNames p := by
  unfold declarators passedNames
  simp only [← isSized_iff]
  split <;> rfl

theorem names_callArguments (p : Param) : (callArguments p).map (·.name) = passedNames p := by
  unfold callArguments passedNames
  simp only [← isSized_iff]
  split <;> rfl

theorem names_paramList (ps : List Param) :
    (paramList ps).map (·.name) = ps.flatMap passedNames := by
  simp only [paramList, List.map_flatMap, names_declarators]

theorem passing_eq_moved_iff (p : Param) : passing p = .moved ↔ p.moveable = true := by
  unfold passing
  repeat' split
  all_goals simp [*]

/-- A byte count is passed by value or by reference, and its buffer as the parameter says. -/
theorem moved_declarators (p : Param) :
    (declarators p).map (fun d => decide (d.passing = .moved)) =
      (callArguments p).map (·.moved) := by
  have hparam : decide (passing p = .moved) = p.moveable := by
    rw [Bool.eq_iff_iff, decide_eq_true_iff, passing_eq_moved_iff]
  have hcount : (sizeDeclarator p).passing ≠ .moved := by
    unfold sizeDeclarator
    split <;> simp
  unfold declarators callArguments
  split <;> simp [hparam, hcount]

/-! ## Texts -/

namespace Declarator

/-- What stands before the name. -/
def lead (d : Declarator) : String :=
  match d.passing with
  | .constValue => s!"const {d.type} "
  | .constReference => s!"const {d.type}& "
  | .reference => s!"{d.type}& "
  | .moved => s!"{d.type}&& "

/-- What stands behind it where default values are shown. -/
def tail (d : Declarator) : String :=
  match d.fallback with
  | some value => s!" = {value}"
  | none => ""

theorem bare_eq (d : Declarator) : d.bare = d.lead ++ d.name := by
  unfold bare lead
  cases d.passing <;> simp [toString]

theorem render_eq (d : Declarator) : d.render = d.lead ++ d.name ++ d.tail := by
  unfold render tail
  cases d.fallback <;> simp [bare_eq, toString, String.append_assoc]

theorem listWithDefaults_eq (ds : List Declarator) :
    listWithDefaults ds =
      String.intercalate ", " (ds.map fun d => d.lead ++ d.name ++ d.tail) := by
  simp only [listWithDefaults, ← render_eq]

theorem listBare_eq (ds : List Declarator) :
    listBare ds = String.intercalate ", " (ds.map fun d => d.lead ++ d.name) := by
  simp only [listBare, ← bare_eq]

end Declarator

def argumentText (args : List Argument) : String :=
  String.intercalate ", "
    (args.map fun a => if a.moved then "tCIDLib::ForceMove(" ++ a.name ++ ")" else a.name)

theorem argumentList_eq (args : List Argument) : Argument.list args = argumentText args := by
  have hrender (a : Argument) :
      a.render = if a.moved then "tCIDLib::ForceMove(" ++ a.name ++ ")" else a.name := by
    simp [Argument.render, toString]
  simp only [Argument.list, argumentText, ← hrender]

theorem render_invoke (result : Option String) (name : String) (args : List Argument) :
    (Statement.invoke result name args).render =
      (match result with | some type => type ++ " " ++ resultName ++ " = " | none => "") ++
        name ++ "(" ++ argumentText args ++ ");" := by
  rw [← argumentList_eq]
  cases result with
  | none =>
    dsimp only
    rw [String.empty_append]
    rfl
  | some type => rfl

theorem renderPureVirtual_eq (p : Prototype) :
    p.renderPureVirtual =
      "        virtual " ++ p.result ++ " " ++ p.name ++ "(" ++
        Declarator.listWithDefaults p.params ++ ") = 0;\n" := by
  unfold Prototype.renderPureVirtual
  simp only [toString]

/-! ## One list of names -/

end OrbIdl.Cpp
