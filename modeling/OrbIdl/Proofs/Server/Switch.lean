import OrbIdl.Proofs.Emission.DocumentOrder
import OrbIdl.Proofs.Generation.Pairs
import OrbIdl.Proofs.Server.Arguments
import OrbIdl.Proofs.Valid.Demanded

/-!
# The switch of a server

A server collects the cases of its methods and puts them into one switch once there are no more
methods. Its header leaves out the methods that the base class has.
-/

namespace OrbIdl.Cpp

open Model Emission
open Xml (Element)

/-! ## The switch as text -/

/-- A branch of the switch over ordinals: the case of a method, or the way to the base class. -/
inductive Branch where
  | case (c : DispatchCase)
  | default (base : String)

def Branch.render : Branch → String
  | case c => c.render
  | default base =>
    "        default :\n            " ++ base ++ "::Dispatch(c4MethodId, orbcToDispatch);\n" ++
      "            break;\n"

@[simp] theorem Branch.render_case (c : DispatchCase) : (case c).render = c.render := rfl

@[simp] theorem Branch.render_default (base : String) :
    (default base).render =
      "        default :\n            " ++ base ++ "::Dispatch(c4MethodId, orbcToDispatch);\n" ++
        "            break;\n" :=
  rfl

def branches (base : String) (cases : List DispatchCase) : List Branch :=
  cases.map .case ++ [.default base]

def dispatchFunction (scope : String) (bs : List Branch) : String :=
  "tCIDLib::TVoid\n" ++ scope ++ "::Dispatch(const tCIDLib::TCard4 c4MethodId, " ++
    "TOrbCmd& orbcToDispatch)\n\x7b\n    switch(c4MethodId)\n    \x7b\n" ++
    String.join (bs.map Branch.render) ++ "    \x7d\n\x7d\n\n"

theorem dispatchDefinition_eq (scope base : String) (cases : List DispatchCase) :
    dispatchDefinition scope base cases = dispatchFunction scope (branches base cases) := by
  have hend : "            break;\n    \x7d\n\x7d\n\n" =
      "            break;\n" ++ "    \x7d\n\x7d\n\n" := by
    decide
  unfold dispatchDefinition dispatchFunction branches
  rw [List.map_append, String.join_append, hend]
  simp only [toString, List.map_map, Function.comp_def, Branch.render_case, Branch.render_default,
    List.map_cons, List.map_nil, String.join_cons, String.join_nil, String.append_assoc, String.append_empty]

/-! ## The pieces of a server -/

namespace Piece

def switch? : Piece → Option (List DispatchCase)
  | dispatch cases => some cases
  | _ => none

def pureVirtual? : Piece → Option Prototype
  | serverMethod m => Cpp.pureVirtual? m
  | _ => none

/-- A method of a server, or a switch. -/
def isDispatching : Piece → Bool
  | serverMethod _ | dispatch _ => true
  | _ => false

variable {piece : Piece} (h : piece.isDispatching = false)
include h

theorem case?_eq_none : piece.case? = none := by
  cases piece <;> first | rfl | cases h

theorem switch?_eq_none : piece.switch? = none := by
  cases piece <;> first | rfl | cases h

theorem pureVirtual?_eq_none : piece.pureVirtual? = none := by
  cases piece <;> first | rfl | cases h

end Piece

/-- What a call adds to the pair of a server, the switch apart. -/
def serverPieces (f : Frame) : Call → List Piece
  | .beginConstants => [.heading f.width "Constants"]
  | .constant c => [.constant c]
  | .endConstants => [.gap]
  | .beginTypes => [.heading f.width "Types"]
  | .enumeration doc info => [.enumeration doc info]
  | .struct info => [.struct info]
  | .beginMethods => [.heading 8 "Methods"]
  | .method m => [.serverMethod m]
  | _ => []

namespace FilePair

def switches (p : FilePair) : List (List DispatchCase) :=
  p.pieces.filterMap Piece.switch?

def pureVirtuals (p : FilePair) : List Prototype :=
  p.pieces.filterMap Piece.pureVirtual?

theorem pieces_take {p : FilePair} (hserver : p.frame.kind = .server) {c : Call}
    (hc : c ≠ .endMethods) : (p.take c).pieces = p.pieces ++ serverPieces p.frame c := by
  -- The end of the methods is left out, as what it adds depends on the pieces before.
  cases c <;>
    first
    | contradiction
    | simp [take, serverPieces, add, beginConstants, beginTypes, beginMethods, method, hserver]

theorem pieces_fill {p : FilePair} (hserver : p.frame.kind = .server) {cs : List Call}
    (hcs : .endMethods ∉ cs) :
    (p.fill cs).pieces = p.pieces ++ cs.flatMap (serverPieces p.frame) := by
  induction cs generalizing p with
  | nil => exact (List.append_nil _).symm
  | cons c cs ih =>
    obtain ⟨hc, hcs⟩ := List.ne_and_not_mem_of_not_mem_cons hcs
    have hframe := frame_take p c
    have hrest := ih (hframe ▸ hserver) hcs
    rw [pieces_take hserver hc.symm, hframe, List.append_assoc] at hrest
    exact hrest

end FilePair

/-! ## The pair of a server -/

/-- The call declares no method and does not end the methods. -/
def declares : Call → Bool
  | .method _ | .endMethods => false
  | _ => true

theorem isDispatching_serverPieces {c : Call} (hc : declares c = true) (f : Frame) :
    ∀ piece ∈ serverPieces f c, piece.isDispatching = false := by
  cases c <;> simp_all [declares, serverPieces, Piece.isDispatching]

theorem serverPieces_methods (f : Frame) (ms : List Method) :
    (ms.map Call.method).flatMap (serverPieces f) = ms.map .serverMethod := by
  rw [List.flatMap_map, List.map_eq_flatMap]
  rfl

def declaringCalls (i : ClassInterface) : List Call :=
  constantsBlock (.interfaceId i.id i.span :: i.constants) ++ (i.types.map typesBlock).getD []

theorem declares_of_mem (i : ClassInterface) : ∀ c ∈ declaringCalls i, declares c = true := by
  have htypes (ts : List TypeDecl) : ∀ c ∈ typesBlock ts, declares c = true := by
    refine forall_block (declares · = true) rfl (fun t => ?_) rfl ts
    cases t <;> rfl
  intro c hc
  obtain hc | hc := List.mem_append.mp hc
  · exact forall_block (declares · = true) rfl (fun _ => rfl) rfl _ c hc
  · exact forall_typesSlot htypes i.types c hc

def callsBefore (i : ClassInterface) : List Call :=
  declaringCalls i ++ .beginMethods :: i.methods.map .method

theorem halfCalls_eq (i : ClassInterface) : halfCalls i = callsBefore i ++ [.endMethods] := by
  simp [halfCalls, callsBefore, declaringCalls, methodsBlock]

theorem endMethods_not_mem (i : ClassInterface) : .endMethods ∉ callsBefore i := by
  simp only [callsBefore, List.mem_append, List.mem_cons, List.mem_map]
  rintro (h | h | ⟨m, -, h⟩)
  · exact absurd (declares_of_mem i _ h) (by decide)
  · cases h
  · cases h

def declaredPieces (f : Frame) (i : ClassInterface) : List Piece :=
  (declaringCalls i).flatMap (serverPieces f) ++ [.heading 8 "Methods"]

theorem isDispatching_declaredPieces (f : Frame) (i : ClassInterface) :
    ∀ piece ∈ declaredPieces f i, piece.isDispatching = false := by
  intro piece hpiece
  obtain hpiece | hpiece := List.mem_append.mp hpiece
  · obtain ⟨c, hc, hpiece⟩ := List.mem_flatMap.mp hpiece
    exact isDispatching_serverPieces (declares_of_mem i c hc) f piece hpiece
  · rw [List.mem_singleton.mp hpiece]
    rfl

theorem serverPieces_callsBefore (f : Frame) (i : ClassInterface) :
    (callsBefore i).flatMap (serverPieces f) =
      declaredPieces f i ++ i.methods.map .serverMethod := by
  rw [callsBefore, List.flatMap_append, List.flatMap_cons, serverPieces_methods, declaredPieces,
    List.append_assoc]
  rfl

theorem filterMap_front {α : Type} {part? : Piece → Option α} {front : List Piece}
    (hfront : ∀ piece ∈ front, part? piece = none) (back : List Piece) :
    (front ++ back).filterMap part? = back.filterMap part? := by
  rw [List.filterMap_append, List.filterMap_eq_nil_iff.mpr hfront, List.nil_append]

/-- The pieces of a server: what is declared before the methods, the methods in order, and then one
switch with their cases. -/
theorem pieces_server (i : ClassInterface) (d : Destination) :
    ∃ front, (∀ piece ∈ front, piece.isDispatching = false) ∧
      (∃ opening declared, front = opening :: .serverLifecycle i.constructor :: declared) ∧
      (sidePair i d .server).pieces =
        front ++ i.methods.map .serverMethod ++ [.dispatch (i.methods.map dispatchCase)] := by
  -- The switch takes up the cases of all that comes before it, of which only methods have any.
  let start := FilePair.server i.name i.serverBase d i.constructor
  have hkind : start.frame.kind = .server := rfl
  let front := start.pieces ++ declaredPieces start.frame i
  have hfront : ∀ piece ∈ front, piece.isDispatching = false := by
    intro piece hpiece
    obtain hpiece | hpiece := List.mem_append.mp hpiece
    · obtain rfl | rfl := List.mem_pair.mp hpiece <;> rfl
    · exact isDispatching_declaredPieces _ i piece hpiece
  have hbefore : (start.fill (callsBefore i)).pieces = front ++ i.methods.map .serverMethod := by
    rw [FilePair.pieces_fill hkind (endMethods_not_mem i), serverPieces_callsBefore,
      List.append_assoc]
  have hcases : (start.fill (callsBefore i)).cases = i.methods.map dispatchCase := by
    rw [FilePair.cases, hbefore,
      filterMap_front fun piece hpiece => Piece.case?_eq_none (hfront piece hpiece),
      List.filterMap_map]
    exact congrFun (List.filterMap_eq_map (f := dispatchCase)) _
  refine ⟨front, hfront, ⟨_, _, rfl⟩, ?_⟩
  have hend : (start.fill (callsBefore i ++ [.endMethods])) =
      (start.fill (callsBefore i)).add (.dispatch (start.fill (callsBefore i)).cases) := by
    rw [FilePair.fill_append]
    exact if_pos ((congrArg Frame.kind (FilePair.frame_fill _ _)).trans hkind)
  change (start.fill (halfCalls i)).pieces = _
  rw [halfCalls_eq, hend, FilePair.add, hbefore, hcases]

/-! ## The texts of a server -/

theorem implementation_methods (f : Frame) (ms : List Method) :
    String.join ((ms.map Piece.serverMethod).map (·.implementation f)) = "" := by
  induction ms with
  | nil => rfl
  | cons m ms ih =>
    rw [List.map_cons, List.map_cons, String.join_cons, ih]
    rfl

theorem header_methods (f : Frame) (ms : List Method) :
    String.join ((ms.map Piece.serverMethod).map (·.header f)) =
      String.join ((ms.filterMap pureVirtual?).map Prototype.renderPureVirtual) := by
  induction ms with
  | nil => rfl
  | cons m ms ih =>
    rw [List.map_cons, List.map_cons, String.join_cons, ih, Piece.header]
    cases h : pureVirtual? m with
    | none => rw [List.filterMap_cons_none h, Option.map_none, Option.getD_none, String.empty_append]
    | some v =>
      rw [List.filterMap_cons_some h, Option.map_some, Option.getD_some, List.map_cons,
        String.join_cons]

theorem filterMap_pureVirtual? (ms : List Method) :
    ms.filterMap pureVirtual? = (ms.filter (!·.inBaseClass)).map prototype := by
  induction ms with
  | nil => rfl
  | cons m ms ih =>
    cases h : m.inBaseClass <;> simp [pureVirtual?, h, ih]

section

variable (i : ClassInterface) (d : Destination)

theorem frame_server : (sidePair i d .server).frame = .server i.name i.serverBase d :=
  FilePair.frame_fill _ _

theorem switches_server : (sidePair i d .server).switches = [i.methods.map dispatchCase] := by
  obtain ⟨front, hfront, -, hpieces⟩ := pieces_server i d
  have hmethods : (i.methods.map Piece.serverMethod).filterMap Piece.switch? = [] := by
    rw [List.filterMap_map]
    exact List.filterMap_eq_nil_iff.mpr fun _ _ => rfl
  rw [FilePair.switches, hpieces, List.append_assoc,
    filterMap_front fun piece hpiece => Piece.switch?_eq_none (hfront piece hpiece),
    List.filterMap_append, hmethods]
  rfl

theorem pureVirtuals_server :
    (sidePair i d .server).pureVirtuals = (i.methods.filter (!·.inBaseClass)).map prototype := by
  obtain ⟨front, hfront, -, hpieces⟩ := pieces_server i d
  have hmethods : (i.methods.map Piece.serverMethod).filterMap Piece.pureVirtual? =
      i.methods.filterMap pureVirtual? :=
    List.filterMap_map
  rw [FilePair.pureVirtuals, hpieces, List.append_assoc,
    filterMap_front fun piece hpiece => Piece.pureVirtual?_eq_none (hfront piece hpiece),
    List.filterMap_append, hmethods, filterMap_pureVirtual?]
  exact List.append_nil _

theorem implementationText_server :
    ∃ lead, (sidePair i d .server).implementationText =
      lead ++ dispatchFunction (sidePair i d .server).frame.scope
        (branches i.serverBase (i.methods.map dispatchCase)) := by
  obtain ⟨front, -, -, hpieces⟩ := pieces_server i d
  refine ⟨String.join (front.map (·.implementation (sidePair i d .server).frame)), ?_⟩
  rw [FilePair.implementationText, hpieces, List.map_append, List.map_append, String.join_append,
    String.join_append, implementation_methods, String.append_empty, ← dispatchDefinition_eq]
  simp only [List.map_cons, List.map_nil, String.join_cons, String.join_nil, String.append_empty]
  rw [Piece.implementation, frame_server]
  rfl

/-- The header declares the pure virtuals in a row, right before the dispatch function. -/
theorem headerText_server :
    ∃ lead trail, (sidePair i d .server).headerText =
      lead ++ String.join ((sidePair i d .server).pureVirtuals.map Prototype.renderPureVirtual) ++
        dispatchDeclaration ++ trail := by
  obtain ⟨front, -, -, hpieces⟩ := pieces_server i d
  have hvirtuals := pureVirtuals_server i d
  generalize sidePair i d .server = p at hpieces hvirtuals ⊢
  refine ⟨String.join (front.map (·.header p.frame)), p.frame.closing ++
    "#pragma CIDLIB_POPPACK\n\n" ++ String.join (p.pieces.map (·.trailer p.frame)), ?_⟩
  have htext : String.join (p.pieces.map (·.header p.frame)) =
      String.join (front.map (·.header p.frame)) ++
        String.join (p.pureVirtuals.map Prototype.renderPureVirtual) ++ dispatchDeclaration := by
    rw [hvirtuals, ← filterMap_pureVirtual?, ← header_methods p.frame, hpieces, List.map_append,
      List.map_append, String.join_append, String.join_append]
    simp only [List.map_cons, List.map_nil, String.join_cons, String.join_nil, String.append_empty,
      Piece.header]
  rw [FilePair.headerText, htext]
  simp only [String.append_assoc]

end

/-! ## The methods of an interface -/

/-- The methods of an interface are read from one section at most, each numbered by its place. -/
theorem methods_of_ofElement {e : Element} {i : ClassInterface}
    (h : (ClassInterface.ofElement e).result = .ok i) :
    (e.childrenNamed Tag.methods).length ≤ 1 ∧
      List.Forall₂ (fun child m => (Method.ofElement child.2 child.1).result = .ok m)
        ((e.childrenNamed Tag.methods).flatMap (·.children)).zipIdx i.methods := by
  obtain ⟨-, -, -, s, hs, -, -, -, hmethods⟩ := ClassInterface.of_ofElement h
  have hslot := hs.methods
  refine ⟨length_le_one_of_slot hslot, ?_⟩
  unfold Element.childrenNamed
  rw [hmethods]
  obtain ⟨hes, hnone⟩ | ⟨child, ms, hes, hsome, hms⟩ := slot_cases hslot
  · rw [hes, hnone]
    exact .nil
  · rw [hes, hsome, List.flatMap_singleton]
    exact Method.of_ofSection hms

theorem serverBase_of_ofElement {e : Element} {i : ClassInterface}
    (h : (ClassInterface.ofElement e).result = .ok i) :
    i.serverBase = (e.get? Key.serverBase).getD ClassInterface.defaultServerBase := by
  obtain ⟨_, _, h⟩ := Logged.bind_ok_iff.mp h
  obtain ⟨_, _, h⟩ := Logged.bind_ok_iff.mp h
  obtain ⟨_, _, h⟩ := Logged.bind_ok_iff.mp h
  cases h
  rfl

theorem ordinals_eq_range {children : List Element} {ms : List Method}
    (h : List.Forall₂ (fun child m => (Method.ofElement child.2 child.1).result = .ok m)
      children.zipIdx ms) : ms.map (·.ordinal) = List.range ms.length := by
  have hordinals : List.Forall₂ (fun n m => n = m) (children.zipIdx.map (·.2))
      (ms.map (·.ordinal)) := by
    rw [List.forall₂_map_left_iff, List.forall₂_map_right_iff]
    exact h.imp fun child m hm => (Method.ordinal_of_ofElement hm).symm
  have hlength := h.length_eq
  rw [List.length_zipIdx] at hlength
  rw [← hlength, List.range_eq_range', ← List.zipIdx_map_snd]
  exact (List.forall₂_eq_eq_eq ▸ hordinals).symm

/-! ## The switch and its methods -/

/-- A class with two methods, of which its base class has the first. -/
def till : Element :=
  let result : Element := specimen Tag.result [] [typeSpecimen .void]
  specimen Tag.interface [] [
    specimen Tag.classInterface [(Key.name, "Till"), (Key.interfaceId, "7")] [
      specimen Tag.methods [] [
        specimen Tag.method [(Key.name, "Open"), (Key.inBaseClass, yes)] [result],
        specimen Tag.method [(Key.name, "Close")] [result]]]]

end OrbIdl.Cpp
