import OrbIdl.Proofs.Emission.Layout
import OrbIdl.Proofs.Reading.Sections

/-!
# Emission in document order

The relations below say which calls a tree leads to: one for each declaration, in the order of the
elements, in the brackets of the sections that hold them.
-/

namespace OrbIdl.Xml.Element

/-- The children of that name, in order. -/
def childrenNamed (e : Element) (tag : String) : List Element :=
  e.children.filter (·.name == tag)

end OrbIdl.Xml.Element

namespace OrbIdl.Emission

open Model
open Xml (Element)

/-! ## Calls of a tree -/

/-- The call hands over what the element declares. -/
inductive HandsOver : Element → Call → Prop where
  | constant {e : Element} {c : Constant} (hname : e.name = Tag.constant)
      (h : Constant.ofElement e = .ok c) : HandsOver e (.constant c)
  | enumeration {e : Element} {info : Enumeration} (hname : e.name = Tag.enumeration)
      (h : (Enumeration.ofElement e).result = .ok info) :
      HandsOver e (.enumeration (docText? e) info)
  | struct {e : Element} {info : Structure} (hname : e.name = Tag.struct)
      (h : Structure.ofElement e = .ok info) : HandsOver e (.struct info)

/-- The call hands over a method whose ordinal is `n`. -/
def HandsOverMethod (e : Element) (n : Nat) (call : Call) : Prop :=
  ∃ m, (Method.ofElement n e).result = .ok m ∧ m.ordinal = n ∧ call = .method m

/-- The calls for a section of constants or of types. -/
inductive BlockCalls : Element → List Call → Prop where
  | constants {e : Element} {cs : List Call} (hname : e.name = Tag.constants)
      (h : List.Forall₂ HandsOver e.children cs) :
      BlockCalls e (.beginConstants :: cs ++ [.endConstants])
  | types {e : Element} {cs : List Call} (hname : e.name = Tag.types)
      (h : List.Forall₂ HandsOver e.children cs) : BlockCalls e (.beginTypes :: cs ++ [.endTypes])

def GlobalsCalls (d : Destination) (e : Element) (cs : List Call) : Prop :=
  ∃ blocks, List.Forall₂ BlockCalls e.children blocks ∧
    cs = .beginGlobals d :: blocks.flatten ++ [.endGlobals]

/-- The declarations of the interface `e`, from one section of each kind at most. -/
structure DeclarationCalls (e : Element) (constants : List Call) (types : List (List Call))
    (methods : List Call) : Prop where
  one_constants : (e.childrenNamed Tag.constants).length ≤ 1
  constants :
    List.Forall₂ HandsOver ((e.childrenNamed Tag.constants).flatMap (·.children)) constants
  one_types : (e.childrenNamed Tag.types).length ≤ 1
  types : List.Forall₂ BlockCalls (e.childrenNamed Tag.types) types
  one_methods : (e.childrenNamed Tag.methods).length ≤ 1
  methods : List.Forall₂ (fun child => HandsOverMethod child.1 child.2)
    ((e.childrenNamed Tag.methods).flatMap (·.children)).zipIdx methods

/-- The calls of one half of the interface `e` between its begin and its end. -/
def HalfCalls (e : Element) (half : List Call) : Prop :=
  ∃ id constants types methods, e.get? Key.interfaceId = some id ∧
    DeclarationCalls e constants types methods ∧
    half =
      .beginConstants :: .constant (.interfaceId id e.span) :: constants ++ [.endConstants] ++
        types.flatten ++ .beginMethods :: methods ++ [.endMethods]

def InterfaceCalls (o : Options) (e : Element) (cs : List Call) : Prop :=
  ∃ name id half client server, e.get? Key.name = some name ∧ e.get? Key.interfaceId = some id ∧
    HalfCalls e half ∧
    (match clientDestination o with
      | some d => ∃ base, client = .beginClient base d :: half ++ [.endClient]
      | none => client = []) ∧
    (match serverDestination o with
      | some d => ∃ base params, server = .beginServer base d params :: half ++ [.endServer]
      | none => server = []) ∧
    cs = .beginInterface name id :: client ++ server ++ [.endInterface]

/-- The calls of a run over the document `root`. -/
def DocumentCalls (o : Options) (root : Element) (cs : List Call) : Prop :=
  ∃ globals interface,
    (match globalsDestination o with
      | some d => List.Forall₂ (GlobalsCalls d) (root.childrenNamed Tag.globals) globals
      | none => globals = []) ∧
    (root.childrenNamed Tag.classInterface).length ≤ 1 ∧
    List.Forall₂ (InterfaceCalls o) (root.childrenNamed Tag.classInterface) interface ∧
    cs = .beginRun :: globals.flatten ++ interface.flatten ++ [.endRun]

/-! ## The calls of what is read -/

theorem handsOver_constants {es : List Element} {cs : List Constant}
    (h : List.Forall₂ (fun e c => e.name = Tag.constant ∧ Constant.ofElement e = .ok c) es cs) :
    List.Forall₂ HandsOver es (cs.map .constant) := by
  rw [List.forall₂_map_right_iff]
  exact h.imp fun e c ⟨hname, hc⟩ => .constant hname hc

theorem handsOver_typeDecl {e : Element} {t : TypeDecl}
    (h : (TypeDecl.ofElement e).result = .ok t) : HandsOver e (Plan.typeDecl t) := by
  obtain ⟨hname, info, hinfo, rfl⟩ | ⟨hname, info, hinfo, rfl⟩ := TypeDecl.of_ofElement h
  · exact .enumeration hname hinfo
  · exact .struct hname hinfo

theorem blockCalls_constants {e : Element} {cs : List Constant} (hname : e.name = Tag.constants)
    (h : Constant.ofSection e = .ok cs) : BlockCalls e (constantsBlock cs) :=
  .constants hname (handsOver_constants (Constant.of_ofSection h))

theorem blockCalls_types {e : Element} {ts : List TypeDecl} (hname : e.name = Tag.types)
    (h : (TypeDecl.ofSection e).result = .ok ts) : BlockCalls e (typesBlock ts) := by
  refine .types hname ?_
  rw [List.forall₂_map_right_iff]
  exact (TypeDecl.of_ofSection h).imp fun e t ht => handsOver_typeDecl ht

theorem blockCalls_block {e : Element} {b : Block} (h : (Block.ofElement e).result = .ok b) :
    BlockCalls e (blockCalls b) := by
  obtain ⟨hname, cs, hcs, rfl⟩ | ⟨hname, ts, hts, rfl⟩ := Block.of_ofElement h
  · exact blockCalls_constants hname hcs
  · exact blockCalls_types hname hts

theorem globalsCalls_globals (d : Destination) {e : Element} {g : Globals}
    (h : (Globals.ofElement e).result = .ok g) : GlobalsCalls d e (globalsCalls d g) := by
  refine ⟨g.blocks.map blockCalls, ?_, by rw [globalsCalls, List.flatMap_def]⟩
  rw [List.forall₂_map_right_iff]
  exact (Globals.of_ofElement h).imp fun e b hb => blockCalls_block hb

/-! ## Interfaces -/

theorem flatten_toList {α : Type} (o : Option (List α)) : o.toList.flatten = o.getD [] := by
  cases o <;> simp

theorem handsOver_constantsSlot {es : List Element} {slot : Option (List Constant)}
    (h : List.Forall₂ (fun e cs => Constant.ofSection e = .ok cs) es slot.toList) :
    List.Forall₂ HandsOver (es.flatMap (·.children)) ((slot.getD []).map .constant) := by
  obtain ⟨rfl, rfl⟩ | ⟨e, cs, rfl, rfl, hcs⟩ := slot_cases h
  · exact .nil
  · rw [List.flatMap_singleton, Option.getD_some]
    exact handsOver_constants (Constant.of_ofSection hcs)

theorem handsOver_methodsSlot {es : List Element} {slot : Option (List Method)}
    (h : List.Forall₂ (fun e ms => (Method.ofSection e).result = .ok ms) es slot.toList) :
    List.Forall₂ (fun child => HandsOverMethod child.1 child.2)
      (es.flatMap (·.children)).zipIdx ((slot.getD []).map .method) := by
  obtain ⟨rfl, rfl⟩ | ⟨e, ms, rfl, rfl, hms⟩ := slot_cases h
  · exact .nil
  · rw [List.flatMap_singleton, Option.getD_some, List.forall₂_map_right_iff]
    exact (Method.of_ofSection hms).imp fun child m hm =>
      ⟨m, hm, Method.ordinal_of_ofElement hm, rfl⟩

theorem blockCalls_typesSlot {e : Element} {slot : Option (List TypeDecl)}
    (h : List.Forall₂ (fun e ts => (TypeDecl.ofSection e).result = .ok ts)
      (e.childrenNamed Tag.types) slot.toList) :
    List.Forall₂ BlockCalls (e.childrenNamed Tag.types) (slot.map typesBlock).toList := by
  obtain ⟨hes, rfl⟩ | ⟨child, ts, hes, rfl, hts⟩ := slot_cases h
  · rw [hes]
    exact .nil
  · have hmem : child ∈ e.childrenNamed Tag.types := by
      rw [hes]
      exact List.mem_singleton_self child
    have hname : child.name = Tag.types := by simpa using (List.mem_filter.mp hmem).2
    rw [hes]
    exact .cons (blockCalls_types hname hts) .nil

theorem halfCalls_half {e : Element} {i : ClassInterface}
    (h : (ClassInterface.ofElement e).result = .ok i) : HalfCalls e (halfCalls i) := by
  obtain ⟨-, hid, hspan, s, hs, hconstants, htypes, -, hmethods⟩ := ClassInterface.of_ofElement h
  refine ⟨i.id, i.constants.map .constant, (i.types.map typesBlock).toList,
    i.methods.map .method, hid, ?_, ?_⟩
  · exact {
      one_constants := length_le_one_of_slot hs.constants
      constants := by
        rw [hconstants]
        exact handsOver_constantsSlot hs.constants
      one_types := length_le_one_of_slot hs.types
      types := by
        rw [htypes]
        exact blockCalls_typesSlot hs.types
      one_methods := length_le_one_of_slot hs.methods
      methods := by
        rw [hmethods]
        exact handsOver_methodsSlot hs.methods }
  · rw [flatten_toList, ← hspan]
    simp [halfCalls, constantsBlock, methodsBlock]

theorem interfaceCalls_interface (o : Options) {e : Element} {i : ClassInterface}
    (h : (ClassInterface.ofElement e).result = .ok i) :
    InterfaceCalls o e (interfaceCalls o i) := by
  obtain ⟨hname, hid, -⟩ := ClassInterface.of_ofElement h
  refine ⟨i.name, i.id, halfCalls i, _, _, hname, hid, halfCalls_half h, ?_, ?_, rfl⟩
  · cases clientDestination o with
    | none => rfl
    | some d => exact ⟨i.clientBase, rfl⟩
  · cases serverDestination o with
    | none => rfl
    | some d => exact ⟨i.serverBase, i.constructor, rfl⟩

/-! ## Documents -/

theorem documentCalls_calls (o : Options) {root : Element} {d : Document}
    (h : (Document.ofElement root).result = .ok d) : DocumentCalls o root (calls o d) := by
  have hd := Document.of_ofElement h
  refine ⟨((globalsDestination o).map fun t => d.globals.map (globalsCalls t)).getD [],
    (d.classInterface.map (interfaceCalls o)).toList, ?_, length_le_one_of_slot hd.classInterface,
    ?_, ?_⟩
  · cases globalsDestination o with
    | none => rfl
    | some t =>
      dsimp only [Option.map_some, Option.getD_some]
      rw [List.forall₂_map_right_iff]
      exact hd.globals.imp fun e g hg => globalsCalls_globals t hg
  · obtain ⟨hes, hslot⟩ | ⟨e, i, hes, hslot, hi⟩ := slot_cases hd.classInterface
    · rw [Element.childrenNamed, hes, hslot]
      exact .nil
    · rw [Element.childrenNamed, hes, hslot]
      exact .cons (interfaceCalls_interface o hi) .nil
  · rw [calls_eq, flatten_toList]
    unfold allGlobalsCalls
    cases globalsDestination o <;> simp [List.flatMap_def]

/-- A backend that never refuses receives the calls of the tree that was read: in each half the id
and the constants, the types and the methods, each numbered by its place, and the globals where
they are asked for, every declaration once and in the order of the document. -/
theorem received_in_document_order {σ : Type} (backend : Backend σ)
    (hnever : ∀ s c, (backend s c).result = .ok ()) (s : σ) (o : Options) (root : Element)
    (d : Document) (h : (Document.ofElement root).result = .ok d) :
    DocumentCalls o root (emit (traced backend) (s, []) o d).state.2 := by
  rw [received_of_never_refuses hnever s o d]
  exact documentCalls_calls o h

theorem two_methods_in_document_order :
    let at0 : Span := ⟨0, 0⟩
    let named (name : String) : Xml.Attribute := ⟨Key.name, name, at0, false⟩
    let void : Element := ⟨"CIDIDL:RetType", at0, [], "", [.leaf "CIDIDL:TVoid" at0]⟩
    let method (name : String) : Element := ⟨"CIDIDL:Method", at0, [named name], "", [void]⟩
    let root : Element := ⟨"CIDIDL:Interface", at0, [], "", [
      ⟨"CIDIDL:ClassIntf", at0, [named "Shop", ⟨Key.interfaceId, "7", at0, false⟩], "", [
        ⟨"CIDIDL:Methods", at0, [], "", [method "Open", method "Close"]⟩]⟩]⟩
    let o : Options := { client := some ⟨"Shop", ⟨"out"⟩, none⟩ }
    ∃ d, (∀ s c, (recorder none s c).result = .ok ()) ∧ (Document.ofElement root).result = .ok d ∧
      DocumentCalls o root (emit (traced (recorder none)) ([], []) o d).state.2 := by
  intro at0 named void method root o
  obtain ⟨d, hd⟩ : ∃ d, (Document.ofElement root).result = .ok d := ⟨_, by rfl⟩
  exact ⟨d, result_recorder_none, hd,
    received_in_document_order (recorder none) result_recorder_none [] o root d hd⟩

end OrbIdl.Emission
