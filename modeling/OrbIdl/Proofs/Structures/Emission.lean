import OrbIdl.Proofs.Generation.Pairs
import OrbIdl.Proofs.Structures.Order
import OrbIdl.Proofs.Valid.Demanded

/-!
# Structures that are generated

Structures are handed over in the order of their declarations, so what leads back in a document
leads back in the calls of a run and in each pair of files.
-/

namespace OrbIdl.Emission

open Model

/-! ## The structures that are handed over -/

def Call.struct? : Call → Option Structure
  | struct info => some info
  | _ => none

def structsOf (cs : List Call) : List Structure :=
  cs.filterMap Call.struct?

theorem structsOf_append (cs cs' : List Call) :
    structsOf (cs ++ cs') = structsOf cs ++ structsOf cs' :=
  List.filterMap_append

theorem structsOf_flatMap {α : Type} (f : α → List Call) (xs : List α) :
    structsOf (xs.flatMap f) = xs.flatMap fun x => structsOf (f x) :=
  List.filterMap_flatMap

/-- Between brackets that hand over nothing of their own. -/
theorem structsOf_bracketed {opening closing : Call} (hopening : opening.struct? = none)
    (hclosing : closing.struct? = none) (cs : List Call) :
    structsOf (opening :: cs ++ [closing]) = structsOf cs := by
  simp [structsOf, hopening, hclosing]

theorem structsOf_map {α : Type} (call : α → Call) (xs : List α) :
    structsOf (xs.map call) = xs.filterMap fun x => (call x).struct? :=
  List.filterMap_map

theorem structsOf_constantsBlock (cs : List Constant) : structsOf (constantsBlock cs) = [] := by
  rw [constantsBlock, structsOf_bracketed rfl rfl, structsOf_map]
  exact List.filterMap_eq_nil_iff.mpr fun _ _ => rfl

theorem structsOf_typesBlock (ts : List TypeDecl) :
    structsOf (typesBlock ts) = ts.filterMap (·.struct?) := by
  rw [typesBlock, structsOf_bracketed rfl rfl, structsOf_map]
  refine List.filterMap_congr fun t _ => ?_
  cases t <;> rfl

theorem structsOf_methodsBlock (ms : List Method) : structsOf (methodsBlock ms) = [] := by
  rw [methodsBlock, structsOf_bracketed rfl rfl, structsOf_map]
  exact List.filterMap_eq_nil_iff.mpr fun _ _ => rfl

theorem structsOf_blocks (g : Globals) :
    structsOf (g.blocks.flatMap blockCalls) = g.typeDecls.filterMap (·.struct?) := by
  have hblock (b : Block) : structsOf (blockCalls b) = b.typeDecls.filterMap (·.struct?) := by
    cases b with
    | constants cs => exact structsOf_constantsBlock cs
    | types ts => exact structsOf_typesBlock ts
  rw [structsOf_flatMap, Globals.typeDecls, List.filterMap_flatMap]
  simp only [hblock]

theorem structsOf_halfCalls (i : ClassInterface) :
    structsOf (halfCalls i) = (i.types.getD []).filterMap (·.struct?) := by
  rw [halfCalls, structsOf_append, structsOf_append, structsOf_constantsBlock,
    structsOf_methodsBlock, List.nil_append, List.append_nil]
  cases i.types with
  | none => rfl
  | some ts => exact structsOf_typesBlock ts

theorem structsOf_allGlobalsCalls (o : Options) (d : Document) :
    structsOf (allGlobalsCalls o d.globals) =
      if (globalsDestination o).isSome then d.globalStructures else [] := by
  unfold allGlobalsCalls
  cases globalsDestination o with
  | none => rfl
  | some t =>
    have hsection (g : Globals) :
        structsOf (globalsCalls t g) = g.typeDecls.filterMap (·.struct?) := by
      rw [globalsCalls, structsOf_bracketed rfl rfl, structsOf_blocks]
    rw [structsOf_flatMap, Option.isSome_some, if_pos rfl, Document.globalStructures,
      List.filterMap_flatMap]
    simp only [hsection]

theorem structsOf_side (s : Plan.Side) (i : ClassInterface) (t : Option Destination) :
    structsOf ((t.map (sideCalls s i)).getD []) =
      if t.isSome then (i.types.getD []).filterMap (·.struct?) else [] := by
  cases t with
  | none => rfl
  | some t =>
    rw [Option.map_some, Option.getD_some, Option.isSome_some, if_pos rfl, sideCalls,
      structsOf_bracketed (by cases s <;> rfl) (by cases s <;> rfl), structsOf_halfCalls]

/-- What a run hands over: the structures of the globals, and those of the interface once for each
half, where the output is asked for. -/
theorem structsOf_calls (o : Options) (d : Document) :
    structsOf (calls o d) =
      (if (globalsDestination o).isSome then d.globalStructures else []) ++
      (if (clientDestination o).isSome then d.interfaceStructures else []) ++
      (if (serverDestination o).isSome then d.interfaceStructures else []) := by
  rw [calls_eq, List.cons_append, structsOf_bracketed rfl rfl, structsOf_append,
    structsOf_allGlobalsCalls, Document.interfaceStructures]
  cases d.classInterface with
  | none => simp [structsOf]
  | some i =>
    rw [Option.map_some, Option.getD_some, Option.bind_some, interfaceCalls, List.cons_append,
      structsOf_bracketed rfl rfl, structsOf_append, structsOf_side, structsOf_side,
      List.append_assoc]

end OrbIdl.Emission

namespace OrbIdl.Cpp

open Model Emission

/-! ## The structures of a pair -/

def Piece.struct? : Piece → Option Structure
  | struct info => some info
  | _ => none

namespace FilePair

/-- The structures that the header defines, in order. -/
def structs (p : FilePair) : List Structure :=
  p.pieces.filterMap Piece.struct?

theorem structs_eq (p : FilePair) : p.structs = p.declarations.filterMap Piece.struct? := by
  rw [structs, declarations, List.filterMap_filter]
  refine List.filterMap_congr fun piece _ => ?_
  cases piece <;> rfl

end FilePair

theorem structs_blockPieces (b : Block) :
    (blockPieces b).filterMap Piece.struct? = b.typeDecls.filterMap (·.struct?) := by
  cases b with
  | constants cs =>
    rw [blockPieces, List.filterMap_map]
    exact List.filterMap_eq_nil_iff.mpr fun _ _ => rfl
  | types ts =>
    rw [blockPieces, List.filterMap_map]
    refine List.filterMap_congr fun t _ => ?_
    cases t <;> rfl

/-- A pair has the structures of the globals or those of the interface. -/
theorem structs_pair {o : Options} {d : Document} {kind : TargetKind} {p : FilePair}
    (h : pair? o d kind = some p) :
    p.structs = d.globalStructures ∨ p.structs = d.interfaceStructures := by
  have hinterface : ((d.classInterface.map interfacePieces).getD []).filterMap Piece.struct? =
      d.interfaceStructures := by
    rw [Document.interfaceStructures]
    cases d.classInterface with
    | none => rfl
    | some i => simp [interfacePieces, structs_blockPieces, Block.typeDecls]
  have hglobals : (documentPieces d .globals).filterMap Piece.struct? = d.globalStructures := by
    simp only [documentPieces, Document.globalStructures, List.filterMap_flatMap,
      structs_blockPieces, Globals.typeDecls]
  rw [FilePair.structs_eq, declarations_pair h]
  cases kind with
  | client => exact .inr hinterface
  | server => exact .inr hinterface
  | globals => exact .inl hglobals

end OrbIdl.Cpp

namespace OrbIdl.Model

open Xml Emission Cpp

theorem sublist_ite {α : Type} (c : Prop) [Decidable c] (xs : List α) :
    (if c then xs else []).Sublist xs := by
  split
  · exact .refl xs
  · exact List.nil_sublist xs

namespace LeadBack

variable {d : Document} (h : LeadBack d.structures) (o : Options)
include h

theorem beforeUse_calls : BeforeUse (structsOf (calls o d)) := by
  rw [structsOf_calls]
  by_cases hclient : (clientDestination o).isSome
  · -- The second half repeats the structures of the first.
    rw [if_pos hclient]
    refine .append ?_ ?_ fun s _ t ht _ => ?_
    · exact (h.sublist ((sublist_ite _ _).append (.refl _))).beforeUse
    · exact (h.sublist ((sublist_ite _ _).trans (List.sublist_append_right _ _))).beforeUse
    · exact List.mem_append_right _ ((sublist_ite _ _).subset ht)
  · rw [if_neg hclient, List.append_nil]
    exact (h.sublist ((sublist_ite _ _).append (sublist_ite _ _))).beforeUse

theorem beforeUse_pair {kind : TargetKind} {p : FilePair} (hp : pair? o d kind = some p) :
    BeforeUse p.structs := by
  obtain hstructs | hstructs := structs_pair hp
  · rw [hstructs]
    exact (h.sublist (List.sublist_append_left _ _)).beforeUse
  · rw [hstructs]
    exact (h.sublist (List.sublist_append_right _ _)).beforeUse

end LeadBack

/-! ## Documents -/

/-- Once its sections are read, a document is refused for a structure when one of its structures
refers to a name that no earlier one has, and then for the first such reference. In a document that
is taken and whose structures have different names, references make no cycle, and both in a run and
in each pair of files a structure comes after those that it refers to. -/
theorem references_checked {root : Element} {d : Document} (h : d.ReadFrom root) :
    ((∃ decl name span, (Document.ofElement root).result =
        .error (.malformed decl (.unknownStruct name) span)) ↔
      ∃ earlier s later field name span, d.structures = earlier ++ s :: later ∧
        .sub field name span ∈ s.members ∧ ¬Declared earlier name) ∧
    (∀ f, (Document.ofElement root).result = .error f → ∃ s name span,
      f = .malformed s.name (.unknownStruct name) span ∧
        FirstDangling [] d.structures s name span) ∧
    ((Document.ofElement root).result = .ok d → (d.structures.map (·.name)).Nodup →
      (∀ s, ¬Relation.TransGen (RefersAmong d.structures) s s) ∧
      ∀ o, BeforeUse (structsOf (calls o d)) ∧
        ∀ kind p, pair? o d kind = some p → BeforeUse p.structs) := by
  have hresult := Document.result_of_readFrom h
  cases hdangling : d.dangling? with
  | none =>
    have hgrounded := d.dangling?_eq_none_iff.mp hdangling
    have hresult : (Document.ofElement root).result = .ok d := by rw [hresult, hdangling]
    refine ⟨iff_of_false ?_ ?_, ?_, fun _ hnames => ?_⟩
    · rw [hresult]
      simp
    · exact fun hnot => not_grounded_iff.mpr hnot hgrounded
    · rw [hresult]
      intro f hf
      cases hf
    · have hback : LeadBack d.structures := leadBack_of_grounded hgrounded hnames
      exact ⟨hback.acyclic, fun o =>
        ⟨hback.beforeUse_calls o, fun _ _ hp => hback.beforeUse_pair o hp⟩⟩
  | some found =>
    obtain ⟨s, name, span⟩ := found
    have hfirst := Document.firstDangling_of_dangling? hdangling
    have hresult : (Document.ofElement root).result =
        .error (.malformed s.name (.unknownStruct name) span) := by rw [hresult, hdangling]
    refine ⟨iff_of_true ⟨_, _, _, hresult⟩ ?_, ?_, ?_⟩
    · exact not_grounded_iff.mp hfirst.not_grounded
    · rw [hresult]
      rintro f ⟨⟩
      exact ⟨s, name, span, rfl, hfirst⟩
    · rw [hresult]
      intro htaken
      cases htaken

/-- The structure `Purse` has a member of the type `coin`, and so does `Till` of the interface. -/
def purses (coin : String) : Element :=
  let sub (type : String) : Element :=
    specimen Tag.subStruct [(Key.name, "m"), (Key.type, type)] []
  specimen Tag.interface [] [
    specimen Tag.globals [] [
      specimen Tag.types [] [
        specimen Tag.struct [(Key.type, "Coin")]
          [specimen Tag.member [(Key.name, "m"), (Key.type, "TCard4")] []],
        specimen Tag.enumeration [(Key.name, "Metal")]
          [specimen Tag.enumValue [(Key.name, "Gold")] []],
        specimen Tag.struct [(Key.type, "Purse")] [sub coin]]],
    specimen Tag.classInterface [(Key.name, "I"), (Key.interfaceId, "1")] [
      specimen Tag.types [] [specimen Tag.struct [(Key.type, "Till")] [sub "Purse", sub coin]],
      specimen Tag.methods [] []]]

/-- A coin will do, and the enumeration `Metal` will not. -/
theorem purses_checked :
    (∃ d, Document.ReadFrom d (purses "Coin") ∧
      (Document.ofElement (purses "Coin")).result = .ok d ∧
      d.structures.map (·.name) = ["Coin", "Purse", "Till"] ∧
      (∀ s, ¬Relation.TransGen (RefersAmong d.structures) s s) ∧
      ∀ o, BeforeUse (structsOf (calls o d))) ∧
    ∃ d s, Document.ReadFrom d (purses "Metal") ∧
      (Document.ofElement (purses "Metal")).result =
        .error (.malformed "Purse" (.unknownStruct "Metal") .unknown) ∧
      FirstDangling [] d.structures s "Metal" .unknown := by
  constructor
  · have hnames : (Document.ofElement (purses "Coin")).result.toOption.map
        (·.structures.map (·.name)) = some ["Coin", "Purse", "Till"] := by
      decide +kernel
    obtain ⟨d, hd, hnames⟩ := Option.map_eq_some_iff.mp hnames
    have hresult := toOption_eq_some_iff.mp hd
    have hread := Document.readFrom_of_ofElement hresult
    obtain ⟨-, -, htaken⟩ := references_checked hread
    obtain ⟨hacyclic, horder⟩ := htaken hresult (by rw [hnames]; decide)
    exact ⟨d, hread, hresult, hnames, hacyclic, fun o => (horder o).1⟩
  · have hsections :
        ((purses "Metal").children.foldlM Document.step ⟨[], none⟩).result.isOk = true := by
      decide +kernel
    obtain ⟨d, hd⟩ := isOk_iff.mp hsections
    have hread := Document.readFrom_iff.mpr ⟨rfl, hd⟩
    have hresult : (Document.ofElement (purses "Metal")).result =
        .error (.malformed "Purse" (.unknownStruct "Metal") .unknown) := by
      decide +kernel
    obtain ⟨-, hrefused, -⟩ := references_checked hread
    obtain ⟨s, name, span, hfault, hfirst⟩ := hrefused _ hresult
    obtain ⟨-, hrule, rfl⟩ := Fault.malformed.inj hfault
    obtain rfl := Rule.unknownStruct.inj hrule
    exact ⟨d, s, hread, hresult, hfirst⟩

end OrbIdl.Model
