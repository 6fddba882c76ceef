import OrbIdl.Proofs.Server.Switch

/-!
# What the constructor of a server hands on

The constructor of a server declares its parameters as a method does, with a byte count before each
buffer that is not moved. To its base class it passes the parameters alone.
-/

namespace OrbIdl.Cpp

open Model Emission
open Xml (Element)

/-! ## The constructor as text -/

/-- A constructor that does nothing but pass arguments to its base class. -/
def constructorText (name base : String) (own : List Declarator) (passed : List Argument) :
    String :=
  name ++ "::" ++ name ++ "(" ++ Declarator.listBare own ++ ") :\n\n" ++
    "    " ++ base ++ "(" ++ argumentText passed ++ ")\n\x7b\n\x7d\n\n"

theorem serverConstructorDefinitions_eq (name base : String) {ps : List Param} (hps : ps ≠ []) :
    serverConstructorDefinitions name base ps =
      constructorText name base (paramList ps) (constructorArguments ps) := by
  have hempty : ps.isEmpty = false := by
    rw [List.isEmpty_eq_false_iff]
    exact hps
  simp only [serverConstructorDefinitions, constructorText, hempty, Bool.false_eq_true, if_false,
    toString, argumentList_eq, String.append_assoc]

theorem serverConstructorDeclarations_eq (name : String) {ps : List Param} (hps : ps ≠ []) :
    serverConstructorDeclarations name ps =
      "        " ++ name ++ "(" ++ Declarator.listWithDefaults (paramList ps) ++ ");\n" := by
  have hempty : ps.isEmpty = false := by
    rw [List.isEmpty_eq_false_iff]
    exact hps
  simp only [serverConstructorDeclarations, hempty, Bool.false_eq_true, if_false, toString]

section

variable (i : ClassInterface) (d : Destination)

theorem lifecycle_server :
    ∃ opening rest, (sidePair i d .server).pieces =
      opening :: .serverLifecycle i.constructor :: rest := by
  obtain ⟨front, -, ⟨opening, declared, rfl⟩, hpieces⟩ := pieces_server i d
  exact ⟨opening, _, hpieces⟩

theorem constructor_declared :
    ∃ lead trail, (sidePair i d .server).headerText =
      lead ++ serverConstructorDeclarations (sidePair i d .server).frame.scope i.constructor ++
        trail := by
  obtain ⟨opening, rest, hpieces⟩ := lifecycle_server i d
  generalize sidePair i d .server = p at hpieces ⊢
  refine ⟨opening.header p.frame ++ s!"        ~{p.frame.scope}();\n\n    protected :\n",
    "\n    public :\n" ++ String.join (rest.map (·.header p.frame)) ++ p.frame.closing ++
      "#pragma CIDLIB_POPPACK\n\n" ++ String.join (p.pieces.map (·.trailer p.frame)), ?_⟩
  rw [FilePair.headerText, hpieces]
  simp only [List.map_cons, String.join_cons, Piece.header, serverLifecycleDeclarations,
    String.append_assoc]

theorem constructor_defined :
    ∃ lead trail, (sidePair i d .server).implementationText =
      lead ++ serverConstructorDefinitions (sidePair i d .server).frame.scope i.serverBase
        i.constructor ++ trail := by
  obtain ⟨opening, rest, hpieces⟩ := lifecycle_server i d
  have hbase : (sidePair i d .server).frame.base = i.serverBase := by
    rw [frame_server]
    rfl
  generalize sidePair i d .server = p at hpieces hbase ⊢
  refine ⟨opening.implementation p.frame ++ s!"{p.frame.scope}::~{p.frame.scope}()\n\x7b\n\x7d\n\n",
    String.join (rest.map (·.implementation p.frame)), ?_⟩
  rw [FilePair.implementationText, hpieces]
  simp only [List.map_cons, String.join_cons, Piece.implementation, serverLifecycleDefinitions,
    hbase, String.append_assoc]

end

/-! ## Names -/

theorem names_constructorArguments (ps : List Param) :
    (constructorArguments ps).map (·.name) = ps.map (·.name) := by
  simp [constructorArguments]

theorem moved_constructorArguments (ps : List Param) :
    (constructorArguments ps).map (·.moved) = ps.map fun q => decide (passing q = .moved) := by
  simp [constructorArguments, passing_eq_moved_iff]

theorem length_passedNames (ps : List Param) :
    (ps.flatMap passedNames).length = ps.length + ps.countP isSized := by
  induction ps with
  | nil => rfl
  | cons q ps ih =>
    have hone : (passedNames q).length = 1 + if isSized q = true then 1 else 0 := by
      unfold passedNames
      simp only [← isSized_iff]
      split <;> rfl
    rw [List.flatMap_cons, List.length_append, List.countP_cons, List.length_cons, ih, hone]
    omega

/-- The names are those of the parameters alone when no buffer has a byte count. -/
theorem passedNames_eq_names_iff (ps : List Param) :
    ps.map (·.name) = ps.flatMap passedNames ↔
      ∀ q ∈ ps, q.type.type.isBuffer = true → q.moveable = true := by
  constructor
  · intro hnames q hq hbuffer
    have hlength := congrArg List.length hnames
    rw [List.length_map, length_passedNames, Nat.left_eq_add, List.countP_eq_zero] at hlength
    by_contra hmoved
    exact hlength q hq ((isSized_iff q).mpr ⟨hbuffer, Bool.eq_false_iff.mpr hmoved⟩)
  · intro hmoved
    rw [List.map_eq_flatMap]
    refine List.flatMap_congr fun q hq => (if_neg ?_).symm
    rintro ⟨hbuffer, hnot⟩
    rw [hmoved q hq hbuffer] at hnot
    cases hnot

/-! ## Declared and passed -/

/-- A server whose constructor has parameters passes them on by their names, moved where they are
taken over. It leaves out the byte counts among its own parameters, so the names are those that it
declares exactly when all buffers are moved. -/
theorem constructor_forwards_iff (i : ClassInterface) (d : Destination)
    (hparams : i.constructor ≠ []) :
    let p := sidePair i d .server
    let own := paramList i.constructor
    let passed := constructorArguments i.constructor
    (∃ lead trail, p.headerText = lead ++
      ("        " ++ p.frame.scope ++ "(" ++ Declarator.listWithDefaults own ++ ");\n") ++ trail) ∧
    (∃ lead trail, p.implementationText = lead ++
      constructorText p.frame.scope i.serverBase own passed ++ trail) ∧
    (own.map (·.name) = i.constructor.flatMap passedNames ∧
      passed.map (·.name) = i.constructor.map (·.name) ∧
      passed.map (·.moved) = i.constructor.map fun q => decide (passing q = .moved)) ∧
    (passed.map (·.name) = own.map (·.name) ↔
      ∀ q ∈ i.constructor, q.type.type.isBuffer = true → q.moveable = true) := by
  intro p own passed
  have hown : own.map (·.name) = i.constructor.flatMap passedNames := names_paramList _
  have hpassed : passed.map (·.name) = i.constructor.map (·.name) := names_constructorArguments _
  refine ⟨?_, ?_, ⟨hown, hpassed, moved_constructorArguments _⟩, ?_⟩
  · rw [← serverConstructorDeclarations_eq _ hparams]
    exact constructor_declared i d
  · rw [← serverConstructorDefinitions_eq _ _ hparams]
    exact constructor_defined i d
  · rw [hpassed, hown]
    exact passedNames_eq_names_iff i.constructor

def constructedFrom (params : List Element) : Element :=
  specimen Tag.classInterface [(Key.name, "Till"), (Key.interfaceId, "7")] [
    specimen Tag.constructor [] params, specimen Tag.methods [] []]

/-- The names agree for a buffer that is moved. -/
theorem ledger_forwarded :
    let ledger := specimen Tag.param
      [(Key.name, "ledger"), (Key.direction, "In"), (Key.moveable, yes)] [typeSpecimen .heapBuf]
    ∃ i, (ClassInterface.ofElement (constructedFrom [ledger])).result = .ok i ∧
      i.constructor ≠ [] ∧
      (constructorArguments i.constructor).map (·.name) = (paramList i.constructor).map (·.name) ∧
      (paramList i.constructor).map (·.name) = ["ledger"] := by
  intro ledger
  have hread : (ClassInterface.ofElement (constructedFrom [ledger])).result.toOption.map
      (fun i => (i.constructor.map (·.type.type.isBuffer), i.constructor.map (·.moveable),
        (paramList i.constructor).map (·.name))) = some ([true], [true], ["ledger"]) := by
    decide +kernel
  obtain ⟨i, hi, hcontents⟩ := Option.map_eq_some_iff.mp hread
  obtain ⟨hbuffers, hrest⟩ := Prod.mk.inj hcontents
  obtain ⟨hmoved, hnames⟩ := Prod.mk.inj hrest
  have hparams : i.constructor ≠ [] := by
    intro hnil
    rw [hnil] at hbuffers
    cases hbuffers
  obtain ⟨-, -, -, hiff⟩ :=
    constructor_forwards_iff i ⟨⟨"Shop", ⟨"out"⟩, none⟩, "", false⟩ hparams
  refine ⟨i, toOption_eq_some_iff.mp hi, hparams, hiff.mpr fun q hq _ => ?_, hnames⟩
  have hmem := List.mem_map_of_mem (f := (·.moveable)) hq
  rw [hmoved] at hmem
  exact List.mem_singleton.mp hmem

/-- A buffer that is not moved is declared with its byte count and passed without it. -/
theorem image_forwarded_without_size :
    let image := specimen Tag.param [(Key.name, "image"), (Key.direction, "In")]
      [typeSpecimen .memBuf]
    ∃ i, (ClassInterface.ofElement (constructedFrom [image])).result = .ok i ∧
      i.constructor ≠ [] ∧
      (paramList i.constructor).map (·.name) = ["c4ImageSz", "image"] ∧
      (constructorArguments i.constructor).map (·.name) = ["image"] ∧
      (constructorArguments i.constructor).map (·.name) ≠
        (paramList i.constructor).map (·.name) := by
  intro image
  have hread : (ClassInterface.ofElement (constructedFrom [image])).result.toOption.map
      (fun i => ((paramList i.constructor).map (·.name),
        (constructorArguments i.constructor).map (·.name))) =
        some (["c4ImageSz", "image"], ["image"]) := by
    decide +kernel
  obtain ⟨i, hi, hcontents⟩ := Option.map_eq_some_iff.mp hread
  obtain ⟨hdeclared, hpassed⟩ := Prod.mk.inj hcontents
  refine ⟨i, toOption_eq_some_iff.mp hi, ?_, hdeclared, hpassed, ?_⟩
  · intro hnil
    rw [hnil] at hdeclared
    cases hdeclared
  · rw [hdeclared, hpassed]
    decide

end OrbIdl.Cpp
