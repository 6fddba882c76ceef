import Mathlib.Data.List.Basic
import OrbIdl.Cpp.Enum.Code
import OrbIdl.Proofs.Results

/-!
# What an enumeration declares and what it defines

The header of an enumeration is written to two places: inside the scope around the enumeration, and
behind that scope. The implementation stands outside of any scope and names the one of each
function.
-/

namespace OrbIdl.Cpp.Enum

open Model Xml

/-! ## Signatures -/

/-- By what a function is known: the scope it is in, its result, its name, and the types of its
parameters. -/
structure Signature where
  place : Place
  result : String
  name : String
  params : List String
deriving DecidableEq

/-- A function declared at `place`, where `own` is the enumeration. -/
def Declaration.signature (own : String) (place : Place) (d : Declaration) : Signature :=
  ⟨place, d.result.render own, d.name, d.params.map (·.type.render own)⟩

def Definition.signature (own : String) (d : Definition) : Signature :=
  ⟨d.place, d.result.render own, d.name, d.params.map (·.type.render own)⟩

/-! ## The parts of a header -/

/-- A function declared without a body, with the name that it has for the enumeration and what
stands before it, or any other text. -/
inductive Part where
  | other (text : String)
  | declared (own lead : String) (d : Declaration)

namespace Part

def render : Part → String
  | other text => text
  | declared own lead d => d.render own lead

def renderAll (parts : List Part) : String :=
  String.join (parts.map render)

/-- What is declared by a part that is written at `place`. In the scope around it the enumeration
goes by its bare name as well. -/
def signature? (enclosing : String) (e : Enumeration) (place : Place) : Part → Option Signature
  | other _ => none
  | declared own _ d =>
    let known := if place = .enclosing ∧ own = e.name then fullName enclosing e else own
    some (d.signature known place)

end Part

section

variable (s : Surroundings) (e : Enumeration)

def scopedParts : List Part :=
  (scopedDeclarations e).map (.declared e.name (scopedLead s)) ++ [.other "\n"]

def arrayParts : List Part :=
  (arrayDeclarations e).map (.declared (fullName s.enclosing e) (exportLead s.exportWord))

def operatorParts : List Part :=
  .other (operators s.enclosing e) ::
    (textStreamDeclaration (textStreamPlace s) e).map
      (.declared (fullName s.enclosing e) (exportLead s.exportWord))

/-- What is written inside the scope, each section indented on its own. -/
def headerSections : List (List Part) :=
  [[.other (definition e)], scopedParts s e] ++ if s.inClass then [] else [operatorParts s e]

/-- What is written behind the scope. -/
def trailerParts : List Part :=
  arrayParts s e ++ if s.inClass then operatorParts s e else []

/-- The functions that are declared without a body, in the scope that each is written in. -/
def declared : List Signature :=
  (headerSections s e).flatten.filterMap (Part.signature? s.enclosing e .enclosing) ++
    (trailerParts s e).filterMap (Part.signature? s.enclosing e .global)

/-- The functions that are defined, in the scope that each is said to be in. -/
def defined : List Signature :=
  (definitions e).map (Definition.signature (fullName s.enclosing e))

/-- The operator that writes a text, if there is one. -/
def textOperator (place : Place) : List Signature :=
  if e.maps.textStream.isEnabled then
    [⟨place, "TTextOutStream&", "operator<<",
      ["TTextOutStream&", "const " ++ fullName s.enclosing e]⟩]
  else []

/-- All functions but that operator. -/
def plainSignatures : List Signature :=
  (scopedDeclarations e).map (Declaration.signature (fullName s.enclosing e) .enclosing) ++
    (arrayDeclarations e).map (Declaration.signature (fullName s.enclosing e) .global)

/-! ### The text of the parts -/

theorem renderAll_map_declared (own lead : String) (ds : List Declaration) :
    Part.renderAll (ds.map (.declared own lead)) = String.join (ds.map (·.render own lead)) := by
  rw [Part.renderAll, List.map_map]
  rfl

theorem renderAll_scopedParts : Part.renderAll (scopedParts s e) = signatures s e := by
  rw [scopedParts, Part.renderAll, List.map_append, String.join_append, ← Part.renderAll,
    renderAll_map_declared]
  rfl

theorem renderAll_operatorParts : Part.renderAll (operatorParts s e) = operatorSection s e := by
  rw [operatorParts, Part.renderAll, List.map_cons, String.join_cons, ← Part.renderAll,
    renderAll_map_declared]
  rfl

theorem header_eq : header s e = String.join ((headerSections s e).map fun parts =>
    Text.indent (if s.inClass then 8 else 4) (Part.renderAll parts)) := by
  have hdefinition : Part.renderAll [.other (definition e)] = definition e := by
    simp [Part.renderAll, Part.render]
  unfold header headerSections
  cases s.inClass <;>
    simp [hdefinition, renderAll_scopedParts, renderAll_operatorParts, String.append_assoc]

theorem trailer_eq : trailer s e = Part.renderAll (trailerParts s e) := by
  have harrays : Part.renderAll (arrayParts s e) = arraySignatures s e :=
    renderAll_map_declared _ _ _
  unfold trailer trailerParts
  rw [Part.renderAll, List.map_append, String.join_append, ← Part.renderAll, harrays]
  cases s.inClass
  · rfl
  · exact congrArg _ (renderAll_operatorParts s e).symm

/-! ### The functions of the parts -/

theorem filterMap_bare (lead : String) (ds : List Declaration) :
    (ds.map (.declared e.name lead)).filterMap (Part.signature? s.enclosing e .enclosing) =
      ds.map (Declaration.signature (fullName s.enclosing e) .enclosing) := by
  rw [List.filterMap_map, ← List.filterMap_eq_map]
  simp [Function.comp_def, Part.signature?]

theorem filterMap_full (place : Place) (lead : String) (ds : List Declaration) :
    (ds.map (.declared (fullName s.enclosing e) lead)).filterMap
        (Part.signature? s.enclosing e place) =
      ds.map (Declaration.signature (fullName s.enclosing e) place) := by
  rw [List.filterMap_map, ← List.filterMap_eq_map]
  simp [Function.comp_def, Part.signature?]

theorem filterMap_scopedParts :
    (scopedParts s e).filterMap (Part.signature? s.enclosing e .enclosing) =
      (scopedDeclarations e).map (Declaration.signature (fullName s.enclosing e) .enclosing) := by
  rw [scopedParts, List.filterMap_append, filterMap_bare]
  exact List.append_nil _

theorem filterMap_operatorParts (place : Place) :
    (operatorParts s e).filterMap (Part.signature? s.enclosing e place) =
      textOperator s e place := by
  rw [operatorParts, List.filterMap_cons_none rfl, filterMap_full]
  unfold textStreamDeclaration textOperator
  cases e.maps.textStream.isEnabled
  · rfl
  · simp [Declaration.signature, CppType.render, CppType.core, CppType.reference,
      CppType.constSelf]

theorem filterMap_headerSections :
    (headerSections s e).flatten.filterMap (Part.signature? s.enclosing e .enclosing) =
      (scopedDeclarations e).map (Declaration.signature (fullName s.enclosing e) .enclosing) ++
        if s.inClass then [] else textOperator s e .enclosing := by
  have hdefinition : [Part.other (definition e)].filterMap
      (Part.signature? s.enclosing e .enclosing) = [] := rfl
  unfold headerSections
  rw [List.flatten_append, List.filterMap_append, List.flatten_cons, List.filterMap_append,
    hdefinition, List.flatten_singleton, filterMap_scopedParts, List.nil_append]
  cases s.inClass
  · exact congrArg _ (by simpa using filterMap_operatorParts s e .enclosing)
  · rfl

theorem filterMap_trailerParts :
    (trailerParts s e).filterMap (Part.signature? s.enclosing e .global) =
      (arrayDeclarations e).map (Declaration.signature (fullName s.enclosing e) .global) ++
        if s.inClass then textOperator s e .global else [] := by
  unfold trailerParts
  rw [List.filterMap_append, arrayParts, filterMap_full]
  cases s.inClass
  · rfl
  · exact congrArg _ (filterMap_operatorParts s e .global)

/-- Where the operator is declared depends on the surroundings, all else does not. -/
theorem declared_perm :
    (declared s e).Perm (plainSignatures s e ++ textOperator s e (textStreamPlace s)) := by
  rw [declared, filterMap_headerSections, filterMap_trailerParts, plainSignatures,
    textStreamPlace, List.append_assoc, List.append_assoc]
  refine .append_left _ ?_
  cases s.inClass
  · rw [if_neg Bool.false_ne_true, if_neg Bool.false_ne_true, if_neg Bool.false_ne_true,
      List.append_nil]
    exact List.perm_append_comm
  · exact .refl _

end

/-! ## Definitions -/

/-- What is declared as often as it is defined still is when a toggle leaves both out. -/
theorem count_of_toggle {ds : List Definition} {qs : List Declaration} {own : String}
    {place : Place} (toggle : Bool) (x : Signature)
    (h : (ds.map (Definition.signature own)).Perm (qs.map (Declaration.signature own place))) :
    ((if toggle then ds else []).map (Definition.signature own)).count x =
      ((if toggle then qs else []).map (Declaration.signature own place)).count x := by
  cases toggle
  · rfl
  · exact h.count_eq x

section

variable (own t : String) (column : TextColumn)

/-- The two functions of this pair are declared in one order and defined in the other. -/
theorem signatures_translate :
    ([defineToText "strXlat" t column, defineFromText "eXlat" t column].map
        (Definition.signature own)).Perm
      ([declareFromText "eXlat" t, declareToText true "strXlat" t "kCIDLib::True"].map
        (Declaration.signature own .enclosing)) :=
  .swap _ _ _

theorem signatures_load :
    [defineToText "strLoad" t column].map (Definition.signature own) =
      [declareToText false "strLoad" t "kCIDLib::False"].map
        (Declaration.signature own .enclosing) :=
  rfl

theorem signatures_alt (suffix toText fromText : String) (hto : toText = "strAltXlat" ++ suffix)
    (hfrom : fromText = "eAltXlat" ++ suffix) :
    [defineToText toText t column, defineFromText fromText t column].map
        (Definition.signature own) =
      (declareAltMap suffix t).map (Declaration.signature own .enclosing) := by
  subst hto hfrom
  rfl

theorem signatures_altNumbers :
    (defineAltNumbers t).map (Definition.signature own) =
      (declareAltNumbers t).map (Declaration.signature own .enclosing) :=
  rfl

theorem signatures_format :
    [defineFormat t].map (Definition.signature own) =
      [declareFormat t column].map (Declaration.signature own .enclosing) :=
  rfl

theorem signatures_isValid :
    [defineIsValid].map (Definition.signature own) =
      [declareIsValid].map (Declaration.signature own .enclosing) :=
  rfl

end

section

variable (s : Surroundings) (e : Enumeration)

theorem signatures_arrays :
    (if e.binaryStream then defineArrays else []).map
        (Definition.signature (fullName s.enclosing e)) =
      (arrayDeclarations e).map (Declaration.signature (fullName s.enclosing e) .global) := by
  unfold arrayDeclarations
  cases e.binaryStream <;> rfl

theorem signatures_textStream :
    (if e.maps.textStream.isEnabled then [defineTextStream e.maps.textStream] else []).map
        (Definition.signature (fullName s.enclosing e)) = textOperator s e .enclosing := by
  unfold textOperator
  cases e.maps.textStream.isEnabled
  · rfl
  · simp [Definition.signature, defineTextStream, CppType.render, CppType.core,
      CppType.reference, CppType.constSelf]

/-- The operator is defined in the scope of the enumeration whatever surrounds it. -/
theorem defined_perm : (defined s e).Perm (plainSignatures s e ++ textOperator s e .enclosing) := by
  refine List.perm_iff_count.mpr fun x => ?_
  have htranslate := count_of_toggle e.maps.translate.isEnabled x
    (signatures_translate (fullName s.enclosing e) e.name e.maps.translate)
  have hload := count_of_toggle e.maps.load.isEnabled x
    (.of_eq (signatures_load (fullName s.enclosing e) e.name e.maps.load))
  have halt := count_of_toggle e.maps.alt.isEnabled x (.of_eq (signatures_alt
    (fullName s.enclosing e) e.name e.maps.alt "" "strAltXlat" "eAltXlat" rfl rfl))
  have halt2 := count_of_toggle e.maps.alt2.isEnabled x (.of_eq (signatures_alt
    (fullName s.enclosing e) e.name e.maps.alt2 "2" "strAltXlat2" "eAltXlat2" rfl rfl))
  have haltNumbers := count_of_toggle e.altNumbers x
    (.of_eq (signatures_altNumbers (fullName s.enclosing e) e.name))
  have hformat := count_of_toggle e.maps.format.isEnabled x
    (.of_eq (signatures_format (fullName s.enclosing e) e.name e.maps.format))
  simp only [defined, plainSignatures, definitions, scopedDeclarations, List.map_append,
    List.count_append, signatures_isValid, signatures_arrays, signatures_textStream] at *
  omega

/-! ## Agreement -/

/-- What the header declares and what the implementation defines is the same, but for the operator
that writes a text: it is defined in the scope of the enumeration, and for an enumeration in a class
it is declared behind that scope. -/
theorem functions_agree_iff :
    (header s e = String.join ((headerSections s e).map fun parts =>
        Text.indent (if s.inClass then 8 else 4) (Part.renderAll parts)) ∧
      trailer s e = Part.renderAll (trailerParts s e) ∧
      implementation s.enclosing e = (table e).render s.enclosing ++ String.join
        ((definitions e).map (·.render s.enclosing e.name (fullName s.enclosing e)))) ∧
    (∃ common, (declared s e).Perm (common ++ textOperator s e (textStreamPlace s)) ∧
      (defined s e).Perm (common ++ textOperator s e .enclosing)) ∧
    ((declared s e).Perm (defined s e) ↔
      ¬(s.inClass = true ∧ e.maps.textStream.isEnabled = true)) := by
  refine ⟨⟨header_eq s e, trailer_eq s e, rfl⟩, ⟨_, declared_perm s e, defined_perm s e⟩, ?_⟩
  have hoperator : (declared s e).Perm (defined s e) ↔
      (textOperator s e (textStreamPlace s)).Perm (textOperator s e .enclosing) := by
    rw [(declared_perm s e).congr_left, (defined_perm s e).congr_right,
      List.perm_append_left_iff]
  rw [hoperator]
  unfold textOperator textStreamPlace
  cases s.inClass <;> cases e.maps.textStream.isEnabled <;> simp

end

/-- An enumeration of one value, which is written as its name. -/
def writtenMode : Element :=
  let span : Span := ⟨0, 0⟩
  ⟨Tag.enumeration, span,
    [⟨Key.name, "EMode", span, false⟩, ⟨Key.textStreamMap, "BaseName", span, false⟩], "",
    [⟨Tag.enumValue, span, [⟨Key.name, "Idle", span, false⟩], "", []⟩]⟩

/-- In a class its operator is declared outside of the class and defined as one of its members. -/
theorem operator_declared_elsewhere :
    let s : Surroundings := ⟨true, "TFoo", ""⟩
    let operator (place : Place) : Signature :=
      ⟨place, "TTextOutStream&", "operator<<", ["TTextOutStream&", "const TFoo::EMode"]⟩
    ∃ e, (Enumeration.ofElement writtenMode).result = .ok e ∧
      operator .global ∈ declared s e ∧ operator .global ∉ defined s e ∧
      operator .enclosing ∈ defined s e ∧ operator .enclosing ∉ declared s e ∧
      ¬(declared s e).Perm (defined s e) := by
  intro s operator
  have hread : (match (Enumeration.ofElement writtenMode).result with
      | .ok e => decide (operator .global ∈ declared s e ∧ operator .global ∉ defined s e ∧
          operator .enclosing ∈ defined s e ∧ operator .enclosing ∉ declared s e)
      | .error _ => false) = true := by
    decide +kernel
  split at hread
  · rename_i e he
    obtain ⟨hdeclared, hdefined, hrest⟩ := of_decide_eq_true hread
    exact ⟨e, he, hdeclared, hdefined, hrest.1, hrest.2,
      fun hperm => hdefined (hperm.mem_iff.mp hdeclared)⟩
  · cases hread

end OrbIdl.Cpp.Enum
