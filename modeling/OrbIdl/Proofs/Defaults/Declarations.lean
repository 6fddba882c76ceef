import OrbIdl.Model.Document
import OrbIdl.Proofs.Defaults.Reading

/-! # Declarations of a completed tree -/

namespace OrbIdl.Model

open Xml Schema

variable {e : Element}

/-! ## Types -/

/-- Whatever completes a type has to be given. -/
theorem default?_typeTag (type : DataType) (a : TypeArgument) :
    interfaceDocument.default? (namePrefix ++ type.name) a.key = none := by
  cases type <;> cases a <;> decide

theorem TypeRef.ofElement_completed (position : Position) (e : Element) :
    TypeRef.ofElement position (complete interfaceDocument e) = TypeRef.ofElement position e := by
  unfold TypeRef.ofElement
  simp only [name_complete, span_complete]
  cases h : DataType.ofTag? e.name with
  | none => rfl
  | some type =>
    -- The tag is that of the type, whose element has no defaults.
    have hrequire (a : TypeArgument) :
        require (complete interfaceDocument e) a.key = require e a.key :=
      require_completed a.key (DataType.tag_of_ofTag? h).symm (default?_typeTag type a)
    simp only [hrequire]

theorem namedType_completed {tag : String} (decl : String) (he : e.name = tag)
    (h : interfaceDocument.default? tag Key.type = none) :
    namedType decl (complete interfaceDocument e) = namedType decl e := by
  unfold namedType
  simp only [require_completed Key.type he h, spanOf_complete]

/-! ## Parameters -/

theorem Param.ofElement_completed (method : String) (he : e.name = Tag.param) :
    Param.ofElement method (complete interfaceDocument e) = Param.ofElement method e := by
  have hname := require_completed Key.name he (by decide)
  have hdirection := require_completed Key.direction he (by decide)
  have hmoveable := isYes_completed Key.moveable he (by decide)
  have hfallback := get?_completed Key.defaultValue he (by decide)
  have hchildren := children_completed he (by decide)
  unfold Param.ofElement
  simp only [hname, hdirection, hmoveable, hfallback, hchildren, spanOf_complete, span_complete,
    List.head?_map]
  cases e.children.head? with
  | none => rfl
  | some typeElement => simp only [Option.map_some, TypeRef.ofElement_completed]

theorem Param.ofElements_completed (method : String) (es : List Element) :
    Param.ofElements method (es.map (complete interfaceDocument)) =
      Param.ofElements method es := by
  unfold Param.ofElements
  refine mapM_completed (fun e => ?_) es
  rw [expect_completed]
  refine expect_bind_congr fun he => ?_
  exact Param.ofElement_completed method (List.mem_singleton.mp he)

/-! ## Constants -/

theorem Constant.ofElement_completed (he : e.name = Tag.constant) :
    Constant.ofElement (complete interfaceDocument e) = Constant.ofElement e := by
  have hname := require_completed Key.name he (by decide)
  have hvalue := require_completed Key.value he (by decide)
  have hdoc := docText?_completed he (by decide)
  unfold Constant.ofElement
  simp only [hname, hvalue, hdoc, namedType_completed _ he (by decide), span_complete]

theorem Constant.ofSection_completed (he : e.name = Tag.constants) :
    Constant.ofSection (complete interfaceDocument e) = Constant.ofSection e := by
  unfold Constant.ofSection
  rw [children_completed he (by decide)]
  refine mapM_completed (fun e => ?_) e.children
  rw [expect_completed]
  refine expect_bind_congr fun he => ?_
  exact Constant.ofElement_completed (List.mem_singleton.mp he)

/-! ## Structures -/

theorem Member.ofElement_completed (decl : String) (e : Element) :
    Member.ofElement decl (complete interfaceDocument e) = Member.ofElement decl e := by
  unfold Member.ofElement
  rw [name_complete, span_complete]
  refine ite_congr rfl (fun hfield => ?_) fun _ => ?_
  · rw [namedType_completed decl hfield (by decide),
      require_completed Key.name hfield (by decide)]
  refine ite_congr rfl (fun hsub => ?_) fun _ => ?_
  · rw [require_completed Key.name hsub (by decide), require_completed Key.type hsub (by decide)]
  · rfl

theorem Structure.ofElement_completed (he : e.name = Tag.struct) :
    Structure.ofElement (complete interfaceDocument e) = Structure.ofElement e := by
  unfold Structure.ofElement
  rw [require_completed Key.type he (by decide), children_completed he (by decide), span_complete]
  simp only [mapM_completed (Member.ofElement_completed _)]

/-! ## Enumerations -/

namespace EnumHeader

theorem optionOr_completed (key fallback : String) (he : e.name = Tag.enumeration)
    (h : (interfaceDocument.default? Tag.enumeration key).getD fallback = fallback) :
    optionOr (complete interfaceDocument e) key fallback = optionOr e key fallback :=
  getD_completed key fallback he h

theorem namedBase_completed (he : e.name = Tag.enumeration) :
    namedBase (complete interfaceDocument e) = namedBase e := by
  unfold namedBase
  rw [get?_completed Key.baseType he (by decide), spanOf_complete]

theorem columnOf_completed (key decl : String) (he : e.name = Tag.enumeration)
    (h : interfaceDocument.default? Tag.enumeration key = some no) :
    columnOf decl (complete interfaceDocument e) key = columnOf decl e key := by
  unfold columnOf
  rw [optionOr_completed key no he (by rw [h]; rfl), spanOf_complete]

theorem mapsOf_completed (decl : String) (he : e.name = Tag.enumeration) :
    mapsOf decl (complete interfaceDocument e) = mapsOf decl e := by
  have hcolumn (key : String) (h : interfaceDocument.default? Tag.enumeration key = some no) :=
    columnOf_completed key decl he h
  unfold mapsOf
  rw [hcolumn Key.altMap (by decide), hcolumn Key.altMap2 (by decide),
    hcolumn Key.formatMap (by decide), hcolumn Key.loadMap (by decide),
    hcolumn Key.textStreamMap (by decide), hcolumn Key.translateMap (by decide)]

theorem ofElement_completed (he : e.name = Tag.enumeration) :
    EnumHeader.ofElement (complete interfaceDocument e) = EnumHeader.ofElement e := by
  have hname := require_completed Key.name he (by decide)
  have htype := optionOr_completed Key.type "Std" he (by decide)
  have hsource := optionOr_completed Key.altTextSource no he (by decide)
  have hpattern := optionOr_completed Key.altPattern "" he (by decide)
  have hincrements := optionOr_completed Key.increments no he (by decide)
  have hyes (key : String) := isYes_completed key he
  unfold EnumHeader.ofElement shapeOf baseOf altTextSourceOf incrementsOf
  simp only [hname, htype, hsource, hpattern, hincrements, namedBase_completed he,
    mapsOf_completed _ he, hyes Key.altText2 (by decide),
    hyes Key.altNumber (by decide), hyes Key.binaryStream (by decide),
    spanOf_complete, span_complete]

end EnumHeader

theorem EnumValue.ofElement_completed (h : EnumHeader) (he : e.name = Tag.enumValue) :
    EnumValue.ofElement h (complete interfaceDocument e) = EnumValue.ofElement h e := by
  have hget (key : String) := get?_completed key he
  have hrequire (key : String) := require_completed key he
  unfold EnumValue.ofElement maskOf altTextOf altText2Of altNumberOf
  simp only [hget Key.value (by decide), hget Key.altNumber (by decide),
    hget Key.text (by decide), hrequire Key.name (by decide),
    hrequire Key.altText (by decide), hrequire Key.altText2 (by decide),
    spanOf_complete, span_complete]

theorem EnumEntry.ofElement_completed (h : EnumHeader) (e : Element) :
    EnumEntry.ofElement h (complete interfaceDocument e) = EnumEntry.ofElement h e := by
  unfold EnumEntry.ofElement
  rw [name_complete, span_complete]
  refine ite_congr rfl (fun hdoc => ?_) fun _ => ?_
  · rfl
  refine ite_congr rfl (fun hsynonym => ?_) fun _ => ?_
  · rw [require_completed Key.name hsynonym (by decide),
      require_completed Key.value hsynonym (by decide)]
  refine ite_congr rfl (fun hvalue => ?_) fun _ => ?_
  · rw [EnumValue.ofElement_completed h hvalue]
  · rfl

theorem Enumeration.ofElement_completed (he : e.name = Tag.enumeration) :
    Enumeration.ofElement (complete interfaceDocument e) = Enumeration.ofElement e := by
  have hfacility := get?_completed Key.messageFacility he (by decide)
  have hscope := get?_completed Key.messageNamespace he (by decide)
  unfold Enumeration.ofElement textSourceOf
  simp only [EnumHeader.ofElement_completed he, children_completed he (by decide), hfacility,
    hscope, mapM_completed (EnumEntry.ofElement_completed _), spanOf_complete, span_complete]

/-! ## Methods -/

namespace Method

theorem declared_tags : ∀ tag ∈ [Tag.method, Tag.pollMethod],
    (interfaceDocument.element? tag).isSome ∧ interfaceDocument.default? tag Key.name = none ∧
      interfaceDocument.default? tag Key.inBaseClass ≠ some yes := by
  decide

/-- The times written in the schema stand for the numbers that a method gets without one. -/
theorem default?_timeout : ∀ tag ∈ [Tag.method, Tag.pollMethod],
    ((interfaceDocument.default? tag Key.timeout).bind fun text =>
      Text.card32? (Text.trimChars text.toList)) =
        some (defaultTimeout (tag == Tag.pollMethod)) := by
  decide

theorem timeoutOf_completed (decl : String) (he : e.name ∈ [Tag.method, Tag.pollMethod]) :
    timeoutOf decl (e.name == Tag.pollMethod) (complete interfaceDocument e) =
      timeoutOf decl (e.name == Tag.pollMethod) e := by
  obtain ⟨text, htext, hnumber⟩ := Option.bind_eq_some_iff.mp (default?_timeout e.name he)
  unfold timeoutOf
  rw [get?_complete, spanOf_complete, htext]
  cases e.get? Key.timeout with
  | none => simp only [Option.none_or, hnumber]
  | some value => rfl

theorem resultElement?_completed (h : (interfaceDocument.element? e.name).isSome) :
    resultElement? (complete interfaceDocument e) =
      (resultElement? e).map (complete interfaceDocument) := by
  unfold resultElement?
  rw [children_complete h, List.head?_map]
  cases e.children.head? with
  | none => rfl
  | some first =>
    simp only [Option.map_some, Option.bind_eq_bind, Option.bind_some, name_complete]
    split
    · rename_i hfirst
      rw [children_completed hfirst (by decide), List.head?_map]
    · rfl

theorem ofElement_completed (ordinal : Nat) (e : Element) :
    Method.ofElement ordinal (complete interfaceDocument e) = Method.ofElement ordinal e := by
  unfold Method.ofElement
  rw [expect_completed]
  refine lift_expect_bind_congr fun he => ?_
  obtain ⟨hdeclared, hname, hinBase⟩ := declared_tags e.name he
  simp only [require_completed _ rfl hname, isYes_completed _ rfl hinBase, timeoutOf_completed _ he,
    resultElement?_completed hdeclared, children_complete hdeclared, name_complete, span_complete,
    ← List.map_tail, Param.ofElements_completed]
  cases resultElement? e with
  | none => rfl
  | some type => simp only [Option.map_some, TypeRef.ofElement_completed]

theorem ofSection_completed (he : e.name = Tag.methods) :
    Method.ofSection (complete interfaceDocument e) = Method.ofSection e := by
  unfold Method.ofSection
  rw [children_completed he (by decide), List.zipIdx_map, List.mapM_map]
  simp only [Function.comp_def, Prod.map, id, ofElement_completed]

end Method

end OrbIdl.Model
