import OrbIdl.Proofs.Conformance.Defect
import OrbIdl.Proofs.Defaults.Completion

/-! # Defaults are neither wrong nor in the way of what is -/

namespace OrbIdl.Schema

open Xml

/-! ## Attributes that are added -/

section

variable {e : Element} {d : ElementDeclaration}

/-- The default of a declared attribute, where the element lacks it. -/
def lackedDefault? (e : Element) (a : AttributeDeclaration) : Option Attribute :=
  match e.attribute? a.name with
  | none => a.default?.map (filled e a.name)
  | some _ => none

theorem attributes_addDefault (e : Element) (a : AttributeDeclaration) :
    (addDefault e a).attributes = e.attributes ++ (lackedDefault? e a).toList := by
  unfold addDefault lackedDefault? AttributeDeclaration.default?
  cases hattribute : e.attribute? a.name with
  | some b => cases a.fallback <;> exact (List.append_nil _).symm
  | none =>
    cases a.fallback with
    | required => exact (List.append_nil _).symm
    | implied => exact (List.append_nil _).symm
    | value v => exact Element.putInto_of_absent ⟨a.name, v, e.span, true⟩ e.attributes hattribute

/-- What an element lacks does not hang on a default of another name. -/
theorem lackedDefault?_addDefault (e : Element) {a b : AttributeDeclaration}
    (h : a.name ≠ b.name) : lackedDefault? (addDefault e a) b = lackedDefault? e b := by
  have hattribute : (addDefault e a).attribute? b.name = e.attribute? b.name := by
    rw [attribute?_addDefault, if_neg h, Option.map_none, Option.or_none]
  have hspan : (addDefault e a).span = e.span := by
    obtain ⟨_, heq⟩ := addDefault_frame e a
    rw [heq]
  unfold lackedDefault? filled
  rw [hattribute, hspan]

theorem attributes_foldl_addDefault (as : List AttributeDeclaration) (e : Element)
    (h : (as.map (·.name)).Nodup) :
    (as.foldl addDefault e).attributes = e.attributes ++ as.filterMap (lackedDefault? e) := by
  induction as generalizing e with
  | nil => simp
  | cons a as ih =>
    rw [List.map_cons, List.nodup_cons] at h
    have hrest : as.filterMap (lackedDefault? (addDefault e a)) =
        as.filterMap (lackedDefault? e) := by
      refine List.filterMap_congr fun b hb => lackedDefault?_addDefault e fun hname => ?_
      exact h.1 (hname ▸ List.mem_map_of_mem hb)
    rw [List.foldl_cons, ih _ h.2, hrest, attributes_addDefault]
    cases hlacked : lackedDefault? e a <;> simp [hlacked]

/-- The defaults that are lacking are added at the end, in the order of the declarations, and
nothing else changes. -/
theorem addDefaults_eq (e : Element) (h : (d.attributes.map (·.name)).Nodup) :
    addDefaults d e =
      { e with attributes := e.attributes ++ d.attributes.filterMap (lackedDefault? e) } := by
  obtain ⟨attributes, heq⟩ := foldl_addDefault_frame d.attributes e
  rw [← attributes_foldl_addDefault d.attributes e h, addDefaults, heq]

end

/-! ## Schemas -/

instance (s : Schema) : (t : AttributeType) → (value : String) → Decidable (t.Admits s value)
  | .text, _ => inferInstanceAs (Decidable True)
  | .token, value => decidable_of_iff (isToken value = true) (isToken_iff value)
  | .oneOf values, value => inferInstanceAs (Decidable (value ∈ values))
  | .oneOfEntity name, value => inferInstanceAs (Decidable (value ∈ s.entityValues name))

/-- The attributes of an element have different names, and the defaults are values that they may
have. -/
structure Coherent (s : Schema) (d : ElementDeclaration) : Prop where
  nodup : (d.attributes.map (·.name)).Nodup
  defaults : ∀ a ∈ d.attributes, ∀ v ∈ a.default?, a.type.Admits s v

theorem coherent_interfaceDocument :
    ∀ d ∈ interfaceDocument.elements, Coherent interfaceDocument d := by
  intro d hd
  refine ⟨?_, ?_⟩
  · revert d
    decide +kernel
  · revert d
    decide +kernel

/-! ## Violations -/

section

variable {s : Schema} {e : Element} {d : ElementDeclaration}

theorem mem_of_element? {name : String} (h : s.element? name = some d) : d ∈ s.elements :=
  List.mem_of_find?_eq_some h

theorem Coherent.attribute?_of_mem (h : Coherent s d) {a : AttributeDeclaration}
    (ha : a ∈ d.attributes) : d.attribute? a.name = some a := by
  unfold ElementDeclaration.attribute?
  cases hfind : d.attributes.find? (·.name == a.name) with
  | none =>
    exact absurd (beq_self_eq_true a.name) (by simpa using List.find?_eq_none.mp hfind a ha)
  | some b =>
    have hname : b.name = a.name := by simpa using List.find?_some hfind
    rw [List.inj_on_of_nodup_map h.nodup (List.mem_of_find?_eq_some hfind) ha hname]

/-- A default that has been added is as its declaration says. -/
theorem givenViolations_lackedDefault (h : Coherent s d) {a : AttributeDeclaration}
    (ha : a ∈ d.attributes) {b : Attribute} (hb : lackedDefault? e a = some b) :
    givenViolations s d e.name b = [] := by
  have hlacked : ∃ v, a.default? = some v ∧ filled e a.name v = b := by
    unfold lackedDefault? at hb
    split at hb
    · exact Option.map_eq_some_iff.mp hb
    · cases hb
  obtain ⟨v, hv, rfl⟩ := hlacked
  have hadmits := h.defaults a ha v hv
  unfold givenViolations
  simp only [filled, h.attribute?_of_mem ha]
  unfold valueViolations
  cases htype : a.type with
  | text => rfl
  | token =>
    rw [htype] at hadmits
    simp only [(isToken_iff v).mpr hadmits, if_true]
  | oneOf values =>
    rw [htype] at hadmits
    simp only [List.contains_iff_mem.mpr hadmits, if_true]
  | oneOfEntity name =>
    rw [htype] at hadmits
    simp only [List.contains_iff_mem.mpr hadmits, if_true]

/-- An attribute that has to be given has no default to stand for it. -/
theorem missingViolations_addDefaults (h : Coherent s d) {b : AttributeDeclaration}
    (hb : b ∈ d.attributes) :
    missingViolations (addDefaults d e) b = missingViolations e b := by
  have hattribute (hrequired : b.fallback = .required) :
      (addDefaults d e).attribute? b.name = e.attribute? b.name := by
    have hdefault : d.default? b.name = none := by
      refine List.findSome?_eq_none_iff.mpr fun a ha => ?_
      split
      · rename_i hname
        rw [List.inj_on_of_nodup_map h.nodup ha hb hname, AttributeDeclaration.default?, hrequired]
      · rfl
    rw [attribute?_addDefaults, hdefault, Option.map_none, Option.or_none]
  unfold missingViolations
  refine ite_congr (propext (and_congr_right fun hrequired => ?_)) (fun _ => ?_) fun _ => rfl
  · rw [hattribute hrequired]
  · rw [addDefaults_eq e h.nodup]

theorem attributeViolations_addDefaults (h : Coherent s d) :
    attributeViolations s d (addDefaults d e) = attributeViolations s d e := by
  have hmissing : d.attributes.flatMap (missingViolations (addDefaults d e)) =
      d.attributes.flatMap (missingViolations e) :=
    List.flatMap_congr fun b hb => missingViolations_addDefaults h hb
  have hadded : (d.attributes.filterMap (lackedDefault? e)).flatMap
      (givenViolations s d e.name) = [] := by
    refine List.flatMap_eq_nil_iff.mpr fun b hb => ?_
    obtain ⟨a, ha, hb⟩ := List.mem_filterMap.mp hb
    exact givenViolations_lackedDefault h ha hb
  unfold attributeViolations
  rw [hmissing, addDefaults_eq e h.nodup, List.flatMap_append, hadded, List.append_nil]

theorem contentViolations_complete (hd : s.element? e.name = some d) :
    contentViolations s d (complete s e) = contentViolations s d e := by
  have hblank : (complete s e).isBlank = e.isBlank := by
    rw [Element.isBlank, text_complete, Element.isBlank]
  have hchildren : (complete s e).children = e.children.map (complete s) :=
    children_complete (by rw [hd]; rfl)
  unfold contentViolations
  rw [hblank, hchildren, name_complete, span_complete]
  cases d.content with
  | empty => simp only [List.isEmpty_map]
  | children particle => simp only [List.map_map, Function.comp_def, name_complete]
  | characterData => cases e.children <;> simp only [List.map_nil, List.map_cons, span_complete]

/-- Validation leaves a tree in which it finds the same again. -/
theorem violations_complete (h : ∀ d ∈ s.elements, Coherent s d) (e : Element) :
    (validate s (complete s e)).2 = (validate s e).2 := by
  induction e using Element.children_induction with
  | step e ih =>
    cases hd : s.element? e.name with
    | none => rw [complete_undeclared hd]
    | some d =>
      have hname : s.element? (complete s e).name = some d := by rw [name_complete, hd]
      have hhere : attributeViolations s d (complete s e) = attributeViolations s d e := by
        rw [complete_declared hd]
        exact attributeViolations_addDefaults (h d (mem_of_element? hd))
      have hbelow : (complete s e).children.flatMap (fun child => (validate s child).2) =
          e.children.flatMap fun child => (validate s child).2 := by
        rw [children_complete (by rw [hd]; rfl), List.flatMap_map]
        exact List.flatMap_congr ih
      rw [validate_declared hname, validate_declared hd]
      simp only [hhere, contentViolations_complete hd, hbelow]

end

end OrbIdl.Schema
