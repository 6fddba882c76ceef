import OrbIdl.Proofs.Reading.Parameters
import OrbIdl.Proofs.Valid.Documents

/-!
# Attributes that a reader asks for

A reader demands an attribute when it takes no element of a name without it. That it demands no
other attributes is seen from a specimen for each name: an element that is taken as it is, with
nothing but its attributes.
-/

namespace OrbIdl.Model

open Xml Schema

/-! ## Elements that are read -/

/-- One of the readers takes the element for what its name says. -/
inductive Taken (e : Element) : Prop where
  | document (h : (Document.ofElement e).result.isOk = true) : Taken e
  | globals (hname : e.name = Tag.globals) (h : (Globals.ofElement e).result.isOk = true) : Taken e
  | classInterface (hname : e.name = Tag.classInterface)
      (h : (ClassInterface.ofElement e).result.isOk = true) : Taken e
  | part (h : (Section.ofElement e).result.isOk = true) : Taken e
  | constant (hname : e.name = Tag.constant) (h : (Constant.ofElement e).isOk = true) : Taken e
  | typeDecl (h : (TypeDecl.ofElement e).result.isOk = true) : Taken e
  | entry (header : EnumHeader) (h : (EnumEntry.ofElement header e).result.isOk = true) : Taken e
  | member (decl : String) (h : (Member.ofElement decl e).isOk = true) : Taken e
  | method (ordinal : Nat) (h : (Method.ofElement ordinal e).result.isOk = true) : Taken e
  | param (method : String) (hname : e.name = Tag.param)
      (h : (Param.ofElement method e).isOk = true) : Taken e
  | type (position : Position) (hposition : position.takesElements = true)
      (h : (TypeRef.ofElement position e).isOk = true) : Taken e

/-- Elements of the name are read, and none of them without the attribute. -/
def Demanded (tag key : String) : Prop :=
  (∃ e : Element, e.name = tag ∧ Taken e) ∧
    ∀ e : Element, e.name = tag → Taken e → (e.get? key).isSome = true

/-- The schema requires the attribute of the elements of the name, or has a default for it. -/
def Provided (tag key : String) : Prop :=
  ∃ a, interfaceDocument.attribute? tag key = some a ∧ a.fallback ≠ .implied

/-- A text of a value is missing that the enumeration around the value wants. -/
inductive TextWanted (root : Element) : MissingAttribute → Prop where
  | altText {path : List Nat} {e value : Element} (he : root.Under (fun _ => True) path e)
      (hname : e.name = Tag.enumeration) (hvalue : value ∈ e.children)
      (htag : value.name = Tag.enumValue) (h : e.get? Key.altTextSource = some "Inline") :
      TextWanted root ⟨Tag.enumValue, Key.altText, value.span⟩
  | altText2 {path : List Nat} {e value : Element} (he : root.Under (fun _ => True) path e)
      (hname : e.name = Tag.enumeration) (hvalue : value ∈ e.children)
      (htag : value.name = Tag.enumValue) (h : e.get? Key.altText2 = some yes) :
      TextWanted root ⟨Tag.enumValue, Key.altText2, value.span⟩

/-- The attribute is the value of a synonym. -/
def IsSynonymValue (tag key : String) : Prop :=
  tag = Tag.enumSynonym ∧ key = Key.value

instance (tag key : String) : Decidable (IsSynonymValue tag key) :=
  inferInstanceAs (Decidable (_ ∧ _))

section

variable {e : Element}

/-! ### Their names -/

theorem Document.name_of_ofElement {d : Document} (h : (Document.ofElement e).result = .ok d) :
    e.name = Tag.interface := by
  unfold Document.ofElement at h
  split at h
  · cases h
  · rename_i hname
    exact not_not.mp hname

theorem Section.name_of_ofElement {part : Section} (h : (Section.ofElement e).result = .ok part) :
    e.name ∈ [Tag.constants, Tag.types, Tag.constructor, Tag.methods] := by
  obtain ⟨hname, -⟩ | ⟨hname, -⟩ | ⟨hname, -⟩ | ⟨hname, -⟩ := Section.of_ofElement h
  all_goals simp [hname]

theorem TypeDecl.name_of_ofElement {t : TypeDecl} (h : (TypeDecl.ofElement e).result = .ok t) :
    e.name ∈ [Tag.enumeration, Tag.struct] := by
  obtain ⟨hname, -⟩ | ⟨hname, -⟩ := TypeDecl.of_ofElement h <;> simp [hname]

theorem EnumEntry.name_of_ofElement {header : EnumHeader} {entry : EnumEntry}
    (h : (EnumEntry.ofElement header e).result = .ok entry) :
    e.name ∈ [Tag.docText, Tag.enumValue, Tag.enumSynonym] := by
  cases EnumEntry.ofElement_ok_iff.mp h <;> simp [*]

theorem Member.name_of_ofElement {decl : String} {m : Member}
    (h : Member.ofElement decl e = .ok m) : e.name ∈ [Tag.member, Tag.subStruct] := by
  unfold Member.ofElement at h
  split at h
  · simp [*]
  split at h
  · simp [*]
  · cases h

theorem Method.name_of_ofElement {ordinal : Nat} {m : Method}
    (h : (Method.ofElement ordinal e).result = .ok m) : e.name ∈ [Tag.method, Tag.pollMethod] := by
  obtain ⟨_, hname, -⟩ := Logged.bind_ok_iff.mp h
  exact expect_eq_ok_iff.mp hname

/-- The elements that are read outside of enumerations and are no types. -/
def plainTags : List String := [
  Tag.interface, Tag.globals, Tag.classInterface, Tag.constants, Tag.types, Tag.constructor,
  Tag.methods, Tag.constant, Tag.enumeration, Tag.struct, Tag.member, Tag.subStruct, Tag.method,
  Tag.pollMethod, Tag.param]

/-- What is read is a plain element, an entry of an enumeration, or a type. -/
theorem Taken.name_cases (h : Taken e) :
    e.name ∈ plainTags ∨
    (∃ header, (EnumEntry.ofElement header e).result.isOk = true) ∨
    ∃ type : DataType, e.name = namePrefix ++ type.name ∧
      (type.standsAt .param || type.standsAt .result) = true := by
  have hplain {names : List String} (he : e.name ∈ names) (hnames : names ⊆ plainTags) :
      e.name ∈ plainTags := hnames he
  cases h with
  | document h =>
    obtain ⟨d, h⟩ := isOk_iff.mp h
    exact Or.inl (hplain (List.mem_singleton.mpr (Document.name_of_ofElement h)) (by decide))
  | globals hname => exact Or.inl (hplain (List.mem_singleton.mpr hname) (by decide))
  | classInterface hname => exact Or.inl (hplain (List.mem_singleton.mpr hname) (by decide))
  | part h =>
    obtain ⟨part, h⟩ := isOk_iff.mp h
    exact Or.inl (hplain (Section.name_of_ofElement h) (by decide))
  | constant hname => exact Or.inl (hplain (List.mem_singleton.mpr hname) (by decide))
  | typeDecl h =>
    obtain ⟨t, h⟩ := isOk_iff.mp h
    exact Or.inl (hplain (TypeDecl.name_of_ofElement h) (by decide))
  | entry header h => exact Or.inr (Or.inl ⟨header, h⟩)
  | member decl h =>
    obtain ⟨m, h⟩ := isOk_iff.mp h
    exact Or.inl (hplain (Member.name_of_ofElement h) (by decide))
  | method ordinal h =>
    obtain ⟨m, h⟩ := isOk_iff.mp h
    exact Or.inl (hplain (Method.name_of_ofElement h) (by decide))
  | param method hname => exact Or.inl (hplain (List.mem_singleton.mpr hname) (by decide))
  | type position hposition h =>
    obtain ⟨t, h⟩ := isOk_iff.mp h
    obtain ⟨hname, hstands, -, -⟩ := TypeRef.ofElement_eq_ok_iff.mp h
    refine Or.inr (Or.inr ⟨t.type, hname, ?_⟩)
    cases position <;> simp_all [Position.takesElements]

end

/-! ## Specimens -/

/-- An element of the given attributes and children, placed nowhere. -/
def specimen (name : String) (attributes : List (String × String)) (children : List Element) :
    Element :=
  ⟨name, .unknown, attributes.map fun (key, value) => ⟨key, value, .unknown, false⟩, "", children⟩

def typeSpecimen (t : DataType) : Element :=
  specimen (namePrefix ++ t.name) (t.arguments.map fun (a, _) => (a.key, "T")) []

/-- An enumeration that wants nothing of its values. -/
def plainHeader : EnumHeader where
  name := "E"
  shape := .standard
  base := none
  altTextSource := .off
  altPattern := ""
  altText2 := false
  altNumbers := false
  binaryStream := false
  increments := .off
  maps := ⟨.off, .off, .off, .off, .off, .off⟩
  span := .unknown

/-- For each name that is read, an element with as few attributes as there may be. -/
def specimens : List Element := [
  specimen Tag.interface [] [],
  specimen Tag.globals [] [],
  specimen Tag.classInterface [(Key.name, "I"), (Key.interfaceId, "1")] [],
  specimen Tag.constants [] [],
  specimen Tag.types [] [],
  specimen Tag.constructor [] [],
  specimen Tag.methods [] [],
  specimen Tag.constant [(Key.name, "c"), (Key.type, "TBoolean"), (Key.value, "0")] [],
  specimen Tag.enumeration [(Key.name, "E")] [specimen Tag.enumValue [(Key.name, "V")] []],
  specimen Tag.enumValue [(Key.name, "V")] [],
  specimen Tag.enumSynonym [(Key.name, "W"), (Key.value, "V")] [],
  specimen Tag.docText [] [],
  specimen Tag.struct [(Key.type, "S")] [],
  specimen Tag.member [(Key.name, "m"), (Key.type, "TBoolean")] [],
  specimen Tag.subStruct [(Key.name, "m"), (Key.type, "S")] [],
  specimen Tag.method [(Key.name, "M")] [specimen Tag.result [] [typeSpecimen .void]],
  specimen Tag.pollMethod [(Key.name, "M")] [specimen Tag.result [] [typeSpecimen .void]],
  specimen Tag.param [(Key.name, "p"), (Key.direction, "In")] [typeSpecimen .boolean]] ++
  (DataType.all.filter fun t => t.standsAt .param || t.standsAt .result).map typeSpecimen

theorem name_mem_specimens {e : Element} (h : Taken e) : e.name ∈ specimens.map (·.name) := by
  obtain hname | ⟨header, h⟩ | ⟨type, hname, hstands⟩ := h.name_cases
  · have hplain : plainTags ⊆ specimens.map (·.name) := by decide +kernel
    exact hplain hname
  · have hentries : [Tag.docText, Tag.enumValue, Tag.enumSynonym] ⊆ specimens.map (·.name) := by
      decide +kernel
    obtain ⟨entry, h⟩ := isOk_iff.mp h
    exact hentries (EnumEntry.name_of_ofElement h)
  · rw [hname, specimens, List.map_append, List.mem_append]
    refine Or.inr (List.mem_map.mpr ⟨typeSpecimen type, ?_, rfl⟩)
    exact List.mem_map_of_mem (List.mem_filter.mpr ⟨DataType.mem_all type, hstands⟩)

theorem taken_typeSpecimen (t : DataType) (h : (t.standsAt .param || t.standsAt .result) = true) :
    Taken (typeSpecimen t) := by
  have hread : (TypeRef.ofElement .param (typeSpecimen t)).isOk = true ∨
      (TypeRef.ofElement .result (typeSpecimen t)).isOk = true := by
    revert h
    cases t <;> decide +kernel
  obtain hread | hread := hread
  · exact .type .param rfl hread
  · exact .type .result rfl hread

theorem taken_specimens : ∀ x ∈ specimens, Taken x := by
  refine List.forall_mem_append.mpr ⟨?_, ?_⟩
  · simp only [List.forall_mem_cons]
    exact ⟨
      .document (by decide +kernel), .globals rfl (by decide +kernel),
      .classInterface rfl (by decide +kernel), .part (by decide +kernel),
      .part (by decide +kernel), .part (by decide +kernel), .part (by decide +kernel),
      .constant rfl (by decide +kernel), .typeDecl (by decide +kernel),
      .entry plainHeader (by decide +kernel), .entry plainHeader (by decide +kernel),
      .entry plainHeader (by decide +kernel), .typeDecl (by decide +kernel),
      .member "S" (by decide +kernel), .member "S" (by decide +kernel),
      .method 0 (by decide +kernel), .method 0 (by decide +kernel),
      .param "M" rfl (by decide +kernel), nofun⟩
  · intro x hx
    obtain ⟨t, ht, rfl⟩ := List.mem_map.mp hx
    exact taken_typeSpecimen t (List.mem_filter.mp ht).2

/-- The attributes of the specimens. -/
theorem provided_specimens : ∀ x ∈ specimens, ∀ a ∈ x.attributes,
    Provided x.name a.name ∨ IsSynonymValue x.name a.name := by
  have hall : ∀ x ∈ specimens, ∀ a ∈ x.attributes,
      (interfaceDocument.attribute? x.name a.name).any (·.fallback != .implied) = true ∨
        x.name = Tag.enumSynonym ∧ a.name = Key.value := by
    decide +kernel
  intro x hx a ha
  refine (hall x hx a ha).imp_left fun hany => ?_
  obtain ⟨b, hb, hfallback⟩ := Option.any_eq_true _ _ |>.mp hany
  exact ⟨b, hb, by simpa using hfallback⟩

/-! ## What is demanded -/

/-- A specimen has whatever is demanded of its name. -/
theorem provided_of_demanded {tag key : String} (h : Demanded tag key) :
    Provided tag key ∨ IsSynonymValue tag key := by
  obtain ⟨⟨e, rfl, he⟩, hall⟩ := h
  obtain ⟨x, hx, hname⟩ := List.mem_map.mp (name_mem_specimens he)
  obtain ⟨value, hvalue⟩ := Option.isSome_iff_exists.mp (hall x hname (taken_specimens x hx))
  obtain ⟨a, ha, -⟩ := Option.map_eq_some_iff.mp hvalue
  have hkey : a.name = key := by simpa using List.find?_some ha
  rw [← hname, ← hkey]
  exact provided_specimens x hx a (List.mem_of_find?_eq_some ha)

theorem EnumEntry.value_of_synonym {header : EnumHeader} {e : Element} {entry : EnumEntry}
    (h : (EnumEntry.ofElement header e).result = .ok entry) (he : e.name = Tag.enumSynonym) :
    (e.get? Key.value).isSome = true := by
  cases EnumEntry.ofElement_ok_iff.mp h with
  | doc hname => exact absurd (hname.symm.trans he) (by decide)
  | synonym _ _ hvalue =>
    rw [hvalue]
    rfl
  | value hname => exact absurd (hname.symm.trans he) (by decide)

theorem demanded_synonymValue : Demanded Tag.enumSynonym Key.value := by
  refine ⟨⟨_, rfl, taken_specimens (specimen Tag.enumSynonym
    [(Key.name, "W"), (Key.value, "V")] []) (by simp [specimens])⟩, fun e hname he => ?_⟩
  obtain hplain | ⟨header, h⟩ | ⟨type, htype, -⟩ := he.name_cases
  · rw [hname] at hplain
    exact absurd hplain (by decide)
  · obtain ⟨entry, h⟩ := isOk_iff.mp h
    exact EnumEntry.value_of_synonym h hname
  · have hnone : ∀ t : DataType, Tag.enumSynonym ≠ namePrefix ++ t.name := by
      intro t
      cases t <;> decide
    exact absurd (hname.symm.trans htype) (hnone type)

/-- Validation leaves a tree that follows the schema when it finds nothing wrong. -/
theorem valid_complete {root : Element} (h : (validate interfaceDocument root).2 = []) :
    Valid interfaceDocument (complete interfaceDocument root) := by
  rw [valid_iff, ← (lists_validate _ _).eq_nil_iff,
    violations_complete coherent_interfaceDocument, h]

theorem not_provided_synonymValue : ¬Provided Tag.enumSynonym Key.value := by
  rintro ⟨a, ha, hfallback⟩
  have hdeclared : interfaceDocument.attribute? Tag.enumSynonym Key.value =
      some ⟨Key.value, .text, .implied⟩ := by rfl
  rw [hdeclared] at ha
  cases ha
  exact hfallback rfl

theorem TextWanted.not_isSynonymValue {root : Element} {m : MissingAttribute}
    (h : TextWanted root m) : ¬IsSynonymValue m.element m.key := by
  have htag : Tag.enumValue ≠ Tag.enumSynonym := by decide
  cases h <;> exact fun hsynonym => htag hsynonym.1

theorem textWanted_iff {root : Element} {m : MissingAttribute} (h : Unrequired root m) :
    TextWanted root m ↔ ¬IsSynonymValue m.element m.key := by
  refine ⟨TextWanted.not_isSynonymValue, fun hother => ?_⟩
  cases h with
  | altText he hname hvalue htag h =>
    rw [htag]
    exact .altText he hname hvalue htag h
  | altText2 he hname hvalue htag h =>
    rw [htag]
    exact .altText2 he hname hvalue htag h
  | synonymValue he hname => exact absurd ⟨hname, rfl⟩ hother

/-- After validation nothing is missing but a text that an enumeration wants of a value, or the
value of a synonym. So it is for the schema: whatever a reader demands of all elements of a name is
required there or has a default, unless it is the value of a synonym. -/
theorem demanded_attributes_provided (root : Element) (tag key : String) :
    (∀ m, (validate interfaceDocument root).2 = [] →
      (Document.ofElement (validate interfaceDocument root).1).result = .error (.ofMissing m) →
      (TextWanted (validate interfaceDocument root).1 m ↔ ¬IsSynonymValue m.element m.key)) ∧
    (Demanded tag key → (Provided tag key ↔ ¬IsSynonymValue tag key)) := by
  refine ⟨fun m hvalid hfault => ?_, fun hdemanded => ⟨?_, ?_⟩⟩
  · exact textWanted_iff ((Document.fails_only (valid_complete hvalid) _ hfault).missing m rfl)
  · rintro hprovided ⟨rfl, rfl⟩
    exact not_provided_synonymValue hprovided
  · exact (provided_of_demanded hdemanded).resolve_right

/-- A document that declares one enumeration, called `E`. -/
def documentOf (attributes : List (String × String)) (entries : List Element) : Element :=
  specimen Tag.interface [] [specimen Tag.globals [] [specimen Tag.types [] [
    specimen Tag.enumeration ((Key.name, "E") :: attributes) entries]]]

/-- The enumeration wants a second text of its value. -/
theorem altText2_missing :
    let root := documentOf [(Key.altText2, yes)] [specimen Tag.enumValue [(Key.name, "V")] []]
    let m : MissingAttribute := ⟨Tag.enumValue, Key.altText2, .unknown⟩
    (validate interfaceDocument root).2 = [] ∧
    (Document.ofElement (validate interfaceDocument root).1).result = .error (.ofMissing m) ∧
    TextWanted (validate interfaceDocument root).1 m := by
  intro root m
  have hvalid : (validate interfaceDocument root).2 = [] := by decide +kernel
  have hfault : (Document.ofElement (validate interfaceDocument root).1).result =
      .error (.ofMissing m) := by decide +kernel
  refine ⟨hvalid, hfault, ?_⟩
  have hiff := (demanded_attributes_provided root Tag.enumValue Key.altText2).1 m hvalid hfault
  exact hiff.mpr (by decide)

/-- The schema has nothing against a synonym without a value, which no reader takes. -/
theorem synonymValue_missing :
    let root := documentOf [] [specimen Tag.enumValue [(Key.name, "V")] [],
      specimen Tag.enumSynonym [(Key.name, "W")] []]
    (validate interfaceDocument root).2 = [] ∧
    (Document.ofElement (validate interfaceDocument root).1).result =
      .error (.ofMissing ⟨Tag.enumSynonym, Key.value, .unknown⟩) ∧
    Demanded Tag.enumSynonym Key.value ∧ ¬Provided Tag.enumSynonym Key.value :=
  ⟨by decide +kernel, by decide +kernel, demanded_synonymValue, not_provided_synonymValue⟩

end OrbIdl.Model
