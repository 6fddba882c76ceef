import OrbIdl.Proofs.Conformance.Defect
import OrbIdl.Proofs.Reading.Sections

/-! # The attributes of a valid tree -/

namespace OrbIdl.Schema

open Xml

/-- What is declared for an attribute of the elements called `tag`. -/
def attribute? (s : Schema) (tag key : String) : Option AttributeDeclaration :=
  (s.element? tag).bind (·.attribute? key)

section

variable {s : Schema} {e : Element} {tag key : String} {b : AttributeDeclaration}

theorem Valid.here (h : Valid s e) : ∃ d, s.element? e.name = some d ∧ Conforms s d e :=
  h [] e (.root e)

theorem Valid.child (h : Valid s e) {child : Element} (hchild : child ∈ e.children) :
    Valid s child := by
  obtain ⟨i, hi⟩ := List.getElem?_of_mem hchild
  exact fun path x hx => h (i :: path) x (.child trivial hi hx)

theorem Valid.under (h : Valid s e) {path : List Nat} {x : Element}
    (hx : e.Under (fun _ => True) path x) : Valid s x := by
  induction hx with
  | root e => exact h
  | child _ hi _ ih => exact ih (h.child (List.mem_of_getElem? hi))

theorem Valid.declared (h : Valid s e) (he : e.name = tag) {d : ElementDeclaration}
    (hd : s.element? tag = some d) : Conforms s d e := by
  obtain ⟨d', hd', hconforms⟩ := h.here
  rw [he, hd] at hd'
  rwa [Option.some.inj hd']

theorem Valid.admits (h : Valid s e) (he : e.name = tag) (hb : s.attribute? tag key = some b)
    {value : String} (hvalue : e.get? key = some value) : b.type.Admits s value := by
  obtain ⟨d, hd, hb⟩ := Option.bind_eq_some_iff.mp hb
  obtain ⟨a, ha, rfl⟩ := Option.map_eq_some_iff.mp hvalue
  obtain ⟨b', hb', hadmits⟩ := (h.declared he hd).given a (List.mem_of_find?_eq_some ha)
  have hname : a.name = key := by simpa using List.find?_some ha
  rw [hname, hb] at hb'
  rwa [Option.some.inj hb']

theorem Valid.given (h : Valid s e) (he : e.name = tag) (hb : s.attribute? tag key = some b)
    (hrequired : b.fallback = .required) : ∃ value, e.get? key = some value := by
  obtain ⟨d, hd, hb⟩ := Option.bind_eq_some_iff.mp hb
  obtain ⟨a, ha, hname⟩ :=
    (h.declared he hd).required b (List.mem_of_find?_eq_some hb) hrequired
  have hkey : b.name = key := by simpa using List.find?_some hb
  have hfound : e.attribute? key ≠ none := fun hnone =>
    (attribute?_eq_none_iff e key).mp hnone ⟨a, ha, hname.trans hkey⟩
  obtain ⟨a', ha'⟩ := Option.ne_none_iff_exists'.mp hfound
  exact ⟨a'.value, by rw [Element.get?, ha', Option.map_some]⟩

end

/-! ## Names of types -/

theorem entityValues_entity (p : Position) : interfaceDocument.entityValues p.entity = p.names := by
  cases p <;> decide

theorem mem_members {p : Position} {t : DataType} (h : t ∈ p.members) : t.standsAt p = true :=
  (List.mem_filter.mp h).2

theorem exists_type_of_constantName {name : String} (h : name ∈ Position.constant.names) :
    ∃ type : DataType, DataType.ofName? name = some type ∧ type.standsAt .constant = true := by
  obtain ⟨t, ht, rfl⟩ := List.mem_map.mp h
  exact ⟨t, DataType.ofName?_name t, mem_members ht⟩

theorem exists_type_of_baseName {name : String} (h : name ∈ Position.enumBase.names) :
    name = defaultBase ∨ ∃ type, DataType.ofName? name = some type := by
  obtain h | h := List.mem_append.mp h
  · exact Or.inl (List.mem_singleton.mp h)
  · obtain ⟨t, -, rfl⟩ := List.mem_map.mp h
    exact Or.inr ⟨t, DataType.ofName?_name t⟩

/-- Where types stand as elements, the name of such an element is that of a type. -/
theorem exists_type_of_tag {p : Position} (hp : p.takesElements = true) {name : String}
    (h : name ∈ p.names) :
    ∃ type : DataType, name = namePrefix ++ type.name ∧ type.standsAt p = true := by
  have hfirst : p ≠ .enumBase := by
    rintro rfl
    cases hp
  obtain h | h := List.mem_append.mp h
  · rw [if_neg hfirst] at h
    exact absurd h List.not_mem_nil
  · obtain ⟨t, ht, rfl⟩ := List.mem_map.mp h
    rw [if_pos hp]
    exact ⟨t, rfl, mem_members ht⟩

end OrbIdl.Schema

namespace OrbIdl.Model

open Xml Schema

variable {e : Element} {tag : String}

theorem require_of_valid (h : Valid interfaceDocument e) (he : e.name = tag) (key : String)
    {b : AttributeDeclaration} (hb : interfaceDocument.attribute? tag key = some b)
    (hrequired : b.fallback = .required) :
    ∃ value, require e key = .ok value ∧ b.type.Admits interfaceDocument value := by
  obtain ⟨value, hvalue⟩ := h.given he hb hrequired
  exact ⟨value, require_eq_ok_iff.mpr hvalue, h.admits he hb hvalue⟩

/-- An option is one of the values listed for it, given or not. -/
theorem optionOr_of_valid (h : Valid interfaceDocument e) (he : e.name = tag)
    {key fallback : String} {values : List String}
    (hb : interfaceDocument.attribute? tag key = some ⟨key, .oneOf values, .value fallback⟩)
    (hfallback : fallback ∈ values) : EnumHeader.optionOr e key fallback ∈ values := by
  unfold EnumHeader.optionOr
  cases hvalue : e.get? key with
  | none => exact hfallback
  | some value => exact h.admits he hb hvalue

/-- Whatever completes a type that stands as an element is required of the element. -/
theorem fallback_typeArgument (t : DataType)
    (h : (t.standsAt .param || t.standsAt .result) = true) :
    ∀ a ∈ t.arguments,
      (interfaceDocument.attribute? (namePrefix ++ t.name) a.1.key).map (·.fallback) =
        some .required := by
  cases t <;> revert h <;> decide

end OrbIdl.Model
