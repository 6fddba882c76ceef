import OrbIdl.Proofs.Valid.Children

/-! # Types, constants and structures of a valid tree -/

namespace OrbIdl.Model

open Xml Schema

variable {e : Element} {tag : String}

/-! ## Types -/

/-- An element that may stand at the place is read as the type it names. -/
theorem TypeRef.never_fails {p : Position} (h : Valid interfaceDocument e)
    (hp : p.takesElements = true) (hname : e.name ∈ p.names) :
    NeverFails (TypeRef.ofElement p e) := by
  obtain ⟨t, ht, hposition⟩ := exists_type_of_tag hp hname
  have hstands : (t.standsAt .param || t.standsAt .result) = true := by
    cases p with
    | param => rw [hposition, Bool.true_or]
    | result => rw [hposition, Bool.or_true]
    | constant | enumBase => cases hp
  have harguments :
      NeverFails (t.arguments.mapM fun a => do return (a.1, ← require e a.1.key)) := by
    refine .mapM fun a ha => ?_
    obtain ⟨b, hb, hrequired⟩ := Option.map_eq_some_iff.mp (fallback_typeArgument t hstands a ha)
    obtain ⟨value, hvalue, _⟩ := require_of_valid h ht a.1.key hb hrequired
    exact .bind_of_ok hvalue (.ok _)
  unfold TypeRef.ofElement
  rw [ht, DataType.ofTag?_tag]
  simp only [hposition, Bool.true_eq_false, if_false]
  exact .bind harguments fun _ _ => .ok _

theorem namedType_never_fails (decl : String) (h : Valid interfaceDocument e) (he : e.name = tag)
    (hb : interfaceDocument.attribute? tag Key.type =
      some ⟨Key.type, .oneOfEntity Position.constant.entity, .required⟩) :
    NeverFails (namedType decl e) := by
  obtain ⟨name, hname, hadmits⟩ := require_of_valid h he Key.type hb rfl
  have hlisted : name ∈ Position.constant.names := by
    rwa [AttributeType.Admits, entityValues_entity] at hadmits
  obtain ⟨type, htype, hstands⟩ := exists_type_of_constantName hlisted
  unfold namedType
  refine .bind_of_ok hname ?_
  simp only [htype, hstands, if_true]
  exact .ok type

/-! ## Constants -/

theorem Constant.ofElement_never_fails (h : Valid interfaceDocument e)
    (he : e.name = Tag.constant) : NeverFails (Constant.ofElement e) := by
  obtain ⟨name, hname, _⟩ := require_of_valid h he Key.name (by rfl) rfl
  obtain ⟨value, hvalue, _⟩ := require_of_valid h he Key.value (by rfl) rfl
  unfold Constant.ofElement
  refine .bind_of_ok hname ?_
  refine .bind (namedType_never_fails _ h he (by rfl)) fun _ _ => ?_
  exact .bind_of_ok hvalue (.ok _)

theorem Constant.ofSection_never_fails (h : Valid interfaceDocument e)
    (he : e.name = Tag.constants) : NeverFails (Constant.ofSection e) := by
  unfold Constant.ofSection
  refine .mapM fun child hchild => ?_
  have hname : child.name ∈ [Tag.constant] := h.childName_mem he (by rfl) hchild
  refine .bind_of_ok (expect_eq_ok_iff.mpr hname) ?_
  exact Constant.ofElement_never_fails (h.child hchild) (List.mem_singleton.mp hname)

/-! ## Structures -/

theorem Member.never_fails (decl : String) (h : Valid interfaceDocument e)
    (he : e.name ∈ [Tag.member, Tag.subStruct]) : NeverFails (Member.ofElement decl e) := by
  unfold Member.ofElement
  by_cases hfield : e.name = Tag.member
  · obtain ⟨name, hname, _⟩ := require_of_valid h hfield Key.name (by rfl) rfl
    rw [if_pos hfield]
    refine .bind (namedType_never_fails decl h hfield (by rfl)) fun _ _ => ?_
    exact .bind_of_ok hname (.ok _)
  · have hsub : e.name = Tag.subStruct := by simpa [hfield] using he
    obtain ⟨name, hname, _⟩ := require_of_valid h hsub Key.name (by rfl) rfl
    obtain ⟨structName, hstruct, _⟩ := require_of_valid h hsub Key.type (by rfl) rfl
    rw [if_neg hfield, if_pos hsub]
    refine .bind_of_ok hname ?_
    exact .bind_of_ok hstruct (.ok _)

theorem Structure.never_fails (h : Valid interfaceDocument e) (he : e.name = Tag.struct) :
    NeverFails (Structure.ofElement e) := by
  obtain ⟨name, hname, _⟩ := require_of_valid h he Key.type (by rfl) rfl
  unfold Structure.ofElement
  refine .bind_of_ok hname ?_
  refine .bind (.mapM fun child hchild => ?_) fun _ _ => .ok _
  exact Member.never_fails _ (h.child hchild) (h.childName_mem he (by rfl) hchild)

end OrbIdl.Model
