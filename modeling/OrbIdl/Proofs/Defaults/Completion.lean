import OrbIdl.Proofs.Conformance.Tree

/-! # The tree with the defaults of a schema -/

namespace OrbIdl.Xml.Element

theorem putInto_of_absent (a : Attribute) (as : List Attribute)
    (h : as.find? (·.name == a.name) = none) : putInto a as = as ++ [a] := by
  induction as with
  | nil => rfl
  | cons b as ih =>
    rw [List.find?_cons] at h
    split at h
    · exact absurd h (Option.some_ne_none b)
    · rename_i hb
      rw [putInto, if_neg (by simpa using hb), ih h, List.cons_append]

theorem attribute?_put (e : Element) (a : Attribute) (key : String)
    (h : e.attribute? a.name = none) :
    (e.put a).attribute? key = (e.attribute? key).or (if a.name = key then some a else none) := by
  unfold put attribute?
  rw [putInto_of_absent a e.attributes h, List.find?_append, List.find?_singleton]
  simp only [beq_iff_eq]

end OrbIdl.Xml.Element

namespace OrbIdl.Schema

open Xml

/-! ## Declared defaults -/

def AttributeDeclaration.default? (a : AttributeDeclaration) : Option String :=
  match a.fallback with
  | .value v => some v
  | .required | .implied => none

def ElementDeclaration.default? (d : ElementDeclaration) (key : String) : Option String :=
  d.attributes.findSome? fun a => if a.name = key then a.default? else none

/-- What stands for an attribute of the elements called `tag` that is not given. -/
def default? (s : Schema) (tag key : String) : Option String :=
  (s.element? tag).bind (·.default? key)

def filled (e : Element) (key value : String) : Attribute :=
  ⟨key, value, e.span, true⟩

/-! ## Adding them -/

theorem addDefault_frame (e : Element) (a : AttributeDeclaration) :
    ∃ attributes, addDefault e a = { e with attributes } := by
  unfold addDefault
  split
  · exact ⟨_, rfl⟩
  · cases e
    exact ⟨_, rfl⟩

theorem foldl_addDefault_frame (as : List AttributeDeclaration) (e : Element) :
    ∃ attributes, as.foldl addDefault e = { e with attributes } := by
  induction as generalizing e with
  | nil =>
    cases e
    exact ⟨_, rfl⟩
  | cons a as ih =>
    obtain ⟨attributes, h⟩ := addDefault_frame e a
    rw [List.foldl_cons, h]
    exact ih { e with attributes }

theorem attribute?_addDefault (e : Element) (a : AttributeDeclaration) (key : String) :
    (addDefault e a).attribute? key =
      (e.attribute? key).or ((if a.name = key then a.default? else none).map (filled e key)) := by
  unfold addDefault AttributeDeclaration.default?
  cases hf : a.fallback with
  | required => simp
  | implied => simp
  | value v =>
    cases ha : e.attribute? a.name with
    | none =>
      by_cases hk : a.name = key
      · subst hk
        simp [Element.attribute?_put e ⟨a.name, v, e.span, true⟩ a.name ha, filled]
      · simp [Element.attribute?_put e ⟨a.name, v, e.span, true⟩ key ha, hk]
    | some b =>
      by_cases hk : a.name = key
      · subst hk
        simp [ha]
      · simp [hk]

/-- The attributes given are kept, and those not given have the first default declared for them. -/
theorem attribute?_foldl_addDefault (as : List AttributeDeclaration) (e : Element)
    (key : String) :
    (as.foldl addDefault e).attribute? key =
      (e.attribute? key).or
        ((as.findSome? fun a => if a.name = key then a.default? else none).map
          (filled e key)) := by
  induction as generalizing e with
  | nil => simp
  | cons a as ih =>
    obtain ⟨attributes, h⟩ := addDefault_frame e a
    have hfilled : filled (addDefault e a) key = filled e key := by
      rw [h]
      rfl
    rw [List.foldl_cons, ih, attribute?_addDefault, hfilled, Option.or_assoc,
      ← Option.map_or, List.findSome?_cons]
    cases (if a.name = key then a.default? else none) <;> rfl

theorem attribute?_addDefaults (d : ElementDeclaration) (e : Element) (key : String) :
    (addDefaults d e).attribute? key =
      (e.attribute? key).or ((d.default? key).map (filled e key)) :=
  attribute?_foldl_addDefault d.attributes e key

/-! ## The whole tree -/

/-- The tree that validation leaves. -/
def complete (s : Schema) (e : Element) : Element :=
  (validate s e).1

theorem complete_undeclared {s : Schema} {e : Element} (h : s.element? e.name = none) :
    complete s e = e := by
  rw [complete, validate_undeclared h]

theorem complete_declared {s : Schema} {e : Element} {d : ElementDeclaration}
    (h : s.element? e.name = some d) :
    complete s e = { addDefaults d e with children := e.children.map (complete s) } := by
  rw [complete, validate_declared h]
  rfl

theorem complete_frame (s : Schema) (e : Element) :
    ∃ attributes children, complete s e = { e with attributes, children } := by
  cases h : s.element? e.name with
  | none =>
    rw [complete_undeclared h]
    cases e
    exact ⟨_, _, rfl⟩
  | some d =>
    obtain ⟨attributes, hd⟩ := foldl_addDefault_frame d.attributes e
    refine ⟨attributes, e.children.map (complete s), ?_⟩
    rw [complete_declared h, addDefaults, hd]

@[simp] theorem name_complete (s : Schema) (e : Element) : (complete s e).name = e.name := by
  obtain ⟨_, _, h⟩ := complete_frame s e
  rw [h]

@[simp] theorem span_complete (s : Schema) (e : Element) : (complete s e).span = e.span := by
  obtain ⟨_, _, h⟩ := complete_frame s e
  rw [h]

@[simp] theorem text_complete (s : Schema) (e : Element) : (complete s e).text = e.text := by
  obtain ⟨_, _, h⟩ := complete_frame s e
  rw [h]

theorem children_complete {s : Schema} {e : Element} (h : (s.element? e.name).isSome) :
    (complete s e).children = e.children.map (complete s) := by
  obtain ⟨d, hd⟩ := Option.isSome_iff_exists.mp h
  rw [complete_declared hd]

theorem attribute?_complete (s : Schema) (e : Element) (key : String) :
    (complete s e).attribute? key =
      (e.attribute? key).or ((s.default? e.name key).map (filled e key)) := by
  unfold default?
  cases h : s.element? e.name with
  | none => simp [complete_undeclared h]
  | some d =>
    rw [complete_declared h]
    exact attribute?_addDefaults d e key

theorem get?_complete (s : Schema) (e : Element) (key : String) :
    (complete s e).get? key = (e.get? key).or (s.default? e.name key) := by
  unfold Element.get?
  rw [attribute?_complete, Option.map_or, Option.map_map]
  exact congrArg _ (Option.map_id' ..)

/-- A default stands where its element stands, which is where its absence is reported. -/
@[simp] theorem spanOf_complete (s : Schema) (e : Element) (key : String) :
    (complete s e).spanOf key = e.spanOf key := by
  unfold Element.spanOf Element.spanOf?
  rw [attribute?_complete, span_complete]
  cases e.attribute? key with
  | none => cases s.default? e.name key <;> rfl
  | some a => rfl

end OrbIdl.Schema
