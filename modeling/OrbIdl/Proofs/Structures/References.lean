import OrbIdl.Proofs.Reading.Documents

/-!
# References between structures

A structure may refer to structures that are declared before it. Reading looks for the first
reference to any other name.
-/

namespace OrbIdl.Model

open Xml

/-! ## Names that are declared -/

/-- One of the structures has that name. -/
def Declared (ss : List Structure) (name : String) : Prop :=
  ∃ s ∈ ss, s.name = name

theorem declared_append_singleton {ss : List Structure} {s : Structure} {name : String} :
    Declared (ss ++ [s]) name ↔ Declared ss name ∨ s.name = name := by
  simp [Declared, or_and_right, exists_or]

/-- The structure that a member refers to, if it does, is among `earlier`. -/
def Member.Resolved (earlier : List Structure) : Member → Prop
  | field .. => True
  | sub _ structName _ => Declared earlier structName

/-- Each of the structures `ss` refers only to `done` and to those that come before it. -/
def Grounded (done ss : List Structure) : Prop :=
  ∀ earlier s later, ss = earlier ++ s :: later → ∀ m ∈ s.members, m.Resolved (done ++ earlier)

/-- The member of `s` that refers to `name` is the first one, of the first structure, that refers
to what does not come before its structure. -/
def FirstDangling (done ss : List Structure) (s : Structure) (name : String) (span : Span) : Prop :=
  ∃ earlier later before field after, ss = earlier ++ s :: later ∧
    s.members = before ++ .sub field name span :: after ∧ Grounded done earlier ∧
    (∀ m ∈ before, m.Resolved (done ++ earlier)) ∧ ¬Declared (done ++ earlier) name

section

variable {done ss : List Structure} {s : Structure}

theorem grounded_nil : Grounded done [] := by
  intro earlier s later h
  simp at h

theorem grounded_cons :
    Grounded done (s :: ss) ↔
      (∀ m ∈ s.members, m.Resolved done) ∧ Grounded (done ++ [s]) ss := by
  constructor
  · intro h
    refine ⟨fun m hm => ?_, fun earlier t later hss m hm => ?_⟩
    · simpa using h [] s ss rfl m hm
    · rw [List.append_assoc]
      exact h (s :: earlier) t later (by rw [hss, List.cons_append]) m hm
  · rintro ⟨hfirst, hrest⟩ earlier t later hss m hm
    obtain ⟨rfl, hss⟩ | ⟨earlier, rfl, rfl⟩ := List.cons_eq_append_iff.mp hss
    · cases hss
      simpa using hfirst m hm
    · simpa using hrest earlier t later rfl m hm

theorem FirstDangling.cons {t : Structure} {name : String} {span : Span}
    (hfirst : ∀ m ∈ t.members, m.Resolved done) (h : FirstDangling (done ++ [t]) ss s name span) :
    FirstDangling done (t :: ss) s name span := by
  obtain ⟨earlier, later, before, field, after, rfl, hmembers, hearlier, hbefore, hname⟩ := h
  rw [List.append_assoc] at hbefore hname
  exact ⟨t :: earlier, later, before, field, after, rfl, hmembers,
    grounded_cons.mpr ⟨hfirst, hearlier⟩, hbefore, hname⟩

/-- A dangling reference is no reference to what comes before. -/
theorem FirstDangling.not_grounded {name : String} {span : Span}
    (h : FirstDangling done ss s name span) : ¬Grounded done ss := by
  obtain ⟨earlier, later, before, field, after, hss, hmembers, -, -, hname⟩ := h
  intro hgrounded
  exact hname (hgrounded earlier s later hss (.sub field name span) (by simp [hmembers]))

theorem not_grounded_iff :
    ¬Grounded done ss ↔ ∃ earlier s later field name span, ss = earlier ++ s :: later ∧
      .sub field name span ∈ s.members ∧ ¬Declared (done ++ earlier) name := by
  constructor
  · intro h
    simp only [Grounded, not_forall] at h
    obtain ⟨earlier, s, later, hss, m, hm, hname⟩ := h
    cases m with
    | field => exact absurd trivial hname
    | sub field name span => exact ⟨earlier, s, later, field, name, span, hss, hm, hname⟩
  · rintro ⟨earlier, s, later, field, name, span, hss, hm, hname⟩ h
    exact hname (h earlier s later hss _ hm)

/-! ## The search for a dangling reference -/

/-- The name and the place of the reference that a member makes, if it does. -/
def Member.reference? : Member → Option (String × Span)
  | sub _ structName span => some (structName, span)
  | field .. => none

theorem references_eq (s : Structure) : s.references = s.members.filterMap Member.reference? :=
  rfl

theorem forall_resolved_iff {ms : List Member} :
    (∀ m ∈ ms, m.Resolved done) ↔ ∀ r ∈ ms.filterMap Member.reference?, Declared done r.1 := by
  constructor
  · intro h r hr
    obtain ⟨m, hm, hr⟩ := List.mem_filterMap.mp hr
    cases m with
    | field => cases hr
    | sub field structName span =>
      cases hr
      exact h _ hm
  · intro h m hm
    cases m with
    | field => trivial
    | sub field structName span => exact h _ (List.mem_filterMap.mpr ⟨_, hm, rfl⟩)

theorem exists_member_of_references {before after : List (String × Span)} {name : String}
    {span : Span} (h : s.references = before ++ (name, span) :: after) :
    ∃ first field rest, s.members = first ++ .sub field name span :: rest ∧
      first.filterMap Member.reference? = before := by
  rw [references_eq, List.filterMap_eq_append_iff] at h
  obtain ⟨first, rest, hmembers, hfirst, hrest⟩ := h
  obtain ⟨between, m, rest, rfl, hbetween, hm, -⟩ := List.filterMap_eq_cons_iff.mp hrest
  cases m with
  | field => cases hm
  | sub field structName span =>
    cases hm
    refine ⟨first ++ between, field, rest, by rw [hmembers, List.append_assoc], ?_⟩
    rw [List.filterMap_append, hfirst, List.filterMap_eq_nil_iff.mpr hbetween, List.append_nil]

section

variable {declared : List String} (hdeclared : ∀ name, name ∈ declared ↔ Declared done name)
include hdeclared

theorem declared_cons (name : String) :
    name ∈ s.name :: declared ↔ Declared (done ++ [s]) name := by
  rw [List.mem_cons, hdeclared, declared_append_singleton, or_comm, eq_comm]

theorem find?_references_eq_none_iff :
    s.references.find? (fun (name, _) => !declared.contains name) = none ↔
      ∀ m ∈ s.members, m.Resolved done := by
  rw [forall_resolved_iff, ← references_eq, List.find?_eq_none]
  simp [hdeclared]

theorem resolved_of_find?_references {name : String} {span : Span}
    (h : s.references.find? (fun (name, _) => !declared.contains name) = some (name, span)) :
    ∃ before field after, s.members = before ++ .sub field name span :: after ∧
      (∀ m ∈ before, m.Resolved done) ∧ ¬Declared done name := by
  obtain ⟨hname, before, after, hreferences, hbefore⟩ := List.find?_eq_some_iff_append.mp h
  obtain ⟨first, field, rest, hmembers, rfl⟩ := exists_member_of_references hreferences
  refine ⟨first, field, rest, hmembers, ?_, by simpa [hdeclared] using hname⟩
  rw [forall_resolved_iff]
  intro r hr
  simpa [hdeclared] using hbefore r hr

end

/-- The search finds nothing when all references lead back. -/
theorem danglingFrom_eq_none_iff {declared : List String}
    (hdeclared : ∀ name, name ∈ declared ↔ Declared done name) :
    Document.danglingFrom declared ss = none ↔ Grounded done ss := by
  induction ss generalizing declared done with
  | nil => exact iff_of_true rfl grounded_nil
  | cons s ss ih =>
    rw [grounded_cons, ← ih (declared_cons hdeclared), ← find?_references_eq_none_iff hdeclared,
      Document.danglingFrom]
    split
    · rename_i hfind
      simp only [hfind, reduceCtorEq, false_and]
    · rename_i hfind
      simp only [hfind, true_and]

/-- What the search finds is the first reference that does not lead back. -/
theorem firstDangling_of_danglingFrom {declared : List String} {name : String} {span : Span}
    (hdeclared : ∀ name, name ∈ declared ↔ Declared done name)
    (h : Document.danglingFrom declared ss = some (s, name, span)) :
    FirstDangling done ss s name span := by
  induction ss generalizing declared done with
  | nil => cases h
  | cons t ss ih =>
    rw [Document.danglingFrom] at h
    split at h
    · rename_i hfind
      cases h
      obtain ⟨before, field, after, hmembers, hbefore, hname⟩ :=
        resolved_of_find?_references hdeclared hfind
      refine ⟨[], ss, before, field, after, rfl, hmembers, grounded_nil, ?_, ?_⟩
      · simpa using hbefore
      · simpa using hname
    · rename_i hfind
      exact .cons ((find?_references_eq_none_iff hdeclared).mp hfind)
        (ih (declared_cons hdeclared) h)

end

end OrbIdl.Model
