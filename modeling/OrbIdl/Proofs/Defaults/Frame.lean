import OrbIdl.Proofs.Defaults.Validity

/-!
# What validation leaves of a tree

Validation adds the defaults that are lacking, down to the first undeclared element, and keeps all
else. A tree that has them gets nothing more.
-/

namespace OrbIdl.Xml.Element

/-! ## Paths -/

/-- The element that stands at a path, the indices of children on the way to it. -/
def at? (e : Element) : List Nat → Option Element
  | [] => some e
  | i :: path => e.children[i]?.bind fun child => child.at? path

theorem under_cons_iff {P : Element → Prop} {e x : Element} {i : Nat} {path : List Nat} :
    e.Under P (i :: path) x ↔
      P e ∧ ∃ child, e.children[i]? = some child ∧ child.Under P path x := by
  constructor
  · intro h
    cases h with
    | child he hi hx => exact ⟨he, _, hi, hx⟩
  · rintro ⟨he, child, hi, hx⟩
    exact .child he hi hx

end OrbIdl.Xml.Element

namespace OrbIdl.Schema

open Xml

theorem rel_mono {α β : Type} {R S : α → β → Prop} {x? : Option α} {y? : Option β}
    (h : Option.Rel R x? y?) (hRS : ∀ x y, R x y → S x y) : Option.Rel S x? y? := by
  cases h with
  | none => exact .none
  | some hxy => exact .some (hRS _ _ hxy)

variable {s : Schema}

/-! ## Additions -/

/-- At a path of the tree, `y` stands where `x` stood. It has got the defaults that `x` lacked if
`x` and all above it are declared, and nothing otherwise. -/
structure Completed (s : Schema) (root : Element) (path : List Nat) (x y : Element) : Prop where
  kept : y = { x with attributes := y.attributes, children := y.children }
  children : y.children.length = x.children.length
  reached : ∀ d, s.element? x.name = some d → root.Under (Declared s) path x →
    y.attributes = x.attributes ++ d.attributes.filterMap (lackedDefault? x)
  unreached : ¬(Declared s x ∧ root.Under (Declared s) path x) → y.attributes = x.attributes

theorem Completed.refl {root x : Element} {path : List Nat}
    (h : ¬(Declared s x ∧ root.Under (Declared s) path x)) : Completed s root path x x where
  kept := by
    cases x
    rfl
  children := rfl
  reached := by
    intro d hd hunder
    exact absurd ⟨⟨d, hd⟩, hunder⟩ h
  unreached := fun _ => rfl

theorem completed_root (h : ∀ d ∈ s.elements, Coherent s d) (e : Element) :
    Completed s e [] e (complete s e) := by
  cases hd : s.element? e.name with
  | none =>
    rw [complete_undeclared hd]
    apply Completed.refl
    rintro ⟨⟨d, hd'⟩, -⟩
    cases hd.symm.trans hd'
  | some d =>
    rw [complete_declared hd, addDefaults_eq e (h d (mem_of_element? hd)).nodup]
    refine ⟨rfl, by simp, ?_, ?_⟩
    · intro d' hd' _
      cases hd.symm.trans hd'
      rfl
    · intro hnot
      exact absurd ⟨⟨d, hd⟩, .root e⟩ hnot

theorem Completed.of_child {root child x y : Element} {i : Nat} {path : List Nat}
    (hroot : Declared s root) (hi : root.children[i]? = some child)
    (h : Completed s child path x y) : Completed s root (i :: path) x y := by
  have hunder : root.Under (Declared s) (i :: path) x ↔ child.Under (Declared s) path x := by
    rw [Element.under_cons_iff]
    simp [hroot, hi]
  constructor
  · exact h.kept
  · exact h.children
  · simp only [hunder]
    exact h.reached
  · simp only [hunder]
    exact h.unreached

theorem completed_at (h : ∀ d ∈ s.elements, Coherent s d) (root : Element) (path : List Nat) :
    Option.Rel (Completed s root path) (root.at? path) ((complete s root).at? path) := by
  induction path generalizing root with
  | nil => exact .some (completed_root h root)
  | cons i path ih =>
    cases hd : s.element? root.name with
    | none =>
      -- Nothing on this path is reached.
      rw [complete_undeclared hd]
      cases root.at? (i :: path) with
      | none => exact .none
      | some x =>
        apply Option.Rel.some
        apply Completed.refl
        rintro ⟨-, hunder⟩
        obtain ⟨⟨d, hd'⟩, -⟩ := Element.under_cons_iff.mp hunder
        cases hd.symm.trans hd'
    | some d =>
      unfold Element.at?
      rw [children_complete (by rw [hd]; rfl), List.getElem?_map]
      cases hi : root.children[i]? with
      | none => exact .none
      | some child =>
        apply rel_mono (ih child)
        intro x y hxy
        exact hxy.of_child ⟨d, hd⟩ hi

/-- Whatever validation finds, the tree that it leaves has the shape of the old one, and each element
is what it was with the defaults behind its attributes that it lacked, in the order of the schema,
or with none if it or an element above it is undeclared. -/
theorem validate_adds_defaults (root : Element) (path : List Nat) :
    Option.Rel (Completed interfaceDocument root path) (root.at? path)
      ((validate interfaceDocument root).1.at? path) :=
  completed_at coherent_interfaceDocument root path

/-! ## A second run -/

theorem lackedDefault?_complete {e : Element} {d : ElementDeclaration} {a : AttributeDeclaration}
    (hd : s.element? e.name = some d) (ha : a ∈ d.attributes) :
    lackedDefault? (complete s e) a = none := by
  unfold lackedDefault?
  rw [attribute?_complete, default?, hd, Option.bind_some]
  cases e.attribute? a.name with
  | some b => rfl
  | none =>
    cases hdefault : a.default? with
    | none => cases (d.default? a.name).map (filled e a.name) <;> rfl
    | some v =>
      have hsome : (d.default? a.name).isSome = true := by
        unfold ElementDeclaration.default?
        rw [List.findSome?_isSome_iff]
        exact ⟨a, ha, by simp [hdefault]⟩
      obtain ⟨w, hw⟩ := Option.isSome_iff_exists.mp hsome
      rw [hw]
      rfl

theorem addDefaults_eq_self {e : Element} {d : ElementDeclaration} (h : Coherent s d)
    (hnone : ∀ a ∈ d.attributes, lackedDefault? e a = none) : addDefaults d e = e := by
  rw [addDefaults_eq e h.nodup, List.filterMap_eq_nil_iff.mpr hnone, List.append_nil]
  cases e
  rfl

theorem complete_complete (h : ∀ d ∈ s.elements, Coherent s d) (e : Element) :
    complete s (complete s e) = complete s e := by
  induction e using Element.children_induction with
  | step e ih =>
    cases hd : s.element? e.name with
    | none => rw [complete_undeclared hd, complete_undeclared hd]
    | some d =>
      have hname : s.element? (complete s e).name = some d := by rw [name_complete, hd]
      have hbelow : (complete s e).children.map (complete s) = (complete s e).children := by
        rw [children_complete (by rw [hd]; rfl), List.map_map]
        exact List.map_congr_left ih
      have hhere : addDefaults d (complete s e) = complete s e := by
        apply addDefaults_eq_self (h d (mem_of_element? hd))
        intro a ha
        exact lackedDefault?_complete hd ha
      rw [complete_declared hname, hhere, hbelow]
      cases complete s e
      rfl

/-- A second run finds the same and changes nothing. -/
theorem validate_idempotent (root : Element) :
    validate interfaceDocument (validate interfaceDocument root).1 =
      validate interfaceDocument root := by
  apply Prod.ext
  · exact complete_complete coherent_interfaceDocument root
  · exact violations_complete coherent_interfaceDocument root

end OrbIdl.Schema
