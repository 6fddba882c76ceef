import OrbIdl.Schema.Conformance

/-! # Trees, and validation one element at a time -/

namespace OrbIdl.Xml.Element

/-- Induction over the elements of a tree, children before their parent. -/
theorem children_induction {motive : Element → Prop}
    (step : ∀ e : Element, (∀ child ∈ e.children, motive child) → motive e) : ∀ e, motive e
  | ⟨name, span, attributes, text, children⟩ =>
    step ⟨name, span, attributes, text, children⟩ fun child _ => children_induction step child

/-- `x` stands in the tree at `path`, the indices of children on the way from the root, and all
elements above it satisfy `P`. -/
inductive Under (P : Element → Prop) : Element → List Nat → Element → Prop where
  | root (e : Element) : Under P e [] e
  | child {e child x : Element} {i : Nat} {path : List Nat} (he : P e)
      (hi : e.children[i]? = some child) (h : Under P child path x) : Under P e (i :: path) x

theorem Under.mono {P Q : Element → Prop} {e x : Element} {path : List Nat} (h : Under P e path x)
    (hPQ : ∀ e, P e → Q e) : Under Q e path x := by
  induction h with
  | root e => exact .root e
  | child he hi _ ih => exact .child (hPQ _ he) hi ih

end OrbIdl.Xml.Element

namespace OrbIdl.Schema

open Xml

/-! ## Validation -/

theorem validateAll_eq (s : Schema) (es : List Element) :
    validateAll s es = (es.map fun e => (validate s e).1, es.flatMap fun e => (validate s e).2) := by
  induction es with
  | nil => rw [validateAll, List.map_nil, List.flatMap_nil]
  | cons e es ih => rw [validateAll, ih, List.map_cons, List.flatMap_cons]

theorem validate_undeclared {s : Schema} {e : Element} (h : s.element? e.name = none) :
    validate s e = (e, [.undeclaredElement e.name e.span]) := by
  obtain ⟨name, span, attributes, text, children⟩ := e
  simp only at h
  simp only [validate, h]

theorem validate_declared {s : Schema} {e : Element} {d : ElementDeclaration}
    (h : s.element? e.name = some d) :
    validate s e =
      ({ addDefaults d e with children := e.children.map fun child => (validate s child).1 },
        attributeViolations s d e ++ contentViolations s d e ++
          e.children.flatMap fun child => (validate s child).2) := by
  obtain ⟨name, span, attributes, text, children⟩ := e
  simp only at h
  simp only [validate, h, validateAll_eq]

end OrbIdl.Schema
