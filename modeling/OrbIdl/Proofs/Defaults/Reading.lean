import OrbIdl.Logged
import OrbIdl.Model.Fault
import OrbIdl.Proofs.Defaults.Completion
import OrbIdl.Schema.Interface

/-! # Reading a completed tree -/

namespace OrbIdl.Model

open Xml Schema

variable {e : Element} {tag : String}

/-! ## Attributes -/

theorem get?_completed (key : String) (he : e.name = tag)
    (h : interfaceDocument.default? tag key = none) :
    (complete interfaceDocument e).get? key = e.get? key := by
  rw [get?_complete, he, h, Option.or_none]

theorem require_completed (key : String) (he : e.name = tag)
    (h : interfaceDocument.default? tag key = none) :
    require (complete interfaceDocument e) key = require e key := by
  unfold require Element.require
  rw [get?_completed key he h, name_complete, span_complete]

theorem getD_completed (key fallback : String) (he : e.name = tag)
    (h : (interfaceDocument.default? tag key).getD fallback = fallback) :
    ((complete interfaceDocument e).get? key).getD fallback = (e.get? key).getD fallback := by
  rw [get?_complete, he]
  cases e.get? key with
  | none => exact h
  | some value => rfl

theorem isYes_completed (key : String) (he : e.name = tag)
    (h : interfaceDocument.default? tag key ≠ some yes) :
    isYes (complete interfaceDocument e) key = isYes e key := by
  unfold isYes
  rw [get?_complete, he]
  cases e.get? key with
  | none => simpa using h
  | some value => rfl

/-! ## Children -/

theorem children_completed (he : e.name = tag) (h : (interfaceDocument.element? tag).isSome) :
    (complete interfaceDocument e).children = e.children.map (complete interfaceDocument) :=
  children_complete (he ▸ h)

section

variable {m : Type → Type} [Monad m] {α β : Type}

theorem mapM_completed [LawfulMonad m] {f : Element → m α}
    (hf : ∀ e, f (complete interfaceDocument e) = f e) (es : List Element) :
    (es.map (complete interfaceDocument)).mapM f = es.mapM f := by
  rw [List.mapM_map]
  exact congrArg (fun f => es.mapM f) (funext hf)

theorem foldlM_completed {f : β → Element → m β}
    (hf : ∀ b e, f b (complete interfaceDocument e) = f b e) (es : List Element) (init : β) :
    (es.map (complete interfaceDocument)).foldlM f init = es.foldlM f init := by
  rw [List.foldlM_map]
  simp only [hf]

end

/-! ## Names -/

@[simp] theorem expect_completed (names : List String) :
    expect (complete interfaceDocument e) names = expect e names := by
  unfold expect
  rw [name_complete, span_complete]

/-- What follows a check of the name runs on elements of that name only. -/
theorem expect_bind_congr {α : Type} {names : List String} {f g : Unit → Except Fault α}
    (h : e.name ∈ names → f () = g ()) : (expect e names >>= f) = (expect e names >>= g) := by
  unfold expect
  split
  · rename_i he
    exact h (by simpa using he)
  · rfl

theorem lift_expect_bind_congr {α : Type} {names : List String} {f g : Unit → Logged Fault α}
    (h : e.name ∈ names → f () = g ()) :
    (liftM (expect e names) >>= f) = (liftM (expect e names) >>= g) := by
  unfold expect
  split
  · rename_i he
    rw [show f = g from funext fun _ => h (by simpa using he)]
  · rfl

/-! ## Documentation -/

theorem docText?_completed (he : e.name = tag) (h : (interfaceDocument.element? tag).isSome) :
    docText? (complete interfaceDocument e) = docText? e := by
  unfold docText?
  rw [children_completed he h, List.find?_map, Option.map_map]
  simp only [Function.comp_def, name_complete, text_complete]

end OrbIdl.Model
