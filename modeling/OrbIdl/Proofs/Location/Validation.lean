import OrbIdl.Proofs.Conformance.Validation
import OrbIdl.Proofs.Defaults.Completion
import OrbIdl.Proofs.Location.Tree

/-! # The places of violations -/

namespace OrbIdl.Schema

open Xml

variable {P : Span → Prop} {s : Schema} {e : Element}

/-! ## Violations -/

/-- The place that all remarks on a violation are about. -/
def Violation.span : Violation → Span
  | unknownSchema _ _ span | wrongRoot _ _ span | undeclaredElement _ span
  | undeclaredAttribute _ _ span | missingAttribute _ _ span | valueNotListed _ _ _ _ span
  | badToken _ _ _ span | wrongContent _ _ span | unexpectedText _ span => span

theorem Violation.marks_remarks {v : Violation} (h : P v.span) : Marks P v.remarks := by
  cases v <;> simpa [remarks, Remark.error, span] using h

theorem spans_of_under {Q : Element → Prop} {path : List Nat} {x : Element} (h : e.Spans P)
    (hx : e.Under Q path x) : x.Spans P := by
  induction hx with
  | root => exact h
  | child _ hi _ ih => exact ih (h.child (List.mem_of_getElem? hi))

/-- Wrong content is reported at the element or at its first child. -/
theorem faultSpan_of_spans (h : e.Spans P) (c : ContentModel) : P (c.faultSpan e) := by
  cases c with
  | empty => exact h.here
  | children _ => exact h.here
  | characterData =>
    show P ((e.children.head?.map (·.span)).getD e.span)
    cases hhead : e.children.head? with
    | none => exact h.here
    | some child => exact (h.child (List.mem_of_head? hhead)).here

theorem span_of_elementDefect (h : e.Spans P) {site : Site} {v : Violation}
    (hv : ElementDefect s e site v) : P v.span := by
  cases hv with
  | undeclared | missing | text => exact h.here
  | undeclaredAttribute _ ha | badToken _ ha | notListed _ ha | notInEntity _ ha =>
    exact h.attr (List.mem_of_getElem? ha)
  | content => exact faultSpan_of_spans h _

/-- What is wrong with a tree is reported at places of the tree. -/
theorem span_of_validate (h : e.Spans P) {v : Violation} (hv : v ∈ (validate s e).2) :
    P v.span := by
  obtain ⟨place, x, hx, hdefect⟩ := (lists_validate s e).exists_of_mem hv
  exact span_of_elementDefect (spans_of_under h hx) hdefect

theorem checkDocType_fails (s : Schema) (mappings : Mappings) {docType : Option DocType}
    (h : ∀ d, docType = some d → P d.span) (root : Element) :
    FailsOnly (fun v => P v.span) (checkDocType s mappings docType root) := by
  cases docType with
  | none => exact .ok ()
  | some d =>
    have hspan : P d.span := h d rfl
    unfold checkDocType
    dsimp only
    split
    · exact .error hspan
    · split
      · split
        · exact .ok ()
        · exact .error hspan
      · exact .ok ()

/-! ## Defaults -/

theorem addDefault_spans (h : e.Spans P) (a : AttributeDeclaration) : (addDefault e a).Spans P := by
  unfold addDefault
  split
  · exact h.put h.here
  · exact h

theorem addDefaults_spans (h : e.Spans P) (d : ElementDeclaration) : (addDefaults d e).Spans P := by
  unfold addDefaults
  induction d.attributes generalizing e with
  | nil => exact h
  | cons a as ih => exact ih (addDefault_spans h a)

/-- Defaults are placed at their elements, so the tree with defaults has no new places. -/
theorem complete_spans (s : Schema) (h : e.Spans P) : (complete s e).Spans P := by
  induction e using Element.children_induction with
  | step e ih =>
    cases hd : s.element? e.name with
    | none => rwa [complete_undeclared hd]
    | some d =>
      rw [complete_declared hd]
      have hdefaults := addDefaults_spans h d
      refine ⟨hdefaults.here, fun a => hdefaults.attr, ?_⟩
      intro child hchild
      obtain ⟨c, hc, rfl⟩ := List.mem_map.mp hchild
      exact ih c hc (h.child hc)

end OrbIdl.Schema
