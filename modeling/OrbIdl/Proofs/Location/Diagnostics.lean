import OrbIdl.Proofs.Emission.Run
import OrbIdl.Proofs.Location.References
import OrbIdl.Proofs.Location.Validation

/-! # Diagnostics point into the source -/

namespace OrbIdl

open Emission

/-- An error all of whose remarks are within the first `n` bytes. -/
abbrev CompileError.Fits (n : Nat) (e : CompileError) : Prop :=
  Marks (Span.Fits n) e.remarks

theorem CompileError.invalid_fits {n : Nat} {violations : List Schema.Violation}
    (h : ∀ v ∈ violations, v.span.Fits n) : (CompileError.invalid violations).Fits n := by
  intro r hr
  obtain ⟨v, hv, hr⟩ := List.mem_flatMap.mp hr
  exact Schema.Violation.marks_remarks (h v hv) r hr

/-! ## The front end -/

theorem checkedTree_ends (mappings : Schema.Mappings) (source : String) :
    Ends (CompileError.Fits (Text.byteSize source.toList))
      (Xml.Element.Spans (Span.Fits (Text.byteSize source.toList)))
      (checkedTree mappings source) := by
  unfold checkedTree
  refine .bind ((Xml.Document.read_ends source).mapError fun e he => he) fun document hdocument => ?_
  have hdocType := Schema.checkDocType_fails Schema.interfaceDocument mappings hdocument.docType
    document.root
  refine .bind ((Ends.of_fails hdocType).mapError fun v hv => ?_) fun _ _ => ?_
  · exact CompileError.invalid_fits (List.forall_mem_singleton.mpr hv)
  · split
    · rename_i root hvalidate
      have hcompleted := Schema.complete_spans Schema.interfaceDocument hdocument.root
      rw [Schema.complete, hvalidate] at hcompleted
      exact .ok hcompleted
    · rename_i violations _ hvalidate
      refine .error (CompileError.invalid_fits fun v hv => ?_)
      have hmem : v ∈ (Schema.validate Schema.interfaceDocument document.root).2 := by
        rw [hvalidate]
        exact hv
      exact Schema.span_of_validate hdocument.root hmem

theorem readDocument_fails (mappings : Schema.Mappings) (source : String) :
    FailsOnly (CompileError.Fits (Text.byteSize source.toList))
      (readDocument mappings source).result := by
  unfold readDocument
  refine (Logged.ends_bind (R := fun _ => True) (checkedTree_ends mappings source) ?_).fails
  intro root hroot
  refine Logged.ends_bind (.of_fails (.ok ())) fun _ _ => ?_
  exact (Ends.of_fails (Model.Document.faultsAt hroot)).mapError fun f => Model.Fault.marks_remarks

/-! ## The whole run -/

variable {σ : Type}

end OrbIdl
