import OrbIdl.Model.Document
import OrbIdl.Proofs.Location.Tree

/-! # The places of the rules that a tree breaks -/

namespace OrbIdl.Model

open Xml

theorem Fault.marks_remarks {P : Span → Prop} {f : Fault} (h : P f.span) : Marks P f.remarks := by
  cases f with
  | malformed decl rule span =>
    have hspan : P span := h
    unfold remarks
    dsimp only
    split
    · simpa [Remark.error] using hspan
    · simpa [Remark.error] using hspan
  | unknownType | moveRefused | wrongDirection | unexpectedElement =>
    simpa [remarks, Remark.error, span] using h

/-- A fault, if there is one, is reported at a span that satisfies `P`. -/
abbrev FaultsAt {α : Type} (P : Span → Prop) (x : Except Fault α) : Prop :=
  FailsOnly (fun f => P f.span) x

section

variable {P : Span → Prop} {e : Element} (h : e.Spans P)
include h

/-! ## What every declaration reads -/

theorem require_faultsAt (key : String) : FaultsAt P (require e key) := by
  unfold require Element.require
  cases e.get? key with
  | none => exact .error h.here
  | some value => exact .ok value

theorem expect_faultsAt (names : List String) : FaultsAt P (expect e names) := by
  unfold expect
  split
  · exact .ok ()
  · exact .error h.here

/-! ## Types and parameters -/

theorem TypeRef.faultsAt (position : Position) : FaultsAt P (TypeRef.ofElement position e) := by
  unfold TypeRef.ofElement
  split
  · exact .error h.here
  · refine .guard h.here ?_
    refine .bind (.mapM fun a _ => ?_) fun _ _ => .ok _
    exact .bind (require_faultsAt h _) fun _ _ => .ok _

theorem namedType_faultsAt (decl : String) : FaultsAt P (namedType decl e) := by
  unfold namedType
  refine .bind (require_faultsAt h _) fun name _ => ?_
  split
  · exact .error (h.spanOf _)
  · split
    · exact .ok _
    · exact .error (h.spanOf _)

theorem Param.faultsAt (method : String) : FaultsAt P (Param.ofElement method e) := by
  unfold Param.ofElement
  refine .bind (require_faultsAt h _) fun name _ => ?_
  refine .bind (require_faultsAt h _) fun keyword _ => ?_
  split
  · split
    · rename_i typeElement htype
      have htypeElement := h.child (List.mem_of_head? htype)
      refine .bind (TypeRef.faultsAt htypeElement _) fun type _ => ?_
      have hdirection := h.spanOf Key.direction
      have hdefault := h.spanOf Key.defaultValue
      dsimp only
      split
      · split
        · exact .error (h.spanOf _)
        · exact .guard hdirection (.guard hdefault (.ok _))
      · exact .guard hdirection (.guard hdefault (.ok _))
    · exact .error h.here
  · exact .error (h.spanOf _)

omit h in
theorem Param.elements_faultAt (method : String) {es : List Element} (h : ∀ e ∈ es, e.Spans P) :
    FaultsAt P (Param.ofElements method es) := by
  unfold Param.ofElements
  refine .mapM fun e he => ?_
  exact .bind (expect_faultsAt (h e he) _) fun _ _ => Param.faultsAt (h e he) method

/-! ## Constants -/

theorem Constant.faultsAt : FaultsAt P (Constant.ofElement e) := by
  unfold Constant.ofElement
  refine .bind (require_faultsAt h _) fun name _ => ?_
  refine .bind (namedType_faultsAt h name) fun _ _ => ?_
  exact .bind (require_faultsAt h _) fun _ _ => .ok _

theorem Constant.section_faultsAt : FaultsAt P (Constant.ofSection e) := by
  unfold Constant.ofSection
  refine .mapM fun child hchild => ?_
  exact .bind (expect_faultsAt (h.child hchild) _) fun _ _ => Constant.faultsAt (h.child hchild)

/-! ## Enumerations -/

namespace EnumHeader

theorem shape_faultsAt (decl : String) : FaultsAt P (shapeOf decl e) := by
  unfold shapeOf
  split
  · exact .ok _
  · exact .ok _
  · exact .error (h.spanOf _)

theorem namedBase_faultsAt : FaultsAt P (namedBase e) := by
  unfold namedBase
  split
  · exact .ok _
  · split
    · exact .ok _
    · split
      · exact .ok _
      · exact .error (h.spanOf _)

theorem base_faultsAt (decl : String) (shape : EnumShape) : FaultsAt P (baseOf decl shape e) := by
  unfold baseOf
  refine .bind (namedBase_faultsAt h) fun base _ => ?_
  split
  · exact .ok _
  · exact .ok _
  · split
    · exact .ok _
    · exact .error (h.spanOf _)

theorem altTextSource_faultsAt (decl : String) : FaultsAt P (altTextSourceOf decl e) := by
  unfold altTextSourceOf
  split
  · exact .ok _
  · exact .ok _
  · exact .ok _
  · exact .error (h.spanOf _)

theorem column_faultsAt (decl key : String) : FaultsAt P (columnOf decl e key) := by
  unfold columnOf
  dsimp only
  split
  · exact .ok _
  · exact .error (h.spanOf _)

theorem maps_faultAt (decl : String) : FaultsAt P (mapsOf decl e) := by
  have hcolumn (key : String) := column_faultsAt h decl key
  unfold mapsOf
  refine .bind (hcolumn Key.altMap) fun _ _ => ?_
  refine .bind (hcolumn Key.altMap2) fun _ _ => ?_
  refine .bind (hcolumn Key.formatMap) fun _ _ => ?_
  refine .bind (hcolumn Key.loadMap) fun _ _ => ?_
  refine .bind (hcolumn Key.textStreamMap) fun _ _ => ?_
  exact .bind (hcolumn Key.translateMap) fun _ _ => .ok _

theorem increments_faultAt (decl : String) : FaultsAt P (incrementsOf decl e) := by
  unfold incrementsOf
  split
  · exact .ok _
  · exact .ok _
  · exact .ok _
  · exact .error (h.spanOf _)

theorem faultsAt : FaultsAt P (EnumHeader.ofElement e) := by
  unfold EnumHeader.ofElement
  refine .bind (require_faultsAt h _) fun name _ => ?_
  refine .bind (shape_faultsAt h name) fun shape _ => ?_
  refine .bind (base_faultsAt h name shape) fun _ _ => ?_
  refine .bind (altTextSource_faultsAt h name) fun _ _ => ?_
  refine .bind (maps_faultAt h name) fun _ _ => ?_
  refine .guard (h.spanOf Key.altPattern) ?_
  exact .bind (increments_faultAt h name) fun _ _ => .ok _

end EnumHeader

namespace EnumValue

theorem mask_faultsAt (header : EnumHeader) (name : String) : FaultsAt P (maskOf header name e) := by
  unfold maskOf
  split
  · exact .error (h.spanOf _)
  · exact .ok _
  · exact .error h.here
  · split
    · exact .ok _
    · exact .error (h.spanOf _)

theorem altText_faultsAt (header : EnumHeader) (name : String) :
    FaultsAt P (altTextOf header name e) := by
  unfold altTextOf
  split
  · exact .ok _
  · exact require_faultsAt h _
  · exact .ok _

theorem altText2_faultsAt (header : EnumHeader) : FaultsAt P (altText2Of header e) := by
  unfold altText2Of
  split
  · exact require_faultsAt h _
  · exact .ok _

theorem altNumber_faultsAt (header : EnumHeader) (name : String) :
    FaultsAt P (altNumberOf header name e).result := by
  unfold altNumberOf
  split
  · exact .ok _
  · split
    · exact .ok _
    · exact .error (h.spanOf _)
  · exact Logged.failsOnly_bind (.ok ()) fun _ _ => .ok _

theorem faultsAt (header : EnumHeader) : FaultsAt P (EnumValue.ofElement header e).result := by
  unfold EnumValue.ofElement
  refine Logged.failsOnly_bind (require_faultsAt h _) fun name _ => ?_
  refine Logged.failsOnly_bind (mask_faultsAt h header name) fun _ _ => ?_
  refine Logged.failsOnly_bind (altText_faultsAt h header name) fun _ _ => ?_
  refine Logged.failsOnly_bind (altText2_faultsAt h header) fun _ _ => ?_
  exact Logged.failsOnly_bind (altNumber_faultsAt h header name) fun _ _ => .ok _

end EnumValue

theorem EnumEntry.faultsAt (header : EnumHeader) :
    FaultsAt P (EnumEntry.ofElement header e).result := by
  unfold EnumEntry.ofElement
  split
  · exact .ok _
  split
  · refine Logged.failsOnly_bind (require_faultsAt h _) fun _ _ => ?_
    exact Logged.failsOnly_bind (require_faultsAt h _) fun _ _ => .ok _
  split
  · exact Logged.failsOnly_bind (EnumValue.faultsAt h header) fun _ _ => .ok _
  · exact .error h.here

theorem Enumeration.faultsAt : FaultsAt P (Enumeration.ofElement e).result := by
  unfold Enumeration.ofElement
  refine Logged.failsOnly_bind (EnumHeader.faultsAt h) fun header _ => ?_
  have hentries : FaultsAt P (e.children.mapM (EnumEntry.ofElement header)).result := by
    rw [Logged.result_mapM]
    exact .mapM fun child hchild => EnumEntry.faultsAt (h.child hchild) header
  refine Logged.failsOnly_bind hentries fun entries _ => ?_
  dsimp only
  split
  · exact .error h.here
  · split
    · exact .error (h.spanOf _)
    · exact .ok _

/-! ## Methods -/

namespace Method

theorem timeout_faultsAt (decl : String) (isPoll : Bool) :
    FaultsAt P (timeoutOf decl isPoll e) := by
  unfold timeoutOf
  split
  · exact .ok _
  · split
    · exact .ok _
    · exact .error (h.spanOf _)

theorem resultElement_spans {type : Element} (htype : resultElement? e = some type) :
    type.Spans P := by
  unfold resultElement? at htype
  obtain ⟨first, hfirst, htype⟩ := Option.bind_eq_some_iff.mp htype
  split at htype
  · exact (h.child (List.mem_of_head? hfirst)).child (List.mem_of_head? htype)
  · cases htype

theorem faultsAt (ordinal : Nat) : FaultsAt P (Method.ofElement ordinal e).result := by
  unfold Method.ofElement
  refine Logged.failsOnly_bind (expect_faultsAt h _) fun _ _ => ?_
  refine Logged.failsOnly_bind (require_faultsAt h _) fun name _ => ?_
  refine Logged.failsOnly_bind (timeout_faultsAt h name _) fun _ _ => ?_
  split
  · rename_i type htype
    refine Logged.failsOnly_bind (TypeRef.faultsAt (resultElement_spans h htype) _) fun _ _ => ?_
    have hparams : FaultsAt P (Param.ofElements name e.children.tail) :=
      Param.elements_faultAt name fun child hchild => h.child (List.mem_of_mem_tail hchild)
    refine Logged.failsOnly_bind hparams fun _ _ => ?_
    exact Logged.failsOnly_bind (.ok ()) fun _ _ => .ok _
  · exact .error h.here

theorem section_faultsAt : FaultsAt P (Method.ofSection e).result := by
  rw [Method.ofSection, Logged.result_mapM]
  refine .mapM ?_
  rintro ⟨child, ordinal⟩ hchild
  exact faultsAt (h.child (List.fst_mem_of_mem_zipIdx hchild)) ordinal

end Method

end

end OrbIdl.Model
