import OrbIdl.Proofs.Valid.Leftover
import OrbIdl.Proofs.Valid.Types

/-! # Parameters and methods of a valid tree -/

namespace OrbIdl.Model

open Xml Schema

variable {e : Element}

/-! ## Parameters -/

theorem isSome_ofName?_direction :
    ∀ keyword ∈ ["In", "Out", "InOut"], (Direction.ofName? keyword).isSome := by
  decide

theorem Param.fails_only (method : String) (h : Valid interfaceDocument e)
    (he : e.name = Tag.param) : FailsOnly (Leftover e) (Param.ofElement method e) := by
  obtain ⟨name, hname, _⟩ := require_of_valid h he Key.name (by rfl) rfl
  obtain ⟨keyword, hkeyword, hlisted⟩ := require_of_valid h he Key.direction (by rfl) rfl
  obtain ⟨direction, hdirection⟩ :=
    Option.isSome_iff_exists.mp (isSome_ofName?_direction keyword hlisted)
  obtain ⟨typeElement, hchildren, htag⟩ := typeChild_of_valid h .param he (by rfl) rfl
  have htype : NeverFails (TypeRef.ofElement .param typeElement) :=
    TypeRef.never_fails (h.child (by rw [hchildren]; exact List.mem_singleton_self _)) rfl htag
  unfold Param.ofElement
  refine .bind_of_ok hname ?_
  refine .bind_of_ok hkeyword ?_
  simp only [hdirection, hchildren, List.head?_cons]
  refine .bind (.of_never htype) fun type _ => ?_
  have hmove (reason : MoveRefusal) :
      Leftover e (.moveRefused method name reason (e.spanOf Key.moveable)) := ⟨rfl, nofun⟩
  have hwrong :
      Leftover e (.wrongDirection method name type.type direction (e.spanOf Key.direction)) :=
    ⟨rfl, nofun⟩
  have hdefault :
      Leftover e (.malformed method (.bufferDefault name) (e.spanOf Key.defaultValue)) :=
    .of_malformed method _ rfl nofun
  split
  · split
    · exact .error (hmove _)
    · exact .guard hwrong (.guard hdefault (.ok _))
  · exact .guard hwrong (.guard hdefault (.ok _))

theorem Param.elements_fail_only (method : String) {es : List Element}
    (h : ∀ e ∈ es, Valid interfaceDocument e ∧ e.name = Tag.param) {root : Element}
    (hroot : ∀ e ∈ es, e ∈ root.children) :
    FailsOnly (Leftover root) (Param.ofElements method es) := by
  unfold Param.ofElements
  refine .mapM fun e he => ?_
  obtain ⟨hvalid, hname⟩ := h e he
  refine .bind_of_ok (expect_eq_ok_iff.mpr (List.mem_singleton.mpr hname)) ?_
  exact (Param.fails_only method hvalid hname).mono fun _ => .of_child (hroot e he)

/-! ## Methods -/

namespace Method

theorem timeout_fails_only (decl : String) (isPoll : Bool) :
    FailsOnly (Leftover e) (timeoutOf decl isPoll e) := by
  unfold timeoutOf
  split
  · exact .ok _
  · split
    · exact .ok _
    · exact .error (.of_malformed decl _ rfl nofun)

theorem fails_only (ordinal : Nat) (h : Valid interfaceDocument e)
    (he : e.name ∈ [Tag.method, Tag.pollMethod]) :
    FailsOnly (Leftover e) (Method.ofElement ordinal e).result := by
  have hdeclared : ∀ tag ∈ [Tag.method, Tag.pollMethod],
      interfaceDocument.attribute? tag Key.name = some ⟨Key.name, .token, .required⟩ := by decide
  obtain ⟨name, hname, _⟩ := require_of_valid h rfl Key.name (hdeclared e.name he) rfl
  obtain ⟨first, rest, hchildren, hfirst, hrest⟩ := methodChildren_of_valid h he
  have hmem (child : Element) (hchild : child ∈ first :: rest) : child ∈ e.children :=
    hchildren ▸ hchild
  have hresult := h.child (hmem first List.mem_cons_self)
  obtain ⟨typeElement, htypes, htag⟩ := typeChild_of_valid hresult .result hfirst (by rfl) rfl
  have htype : NeverFails (TypeRef.ofElement .result typeElement) :=
    TypeRef.never_fails (hresult.child (by rw [htypes]; exact List.mem_singleton_self _)) rfl htag
  have hfound : resultElement? e = some typeElement := by
    unfold resultElement?
    rw [hchildren, List.head?_cons, Option.bind_eq_bind, Option.bind_some, if_pos hfirst, htypes,
      List.head?_cons]
  unfold Method.ofElement
  refine Logged.failsOnly_bind_of_ok (expect_eq_ok_iff.mpr he) ?_
  refine Logged.failsOnly_bind_of_ok hname ?_
  refine Logged.failsOnly_bind (timeout_fails_only name _) fun timeout _ => ?_
  simp only [hfound]
  refine Logged.failsOnly_bind (.of_never htype) fun result _ => ?_
  rw [hchildren, List.tail_cons]
  have hparams : FailsOnly (Leftover e) (Param.ofElements name rest) := by
    refine Param.elements_fail_only name (fun child hchild => ?_) fun child hchild => ?_
    · exact ⟨h.child (hmem child (List.mem_cons_of_mem _ hchild)), hrest child hchild⟩
    · exact hmem child (List.mem_cons_of_mem _ hchild)
  refine Logged.failsOnly_bind hparams fun params _ => ?_
  exact Logged.failsOnly_bind (.ok ()) fun _ _ => .ok _

theorem section_fails_only (h : Valid interfaceDocument e) (he : e.name = Tag.methods) :
    FailsOnly (Leftover e) (Method.ofSection e).result := by
  rw [Method.ofSection, Logged.result_mapM]
  refine .mapM fun numbered hchild => ?_
  obtain ⟨child, ordinal⟩ := numbered
  have hmem : child ∈ e.children := List.fst_mem_of_mem_zipIdx hchild
  have hname : child.name ∈ [Tag.method, Tag.pollMethod] := by
    have hname : child.name ∈ [Tag.pollMethod, Tag.method] := h.childName_mem he (by rfl) hmem
    exact List.mem_pair.mpr (List.mem_pair.mp hname).symm
  exact (fails_only ordinal (h.child hmem) hname).mono fun _ => .of_child hmem

end Method

end OrbIdl.Model
