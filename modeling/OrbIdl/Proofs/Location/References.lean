import OrbIdl.Proofs.Location.Faults
import OrbIdl.Proofs.Reading.Sections

/-! # The places from which a document refers to structures -/

namespace OrbIdl.Model

open Xml

/-! ## Structures and what they refer to -/

/-- The structure refers to others from places that satisfy `P`. -/
def Structure.RefersAt (P : Span → Prop) (s : Structure) : Prop :=
  ∀ name span, (name, span) ∈ s.references → P span

def TypeDecl.ReferAt (P : Span → Prop) (types : List TypeDecl) : Prop :=
  ∀ t ∈ types, ∀ s, t.struct? = some s → s.RefersAt P

/-- The types of a section, if they have been read, refer to structures from places with `P`. -/
def Sections.ReferAt (P : Span → Prop) (s : Sections) : Prop :=
  ∀ types, s.types = some types → TypeDecl.ReferAt P types

section

variable {P : Span → Prop} {e : Element} (h : e.Spans P)
include h

theorem Member.ends (decl : String) :
    Ends (fun f => P f.span) (fun m => P m.span) (Member.ofElement decl e) := by
  unfold Member.ofElement
  split
  · refine .bind_failsOnly (namedType_faultsAt h decl) fun _ => ?_
    exact .bind_failsOnly (require_faultsAt h _) fun _ => .ok h.here
  split
  · refine .bind_failsOnly (require_faultsAt h _) fun _ => ?_
    exact .bind_failsOnly (require_faultsAt h _) fun _ => .ok h.here
  · exact .error h.here

theorem Structure.ends :
    Ends (fun f => P f.span) (Structure.RefersAt P) (Structure.ofElement e) := by
  unfold Structure.ofElement
  refine .bind_failsOnly (require_faultsAt h _) fun name => ?_
  refine .bind (.mapM fun child hchild => Member.ends (h.child hchild) name) fun members hmembers => ?_
  refine .ok ?_
  intro structName span hreference
  obtain ⟨member, hmember, hsub⟩ := List.mem_filterMap.mp hreference
  cases member with
  | field => cases hsub
  | sub =>
    cases hsub
    exact hmembers _ hmember

theorem TypeDecl.ends :
    Ends (fun f => P f.span) (fun t => ∀ s, t.struct? = some s → s.RefersAt P)
      (TypeDecl.ofElement e).result := by
  unfold TypeDecl.ofElement
  split
  · exact Logged.ends_bind (.of_fails (Enumeration.faultsAt h)) fun _ _ => .ok nofun
  split
  · refine Logged.ends_bind (Structure.ends h) fun s hs => .ok ?_
    rintro _ ⟨⟩
    exact hs
  · exact .error h.here

theorem TypeDecl.section_ends :
    Ends (fun f => P f.span) (TypeDecl.ReferAt P) (TypeDecl.ofSection e).result := by
  rw [TypeDecl.ofSection, Logged.result_mapM]
  exact .mapM fun child hchild => TypeDecl.ends (h.child hchild)

/-! ## Globals and interfaces -/

theorem Block.ends :
    Ends (fun f => P f.span) (fun b => TypeDecl.ReferAt P b.typeDecls) (Block.ofElement e).result := by
  unfold Block.ofElement
  split
  · refine Logged.ends_bind (.of_fails (Constant.section_faultsAt h)) fun cs _ => .ok ?_
    exact fun t ht => absurd ht List.not_mem_nil
  split
  · exact Logged.ends_bind (TypeDecl.section_ends h) fun types htypes => .ok htypes
  · exact .error h.here

theorem Globals.ends :
    Ends (fun f => P f.span) (fun g => TypeDecl.ReferAt P g.typeDecls)
      (Globals.ofElement e).result := by
  have hblocks : Ends (fun f => P f.span) (fun bs => ∀ b ∈ bs, TypeDecl.ReferAt P b.typeDecls)
      (e.children.mapM Block.ofElement).result := by
    rw [Logged.result_mapM]
    exact .mapM fun child hchild => Block.ends (h.child hchild)
  unfold Globals.ofElement
  refine Logged.ends_bind hblocks fun blocks hblocks => .ok ?_
  intro t ht
  obtain ⟨b, hb, ht⟩ := List.mem_flatMap.mp ht
  exact hblocks b hb t ht

/-- A section of types refers to structures from places with `P`; others do not refer to any. -/
theorem Section.ends :
    Ends (fun f => P f.span)
      (fun part => ∀ types, part = .types types → TypeDecl.ReferAt P types)
      (Section.ofElement e).result := by
  unfold Section.ofElement
  split
  · exact Logged.ends_bind (.of_fails (Constant.section_faultsAt h)) fun _ _ => .ok nofun
  split
  · refine Logged.ends_bind (TypeDecl.section_ends h) fun types htypes => .ok ?_
    rintro _ ⟨⟩
    exact htypes
  split
  · have hparams : FaultsAt P (Param.ofElements Tag.constructor e.children) :=
      Param.elements_faultAt _ fun child hchild => h.child hchild
    exact Logged.ends_bind (.of_fails hparams) fun _ _ => .ok nofun
  split
  · exact Logged.ends_bind (.of_fails (Method.section_faultsAt h)) fun _ _ => .ok nofun
  · exact .error h.here

theorem Sections.step_ends (decl : String) {s : Sections} (hs : s.ReferAt P) :
    Ends (fun f => P f.span) (Sections.ReferAt P) (s.step decl e).result := by
  unfold Sections.step
  refine Logged.ends_bind (Section.ends h) fun part hpart => ?_
  split
  · rename_i s' hadd
    refine .ok ?_
    intro types htypes
    -- Only a section of types changes what refers to structures.
    have hof := Sections.of_add? hadd
    cases part with
    | constants | constructor | methods =>
      obtain ⟨-, rfl⟩ := hof
      exact hs types htypes
    | types =>
      obtain ⟨-, rfl⟩ := hof
      exact hpart types (congrArg _ (Option.some.inj htypes))
  · exact .error h.here

theorem ClassInterface.ends :
    Ends (fun f => P f.span) (fun i => ∀ types, i.types = some types → TypeDecl.ReferAt P types)
      (ClassInterface.ofElement e).result := by
  unfold ClassInterface.ofElement
  refine Logged.ends_bind (.of_fails (require_faultsAt h _)) fun name _ => ?_
  have hsections : Ends (fun f => P f.span) (Sections.ReferAt P)
      (e.children.foldlM (Sections.step name) {}).result := by
    rw [Logged.result_foldlM]
    exact .foldlM nofun fun s hs child hchild => Sections.step_ends (h.child hchild) name hs
  refine Logged.ends_bind hsections fun s hs => ?_
  exact Logged.ends_bind (.of_fails (require_faultsAt h _)) fun _ _ => .ok hs

/-! ## Documents -/

namespace Document

omit h in
theorem span_of_danglingFrom {declared : List String} {ss : List Structure} {s : Structure}
    {name : String} {span : Span} (h : ∀ s ∈ ss, s.RefersAt P)
    (hdangling : danglingFrom declared ss = some (s, name, span)) : P span := by
  induction ss generalizing declared with
  | nil => cases hdangling
  | cons first rest ih =>
    rw [List.forall_mem_cons] at h
    rw [danglingFrom] at hdangling
    split at hdangling
    · rename_i hfind
      cases hdangling
      exact h.1 name span (List.mem_of_find?_eq_some hfind)
    · exact ih h.2 hdangling

omit h in
/-- A missing structure is reported where it is referred to. -/
theorem span_of_dangling? {d : Document} {s : Structure} {name : String} {span : Span}
    (h : TypeDecl.ReferAt P d.typeDecls) (hdangling : d.dangling? = some (s, name, span)) :
    P span := by
  refine span_of_danglingFrom ?_ hdangling
  intro s hs
  obtain ⟨t, ht, hstruct⟩ := List.mem_filterMap.mp hs
  exact h t ht s hstruct

theorem step_ends {d : Document} (hd : TypeDecl.ReferAt P d.typeDecls) :
    Ends (fun f => P f.span) (fun d => TypeDecl.ReferAt P d.typeDecls) (d.step e).result := by
  unfold step
  split
  · refine Logged.ends_bind (Globals.ends h) fun g hg => .ok ?_
    intro t ht
    obtain ht | ht := List.mem_append.mp ht
    · rw [List.flatMap_append, List.flatMap_singleton] at ht
      obtain ht | ht := List.mem_append.mp ht
      · exact hd t (List.mem_append_left _ ht)
      · exact hg t ht
    · exact hd t (List.mem_append_right _ ht)
  split
  · refine Logged.ends_bind (ClassInterface.ends h) fun i hi => ?_
    split
    · exact .error h.here
    · refine .ok ?_
      intro t ht
      obtain ht | ht := List.mem_append.mp ht
      · exact hd t (List.mem_append_left _ ht)
      · cases htypes : i.types with
        | none =>
          rw [Option.bind_some, htypes] at ht
          exact absurd ht List.not_mem_nil
        | some types =>
          rw [Option.bind_some, htypes] at ht
          exact hi types htypes t ht
  · exact .error h.here

/-- The rules that a tree breaks are reported at places of the tree. -/
theorem faultsAt : FaultsAt P (Document.ofElement e).result := by
  unfold Document.ofElement
  split
  · exact .error h.here
  have hparts : Ends (fun f => P f.span) (fun d => TypeDecl.ReferAt P d.typeDecls)
      (e.children.foldlM Document.step ⟨[], none⟩).result := by
    have hnone : TypeDecl.ReferAt P (typeDecls ⟨[], none⟩) :=
      fun t ht => absurd ht List.not_mem_nil
    rw [Logged.result_foldlM]
    exact .foldlM hnone fun d hd child hchild => step_ends (h.child hchild) hd
  refine (Logged.ends_bind (R := fun _ => True) hparts fun d hd => ?_).fails
  split
  · rename_i hdangling
    exact .error (span_of_dangling? hd hdangling)
  · exact .ok trivial

end Document

end

end OrbIdl.Model
