import OrbIdl.Proofs.Conformance.Validation
import OrbIdl.Proofs.Defaults.Validity
import OrbIdl.Proofs.Valid.Enumerations
import OrbIdl.Proofs.Valid.Methods

/-! # Documents that the schema accepts -/

namespace OrbIdl.Model

open Xml Schema

variable {e : Element}

/-! ## Sections -/

theorem TypeDecl.fails_only (h : Valid interfaceDocument e)
    (he : e.name ∈ [Tag.enumeration, Tag.struct]) :
    FailsOnly (Leftover e) (TypeDecl.ofElement e).result := by
  unfold TypeDecl.ofElement
  by_cases henum : e.name = Tag.enumeration
  · rw [if_pos henum]
    exact Logged.failsOnly_bind (Enumeration.fails_only h henum) fun _ _ => .ok _
  · have hstruct : e.name = Tag.struct := by simpa [henum] using he
    rw [if_neg henum, if_pos hstruct]
    exact Logged.failsOnly_bind (.of_never (Structure.never_fails h hstruct)) fun _ _ => .ok _

theorem TypeDecl.section_fails_only (h : Valid interfaceDocument e) (he : e.name = Tag.types) :
    FailsOnly (Leftover e) (TypeDecl.ofSection e).result := by
  rw [TypeDecl.ofSection, Logged.result_mapM]
  refine .mapM fun child hchild => ?_
  have hname : child.name ∈ [Tag.enumeration, Tag.struct] := h.childName_mem he (by rfl) hchild
  exact (TypeDecl.fails_only (h.child hchild) hname).mono fun _ => .of_child hchild

theorem Block.fails_only (h : Valid interfaceDocument e)
    (he : e.name ∈ [Tag.constants, Tag.types]) :
    FailsOnly (Leftover e) (Block.ofElement e).result := by
  unfold Block.ofElement
  by_cases hconstants : e.name = Tag.constants
  · rw [if_pos hconstants]
    have hread := Constant.ofSection_never_fails h hconstants
    exact Logged.failsOnly_bind (.of_never hread) fun _ _ => .ok _
  · have htypes : e.name = Tag.types := by simpa [hconstants] using he
    rw [if_neg hconstants, if_pos htypes]
    exact Logged.failsOnly_bind (TypeDecl.section_fails_only h htypes) fun _ _ => .ok _

theorem Globals.fails_only (h : Valid interfaceDocument e) (he : e.name = Tag.globals) :
    FailsOnly (Leftover e) (Globals.ofElement e).result := by
  have hblocks : FailsOnly (Leftover e) (e.children.mapM Block.ofElement).result := by
    rw [Logged.result_mapM]
    refine .mapM fun child hchild => ?_
    have hname : child.name ∈ [Tag.constants, Tag.types] := h.childName_mem he (by rfl) hchild
    exact (Block.fails_only (h.child hchild) hname).mono fun _ => .of_child hchild
  exact Logged.failsOnly_bind hblocks fun _ _ => .ok _

theorem Section.fails_only (h : Valid interfaceDocument e)
    (he : e.name ∈ [Tag.constants, Tag.types, Tag.constructor, Tag.methods]) :
    FailsOnly (Leftover e) (Section.ofElement e).result := by
  unfold Section.ofElement
  by_cases hconstants : e.name = Tag.constants
  · rw [if_pos hconstants]
    have hread := Constant.ofSection_never_fails h hconstants
    exact Logged.failsOnly_bind (.of_never hread) fun _ _ => .ok _
  rw [if_neg hconstants]
  by_cases htypes : e.name = Tag.types
  · rw [if_pos htypes]
    exact Logged.failsOnly_bind (TypeDecl.section_fails_only h htypes) fun _ _ => .ok _
  rw [if_neg htypes]
  by_cases hconstructor : e.name = Tag.constructor
  · rw [if_pos hconstructor]
    refine Logged.failsOnly_bind ?_ fun _ _ => .ok _
    refine Param.elements_fail_only Tag.constructor (fun child hchild => ?_) fun _ hchild => hchild
    have hname : child.name ∈ [Tag.param] := h.childName_mem hconstructor (by rfl) hchild
    exact ⟨h.child hchild, List.mem_singleton.mp hname⟩
  rw [if_neg hconstructor]
  have hmethods : e.name = Tag.methods := by simpa [hconstants, htypes, hconstructor] using he
  rw [if_pos hmethods]
  exact Logged.failsOnly_bind (Method.section_fails_only h hmethods) fun _ _ => .ok _

/-! ## The interface of a class -/

/-- A section is refused only after one of the same name. -/
theorem Sections.Holds.exists_of_add?_eq_none {s : Sections} {done : List Element} {part : Section}
    (hs : s.Holds done) (hpart : (Section.ofElement e).result = .ok part)
    (h : s.add? part = none) : ∃ earlier ∈ done, earlier.name = e.name := by
  obtain ⟨hname, cs, _, rfl⟩ | ⟨hname, ts, _, rfl⟩ | ⟨hname, ps, _, rfl⟩ | ⟨hname, ms, _, rfl⟩ :=
    Section.of_ofElement hpart
  · exact hname ▸ exists_named_of_slot hs.constants (by simpa [Sections.add?] using h)
  · exact hname ▸ exists_named_of_slot hs.types (by simpa [Sections.add?] using h)
  · exact hname ▸ exists_named_of_slot hs.constructor (by simpa [Sections.add?] using h)
  · exact hname ▸ exists_named_of_slot hs.methods (by simpa [Sections.add?] using h)

theorem ClassInterface.fails_only (h : Valid interfaceDocument e)
    (he : e.name = Tag.classInterface) :
    FailsOnly (Leftover e) (ClassInterface.ofElement e).result := by
  obtain ⟨name, hname, _⟩ := require_of_valid h he Key.name (by rfl) rfl
  obtain ⟨id, hid, _⟩ := require_of_valid h he Key.interfaceId (by rfl) rfl
  have hsections : FailsOnly (Leftover e) (e.children.foldlM (Sections.step name) {}).result := by
    rw [Logged.result_foldlM]
    refine .foldlM (fun done s => Sections.Holds s done) ⟨.nil, .nil, .nil, .nil⟩
      (fun _ _ _ _ hdone hstep => hdone.step hstep) fun done s child rest hsplit hdone => ?_
    have hmem : child ∈ e.children := by simp [hsplit]
    have hlisted : child.name ∈ [Tag.constants, Tag.types, Tag.constructor, Tag.methods] :=
      h.childName_mem he (by rfl) hmem
    have hread := (Section.fails_only (h.child hmem) hlisted).mono fun _ => Leftover.of_child hmem
    unfold Sections.step
    refine Logged.failsOnly_bind hread fun part hpart => ?_
    split
    · exact .ok _
    · -- The names of the sections are different.
      rename_i hadd
      obtain ⟨earlier, hearlier, hsame⟩ := hdone.exists_of_add?_eq_none hpart hadd
      have hnodup := sections_nodup_of_valid h he
      rw [childNames, hsplit, List.map_append, List.nodup_append] at hnodup
      refine absurd hsame (hnodup.2.2 _ (List.mem_map_of_mem hearlier) _ ?_)
      exact List.mem_map_of_mem List.mem_cons_self
  unfold ClassInterface.ofElement
  refine Logged.failsOnly_bind_of_ok hname ?_
  refine Logged.failsOnly_bind hsections fun s _ => ?_
  exact Logged.failsOnly_bind_of_ok hid (.ok _)

/-! ## Documents -/

/-- What a tree that follows the schema is read as, unless it breaks a rule that no schema can
state. -/
theorem Document.fails_only (h : Valid interfaceDocument e) :
    FailsOnly (Leftover e) (Document.ofElement e).result := by
  unfold Document.ofElement
  by_cases he : e.name = Tag.interface
  · rw [if_neg (not_not.mpr he)]
    have hdocument :
        FailsOnly (Leftover e) (e.children.foldlM Document.step ⟨[], none⟩).result := by
      rw [Logged.result_foldlM]
      refine .foldlM (fun done d => Document.Holds d done) ⟨.nil, .nil⟩
        (fun _ _ _ _ hdone hstep => hdone.step hstep) fun done d child rest hsplit hdone => ?_
      have hmem : child ∈ e.children := by simp [hsplit]
      have hlisted : child.name ∈ [Tag.globals, Tag.classInterface] :=
        h.childName_mem he (by rfl) hmem
      unfold Document.step
      by_cases hglobals : child.name = Tag.globals
      · rw [if_pos hglobals]
        have hread := (Globals.fails_only (h.child hmem) hglobals).mono
          fun _ => Leftover.of_child hmem
        exact Logged.failsOnly_bind hread fun _ _ => .ok _
      · have hclass : child.name = Tag.classInterface := by simpa [hglobals] using hlisted
        rw [if_neg hglobals, if_pos hclass]
        have hread := (ClassInterface.fails_only (h.child hmem) hclass).mono
          fun _ => Leftover.of_child hmem
        refine Logged.failsOnly_bind hread fun i _ => ?_
        have hfree : d.classInterface = none := by
          -- An earlier interface would be among the globals.
          by_contra hslot
          obtain ⟨earlier, hearlier, hname⟩ := exists_named_of_slot hdone.classInterface hslot
          have hlast := interfaceChildren_of_valid h he
          rw [childNames, hsplit, List.map_append, List.pairwise_append] at hlast
          have hglobals : earlier.name = Tag.globals :=
            hlast.2.2 _ (List.mem_map_of_mem hearlier) _ (List.mem_map_of_mem List.mem_cons_self)
          rw [hname] at hglobals
          exact absurd hglobals (by decide)
        rw [if_neg (by rw [hfree]; decide)]
        exact .ok _
    refine Logged.failsOnly_bind hdocument fun d _ => ?_
    split
    · exact .error (.of_malformed _ _ rfl nofun)
    · exact .ok _
  · rw [if_pos he]
    exact .error (.of_malformed e.name _ rfl nofun)

/-- When validation finds nothing wrong, the tree that it leaves is read as a document or refused
for a reason that is beyond the schema: never for an element, a keyword or the name of a type. -/
theorem fails_only_beyond_schema (root : Element) (f : Fault)
    (hvalid : (validate interfaceDocument root).2 = [])
    (hfault : (Document.ofElement (validate interfaceDocument root).1).result = .error f) :
    f.beyondSchema = true := by
  have hnone : (validate interfaceDocument (complete interfaceDocument root)).2 = [] := by
    rw [violations_complete coherent_interfaceDocument, hvalid]
  have hcompleted : Valid interfaceDocument (complete interfaceDocument root) := by
    rw [valid_iff, ← (lists_validate _ _).eq_nil_iff]
    exact hnone
  exact (Document.fails_only hcompleted f hfault).beyondSchema

/-- An enumeration that wants alternate texts, with a value that has none. -/
def untitledValue : Element :=
  let span : Span := ⟨0, 0⟩
  let value : Element := ⟨Tag.enumValue, span, [⟨Key.name, "Red", span, false⟩], "", []⟩
  let enumeration : Element := ⟨Tag.enumeration, span,
    [⟨Key.name, "Colour", span, false⟩, ⟨Key.altTextSource, "Inline", span, false⟩], "", [value]⟩
  let types : Element := ⟨Tag.types, span, [], "", [enumeration]⟩
  let globals : Element := ⟨Tag.globals, span, [], "", [types]⟩
  ⟨Tag.interface, span, [], "", [globals]⟩

theorem untitledValue_beyond_schema :
    (validate interfaceDocument untitledValue).2 = [] ∧
    (Document.ofElement (validate interfaceDocument untitledValue).1).result =
      .error (.malformed Tag.enumValue (.missingAttribute Key.altText) ⟨0, 0⟩) ∧
    (Fault.malformed Tag.enumValue (.missingAttribute Key.altText) ⟨0, 0⟩).beyondSchema = true := by
  have hvalid : (validate interfaceDocument untitledValue).2 = [] := by decide +kernel
  have hfault : (Document.ofElement (validate interfaceDocument untitledValue).1).result =
      .error (.malformed Tag.enumValue (.missingAttribute Key.altText) ⟨0, 0⟩) := by decide +kernel
  exact ⟨hvalid, hfault, fails_only_beyond_schema untitledValue _ hvalid hfault⟩

end OrbIdl.Model
