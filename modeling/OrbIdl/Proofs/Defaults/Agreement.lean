import OrbIdl.Proofs.Defaults.Declarations

/-! # The schema and the parser agree on defaults -/

namespace OrbIdl.Model

open Xml Schema

variable {e : Element}

/-! ## Sections -/

theorem TypeDecl.ofElement_completed (e : Element) :
    TypeDecl.ofElement (complete interfaceDocument e) = TypeDecl.ofElement e := by
  unfold TypeDecl.ofElement
  rw [name_complete, span_complete]
  refine ite_congr rfl (fun henum => ?_) fun _ => ?_
  · rw [docText?_completed henum (by decide),
      Enumeration.ofElement_completed henum]
  refine ite_congr rfl (fun hstruct => ?_) fun _ => ?_
  · rw [Structure.ofElement_completed hstruct]
  · rfl

theorem TypeDecl.ofSection_completed (he : e.name = Tag.types) :
    TypeDecl.ofSection (complete interfaceDocument e) = TypeDecl.ofSection e := by
  unfold TypeDecl.ofSection
  rw [children_completed he (by decide), mapM_completed TypeDecl.ofElement_completed]

theorem Block.ofElement_completed (e : Element) :
    Block.ofElement (complete interfaceDocument e) = Block.ofElement e := by
  unfold Block.ofElement
  rw [name_complete, span_complete]
  refine ite_congr rfl (fun hconstants => ?_) fun _ => ?_
  · rw [Constant.ofSection_completed hconstants]
  refine ite_congr rfl (fun htypes => ?_) fun _ => ?_
  · rw [TypeDecl.ofSection_completed htypes]
  · rfl

theorem Globals.ofElement_completed (he : e.name = Tag.globals) :
    Globals.ofElement (complete interfaceDocument e) = Globals.ofElement e := by
  unfold Globals.ofElement
  rw [children_completed he (by decide), mapM_completed Block.ofElement_completed, span_complete]

/-! ## The interface of a class -/

theorem Section.ofElement_completed (e : Element) :
    Section.ofElement (complete interfaceDocument e) = Section.ofElement e := by
  unfold Section.ofElement
  rw [name_complete, span_complete]
  refine ite_congr rfl (fun hconstants => ?_) fun _ => ?_
  · rw [Constant.ofSection_completed hconstants]
  refine ite_congr rfl (fun htypes => ?_) fun _ => ?_
  · rw [TypeDecl.ofSection_completed htypes]
  refine ite_congr rfl (fun hconstructor => ?_) fun _ => ?_
  · rw [children_completed hconstructor (by decide),
      Param.ofElements_completed]
  refine ite_congr rfl (fun hmethods => ?_) fun _ => ?_
  · rw [Method.ofSection_completed hmethods]
  · rfl

theorem Sections.step_completed (decl : String) (s : Sections) (e : Element) :
    s.step decl (complete interfaceDocument e) = s.step decl e := by
  unfold Sections.step
  rw [Section.ofElement_completed, name_complete, span_complete]

theorem ClassInterface.ofElement_completed (he : e.name = Tag.classInterface) :
    ClassInterface.ofElement (complete interfaceDocument e) = ClassInterface.ofElement e := by
  have hname := require_completed Key.name he (by decide)
  have hid := require_completed Key.interfaceId he (by decide)
  have hclient := getD_completed Key.clientBase defaultClientBase he
    (by decide)
  have hserver := getD_completed Key.serverBase defaultServerBase he
    (by decide)
  unfold ClassInterface.ofElement
  simp only [hname, hid, hclient, hserver, children_completed he (by decide),
    foldlM_completed (Sections.step_completed _), span_complete]

/-! ## Documents -/

theorem Document.step_completed (d : Document) (e : Element) :
    d.step (complete interfaceDocument e) = d.step e := by
  unfold Document.step
  rw [name_complete, span_complete]
  refine ite_congr rfl (fun hglobals => ?_) fun _ => ?_
  · rw [Globals.ofElement_completed hglobals]
  refine ite_congr rfl (fun hclass => ?_) fun _ => ?_
  · rw [ClassInterface.ofElement_completed hclass]
  · rfl

/-- Whether or not validation has filled in the defaults of the schema, and whatever it has found,
a tree is read as the same document or refused for the same reason at the same place. -/
theorem parse_after_validate (e : Element) :
    Document.ofElement (validate interfaceDocument e).1 = Document.ofElement e := by
  show Document.ofElement (complete interfaceDocument e) = Document.ofElement e
  unfold Document.ofElement
  rw [name_complete, span_complete]
  refine ite_congr rfl (fun _ => rfl) fun he => ?_
  have hroot : e.name = Tag.interface := Decidable.not_not.mp he
  rw [children_completed hroot (by decide), foldlM_completed Document.step_completed]

end OrbIdl.Model
