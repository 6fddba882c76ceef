import OrbIdl.Proofs.Reading.Sections

/-!
# When the sections of a document are read

Sections are read one after the other. That all of them are read comes to this: each is globals or
the interface of a class, there is one interface at most, and each is read on its own.
-/

namespace OrbIdl.Model

open Xml

/-- The sections of the document `root` are read, and `d` holds them. -/
structure Document.ReadFrom (d : Document) (root : Element) : Prop where
  name : root.name = Tag.interface
  tags : ∀ e ∈ root.children, e.name ∈ [Tag.globals, Tag.classInterface]
  parts : d.Holds root.children

namespace Document

variable {e root : Element} {d : Document}

/-! ## One section -/

theorem step_globals {g : Globals} (hname : e.name = Tag.globals)
    (hg : (Globals.ofElement e).result = .ok g) :
    (d.step e).result = .ok { d with globals := d.globals ++ [g] } := by
  unfold step
  rw [if_pos hname, Logged.result_bind, hg]
  rfl

theorem step_classInterface {i : ClassInterface} (hname : e.name = Tag.classInterface)
    (hi : (ClassInterface.ofElement e).result = .ok i) (hfree : d.classInterface = none) :
    (d.step e).result = .ok { d with classInterface := some i } := by
  have hglobals : e.name ≠ Tag.globals := by
    rw [hname]
    decide
  unfold step
  rw [if_neg hglobals, if_pos hname, Logged.result_bind, hi, hfree]
  rfl

theorem name_of_step {d' : Document} (h : (d.step e).result = .ok d') :
    e.name ∈ [Tag.globals, Tag.classInterface] := by
  unfold step at h
  split at h
  · simp [*]
  split at h
  · simp [*]
  · cases h

/-! ## All sections -/

theorem foldlM_step {es : List Element} {gs : List Globals} {slot : Option ClassInterface}
    (htags : ∀ e ∈ es, e.name ∈ [Tag.globals, Tag.classInterface])
    (hglobals : List.Forall₂ (fun e g => (Globals.ofElement e).result = .ok g)
      (es.filter (·.name == Tag.globals)) gs)
    (hinterface : List.Forall₂ (fun e i => (ClassInterface.ofElement e).result = .ok i)
      (es.filter (·.name == Tag.classInterface)) slot.toList)
    (hfree : slot ≠ none → d.classInterface = none) :
    es.foldlM (fun d e => (step d e).result) d =
      .ok ⟨d.globals ++ gs, slot.or d.classInterface⟩ := by
  induction es generalizing d gs slot with
  | nil =>
    cases hglobals
    cases slot with
    | none => simp [pure, Except.pure]
    | some i => cases hinterface
  | cons e es ih =>
    rw [List.forall_mem_cons] at htags
    obtain ⟨hname, htags⟩ := htags
    obtain hname | hname := List.mem_pair.mp hname
    · rw [List.filter_cons_of_pos (by simp [hname])] at hglobals
      rw [List.filter_cons_of_neg (by rw [hname]; decide)] at hinterface
      cases hglobals with
      | @cons _ g _ gs hg hglobals =>
        have hrest := @ih { d with globals := d.globals ++ [g] } gs slot htags hglobals hinterface
          hfree
        rw [List.append_assoc] at hrest
        rw [List.foldlM_cons, step_globals hname hg]
        exact hrest
    · rw [List.filter_cons_of_neg (by rw [hname]; decide)] at hglobals
      rw [List.filter_cons_of_pos (by simp [hname])] at hinterface
      cases slot with
      | none => cases hinterface
      | some i =>
        cases hinterface with
        | cons hi hinterface =>
          rw [List.foldlM_cons, step_classInterface hname hi (hfree (by simp))]
          exact @ih { d with classInterface := some i } gs none htags hglobals hinterface
            fun hslot => absurd rfl hslot

theorem readFrom_iff :
    d.ReadFrom root ↔
      root.name = Tag.interface ∧ (root.children.foldlM step ⟨[], none⟩).result = .ok d := by
  rw [Logged.result_foldlM]
  constructor
  · intro h
    refine ⟨h.name, ?_⟩
    rw [foldlM_step h.tags h.parts.globals h.parts.classInterface fun _ => rfl]
    simp
  · rintro ⟨hname, h⟩
    have hinvariant := foldlM_invariant
      (fun es d => (∀ e ∈ es, e.name ∈ [Tag.globals, Tag.classInterface]) ∧ Document.Holds d es)
      ⟨nofun, .nil, .nil⟩ (fun done _ e _ hdone hstep => ?_) h
    · exact ⟨hname, hinvariant.1, hinvariant.2⟩
    · rw [List.forall_mem_append, List.forall_mem_singleton]
      exact ⟨⟨hdone.1, name_of_step hstep⟩, hdone.2.step hstep⟩

/-- Once its sections are read, a document stands or falls with its references to structures. -/
theorem result_of_readFrom (h : d.ReadFrom root) :
    (ofElement root).result = match d.dangling? with
      | some (s, name, span) => .error (.malformed s.name (.unknownStruct name) span)
      | none => .ok d := by
  obtain ⟨hname, hsections⟩ := readFrom_iff.mp h
  unfold ofElement
  rw [if_neg (not_not.mpr hname), Logged.result_bind, hsections]
  dsimp only [bind, Except.bind]
  cases d.dangling? <;> rfl

theorem readFrom_of_ofElement (h : (ofElement root).result = .ok d) : d.ReadFrom root := by
  unfold ofElement at h
  split at h
  · cases h
  rename_i hname
  obtain ⟨d', hsections, h⟩ := Logged.bind_ok_iff.mp h
  split at h
  · cases h
  · cases h
    exact readFrom_iff.mpr ⟨not_not.mp hname, hsections⟩

end Document

end OrbIdl.Model
