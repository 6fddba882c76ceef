import OrbIdl.Model.Document
import OrbIdl.Proofs.Results

/-! # What is read from each section of a document -/

namespace OrbIdl.Model

open Xml

variable {e : Element}

/-! ## Blocks -/

theorem require_eq_ok_iff {key value : String} :
    require e key = .ok value ↔ e.get? key = some value := by
  unfold require Element.require
  cases e.get? key <;> simp [Except.mapError]

theorem expect_eq_ok_iff {names : List String} : expect e names = .ok () ↔ e.name ∈ names := by
  simp [expect]

theorem Constant.of_ofSection {cs : List Constant} (h : Constant.ofSection e = .ok cs) :
    List.Forall₂ (fun child c => child.name = Tag.constant ∧ Constant.ofElement child = .ok c)
      e.children cs := by
  refine (mapM_eq_ok_iff.mp h).imp fun child c hc => ?_
  obtain ⟨_, hname, hc⟩ := bind_eq_ok_iff.mp hc
  exact ⟨List.mem_singleton.mp (expect_eq_ok_iff.mp hname), hc⟩

theorem TypeDecl.of_ofElement {t : TypeDecl} (h : (TypeDecl.ofElement e).result = .ok t) :
    (e.name = Tag.enumeration ∧ ∃ info, (Enumeration.ofElement e).result = .ok info ∧
      t = .enumeration (docText? e) info) ∨
    (e.name = Tag.struct ∧ ∃ info, Structure.ofElement e = .ok info ∧ t = .struct info) := by
  unfold TypeDecl.ofElement at h
  split at h
  · rename_i hname
    obtain ⟨info, hinfo, h⟩ := Logged.bind_ok_iff.mp h
    cases h
    exact Or.inl ⟨hname, info, hinfo, rfl⟩
  split at h
  · rename_i hname
    obtain ⟨info, hinfo, h⟩ := Logged.bind_ok_iff.mp h
    cases h
    exact Or.inr ⟨hname, info, hinfo, rfl⟩
  · cases h

theorem TypeDecl.of_ofSection {ts : List TypeDecl} (h : (TypeDecl.ofSection e).result = .ok ts) :
    List.Forall₂ (fun child t => (TypeDecl.ofElement child).result = .ok t) e.children ts := by
  rw [TypeDecl.ofSection, Logged.result_mapM] at h
  exact mapM_eq_ok_iff.mp h

/-- A method has its name and its mark from its element, and its ordinal from its place. -/
theorem Method.of_ofElement {n : Nat} {m : Method} (h : (Method.ofElement n e).result = .ok m) :
    e.get? Key.name = some m.name ∧ m.inBaseClass = isYes e Key.inBaseClass ∧ m.ordinal = n := by
  unfold Method.ofElement at h
  obtain ⟨_, _, h⟩ := Logged.bind_ok_iff.mp h
  obtain ⟨name, hname, h⟩ := Logged.bind_ok_iff.mp h
  obtain ⟨_, _, h⟩ := Logged.bind_ok_iff.mp h
  split at h
  · obtain ⟨_, _, h⟩ := Logged.bind_ok_iff.mp h
    obtain ⟨_, _, h⟩ := Logged.bind_ok_iff.mp h
    obtain ⟨_, _, h⟩ := Logged.bind_ok_iff.mp h
    cases h
    exact ⟨require_eq_ok_iff.mp hname, rfl, rfl⟩
  · cases h

theorem Method.ordinal_of_ofElement {n : Nat} {m : Method}
    (h : (Method.ofElement n e).result = .ok m) : m.ordinal = n :=
  (Method.of_ofElement h).2.2

theorem Method.of_ofSection {ms : List Method} (h : (Method.ofSection e).result = .ok ms) :
    List.Forall₂ (fun child m => (Method.ofElement child.2 child.1).result = .ok m)
      e.children.zipIdx ms := by
  rw [Method.ofSection, Logged.result_mapM] at h
  exact mapM_eq_ok_iff.mp h

theorem Block.of_ofElement {b : Block} (h : (Block.ofElement e).result = .ok b) :
    (e.name = Tag.constants ∧ ∃ cs, Constant.ofSection e = .ok cs ∧ b = .constants cs) ∨
    (e.name = Tag.types ∧ ∃ ts, (TypeDecl.ofSection e).result = .ok ts ∧ b = .types ts) := by
  unfold Block.ofElement at h
  split at h
  · rename_i hname
    obtain ⟨cs, hcs, h⟩ := Logged.bind_ok_iff.mp h
    cases h
    exact Or.inl ⟨hname, cs, hcs, rfl⟩
  split at h
  · rename_i hname
    obtain ⟨ts, hts, h⟩ := Logged.bind_ok_iff.mp h
    cases h
    exact Or.inr ⟨hname, ts, hts, rfl⟩
  · cases h

theorem Globals.of_ofElement {g : Globals} (h : (Globals.ofElement e).result = .ok g) :
    List.Forall₂ (fun child b => (Block.ofElement child).result = .ok b) e.children g.blocks := by
  obtain ⟨blocks, hblocks, h⟩ := Logged.bind_ok_iff.mp h
  cases h
  rw [Logged.result_mapM] at hblocks
  exact mapM_eq_ok_iff.mp hblocks

/-! ## Elements of a name among those read so far -/

section

variable {α : Type} {R : Element → α → Prop} {es : List Element} {xs : List α} {tag : String}

theorem forall₂_named_add {x : α} (h : List.Forall₂ R (es.filter (·.name == tag)) xs)
    (hname : e.name = tag) (hx : R e x) :
    List.Forall₂ R ((es ++ [e]).filter (·.name == tag)) (xs ++ [x]) := by
  rw [List.filter_append, List.filter_singleton, hname, beq_self_eq_true]
  exact List.rel_append h (.cons hx .nil)

theorem forall₂_named_skip (h : List.Forall₂ R (es.filter (·.name == tag)) xs)
    (hname : e.name ≠ tag) : List.Forall₂ R ((es ++ [e]).filter (·.name == tag)) xs := by
  rwa [List.filter_append, List.filter_singleton, beq_eq_false_iff_ne.mpr hname,
    cond_false, List.append_nil]

/-- The only element of its name goes into a slot that is free. -/
theorem forall₂_named_fill {slot : Option α} {x : α}
    (h : List.Forall₂ R (es.filter (·.name == tag)) slot.toList) (hslot : slot = none)
    (hname : e.name = tag) (hx : R e x) :
    List.Forall₂ R ((es ++ [e]).filter (·.name == tag)) (some x).toList := by
  rw [hslot] at h
  exact forall₂_named_add h hname hx

/-- A slot is filled from the only element, or there is none and it is free. -/
theorem slot_cases {slot : Option α} (h : List.Forall₂ R es slot.toList) :
    (es = [] ∧ slot = none) ∨ ∃ e x, es = [e] ∧ slot = some x ∧ R e x := by
  cases slot with
  | none =>
    cases h
    exact Or.inl ⟨rfl, rfl⟩
  | some x =>
    cases h with
    | cons hx hrest =>
      cases hrest
      exact Or.inr ⟨_, x, rfl, rfl, hx⟩

theorem length_le_one_of_slot {slot : Option α} (h : List.Forall₂ R es slot.toList) :
    es.length ≤ 1 := by
  obtain ⟨rfl, _⟩ | ⟨e, x, rfl, _⟩ := slot_cases h
  · exact Nat.zero_le 1
  · exact Nat.le_refl 1

/-- What fills a slot has been read from an element of its name. -/
theorem exists_named_of_slot {slot : Option α}
    (h : List.Forall₂ R (es.filter (·.name == tag)) slot.toList) (hslot : slot ≠ none) :
    ∃ e ∈ es, e.name = tag := by
  obtain ⟨_, hnone⟩ | ⟨e, x, hes, _⟩ := slot_cases h
  · exact absurd hnone hslot
  · have hmem : e ∈ es.filter (·.name == tag) := by
      rw [hes]
      exact List.mem_singleton_self e
    obtain ⟨he, hname⟩ := List.mem_filter.mp hmem
    exact ⟨e, he, beq_iff_eq.mp hname⟩

end

/-! ## The interface of a class -/

/-- The sections of each kind among `es`, one at most, are what `s` holds. -/
structure Sections.Holds (s : Sections) (es : List Element) : Prop where
  constants : List.Forall₂ (fun e cs => Constant.ofSection e = .ok cs)
    (es.filter (·.name == Tag.constants)) s.constants.toList
  types : List.Forall₂ (fun e ts => (TypeDecl.ofSection e).result = .ok ts)
    (es.filter (·.name == Tag.types)) s.types.toList
  constructor : List.Forall₂ (fun e ps => Param.ofElements Tag.constructor e.children = .ok ps)
    (es.filter (·.name == Tag.constructor)) s.constructor.toList
  methods : List.Forall₂ (fun e ms => (Method.ofSection e).result = .ok ms)
    (es.filter (·.name == Tag.methods)) s.methods.toList

/-- The kind of a section is the name of its element. -/
theorem Section.of_ofElement {part : Section} (h : (Section.ofElement e).result = .ok part) :
    (e.name = Tag.constants ∧ ∃ cs, Constant.ofSection e = .ok cs ∧ part = .constants cs) ∨
    (e.name = Tag.types ∧ ∃ ts, (TypeDecl.ofSection e).result = .ok ts ∧ part = .types ts) ∨
    (e.name = Tag.constructor ∧ ∃ ps, Param.ofElements Tag.constructor e.children = .ok ps ∧
      part = .constructor ps) ∨
    (e.name = Tag.methods ∧ ∃ ms, (Method.ofSection e).result = .ok ms ∧ part = .methods ms) := by
  unfold Section.ofElement at h
  split at h
  · rename_i hname
    obtain ⟨cs, hcs, h⟩ := Logged.bind_ok_iff.mp h
    cases h
    exact Or.inl ⟨hname, cs, hcs, rfl⟩
  split at h
  · rename_i hname
    obtain ⟨ts, hts, h⟩ := Logged.bind_ok_iff.mp h
    cases h
    exact Or.inr (Or.inl ⟨hname, ts, hts, rfl⟩)
  split at h
  · rename_i hname
    obtain ⟨ps, hps, h⟩ := Logged.bind_ok_iff.mp h
    cases h
    exact Or.inr (Or.inr (Or.inl ⟨hname, ps, hps, rfl⟩))
  split at h
  · rename_i hname
    obtain ⟨ms, hms, h⟩ := Logged.bind_ok_iff.mp h
    cases h
    exact Or.inr (Or.inr (Or.inr ⟨hname, ms, hms, rfl⟩))
  · cases h

/-- A section goes into the slot of its kind, which has to be free. -/
theorem Sections.of_add? {s s' : Sections} {part : Section} (h : s.add? part = some s') :
    match part with
    | .constants cs => s.constants = none ∧ { s with constants := some cs } = s'
    | .types ts => s.types = none ∧ { s with types := some ts } = s'
    | .constructor ps => s.constructor = none ∧ { s with constructor := some ps } = s'
    | .methods ms => s.methods = none ∧ { s with methods := some ms } = s' := by
  cases part <;>
    simpa only [Sections.add?, Option.ite_none_left_eq_some, Option.not_isSome_iff_eq_none,
      Option.some.injEq] using h

theorem Sections.Holds.step {decl : String} {s s' : Sections} {es : List Element}
    (hs : s.Holds es) (h : (s.step decl e).result = .ok s') : s'.Holds (es ++ [e]) := by
  obtain ⟨part, hpart, h⟩ := Logged.bind_ok_iff.mp h
  have hadd : s.add? part = some s' := by
    split at h
    · cases h
      assumption
    · cases h
  obtain ⟨hname, cs, hcs, rfl⟩ | ⟨hname, ts, hts, rfl⟩ | ⟨hname, ps, hps, rfl⟩ |
    ⟨hname, ms, hms, rfl⟩ := Section.of_ofElement hpart
  · obtain ⟨hfree, rfl⟩ := Sections.of_add? hadd
    exact {
      constants := forall₂_named_fill hs.constants hfree hname hcs
      types := forall₂_named_skip hs.types (by rw [hname]; decide)
      constructor := forall₂_named_skip hs.constructor (by rw [hname]; decide)
      methods := forall₂_named_skip hs.methods (by rw [hname]; decide) }
  · obtain ⟨hfree, rfl⟩ := Sections.of_add? hadd
    exact {
      constants := forall₂_named_skip hs.constants (by rw [hname]; decide)
      types := forall₂_named_fill hs.types hfree hname hts
      constructor := forall₂_named_skip hs.constructor (by rw [hname]; decide)
      methods := forall₂_named_skip hs.methods (by rw [hname]; decide) }
  · obtain ⟨hfree, rfl⟩ := Sections.of_add? hadd
    exact {
      constants := forall₂_named_skip hs.constants (by rw [hname]; decide)
      types := forall₂_named_skip hs.types (by rw [hname]; decide)
      constructor := forall₂_named_fill hs.constructor hfree hname hps
      methods := forall₂_named_skip hs.methods (by rw [hname]; decide) }
  · obtain ⟨hfree, rfl⟩ := Sections.of_add? hadd
    exact {
      constants := forall₂_named_skip hs.constants (by rw [hname]; decide)
      types := forall₂_named_skip hs.types (by rw [hname]; decide)
      constructor := forall₂_named_skip hs.constructor (by rw [hname]; decide)
      methods := forall₂_named_fill hs.methods hfree hname hms }

/-- An interface is made of its attributes and of the sections found among its children. -/
theorem ClassInterface.of_ofElement {i : ClassInterface}
    (h : (ClassInterface.ofElement e).result = .ok i) :
    e.get? Key.name = some i.name ∧ e.get? Key.interfaceId = some i.id ∧ i.span = e.span ∧
    ∃ s : Sections, s.Holds e.children ∧ i.constants = s.constants.getD [] ∧ i.types = s.types ∧
      i.constructor = s.constructor.getD [] ∧ i.methods = s.methods.getD [] := by
  obtain ⟨name, hname, h⟩ := Logged.bind_ok_iff.mp h
  obtain ⟨s, hs, h⟩ := Logged.bind_ok_iff.mp h
  obtain ⟨id, hid, h⟩ := Logged.bind_ok_iff.mp h
  rw [Logged.result_foldlM] at hs
  have hholds : s.Holds e.children :=
    foldlM_invariant (fun es s => Sections.Holds s es) ⟨.nil, .nil, .nil, .nil⟩
      (fun _ _ _ _ hdone hstep => hdone.step hstep) hs
  cases h
  exact ⟨require_eq_ok_iff.mp hname, require_eq_ok_iff.mp hid, rfl, s, hholds, rfl, rfl, rfl, rfl⟩

/-! ## Documents -/

/-- The parts of a document are read from the children of its root, in order. -/
structure Document.Holds (d : Document) (es : List Element) : Prop where
  globals : List.Forall₂ (fun e g => (Globals.ofElement e).result = .ok g)
    (es.filter (·.name == Tag.globals)) d.globals
  classInterface : List.Forall₂ (fun e i => (ClassInterface.ofElement e).result = .ok i)
    (es.filter (·.name == Tag.classInterface)) d.classInterface.toList

theorem Document.Holds.step {d d' : Document} {es : List Element} (hd : d.Holds es)
    (h : (d.step e).result = .ok d') : d'.Holds (es ++ [e]) := by
  unfold Document.step at h
  split at h
  · rename_i hname
    obtain ⟨g, hg, h⟩ := Logged.bind_ok_iff.mp h
    cases h
    exact {
      globals := forall₂_named_add hd.globals hname hg
      classInterface := forall₂_named_skip hd.classInterface (by rw [hname]; decide) }
  split at h
  · rename_i hname
    obtain ⟨i, hi, h⟩ := Logged.bind_ok_iff.mp h
    split at h
    · cases h
    · rename_i hfree
      cases h
      exact {
        globals := forall₂_named_skip hd.globals (by rw [hname]; decide)
        classInterface := forall₂_named_fill hd.classInterface
          (Option.not_isSome_iff_eq_none.mp hfree) hname hi }
  · cases h

theorem Document.of_ofElement {d : Document} (h : (Document.ofElement e).result = .ok d) :
    d.Holds e.children := by
  unfold Document.ofElement at h
  split at h
  · cases h
  obtain ⟨d', hd', h⟩ := Logged.bind_ok_iff.mp h
  rw [Logged.result_foldlM] at hd'
  have hholds : d'.Holds e.children :=
    foldlM_invariant (fun es d => Document.Holds d es) ⟨.nil, .nil⟩
      (fun _ _ _ _ hdone hstep => hdone.step hstep) hd'
  split at h
  · cases h
  · cases h
    exact hholds

end OrbIdl.Model
