import OrbIdl.Proofs.Valid.Demanded

/-!
# Types in their positions

The readers of parameters, results, constants and members take no type that may not stand there.
The reader of an enumeration does not look: its base is whatever type the document names.
-/

namespace OrbIdl.Model

open Xml Schema

/-! ## Uses -/

/-- A type in a position that takes one. -/
structure TypeUse where
  position : Position
  type : DataType
deriving DecidableEq

namespace TypeUse

/-- The type is one of those for the position. -/
def Stands (u : TypeUse) : Prop :=
  u.type.standsAt u.position = true

/-- The position is one whose reader looks at the type. -/
structure Checked (u : TypeUse) : Prop where
  position : u.position ≠ .enumBase
  stands : u.Stands

end TypeUse

def Param.typeUses (p : Param) : List TypeUse :=
  [⟨.param, p.type.type⟩]

def Method.typeUses (m : Method) : List TypeUse :=
  ⟨.result, m.result.type⟩ :: m.params.flatMap (·.typeUses)

def Constant.typeUses (c : Constant) : List TypeUse :=
  [⟨.constant, c.type⟩]

def Member.typeUses : Member → List TypeUse
  | field _ type _ => [⟨.constant, type⟩]
  | sub .. => []

def TypeDecl.typeUses : TypeDecl → List TypeUse
  | enumeration _ info => info.base.toList.map (⟨.enumBase, ·⟩)
  | struct info => info.members.flatMap (·.typeUses)

def Block.typeUses : Block → List TypeUse
  | constants cs => cs.flatMap (·.typeUses)
  | types ts => ts.flatMap (·.typeUses)

def Globals.typeUses (g : Globals) : List TypeUse :=
  g.blocks.flatMap (·.typeUses)

def ClassInterface.typeUses (i : ClassInterface) : List TypeUse :=
  i.constants.flatMap (·.typeUses) ++ (i.types.getD []).flatMap (·.typeUses) ++
    i.constructor.flatMap (·.typeUses) ++ i.methods.flatMap (·.typeUses)

/-- Every type of a document, with its position. -/
def Document.typeUses (d : Document) : List TypeUse :=
  d.globals.flatMap (·.typeUses) ++ d.classInterface.toList.flatMap (·.typeUses)

/-! ## Where uses come from -/

/-- A use in what is read from a tree is checked, or the base of an enumeration in the tree. -/
inductive Placed (root : Element) : TypeUse → Prop where
  | checked {u : TypeUse} (h : u.Checked) : Placed root u
  | base {path : List Nat} {e : Element} {info : Enumeration} {type : DataType}
      (he : root.Under (fun _ => True) path e) (hname : e.name = Tag.enumeration)
      (h : (Enumeration.ofElement e).result = .ok info) (hbase : info.base = some type) :
      Placed root ⟨.enumBase, type⟩

variable {e : Element}

theorem Placed.of_child {child : Element} {u : TypeUse} (hchild : child ∈ e.children)
    (h : Placed child u) : Placed e u := by
  obtain ⟨i, hi⟩ := List.getElem?_of_mem hchild
  cases h with
  | checked h => exact .checked h
  | base he hname h hbase => exact .base (.child trivial hi he) hname h hbase

/-- What is read item by item has uses that come from the items. -/
theorem forall_use_of_forall₂ {α β : Type} {R : α → β → Prop} {xs : List α} {ys : List β}
    {f : β → List TypeUse} {P : TypeUse → Prop} (h : List.Forall₂ R xs ys)
    (hitem : ∀ x ∈ xs, ∀ y, R x y → ∀ u ∈ f y, P u) : ∀ u ∈ ys.flatMap f, P u := by
  induction h with
  | nil => exact nofun
  | cons hxy _ ih =>
    rw [List.forall_mem_cons] at hitem
    rw [List.flatMap_cons]
    exact List.forall_mem_append.mpr ⟨hitem.1 _ hxy, ih hitem.2⟩

/-- The same for what is read from the one element of a name, if there is one. -/
theorem forall_use_of_slot {β : Type} {R : Element → List β → Prop} {es : List Element}
    {tag : String} {slot : Option (List β)} {f : β → List TypeUse} {P : TypeUse → Prop}
    (h : List.Forall₂ R (es.filter (·.name == tag)) slot.toList)
    (hitem : ∀ x ∈ es, ∀ ys, R x ys → ∀ u ∈ ys.flatMap f, P u) :
    ∀ u ∈ (slot.getD []).flatMap f, P u := by
  obtain ⟨-, rfl⟩ | ⟨x, ys, hx, rfl, hR⟩ := slot_cases h
  · exact nofun
  · have hmem : x ∈ es.filter (·.name == tag) := by
      rw [hx]
      exact List.mem_singleton_self x
    exact hitem x (List.mem_of_mem_filter hmem) ys hR

/-! ## References to types -/

theorem standsAt_of_namedType {decl : String} {type : DataType} (h : namedType decl e = .ok type) :
    type.standsAt .constant = true := by
  obtain ⟨name, _, h⟩ := bind_eq_ok_iff.mp h
  split at h
  · cases h
  · split at h <;> cases h
    assumption

/-! ## Methods -/

theorem Param.checked_of_ofElement {method : String} {p : Param}
    (h : Param.ofElement method e = .ok p) : ∀ u ∈ p.typeUses, u.Checked := by
  obtain ⟨_, _, htype⟩ := (Param.ofElement_eq_ok_iff.mp h).type
  exact List.forall_mem_singleton.mpr ⟨nofun, htype.stands⟩

theorem Param.checked_of_ofElements {method : String} {es : List Element} {ps : List Param}
    (h : Param.ofElements method es = .ok ps) : ∀ u ∈ ps.flatMap (·.typeUses), u.Checked := by
  refine forall_use_of_forall₂ (mapM_eq_ok_iff.mp h) fun e _ p hp => ?_
  obtain ⟨_, _, hp⟩ := bind_eq_ok_iff.mp hp
  exact Param.checked_of_ofElement hp

theorem Method.checked_of_ofElement {ordinal : Nat} {m : Method}
    (h : (Method.ofElement ordinal e).result = .ok m) : ∀ u ∈ m.typeUses, u.Checked := by
  unfold Method.ofElement at h
  obtain ⟨_, _, h⟩ := Logged.bind_ok_iff.mp h
  obtain ⟨_, _, h⟩ := Logged.bind_ok_iff.mp h
  obtain ⟨_, _, h⟩ := Logged.bind_ok_iff.mp h
  split at h
  · obtain ⟨result, hresult, h⟩ := Logged.bind_ok_iff.mp h
    obtain ⟨params, hparams, h⟩ := Logged.bind_ok_iff.mp h
    obtain ⟨_, _, h⟩ := Logged.bind_ok_iff.mp h
    cases h
    have htype := TypeRef.ofElement_eq_ok_iff.mp hresult
    exact List.forall_mem_cons.mpr ⟨⟨nofun, htype.stands⟩, Param.checked_of_ofElements hparams⟩
  · cases h

theorem Method.checked_of_ofSection {ms : List Method} (h : (Method.ofSection e).result = .ok ms) :
    ∀ u ∈ ms.flatMap (·.typeUses), u.Checked :=
  forall_use_of_forall₂ (Method.of_ofSection h) fun _ _ _ => Method.checked_of_ofElement

/-! ## Constants and types -/

theorem Constant.checked_of_ofSection {cs : List Constant} (h : Constant.ofSection e = .ok cs) :
    ∀ u ∈ cs.flatMap (·.typeUses), u.Checked := by
  refine forall_use_of_forall₂ (Constant.of_ofSection h) fun child _ c hc => ?_
  obtain ⟨_, hc⟩ := hc
  obtain ⟨_, _, hc⟩ := bind_eq_ok_iff.mp hc
  obtain ⟨type, htype, hc⟩ := bind_eq_ok_iff.mp hc
  obtain ⟨_, _, hc⟩ := bind_eq_ok_iff.mp hc
  cases hc
  exact List.forall_mem_singleton.mpr ⟨nofun, standsAt_of_namedType htype⟩

theorem Member.checked_of_ofElement {decl : String} {m : Member}
    (h : Member.ofElement decl e = .ok m) : ∀ u ∈ m.typeUses, u.Checked := by
  unfold Member.ofElement at h
  split at h
  · obtain ⟨type, htype, h⟩ := bind_eq_ok_iff.mp h
    obtain ⟨_, _, h⟩ := bind_eq_ok_iff.mp h
    cases h
    exact List.forall_mem_singleton.mpr ⟨nofun, standsAt_of_namedType htype⟩
  split at h
  · obtain ⟨_, _, h⟩ := bind_eq_ok_iff.mp h
    obtain ⟨_, _, h⟩ := bind_eq_ok_iff.mp h
    cases h
    exact nofun
  · cases h

theorem Structure.checked_of_ofElement {s : Structure} (h : Structure.ofElement e = .ok s) :
    ∀ u ∈ s.members.flatMap (·.typeUses), u.Checked := by
  obtain ⟨_, _, h⟩ := bind_eq_ok_iff.mp h
  obtain ⟨members, hmembers, h⟩ := bind_eq_ok_iff.mp h
  cases h
  exact forall_use_of_forall₂ (mapM_eq_ok_iff.mp hmembers) fun _ _ _ => Member.checked_of_ofElement

theorem TypeDecl.placed_of_ofElement {t : TypeDecl} (h : (TypeDecl.ofElement e).result = .ok t) :
    ∀ u ∈ t.typeUses, Placed e u := by
  obtain ⟨hname, info, hinfo, rfl⟩ | ⟨_, info, hinfo, rfl⟩ := TypeDecl.of_ofElement h
  · intro u hu
    obtain ⟨type, htype, rfl⟩ := List.mem_map.mp hu
    exact .base (.root e) hname hinfo (Option.mem_toList.mp htype)
  · exact fun u hu => .checked (Structure.checked_of_ofElement hinfo u hu)

theorem TypeDecl.placed_of_ofSection {ts : List TypeDecl}
    (h : (TypeDecl.ofSection e).result = .ok ts) : ∀ u ∈ ts.flatMap (·.typeUses), Placed e u :=
  forall_use_of_forall₂ (TypeDecl.of_ofSection h) fun _ hchild _ ht u hu =>
    (TypeDecl.placed_of_ofElement ht u hu).of_child hchild

/-! ## Documents -/

theorem Block.placed_of_ofElement {b : Block} (h : (Block.ofElement e).result = .ok b) :
    ∀ u ∈ b.typeUses, Placed e u := by
  obtain ⟨_, cs, hcs, rfl⟩ | ⟨_, ts, hts, rfl⟩ := Block.of_ofElement h
  · exact fun u hu => .checked (Constant.checked_of_ofSection hcs u hu)
  · exact TypeDecl.placed_of_ofSection hts

theorem Globals.placed_of_ofElement {g : Globals} (h : (Globals.ofElement e).result = .ok g) :
    ∀ u ∈ g.typeUses, Placed e u :=
  forall_use_of_forall₂ (Globals.of_ofElement h) fun _ hchild _ hb u hu =>
    (Block.placed_of_ofElement hb u hu).of_child hchild

theorem ClassInterface.placed_of_ofElement {i : ClassInterface}
    (h : (ClassInterface.ofElement e).result = .ok i) : ∀ u ∈ i.typeUses, Placed e u := by
  obtain ⟨_, _, _, s, hs, hconstants, htypes, hconstructor, hmethods⟩ :=
    ClassInterface.of_ofElement h
  unfold ClassInterface.typeUses
  rw [hconstants, htypes, hconstructor, hmethods]
  simp only [List.forall_mem_append]
  refine ⟨⟨⟨?_, ?_⟩, ?_⟩, ?_⟩
  · exact forall_use_of_slot hs.constants fun _ _ _ hcs u hu =>
      .checked (Constant.checked_of_ofSection hcs u hu)
  · exact forall_use_of_slot hs.types fun _ hchild _ hts u hu =>
      (TypeDecl.placed_of_ofSection hts u hu).of_child hchild
  · exact forall_use_of_slot hs.constructor fun _ _ _ hps u hu =>
      .checked (Param.checked_of_ofElements hps u hu)
  · exact forall_use_of_slot hs.methods fun _ _ _ hms u hu =>
      .checked (Method.checked_of_ofSection hms u hu)

theorem Document.placed_of_ofElement {d : Document} (h : (Document.ofElement e).result = .ok d) :
    ∀ u ∈ d.typeUses, Placed e u := by
  have hd := Document.of_ofElement h
  refine List.forall_mem_append.mpr ⟨?_, ?_⟩
  · exact forall_use_of_forall₂ hd.globals fun _ hchild _ hg u hu =>
      (Globals.placed_of_ofElement hg u hu).of_child (List.mem_of_mem_filter hchild)
  · exact forall_use_of_forall₂ hd.classInterface fun _ hchild _ hi u hu =>
      (ClassInterface.placed_of_ofElement hi u hu).of_child (List.mem_of_mem_filter hchild)

/-! ## Bases of enumerations -/

theorem EnumHeader.base_of_ofElement {header : EnumHeader}
    (h : EnumHeader.ofElement e = .ok header) :
    EnumHeader.baseOf header.name header.shape e = .ok header.base :=
  (EnumHeader.ofElement_eq_ok_iff.mp h).base

theorem Enumeration.header_of_ofElement {info : Enumeration}
    (h : (Enumeration.ofElement e).result = .ok info) :
    EnumHeader.ofElement e = .ok info.toEnumHeader := by
  obtain ⟨entries, hread⟩ := Enumeration.ofElement_ok_iff.mp h
  exact EnumHeader.ofElement_eq_ok_iff.mpr hread.header

theorem EnumHeader.namedBase_cases {base : Option DataType}
    (h : EnumHeader.namedBase e = .ok base) :
    (base = none ∧ ∀ name, e.get? Key.baseType = some name → name = defaultBase) ∨
      ∃ type, base = some type ∧ e.get? Key.baseType = some type.name := by
  unfold EnumHeader.namedBase at h
  split at h
  · rename_i hnone
    cases h
    exact Or.inl ⟨rfl, by simp [hnone]⟩
  rename_i name hname
  split at h
  · rename_i hdefault
    cases h
    refine Or.inl ⟨rfl, fun other hother => ?_⟩
    rw [hname] at hother
    exact (Option.some.inj hother).symm.trans hdefault
  split at h
  · rename_i type htype
    cases h
    have hfound : type.name = name := by simpa using List.find?_some htype
    exact Or.inr ⟨type, rfl, by rw [hname, hfound]⟩
  · cases h

theorem name_mem_baseNames (t : DataType) :
    t.name ∈ Position.enumBase.names ↔ t.standsAt .enumBase = true := by
  cases t <;> decide

/-- The base is legal when the document names a legal one, or none. -/
theorem EnumHeader.base_stands_iff {decl : String} {shape : EnumShape} {type : DataType}
    (h : EnumHeader.baseOf decl shape e = .ok (some type)) :
    type.standsAt .enumBase = true ↔
      ∀ name, e.get? Key.baseType = some name → name ∈ Position.enumBase.names := by
  obtain ⟨base, hbase, h⟩ := bind_eq_ok_iff.mp h
  obtain ⟨rfl, hdefault⟩ | ⟨named, rfl, hnamed⟩ := EnumHeader.namedBase_cases hbase
  · cases shape <;> cases h
    refine iff_of_true (by decide) fun name hname => ?_
    rw [hdefault name hname]
    decide
  · have htype : named = type := by
      cases shape with
      | standard =>
        cases h
        rfl
      | bitmap =>
        dsimp only at h
        split at h <;> cases h
        rfl
    rw [hnamed, ← htype, ← name_mem_baseNames]
    simp

/-- All types stand where they may, but for the bases of enumerations: such a base is as legal as
the name that the document has for it, which validation looks at and reading does not. -/
theorem types_stand_but_bases {root : Element} {d : Document}
    (h : (Document.ofElement root).result = .ok d) :
    (∀ u ∈ d.typeUses, u.position ≠ .enumBase → u.Stands) ∧
    (∀ type, ⟨.enumBase, type⟩ ∈ d.typeUses →
      ∃ path e info, root.Under (fun _ => True) path e ∧ e.name = Tag.enumeration ∧
        (Enumeration.ofElement e).result = .ok info ∧ info.base = some type ∧
        (type.standsAt .enumBase = true ↔
          ∀ name, e.get? Key.baseType = some name → name ∈ Position.enumBase.names)) ∧
    (Valid interfaceDocument root → ∀ u ∈ d.typeUses, u.Stands) := by
  have hplaced := Document.placed_of_ofElement h
  have hbase {e : Element} {info : Enumeration} {type : DataType}
      (hinfo : (Enumeration.ofElement e).result = .ok info) (hbase : info.base = some type) :=
    EnumHeader.base_stands_iff
      (hbase ▸ EnumHeader.base_of_ofElement (Enumeration.header_of_ofElement hinfo))
  refine ⟨fun u hu hposition => ?_, fun type hu => ?_, fun hvalid u hu => ?_⟩
  · cases hplaced u hu with
    | checked hu => exact hu.stands
    | base => exact absurd rfl hposition
  · cases hplaced _ hu with
    | checked hu => exact absurd rfl hu.position
    | base he hname hinfo htype => exact ⟨_, _, _, he, hname, hinfo, htype, hbase hinfo htype⟩
  · cases hplaced u hu with
    | checked hu => exact hu.stands
    | base he hname hinfo htype =>
      refine (hbase hinfo htype).mpr fun name hvalue => ?_
      have hadmits : (AttributeType.oneOfEntity Position.enumBase.entity).Admits
          interfaceDocument name := (Valid.under hvalid he).admits hname (by rfl) hvalue
      rwa [AttributeType.Admits, entityValues_entity] at hadmits

/-- A document with a type in each position. -/
def everyPosition : Element :=
  let param (type : DataType) : Element :=
    specimen Tag.param [(Key.name, "p"), (Key.direction, "In")] [typeSpecimen type]
  specimen Tag.interface [] [
    specimen Tag.globals [] [
      specimen Tag.types [] [
        specimen Tag.enumeration [(Key.name, "E"), (Key.baseType, "TCard1")]
          [specimen Tag.enumValue [(Key.name, "V")] []],
        specimen Tag.struct [(Key.type, "S")]
          [specimen Tag.member [(Key.name, "m"), (Key.type, "TInt2")] []]]],
    specimen Tag.classInterface [(Key.name, "I"), (Key.interfaceId, "1")] [
      specimen Tag.constants []
        [specimen Tag.constant [(Key.name, "c"), (Key.type, "TCard8"), (Key.value, "0")] []],
      specimen Tag.constructor [] [param .string],
      specimen Tag.methods [] [
        specimen Tag.method [(Key.name, "M")]
          [specimen Tag.result [] [typeSpecimen .void], param .vector]]]]

theorem everyPosition_stands :
    ∃ d, (Document.ofElement everyPosition).result = .ok d ∧
      d.typeUses = [⟨.enumBase, .card1⟩, ⟨.constant, .int2⟩, ⟨.constant, .card8⟩,
        ⟨.param, .string⟩, ⟨.result, .void⟩, ⟨.param, .vector⟩] ∧
      ∀ u ∈ d.typeUses, u.position ≠ .enumBase → u.Stands := by
  have huses : (Document.ofElement everyPosition).result.toOption.map (·.typeUses) =
      some [⟨.enumBase, .card1⟩, ⟨.constant, .int2⟩, ⟨.constant, .card8⟩,
        ⟨.param, .string⟩, ⟨.result, .void⟩, ⟨.param, .vector⟩] := by
    decide +kernel
  obtain ⟨d, hd, huses⟩ := Option.map_eq_some_iff.mp huses
  have hread := toOption_eq_some_iff.mp hd
  exact ⟨d, hread, huses, (types_stand_but_bases hread).1⟩

/-- Nothing but the schema keeps a text from being the base of an enumeration. -/
theorem textBase_kept :
    ∃ d, (Document.ofElement (documentOf [(Key.baseType, "TString")]
        [specimen Tag.enumValue [(Key.name, "V")] []])).result = .ok d ∧
      ⟨.enumBase, .string⟩ ∈ d.typeUses ∧ DataType.string.standsAt .enumBase = false := by
  have huses : (Document.ofElement (documentOf [(Key.baseType, "TString")]
      [specimen Tag.enumValue [(Key.name, "V")] []])).result.toOption.map (·.typeUses) =
      some [⟨.enumBase, .string⟩] := by
    decide +kernel
  obtain ⟨d, hd, huses⟩ := Option.map_eq_some_iff.mp huses
  refine ⟨d, toOption_eq_some_iff.mp hd, ?_, by decide⟩
  rw [huses]
  exact List.mem_singleton_self _

end OrbIdl.Model
