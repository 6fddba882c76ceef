import OrbIdl.Proofs.Reading.Enumerations
import OrbIdl.Proofs.Valid.Demanded
import OrbIdl.Proofs.Valid.Positions

/-!
# Options that go together

Validation looks at each attribute by itself. Whether the options of an enumeration go together, and
whether its values have what the options ask for, is left to the reader.
-/

namespace OrbIdl.Model

open Xml Schema

variable {e t v : Element}

/-! ## What validation leaves -/

/-- An enumeration that follows the schema and has all its defaults. -/
structure Prepared (t : Element) : Prop where
  name : t.name = Tag.enumeration
  valid : Valid interfaceDocument t
  filled : ∀ key, (interfaceDocument.default? Tag.enumeration key).isSome = true →
    (t.get? key).isSome = true

theorem Prepared.of_validate (hname : e.name = Tag.enumeration)
    (hvalid : (validate interfaceDocument e).2 = []) :
    Prepared (validate interfaceDocument e).1 where
  name := (name_complete _ e).trans hname
  valid := valid_complete hvalid
  filled := by
    intro key hkey
    show ((complete interfaceDocument e).get? key).isSome = true
    rw [get?_complete, hname, Option.isSome_or, hkey, Bool.or_true]

theorem Prepared.optionOr_eq_iff (h : Prepared t) {key fallback word : String}
    (hkey : (interfaceDocument.default? Tag.enumeration key).isSome = true) :
    EnumHeader.optionOr t key fallback = word ↔ t.get? key = some word := by
  obtain ⟨value, hvalue⟩ := Option.isSome_iff_exists.mp (h.filled key hkey)
  rw [EnumHeader.optionOr, hvalue, Option.getD_some, Option.some_inj]

theorem TextMaps.keys_perm (maps : TextMaps) : (maps.toList.map (·.1)).Perm mappingKeys := by
  show [Key.altMap, Key.altMap2, Key.formatMap, Key.loadMap, Key.textStreamMap,
    Key.translateMap].Perm mappingKeys
  decide

theorem default?_mapping : ∀ key ∈ mappingKeys,
    (interfaceDocument.default? Tag.enumeration key).isSome = true := by
  decide

/-- A header with the words that its element has for the options. -/
structure EnumHeader.Spelled (h : EnumHeader) (t : Element) : Prop where
  shape : t.get? Key.type = some h.shape.word
  altTextSource : t.get? Key.altTextSource = some h.altTextSource.word
  altPattern : t.get? Key.altPattern = some h.altPattern
  altText2 : h.altText2 = true ↔ t.get? Key.altText2 = some yes
  altNumbers : h.altNumbers = true ↔ t.get? Key.altNumber = some yes
  maps : ∀ m ∈ h.maps.toList, t.get? m.1 = some m.2.word

theorem EnumHeader.ReadFrom.spelled {h : EnumHeader} (hread : h.ReadFrom t) (ht : Prepared t) :
    h.Spelled t where
  shape := (ht.optionOr_eq_iff rfl).mp (EnumHeader.shapeOf_eq_ok_iff.mp hread.shape)
  altTextSource :=
    (ht.optionOr_eq_iff rfl).mp (EnumHeader.altTextSourceOf_eq_ok_iff.mp hread.altTextSource)
  altPattern := (ht.optionOr_eq_iff rfl).mp hread.altPattern
  altText2 := by rw [← hread.altText2, isYes, beq_iff_eq]
  altNumbers := by rw [← hread.altNumbers, isYes, beq_iff_eq]
  maps := by
    intro m hm
    have hkey : m.1 ∈ mappingKeys := h.maps.keys_perm.mem_iff.mp (List.mem_map_of_mem hm)
    apply (ht.optionOr_eq_iff (default?_mapping m.1 hkey)).mp
    exact EnumHeader.mapsOf_eq_ok_iff.mp hread.maps m hm

/-! ## The rules -/

/-- No base is named, or an unsigned one. -/
def HasUnsignedBase (t : Element) : Prop :=
  ∀ name, t.get? Key.baseType = some name →
    name = defaultBase ∨ ∃ type, DataType.ofName? name = some type ∧ type.isUnsigned = true

/-- The element of a value has what the options ask for and nothing that they rule out. -/
structure ValueFits (t v : Element) : Prop where
  unmasked : t.get? Key.type = some "Std" → v.get? Key.value = none
  masked : t.get? Key.type = some "Bmp" →
    ∃ literal, v.get? Key.value = some literal ∧ (hexadecimal? literal).isSome = true
  altText : t.get? Key.altTextSource = some "Inline" → (v.get? Key.altText).isSome = true
  altText2 : t.get? Key.altText2 = some yes → (v.get? Key.altText2).isSome = true
  altNumber : t.get? Key.altNumber = some yes → ∀ number, v.get? Key.altNumber = some number →
    (Text.int32? (Text.trimChars number.toList)).isSome = true

/-- The texts that a mapping may lead to, by name. -/
def ProvidesText (t : Element) (target : String) : Prop :=
  target ∈ ["No", "Name", "BaseName"] ∨
  (target = "AltText" ∧ t.get? Key.altTextSource ≠ some "No") ∨
  (target = "AltText2" ∧ t.get? Key.altText2 = some yes) ∨
  (target = "Text" ∧ ∃ v ∈ t.children, v.name = Tag.enumValue ∧ (v.get? Key.text).isSome = true)

structure Meaningful (t : Element) : Prop where
  base : t.get? Key.type = some "Bmp" → HasUnsignedBase t
  pattern : t.get? Key.altTextSource = some "Pattern" →
    ∃ pattern, t.get? Key.altPattern = some pattern ∧ "%(v)".toList <:+: pattern.toList
  values : ∀ v ∈ t.children, v.name = Tag.enumValue → ValueFits t v
  synonyms : ∀ s ∈ t.children, s.name = Tag.enumSynonym → (s.get? Key.value).isSome = true
  maps : ∀ key ∈ mappingKeys, ∃ target, t.get? key = some target ∧ ProvidesText t target

/-- What a value is read to. -/
structure IsValueOf (t v : Element) (value : EnumValue) : Prop where
  name : v.get? Key.name = some value.name
  literal : v.get? Key.value = value.mask.map (·.literal)
  bits : ∀ m, value.mask = some m → hexadecimal? m.literal = some m.bits
  text : v.get? Key.text = value.text
  altText : value.altText = match t.get? Key.altTextSource with
    | some "Inline" => (v.get? Key.altText).getD ""
    | some "Pattern" => String.ofList
        (fillPattern value.name.toList ((t.get? Key.altPattern).getD "").toList)
    | _ => ""
  altText2 : value.altText2 =
    if t.get? Key.altText2 = some yes then (v.get? Key.altText2).getD "" else ""
  altNumber : value.altNumber =
    if t.get? Key.altNumber = some yes then
      ((v.get? Key.altNumber).bind fun n => Text.int32? (Text.trimChars n.toList)).getD 0
    else 0
  span : value.span = v.span

/-! ## Headers -/

theorem holdsToken_iff (cs : List Char) : holdsToken cs = true ↔ "%(v)".toList <:+: cs := by
  fun_induction holdsToken cs with
  | case1 cs => exact iff_of_true rfl ⟨[], cs, rfl⟩
  | case2 c cs hno ih =>
    rw [ih, List.infix_cons_iff]
    refine ⟨Or.inr, fun h => h.resolve_left ?_⟩
    rintro ⟨rest, hrest⟩
    injection hrest with hc hcs
    exact hno rest hc.symm hcs.symm
  | case3 => decide

namespace EnumHeader

variable {decl : String} {h : EnumHeader}

theorem Spelled.shape_iff (hs : h.Spelled t) (shape : EnumShape) :
    t.get? Key.type = some shape.word ↔ h.shape = shape := by
  rw [hs.shape, Option.some_inj, EnumShape.word_inj]

theorem Spelled.altTextSource_iff (hs : h.Spelled t) (source : AltTextSource) :
    t.get? Key.altTextSource = some source.word ↔ h.altTextSource = source := by
  rw [hs.altTextSource, Option.some_inj, AltTextSource.word_inj]

theorem hasUnsignedBase_iff {base : Option DataType} (h : namedBase t = .ok base) :
    HasUnsignedBase t ↔ ∀ type, base = some type → type.isUnsigned = true := by
  have hnamed : ∀ type : DataType, type.name ≠ defaultBase := by
    intro type
    cases type <;> decide
  obtain ⟨rfl, hdefault⟩ | ⟨type, rfl, htype⟩ := namedBase_cases h
  · exact iff_of_true (fun name hname => Or.inl (hdefault name hname)) nofun
  · simp [HasUnsignedBase, htype, hnamed, DataType.ofName?_name]

theorem exists_base_iff (ht : Prepared t) {shape : EnumShape} :
    (∃ base, baseOf decl shape t = .ok base) ↔ (shape = .bitmap → HasUnsignedBase t) := by
  obtain ⟨base, hbase⟩ := (namedBase_never_fails ht.valid ht.name).exists_ok
  rw [hasUnsignedBase_iff hbase]
  simp only [baseOf, hbase, bind_eq_ok_iff, Except.ok.injEq, exists_eq_left']
  rcases shape with _ | _ <;> rcases base with _ | base
  · simp [pure, Except.pure]
  · simp [pure, Except.pure]
  · simp [pure, Except.pure]
  · rcases hunsigned : base.isUnsigned with _ | _ <;> simp [hunsigned, pure, Except.pure, throw]

theorem exists_readFrom_iff (ht : Prepared t) :
    (∃ h : EnumHeader, h.ReadFrom t) ↔
      (t.get? Key.type = some "Bmp" → HasUnsignedBase t) ∧
      (t.get? Key.altTextSource = some "Pattern" →
        ∃ pattern, t.get? Key.altPattern = some pattern ∧ "%(v)".toList <:+: pattern.toList) := by
  constructor
  · rintro ⟨h, hread⟩
    have hs := hread.spelled ht
    constructor
    · intro hbitmap
      exact (exists_base_iff ht).mp ⟨_, hread.base⟩ ((hs.shape_iff .bitmap).mp hbitmap)
    · intro hpattern
      refine ⟨h.altPattern, hs.altPattern, (holdsToken_iff _).mp ?_⟩
      have htoken := not_and.mp hread.token ((hs.altTextSource_iff .pattern).mp hpattern)
      exact Bool.eq_true_of_not_eq_false htoken
  · rintro ⟨hbase, hpattern⟩
    obtain ⟨name, hname, -⟩ := require_of_valid ht.valid ht.name Key.name (by rfl) rfl
    obtain ⟨shape, hshape⟩ := (shape_never_fails ht.valid ht.name name).exists_ok
    obtain ⟨source, hsource⟩ := (altTextSource_never_fails ht.valid ht.name name).exists_ok
    obtain ⟨maps, hmaps⟩ := (maps_never_fail ht.valid ht.name name).exists_ok
    obtain ⟨increments, hincrements⟩ := (increments_never_fails ht.valid ht.name name).exists_ok
    have hunsigned : shape = .bitmap → HasUnsignedBase t := by
      rintro rfl
      exact hbase ((ht.optionOr_eq_iff rfl).mp (shapeOf_eq_ok_iff.mp hshape))
    obtain ⟨base, hbase⟩ := (exists_base_iff ht).mpr hunsigned
    refine ⟨⟨name, shape, base, source, optionOr t Key.altPattern "", isYes t Key.altText2,
      isYes t Key.altNumber, isYes t Key.binaryStream, increments, maps, t.span⟩,
      hname, hshape, hbase, hsource, hmaps, rfl, ?_, hincrements, rfl, rfl, rfl, rfl⟩
    rintro ⟨rfl, hlacks⟩
    obtain ⟨pattern, hgiven, htoken⟩ :=
      hpattern ((ht.optionOr_eq_iff rfl).mp (altTextSourceOf_eq_ok_iff.mp hsource))
    rw [(ht.optionOr_eq_iff rfl).mpr hgiven, (holdsToken_iff _).mpr htoken] at hlacks
    cases hlacks

end EnumHeader

/-! ## Values -/

namespace EnumValue

section

variable {h : EnumHeader} (hs : h.Spelled t)
include hs

theorem exists_mask_iff (name : String) :
    (∃ mask, maskOf h name v = .ok mask) ↔
      (t.get? Key.type = some "Std" → v.get? Key.value = none) ∧
      (t.get? Key.type = some "Bmp" →
        ∃ literal, v.get? Key.value = some literal ∧ (hexadecimal? literal).isSome = true) := by
  have hstandard : t.get? Key.type = some "Std" ↔ h.shape = .standard := hs.shape_iff .standard
  have hbitmap : t.get? Key.type = some "Bmp" ↔ h.shape = .bitmap := hs.shape_iff .bitmap
  rw [hstandard, hbitmap, maskOf]
  rcases h.shape with _ | _ <;> rcases v.get? Key.value with _ | literal
  · simp
  · simp
  · simp
  · rcases hbits : hexadecimal? literal with _ | bits <;> simp [hbits]

theorem exists_altText_iff (name : String) :
    (∃ altText, altTextOf h name v = .ok altText) ↔
      (t.get? Key.altTextSource = some "Inline" → (v.get? Key.altText).isSome = true) := by
  have hinline : t.get? Key.altTextSource = some "Inline" ↔ h.altTextSource = .inline :=
    hs.altTextSource_iff .inline
  rw [hinline, altTextOf]
  rcases h.altTextSource with _ | _ | _
  · simp
  · simp [require_eq_ok_iff, Option.isSome_iff_exists]
  · simp

theorem exists_altText2_iff :
    (∃ altText2, altText2Of h v = .ok altText2) ↔
      (t.get? Key.altText2 = some yes → (v.get? Key.altText2).isSome = true) := by
  rw [← hs.altText2, altText2Of]
  rcases h.altText2 with _ | _
  · simp
  · simp [require_eq_ok_iff, Option.isSome_iff_exists]

theorem exists_altNumber_iff (name : String) :
    (∃ n, (altNumberOf h name v).result = .ok n) ↔
      (t.get? Key.altNumber = some yes → ∀ number, v.get? Key.altNumber = some number →
        (Text.int32? (Text.trimChars number.toList)).isSome = true) := by
  rw [← hs.altNumbers]
  unfold altNumberOf
  rcases h.altNumbers with _ | _ <;> rcases v.get? Key.altNumber with _ | number
  · simp
  · simp
  · exact iff_of_true ⟨0, rfl⟩ nofun
  · rcases hn : Text.int32? (Text.trimChars number.toList) with _ | n <;> simp [hn]

theorem exists_readFrom_iff (hname : (v.get? Key.name).isSome = true) :
    (∃ value : EnumValue, value.ReadFrom h v) ↔ ValueFits t v := by
  constructor
  · rintro ⟨value, hread⟩
    obtain ⟨hunmasked, hmasked⟩ := (exists_mask_iff hs _).mp ⟨_, hread.mask⟩
    have haltText := (exists_altText_iff hs _).mp ⟨_, hread.altText⟩
    have haltText2 := (exists_altText2_iff hs).mp ⟨_, hread.altText2⟩
    have haltNumber := (exists_altNumber_iff hs _).mp ⟨_, hread.altNumber⟩
    exact ⟨hunmasked, hmasked, haltText, haltText2, haltNumber⟩
  · rintro ⟨hunmasked, hmasked, haltText, haltText2, haltNumber⟩
    obtain ⟨name, hname⟩ := Option.isSome_iff_exists.mp hname
    obtain ⟨mask, hmask⟩ := (exists_mask_iff hs name).mpr ⟨hunmasked, hmasked⟩
    obtain ⟨altText, haltText⟩ := (exists_altText_iff hs name).mpr haltText
    obtain ⟨altText2, haltText2⟩ := (exists_altText2_iff hs).mpr haltText2
    obtain ⟨altNumber, haltNumber⟩ := (exists_altNumber_iff hs name).mpr haltNumber
    exact ⟨⟨name, mask, v.get? Key.text, altText, altText2, altNumber, v.span⟩,
      require_eq_ok_iff.mpr hname, hmask, haltText, haltText2, haltNumber, rfl, rfl⟩

/-! ### What is read -/

theorem altText_eq {name altText : String} (hread : altTextOf h name v = .ok altText) :
    altText = match t.get? Key.altTextSource with
      | some "Inline" => (v.get? Key.altText).getD ""
      | some "Pattern" => String.ofList
          (fillPattern name.toList ((t.get? Key.altPattern).getD "").toList)
      | _ => "" := by
  rw [hs.altTextSource, hs.altPattern]
  unfold altTextOf at hread
  split at hread
  · rename_i hoff
    cases hread
    rw [hoff]
    rfl
  · rename_i hinline
    rw [hinline, require_eq_ok_iff.mp hread]
    rfl
  · rename_i hpattern
    cases hread
    rw [hpattern]
    rfl

theorem altText2_eq {altText2 : String} (hread : altText2Of h v = .ok altText2) :
    altText2 = if t.get? Key.altText2 = some yes then (v.get? Key.altText2).getD "" else "" := by
  simp only [← hs.altText2]
  unfold altText2Of at hread
  split at hread
  · rw [if_pos (by assumption), require_eq_ok_iff.mp hread, Option.getD_some]
  · rw [if_neg (by assumption)]
    cases hread
    rfl

theorem altNumber_eq {name : String} {n : Int} (hread : (altNumberOf h name v).result = .ok n) :
    n = if t.get? Key.altNumber = some yes then
        ((v.get? Key.altNumber).bind fun n => Text.int32? (Text.trimChars n.toList)).getD 0
      else 0 := by
  simp only [← hs.altNumbers]
  unfold altNumberOf at hread
  split at hread
  · rename_i hoff
    cases hread
    simp [hoff]
  · rename_i hon hgiven
    split at hread
    · rename_i hn
      cases hread
      simp [hon, hgiven, hn]
    · cases hread
  · rename_i hon hnone
    cases hread
    simp [hon, hnone]

end

theorem ReadFrom.isValueOf {h : EnumHeader} {value : EnumValue} (hread : value.ReadFrom h v)
    (hs : h.Spelled t) : IsValueOf t v value where
  name := require_eq_ok_iff.mp hread.name
  literal := (mask_eq hread.mask).1
  bits := (mask_eq hread.mask).2
  text := hread.text
  altText := altText_eq hs hread.altText
  altText2 := altText2_eq hs hread.altText2
  altNumber := altNumber_eq hs hread.altNumber
  span := hread.span.symm

end EnumValue

/-! ## Whole enumerations -/

theorem EnumEntry.exists_readFrom_iff {h : EnumHeader} (hs : h.Spelled t) (ht : Prepared t)
    (hv : v ∈ t.children) :
    (∃ entry, EnumEntry.ReadFrom h v entry) ↔
      (v.name = Tag.enumValue → ValueFits t v) ∧
      (v.name = Tag.enumSynonym → (v.get? Key.value).isSome = true) := by
  have hvalid := ht.valid.child hv
  have hnames : v.name ∈ [Tag.docText, Tag.enumValue, Tag.enumSynonym] :=
    ht.valid.childName_mem ht.name (by rfl) hv
  have hother {a b : String} (hname : v.name = a) (hne : a ≠ b) {P : Prop} : v.name = b → P :=
    fun h => absurd (hname.symm.trans h) hne
  constructor
  · rintro ⟨entry, hread⟩
    cases hread with
    | doc hname => exact ⟨hother hname (by decide), hother hname (by decide)⟩
    | synonym hname hs hvalue =>
      refine ⟨hother hname (by decide), fun _ => ?_⟩
      rw [hvalue]
      rfl
    | value hname hread =>
      have hgiven := Option.isSome_iff_exists.mpr ⟨_, require_eq_ok_iff.mp hread.name⟩
      have hfits := (EnumValue.exists_readFrom_iff hs hgiven).mp ⟨_, hread⟩
      exact ⟨fun _ => hfits, hother hname (by decide)⟩
  · rintro ⟨hfits, hsynonym⟩
    simp only [List.mem_cons, List.not_mem_nil, or_false] at hnames
    rcases hnames with hname | hname | hname
    · exact ⟨_, .doc hname⟩
    · obtain ⟨name, hgiven, -⟩ := require_of_valid hvalid hname Key.name (by rfl) rfl
      have hgiven := Option.isSome_iff_exists.mpr ⟨_, require_eq_ok_iff.mp hgiven⟩
      obtain ⟨value, hread⟩ := (EnumValue.exists_readFrom_iff hs hgiven).mpr (hfits hname)
      exact ⟨_, .value hname hread⟩
    · obtain ⟨name, hgiven, -⟩ := require_of_valid hvalid hname Key.name (by rfl) rfl
      obtain ⟨value, hvalue⟩ := Option.isSome_iff_exists.mp (hsynonym hname)
      exact ⟨.synonym ⟨name, value⟩, .synonym hname (require_eq_ok_iff.mp hgiven) hvalue⟩

namespace Enumeration

variable {info : Enumeration}

theorem textSource_ne_off_iff {values : List EnumValue} :
    textSourceOf t values ≠ .off ↔ ∃ value ∈ values, value.text.isSome = true := by
  unfold textSourceOf
  rw [← List.any_eq_true]
  rcases values.any (·.text.isSome) with _ | _
  · simp
  · rcases t.get? Key.messageFacility with _ | _ <;>
      rcases t.get? Key.messageNamespace with _ | _ <;> simp

theorem exists_text_iff {h : EnumHeader} {values : List EnumValue}
    (hvalues : List.Forall₂ (fun v value => value.ReadFrom h v)
      (t.children.filter (·.name == Tag.enumValue)) values) :
    (∃ value ∈ values, value.text.isSome = true) ↔
      ∃ v ∈ t.children, v.name = Tag.enumValue ∧ (v.get? Key.text).isSome = true := by
  rw [← List.any_eq_true, ← EnumValue.any_text_eq hvalues, List.any_eq_true]
  simp only [List.mem_filter, beq_iff_eq, and_assoc]

theorem provides_iff (hs : info.Spelled t)
    (hvalues : List.Forall₂ (fun v value => value.ReadFrom info.toEnumHeader v)
      (t.children.filter (·.name == Tag.enumValue)) info.values)
    (hsource : info.textSource = textSourceOf t info.values) (c : TextColumn) :
    info.provides c = true ↔ ProvidesText t c.word := by
  cases c with
  | off => exact iff_of_true rfl (Or.inl (by decide))
  | name => exact iff_of_true rfl (Or.inl (by decide))
  | baseName => exact iff_of_true rfl (Or.inl (by decide))
  | altText =>
    have hoff : t.get? Key.altTextSource = some "No" ↔ info.altTextSource = .off :=
      hs.altTextSource_iff .off
    simp [provides, ProvidesText, TextColumn.word, hoff]
  | altText2 => simp [provides, ProvidesText, TextColumn.word, hs.altText2]
  | text =>
    have htexts := exists_text_iff hvalues
    rw [← textSource_ne_off_iff (t := t), ← hsource] at htexts
    simp [provides, ProvidesText, TextColumn.word, ← htexts]

theorem exists_ok_iff (ht : Prepared t) :
    (∃ info, (Enumeration.ofElement t).result = .ok info) ↔ Meaningful t := by
  constructor
  · rintro ⟨info, hread⟩
    obtain ⟨entries, hread⟩ := ofElement_ok_iff.mp hread
    have hs := hread.header.spelled ht
    obtain ⟨hbase, hpattern⟩ := (EnumHeader.exists_readFrom_iff ht).mp ⟨_, hread.header⟩
    have hchild : ∀ v ∈ t.children, (v.name = Tag.enumValue → ValueFits t v) ∧
        (v.name = Tag.enumSynonym → (v.get? Key.value).isSome = true) := by
      intro v hv
      obtain ⟨entry, -, hentry⟩ := exists_of_forall₂ hread.children hv
      exact (EnumEntry.exists_readFrom_iff hs ht hv).mp ⟨entry, hentry⟩
    refine ⟨hbase, hpattern, fun v hv => (hchild v hv).1, fun v hv => (hchild v hv).2, ?_⟩
    intro key hkey
    obtain ⟨m, hm, rfl⟩ := List.mem_map.mp (info.maps.keys_perm.mem_iff.mpr hkey)
    exact ⟨_, hs.maps m hm,
      (provides_iff hs hread.forall₂_values hread.textSource m.2).mp (hread.maps m hm)⟩
  · intro hm
    obtain ⟨h, hread⟩ := (EnumHeader.exists_readFrom_iff ht).mpr ⟨hm.base, hm.pattern⟩
    have hs := hread.spelled ht
    have hentry : ∀ v ∈ t.children, ∃ entry, EnumEntry.ReadFrom h v entry := by
      intro v hv
      exact (EnumEntry.exists_readFrom_iff hs ht hv).mpr ⟨hm.values v hv, hm.synonyms v hv⟩
    obtain ⟨entries, hentries⟩ := exists_forall₂ hentry
    have hvalues := EnumEntry.forall₂_values hentries
    let info : Enumeration :=
      ⟨h, entries.filterMap (·.value?), entries.filterMap (·.synonym?),
        textSourceOf t (entries.filterMap (·.value?))⟩
    refine ⟨info, ofElement_ok_iff.mpr ⟨entries, hread, hentries, rfl, rfl, ?_, rfl, ?_⟩⟩
    · -- The content model asks for one value at least, and a value is read as a value.
      intro hnone
      obtain ⟨v, hv, hname⟩ := exists_enumValue_of_valid ht.valid ht.name
      have hmem : v ∈ t.children.filter (·.name == Tag.enumValue) := by simp [hv, hname]
      have hnone : entries.filterMap (·.value?) = [] := hnone
      rw [hnone] at hvalues
      rw [List.forall₂_nil_right_iff.mp hvalues] at hmem
      exact List.not_mem_nil hmem
    · intro m hmem
      obtain ⟨target, htarget, hprovides⟩ :=
        hm.maps m.1 (info.maps.keys_perm.mem_iff.mp (List.mem_map_of_mem hmem))
      rw [hs.maps m hmem, Option.some_inj] at htarget
      rw [← htarget] at hprovides
      exact (provides_iff hs hvalues rfl m.2).mpr hprovides

/-- An enumeration that validation has nothing against is read exactly when its options go together.
Its values and its synonyms are then those of the element, in order. -/
theorem accepted_iff_meaningful (hname : e.name = Tag.enumeration)
    (hvalid : (validate interfaceDocument e).2 = []) :
    let t := (validate interfaceDocument e).1
    ((∃ info, (Enumeration.ofElement t).result = .ok info) ↔ Meaningful t) ∧
    ∀ info, (Enumeration.ofElement t).result = .ok info →
      List.Forall₂ (IsValueOf t) (t.children.filter (·.name == Tag.enumValue)) info.values ∧
      List.Forall₂ (fun child (s : Synonym) =>
          child.get? Key.name = some s.name ∧ child.get? Key.value = some s.value)
        (t.children.filter (·.name == Tag.enumSynonym)) info.synonyms := by
  intro t
  have ht : Prepared t := .of_validate hname hvalid
  refine ⟨exists_ok_iff ht, ?_⟩
  intro info hread
  obtain ⟨entries, hread⟩ := ofElement_ok_iff.mp hread
  have hs := hread.header.spelled ht
  exact ⟨hread.forall₂_values.imp fun _ _ hv => hv.isValueOf hs, hread.forall₂_synonyms⟩

/-- A bitmap of which all options are in use. -/
def rights : Element :=
  specimen Tag.enumeration [(Key.name, "ERight"), (Key.type, "Bmp"), (Key.baseType, "TCard2"),
      (Key.altTextSource, "Pattern"), (Key.altPattern, "may %(v)"), (Key.altText2, yes),
      (Key.altNumber, yes), (Key.altMap, "AltText"), (Key.altMap2, "AltText2"),
      (Key.translateMap, "Text")]
    [specimen Tag.enumValue [(Key.name, "Read"), (Key.value, "0x1"), (Key.altText2, "r"),
        (Key.altNumber, " 4 "), (Key.text, "reading")] [],
      specimen Tag.enumValue [(Key.name, "Write"), (Key.value, "0x2"), (Key.altText2, "w")] [],
      specimen Tag.enumSynonym [(Key.name, "Default"), (Key.value, "Read")] []]

theorem rights_meaningful :
    let t := (validate interfaceDocument rights).1
    (validate interfaceDocument rights).2 = [] ∧ Meaningful t ∧
      ∃ info, (Enumeration.ofElement t).result = .ok info ∧
        List.Forall₂ (IsValueOf t) (t.children.filter (·.name == Tag.enumValue)) info.values := by
  intro t
  have hvalid : (validate interfaceDocument rights).2 = [] := by decide +kernel
  have hread : (Enumeration.ofElement t).result.isOk = true := by decide +kernel
  obtain ⟨info, hread⟩ := isOk_iff.mp hread
  obtain ⟨hiff, hvalues⟩ := accepted_iff_meaningful (e := rights) rfl hvalid
  exact ⟨hvalid, hiff.mp ⟨info, hread⟩, info, hread, (hvalues info hread).1⟩

end Enumeration

end OrbIdl.Model
