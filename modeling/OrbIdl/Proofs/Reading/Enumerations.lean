import OrbIdl.Proofs.Reading.Sections

/-! # What each part of an enumeration is read from -/

namespace OrbIdl.Model

open Xml

variable {e : Element}

/-! ## The words of the options -/

def EnumShape.word : EnumShape → String
  | standard => "Std"
  | bitmap => "Bmp"

def AltTextSource.word : AltTextSource → String
  | off => "No"
  | inline => "Inline"
  | pattern => "Pattern"

def TextColumn.word : TextColumn → String
  | off => "No"
  | altText => "AltText"
  | altText2 => "AltText2"
  | baseName => "BaseName"
  | name => "Name"
  | text => "Text"

theorem EnumShape.word_inj {a b : EnumShape} : a.word = b.word ↔ a = b := by
  cases a <;> cases b <;> decide

theorem AltTextSource.word_inj {a b : AltTextSource} : a.word = b.word ↔ a = b := by
  cases a <;> cases b <;> decide

theorem TextColumn.ofName?_eq_some_iff {word : String} {c : TextColumn} :
    TextColumn.ofName? word = some c ↔ word = c.word := by
  constructor
  · intro h
    unfold TextColumn.ofName? at h
    split at h <;> cases h <;> rfl
  · rintro rfl
    cases c <;> rfl

namespace EnumHeader

variable {decl : String}

theorem shapeOf_eq_ok_iff {shape : EnumShape} :
    shapeOf decl e = .ok shape ↔ optionOr e Key.type "Std" = shape.word := by
  unfold shapeOf
  constructor
  · intro h
    split at h <;> cases h <;> assumption
  · intro h
    rw [h]
    cases shape <;> rfl

theorem altTextSourceOf_eq_ok_iff {source : AltTextSource} :
    altTextSourceOf decl e = .ok source ↔ optionOr e Key.altTextSource no = source.word := by
  unfold altTextSourceOf
  constructor
  · intro h
    split at h <;> cases h <;> assumption
  · intro h
    rw [h]
    cases source <;> rfl

theorem columnOf_eq_ok_iff {key : String} {c : TextColumn} :
    columnOf decl e key = .ok c ↔ optionOr e key no = c.word := by
  rw [← TextColumn.ofName?_eq_some_iff]
  unfold columnOf
  dsimp only
  rcases TextColumn.ofName? (optionOr e key no) with _ | column <;> simp

theorem mapsOf_eq_ok_iff {maps : TextMaps} :
    mapsOf decl e = .ok maps ↔ ∀ m ∈ maps.toList, optionOr e m.1 no = m.2.word := by
  unfold mapsOf
  simp only [bind_eq_ok_iff, columnOf_eq_ok_iff, TextMaps.toList, List.forall_mem_cons]
  constructor
  · rintro ⟨_, halt, _, halt2, _, hformat, _, hload, _, hstream, _, htranslate, hmaps⟩
    cases hmaps
    exact ⟨halt, halt2, hformat, hload, hstream, htranslate, nofun⟩
  · rintro ⟨halt, halt2, hformat, hload, hstream, htranslate, -⟩
    exact ⟨_, halt, _, halt2, _, hformat, _, hload, _, hstream, _, htranslate, rfl⟩

end EnumHeader

/-! ## Headers -/

namespace EnumHeader

/-- Each option comes from its own attribute, and the pattern holds its token when it is used. -/
structure ReadFrom (h : EnumHeader) (e : Element) : Prop where
  name : require e Key.name = .ok h.name
  shape : shapeOf h.name e = .ok h.shape
  base : baseOf h.name h.shape e = .ok h.base
  altTextSource : altTextSourceOf h.name e = .ok h.altTextSource
  maps : mapsOf h.name e = .ok h.maps
  altPattern : optionOr e Key.altPattern "" = h.altPattern
  token : ¬(h.altTextSource = .pattern ∧ holdsToken h.altPattern.toList = false)
  increments : incrementsOf h.name e = .ok h.increments
  altText2 : isYes e Key.altText2 = h.altText2
  altNumbers : isYes e Key.altNumber = h.altNumbers
  binaryStream : isYes e Key.binaryStream = h.binaryStream
  span : e.span = h.span

theorem ofElement_eq_ok_iff {h : EnumHeader} : EnumHeader.ofElement e = .ok h ↔ h.ReadFrom e := by
  unfold EnumHeader.ofElement
  constructor
  · intro hread
    obtain ⟨name, hname, hread⟩ := bind_eq_ok_iff.mp hread
    obtain ⟨shape, hshape, hread⟩ := bind_eq_ok_iff.mp hread
    obtain ⟨base, hbase, hread⟩ := bind_eq_ok_iff.mp hread
    obtain ⟨source, hsource, hread⟩ := bind_eq_ok_iff.mp hread
    obtain ⟨maps, hmaps, hread⟩ := bind_eq_ok_iff.mp hread
    obtain ⟨htoken, hread⟩ := guard_eq_ok_iff.mp hread
    obtain ⟨increments, hincrements, hread⟩ := bind_eq_ok_iff.mp hread
    cases hread
    exact ⟨hname, hshape, hbase, hsource, hmaps, rfl, htoken, hincrements, rfl, rfl, rfl, rfl⟩
  · rintro ⟨hname, hshape, hbase, hsource, hmaps, hpattern, htoken, hincrements, haltText2,
      haltNumbers, hbinary, hspan⟩
    rw [← hpattern] at htoken
    apply bind_eq_ok_iff.mpr ⟨_, hname, _⟩
    apply bind_eq_ok_iff.mpr ⟨_, hshape, _⟩
    apply bind_eq_ok_iff.mpr ⟨_, hbase, _⟩
    apply bind_eq_ok_iff.mpr ⟨_, hsource, _⟩
    apply bind_eq_ok_iff.mpr ⟨_, hmaps, _⟩
    apply guard_eq_ok_iff.mpr ⟨htoken, _⟩
    apply bind_eq_ok_iff.mpr ⟨_, hincrements, _⟩
    rw [haltText2, haltNumbers, hbinary, hspan, hpattern]
    rfl

end EnumHeader

/-! ## Values -/

/-- A value has a mask in a bitmap and nowhere else. -/
theorem EnumValue.maskOf_eq_ok_iff {h : EnumHeader} {name : String} {mask : Option Mask} :
    EnumValue.maskOf h name e = .ok mask ↔
      (h.shape = .standard ∧ mask = none ∧ e.get? Key.value = none) ∨
      (h.shape = .bitmap ∧ ∃ m, mask = some m ∧ e.get? Key.value = some m.literal ∧
        hexadecimal? m.literal = some m.bits) := by
  unfold EnumValue.maskOf
  rcases h.shape with _ | _ <;> rcases e.get? Key.value with _ | literal
  · simp [eq_comm]
  · simp
  · simp
  · constructor
    · intro hread
      dsimp only at hread
      split at hread
      · rename_i bits hbits
        cases hread
        exact Or.inr ⟨rfl, ⟨literal, bits⟩, rfl, rfl, hbits⟩
      · cases hread
    · rintro (⟨hshape, -⟩ | ⟨-, m, rfl, hliteral, hbits⟩)
      · cases hshape
      · cases hliteral
        simp only [hbits]

theorem EnumValue.mask_eq {h : EnumHeader} {name : String} {mask : Option Mask}
    (hread : EnumValue.maskOf h name e = .ok mask) :
    e.get? Key.value = mask.map (·.literal) ∧
      ∀ m, mask = some m → hexadecimal? m.literal = some m.bits := by
  rcases EnumValue.maskOf_eq_ok_iff.mp hread with ⟨-, rfl, hnone⟩ | ⟨-, m, rfl, hliteral, hbits⟩
  · exact ⟨hnone, nofun⟩
  · refine ⟨hliteral, ?_⟩
    rintro _ ⟨⟩
    exact hbits

structure EnumValue.ReadFrom (v : EnumValue) (h : EnumHeader) (e : Element) : Prop where
  name : require e Key.name = .ok v.name
  mask : EnumValue.maskOf h v.name e = .ok v.mask
  altText : EnumValue.altTextOf h v.name e = .ok v.altText
  altText2 : EnumValue.altText2Of h e = .ok v.altText2
  altNumber : (EnumValue.altNumberOf h v.name e).result = .ok v.altNumber
  text : e.get? Key.text = v.text
  span : e.span = v.span

theorem EnumValue.ofElement_ok_iff {h : EnumHeader} {v : EnumValue} :
    (EnumValue.ofElement h e).result = .ok v ↔ v.ReadFrom h e := by
  unfold EnumValue.ofElement
  simp only [Logged.bind_ok_iff]
  constructor
  · rintro ⟨name, hname, mask, hmask, altText, haltText, altText2, haltText2, altNumber,
      haltNumber, hv⟩
    cases hv
    exact ⟨hname, hmask, haltText, haltText2, haltNumber, rfl, rfl⟩
  · rintro ⟨hname, hmask, haltText, haltText2, haltNumber, htext, hspan⟩
    refine ⟨_, hname, _, hmask, _, haltText, _, haltText2, _, haltNumber, ?_⟩
    rw [htext, hspan]
    rfl

/-- A value has a text when its element has. -/
theorem EnumValue.any_text_eq {h : EnumHeader} {es : List Element} {values : List EnumValue}
    (hread : List.Forall₂ (fun child v => v.ReadFrom h child) es values) :
    es.any (fun child => (child.get? Key.text).isSome) = values.any (·.text.isSome) := by
  have htexts : es.map (·.get? Key.text) = values.map (·.text) := by
    rw [← List.forall₂_eq_eq_eq, List.forall₂_map_left_iff, List.forall₂_map_right_iff]
    exact hread.imp fun _ _ hv => hv.text
  simpa only [List.any_map, Function.comp_def] using congrArg (·.any (·.isSome)) htexts

/-! ## Entries -/

namespace EnumEntry

/-- A child counts for what its name says. -/
inductive ReadFrom (h : EnumHeader) (e : Element) : EnumEntry → Prop where
  | doc (hname : e.name = Tag.docText) : ReadFrom h e .doc
  | synonym {s : Synonym} (hname : e.name = Tag.enumSynonym)
      (hs : e.get? Key.name = some s.name) (hvalue : e.get? Key.value = some s.value) :
      ReadFrom h e (.synonym s)
  | value {v : EnumValue} (hname : e.name = Tag.enumValue) (hv : v.ReadFrom h e) :
      ReadFrom h e (.value v)

theorem ofElement_ok_iff {h : EnumHeader} {entry : EnumEntry} :
    (EnumEntry.ofElement h e).result = .ok entry ↔ ReadFrom h e entry := by
  have hsynonym : Tag.enumSynonym ≠ Tag.docText := by decide
  have hvalue : Tag.enumValue ≠ Tag.docText ∧ Tag.enumValue ≠ Tag.enumSynonym := by decide
  unfold EnumEntry.ofElement
  constructor
  · intro hread
    split at hread
    · rename_i hname
      cases hread
      exact .doc hname
    split at hread
    · rename_i hname
      obtain ⟨name, hs, hread⟩ := Logged.bind_ok_iff.mp hread
      obtain ⟨value, hv, hread⟩ := Logged.bind_ok_iff.mp hread
      cases hread
      exact .synonym hname (require_eq_ok_iff.mp hs) (require_eq_ok_iff.mp hv)
    split at hread
    · rename_i hname
      obtain ⟨v, hv, hread⟩ := Logged.bind_ok_iff.mp hread
      cases hread
      exact .value hname (EnumValue.ofElement_ok_iff.mp hv)
    · cases hread
  · intro hread
    cases hread with
    | doc hname =>
      rw [if_pos hname]
      rfl
    | synonym hname hs hv =>
      rw [if_neg (by rwa [hname]), if_pos hname]
      apply Logged.bind_ok_iff.mpr ⟨_, require_eq_ok_iff.mpr hs, _⟩
      exact Logged.bind_ok_iff.mpr ⟨_, require_eq_ok_iff.mpr hv, rfl⟩
    | value hname hv =>
      rw [if_neg (by rw [hname]; exact hvalue.1), if_neg (by rw [hname]; exact hvalue.2),
        if_pos hname]
      exact Logged.bind_ok_iff.mpr ⟨_, EnumValue.ofElement_ok_iff.mpr hv, rfl⟩

variable {h : EnumHeader} {es : List Element} {entries : List EnumEntry}

/-- The children of one name are read to the entries of one kind, in order. -/
theorem forall₂_filter_filterMap {β : Type} {S : Element → β → Prop} {tag : String}
    {part? : EnumEntry → Option β} (hread : List.Forall₂ (ReadFrom h) es entries)
    (hpart : ∀ child entry, ReadFrom h child entry →
      if child.name = tag then ∃ x, part? entry = some x ∧ S child x else part? entry = none) :
    List.Forall₂ S (es.filter (·.name == tag)) (entries.filterMap part?) := by
  induction hread with
  | nil => exact .nil
  | @cons child entry es entries hchild _ ih =>
    have h := hpart child entry hchild
    split at h
    · rename_i hname
      obtain ⟨x, hx, hS⟩ := h
      rw [List.filter_cons_of_pos (by simpa using hname), List.filterMap_cons_some hx]
      exact .cons hS ih
    · rename_i hname
      rw [List.filter_cons_of_neg (by simpa using hname), List.filterMap_cons_none h]
      exact ih

theorem forall₂_values (hread : List.Forall₂ (ReadFrom h) es entries) :
    List.Forall₂ (fun child v => v.ReadFrom h child) (es.filter (·.name == Tag.enumValue))
      (entries.filterMap (·.value?)) := by
  apply forall₂_filter_filterMap hread
  intro child entry hread
  cases hread with
  | doc hname =>
    rw [if_neg (by rw [hname]; decide)]
    rfl
  | synonym hname =>
    rw [if_neg (by rw [hname]; decide)]
    rfl
  | value hname hv =>
    rw [if_pos hname]
    exact ⟨_, rfl, hv⟩

theorem forall₂_synonyms (hread : List.Forall₂ (ReadFrom h) es entries) :
    List.Forall₂ (fun child (s : Synonym) =>
        child.get? Key.name = some s.name ∧ child.get? Key.value = some s.value)
      (es.filter (·.name == Tag.enumSynonym)) (entries.filterMap (·.synonym?)) := by
  apply forall₂_filter_filterMap hread
  intro child entry hread
  cases hread with
  | doc hname =>
    rw [if_neg (by rw [hname]; decide)]
    rfl
  | synonym hname hs hvalue =>
    rw [if_pos hname]
    exact ⟨_, rfl, hs, hvalue⟩
  | value hname =>
    rw [if_neg (by rw [hname]; decide)]
    rfl

end EnumEntry

/-! ## The whole enumeration -/

namespace Enumeration

structure ReadFrom (info : Enumeration) (entries : List EnumEntry) (e : Element) : Prop where
  header : info.toEnumHeader.ReadFrom e
  children : List.Forall₂ (EnumEntry.ReadFrom info.toEnumHeader) e.children entries
  values : info.values = entries.filterMap (·.value?)
  synonyms : info.synonyms = entries.filterMap (·.synonym?)
  nonempty : info.values ≠ []
  textSource : info.textSource = textSourceOf e info.values
  maps : ∀ m ∈ info.maps.toList, info.provides m.2 = true

theorem ofElement_ok_iff {info : Enumeration} :
    (Enumeration.ofElement e).result = .ok info ↔ ∃ entries, info.ReadFrom entries e := by
  unfold Enumeration.ofElement
  simp only [Logged.bind_ok_iff]
  constructor
  · rintro ⟨header, hheader, entries, hentries, h⟩
    rw [Logged.result_mapM, mapM_eq_ok_iff] at hentries
    simp only [EnumEntry.ofElement_ok_iff] at hentries
    split at h
    · cases h
    rename_i hnonempty
    split at h
    · cases h
    rename_i hmaps
    cases h
    refine ⟨entries, EnumHeader.ofElement_eq_ok_iff.mp hheader, hentries, rfl, rfl, ?_, rfl, ?_⟩
    · simpa using hnonempty
    · simpa using hmaps
  · rintro ⟨entries, hread⟩
    refine ⟨info.toEnumHeader, EnumHeader.ofElement_eq_ok_iff.mpr hread.header, entries, ?_, ?_⟩
    · rw [Logged.result_mapM, mapM_eq_ok_iff]
      simp only [EnumEntry.ofElement_ok_iff]
      exact hread.children
    · obtain ⟨header, values, synonyms, source⟩ := info
      obtain ⟨-, -, hvalues, hsynonyms, hnonempty, hsource, hmaps⟩ := hread
      dsimp only at hvalues hsynonyms hnonempty hsource
      subst hvalues hsynonyms hsource
      have hnone : header.maps.toList.find? (fun m => !provides ⟨header,
          entries.filterMap (·.value?), entries.filterMap (·.synonym?),
          textSourceOf e (entries.filterMap (·.value?))⟩ m.2) = none := by
        simpa using hmaps
      rw [if_neg (by simpa using hnonempty)]
      simp only [hnone]
      rfl

variable {info : Enumeration} {entries : List EnumEntry}

theorem ReadFrom.forall₂_values (h : info.ReadFrom entries e) :
    List.Forall₂ (fun child v => v.ReadFrom info.toEnumHeader child)
      (e.children.filter (·.name == Tag.enumValue)) info.values := by
  rw [h.values]
  exact EnumEntry.forall₂_values h.children

theorem ReadFrom.forall₂_synonyms (h : info.ReadFrom entries e) :
    List.Forall₂ (fun child (s : Synonym) =>
        child.get? Key.name = some s.name ∧ child.get? Key.value = some s.value)
      (e.children.filter (·.name == Tag.enumSynonym)) info.synonyms := by
  rw [h.synonyms]
  exact EnumEntry.forall₂_synonyms h.children

end Enumeration

end OrbIdl.Model
