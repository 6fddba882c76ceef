import Mathlib.Data.List.Nodup
import OrbIdl.Proofs.Reading.Enumerations
import OrbIdl.Proofs.Signatures

/-!
# The mapping table and the functions that use it

The runtime knows the texts of a row by their place and a function names its column, so both have
to count the columns alike.
-/

namespace OrbIdl.Cpp.Enum

open Model Xml

/-! ## The table -/

/-- The columns of the runtime, in its order. -/
def columnWords : List String :=
  ["None", "AltText", "AltText2", "BaseName", "Name", "Text"]

def selectors : List String :=
  columnWords.map ("TEnumMap::ETextVals::" ++ ·)

/-- The string of a row that the runtime takes for a selector. -/
def Row.select? (r : Row) (selected : String) : Option String :=
  (selectors.idxOf? selected).bind fun i => r.texts[i]?

/-- The scope of the resources that the texts of an enumeration are loaded from. -/
def loadScope? (e : Enumeration) : Option String :=
  match e.textSource with
  | .resource _ scope => some scope
  | _ => none

/-- The text of a value for a column. One that is loaded from a resource is not in the table. -/
def textOf (e : Enumeration) (v : EnumValue) : TextColumn → String
  | .off => ""
  | .altText => v.altText
  | .altText2 => v.altText2
  | .baseName => v.name
  | .name => e.name ++ "::" ++ v.name
  | .text => if (loadScope? e).isSome then "" else v.text.getD ""

theorem idxOf?_selector (c : TextColumn) :
    selectors.idxOf? (selector c) = some (match c with
      | .off => 0
      | .altText => 1
      | .altText2 => 2
      | .baseName => 3
      | .name => 4
      | .text => 5) := by
  cases c <;> decide

theorem select?_row (e : Enumeration) (v : EnumValue) (c : TextColumn) :
    (row e v).select? (selector c) = some (textOf e v c) := by
  rw [Row.select?, idxOf?_selector, Option.bind_some, row, rowTexts]
  cases c with
  | text =>
    rw [textOf, loadScope?]
    rcases e.textSource with _ | _ | _ <;> rfl
  | name => simp [textOf, toString]
  | _ => rfl

/-! ### Its text -/

/-- An array of the runtime with the items that it starts with. -/
def itemArray (t : String) (count : Nat) (items : List String) : String :=
  s!"\n\nstatic TEnumMap::TEnumValItem aeitemValues_{t}[{count}] = \n\x7b\n" ++
    String.join (items.mapIdx fun i item => (if i = 0 then "    \x7b " else "  , \x7b ") ++ item) ++
    "\n\x7d;\n\n"

def mapObject (t : String) (arguments : List String) : String :=
  s!"static TEnumMap emap{t}\n(\n     " ++ String.intercalate "\n     , " arguments ++ "\n);\n\n"

def Table.mapArguments (enclosing : String) (m : Table) : List String :=
  let t := m.name
  let gaps := if m.isContiguous then "kCIDLib::False" else "kCIDLib::True"
  let limit := if m.isContiguous then "Count" else "None"
  let facility := match m.facility with
    | some facility => s!"&fac{facility}"
    | none => "nullptr"
  [wideLiteral t, s!"{m.size}", gaps, s!"aeitemValues_{t}", facility,
    s!"tCIDLib::TCard4({enclosing}::{t}::{limit})"]

theorem renderRows_eq (enclosing t : String) (rows : List Row) :
    Table.renderRows enclosing t rows =
      String.join ((rows.map (Row.render enclosing t)).mapIdx fun i item =>
        (if i = 0 then "    \x7b " else "  , \x7b ") ++ item) := by
  cases rows with
  | nil => rfl
  | cons first rest =>
    have hrest : (rest.map fun r => "  , \x7b " ++ r.render enclosing t) =
        (rest.map (Row.render enclosing t)).mapIdx fun _ item => "  , \x7b " ++ item := by
      apply List.ext_getElem <;> simp
    simp [Table.renderRows, List.mapIdx_cons, hrest]

theorem render_table (enclosing : String) (m : Table) :
    m.render enclosing = itemArray m.name m.size (m.rows.map (Row.render enclosing m.name)) ++
      mapObject m.name (m.mapArguments enclosing) := by
  unfold Table.render itemArray mapObject Table.mapArguments wideLiteral
  dsimp only
  rw [renderRows_eq]
  generalize String.join _ = items
  apply String.toList_injective
  rcases m.facility with _ | _ <;> simp [toString]

/-! ## The functions of a mapping -/

inductive Mapping where
  | alt
  | alt2
  | format
  | load
  | textStream
  | translate
deriving DecidableEq

namespace Mapping

def column (maps : TextMaps) : Mapping → TextColumn
  | alt => maps.alt
  | alt2 => maps.alt2
  | format => maps.format
  | load => maps.load
  | textStream => maps.textStream
  | translate => maps.translate

/-- The names of the functions that a mapping is for. -/
def functions (t : String) : Mapping → List String
  | alt => ["strAltXlat" ++ t, "eAltXlat" ++ t]
  | alt2 => ["strAltXlat2" ++ t, "eAltXlat2" ++ t]
  | format => ["Format" ++ t]
  | load => ["strLoad" ++ t]
  | textStream => ["operator<<"]
  | translate => ["strXlat" ++ t, "eXlat" ++ t]

/-- What a mapping to a column defines. -/
def wrappers (t : String) (column : TextColumn) : Mapping → List Definition
  | alt => [defineToText "strAltXlat" t column, defineFromText "eAltXlat" t column]
  | alt2 => [defineToText "strAltXlat2" t column, defineFromText "eAltXlat2" t column]
  | format => [defineFormat t]
  | load => [defineToText "strLoad" t column]
  | textStream => [defineTextStream column]
  | translate => [defineToText "strXlat" t column, defineFromText "eXlat" t column]

theorem names_wrappers (t : String) (c : TextColumn) (m : Mapping) :
    (m.wrappers t c).map (·.name) = m.functions t := by
  cases m <;> rfl

theorem wrappers_defined {e : Enumeration} {m : Mapping}
    (hon : (m.column e.maps).isEnabled = true) {d : Definition}
    (hd : d ∈ m.wrappers e.name (m.column e.maps)) : d ∈ definitions e := by
  unfold definitions
  simp only [List.mem_append]
  cases m <;> simp_all [column, wrappers]

end Mapping

/-! ### No name is taken twice -/

theorem names_of_toggle (toggle : Bool) (ds : List Definition) :
    ((if toggle then ds else []).map (·.name)).Sublist (ds.map (·.name)) := by
  cases toggle
  · exact List.nil_sublist _
  · exact .refl _

theorem names_nodup (e : Enumeration) : ((definitions e).map (·.name)).Nodup := by
  have hsub : ((definitions e).map (·.name)).Sublist
      ["strAltXlat" ++ e.name, "eAltXlat" ++ e.name, "strAltXlat2" ++ e.name,
        "eAltXlat2" ++ e.name, "strLoad" ++ e.name, "Format" ++ e.name, "strXlat" ++ e.name,
        "eXlat" ++ e.name, "i4AltNum" ++ e.name, "eAltNum" ++ e.name, "operator<<",
        "TBinInStream_ReadArray", "TBinOutStream_WriteArray", "bIsValidEnum"] := by
    unfold definitions
    simp only [List.map_append]
    exact (((((((((names_of_toggle _ _).append (names_of_toggle _ _)).append
      (names_of_toggle _ _)).append (names_of_toggle _ _)).append (names_of_toggle _ _)).append
      (names_of_toggle _ _)).append (names_of_toggle _ _)).append (names_of_toggle _ _)).append
      (.refl _))
  apply hsub.nodup
  -- The stems differ before the name of the enumeration, and the plain names in their first letter.
  apply List.Nodup.of_map String.toList
  simp

/-- What is declared in the scope of the enumeration is defined under the same names. -/
theorem scoped_names_nodup (e : Enumeration) :
    ((scopedDeclarations e).map (·.name)).Nodup := by
  let s : Surroundings := ⟨false, "", ""⟩
  have hsame := (defined_perm s e).map (·.name)
  have hdefined : (defined s e).map (·.name) = (definitions e).map (·.name) := by
    simp [defined, Definition.signature, Function.comp_def]
  have hscoped : (scopedDeclarations e).map (·.name) =
      ((scopedDeclarations e).map
        (Declaration.signature (fullName s.enclosing e) .enclosing)).map (·.name) := by
    simp [Declaration.signature, Function.comp_def]
  rw [hdefined, plainSignatures, List.map_append, List.map_append, ← hscoped] at hsame
  exact (hsame.nodup_iff.mp (names_nodup e)).of_append_left.of_append_left

/-! ### Columns -/

/-- A call of the map object. -/
def mapCall (t method : String) (arguments : List String) : String :=
  s!"emap{t}.{method}(" ++ String.intercalate ", " arguments ++ ")"

/-- A function names its column where it calls the map object, or leaves it to its last parameter,
for which the header has a default. -/
inductive Selects (e : Enumeration) (full : String) (d : Definition) (column : TextColumn) : Prop
  where
  | inCall {before after method : String} {arguments : List String}
      (hline : before ++ mapCall e.name method arguments ++ after ∈ d.body.lines e.name full)
      (hnamed : arguments.filter (· ∈ selectors) = [selector column])
  | byDefault {before after method : String} {arguments : List String} {p : Parameter}
      (hline : before ++ mapCall e.name method arguments ++ after ∈ d.body.lines e.name full)
      (hnamed : arguments.filter (· ∈ selectors) = [])
      (hlast : d.params.getLast? = some p) (hpassed : p.name ∈ arguments)
      (hdeclared : ∃ q ∈ scopedDeclarations e, q.name = d.name)
      (hdefault : ∀ q ∈ scopedDeclarations e, q.name = d.name →
        q.params.getLast?.bind (·.fallback) = some (selector column))

section

variable (e : Enumeration) (full stem : String) (column : TextColumn)

theorem selects_toText : Selects e full (defineToText stem e.name column) column := by
  have hcall : "return " ++ mapCall e.name "strMapEnumVal"
        ["tCIDLib::TCard4(eVal)", selector column, "bThrowIfNot"] ++ ";" ∈
      (defineToText stem e.name column).body.lines e.name full := by
    apply List.mem_singleton.mpr
    apply String.toList_injective
    simp [mapCall, toString]
  apply Selects.inCall hcall
  cases column <;> decide

theorem selects_fromText : Selects e full (defineFromText stem e.name column) column := by
  have hcall : s!"return {full}(" ++ mapCall e.name "i4MapEnumText"
        ["strVal", selector column, "bThrowIfNot"] ++ ");" ∈
      (defineFromText stem e.name column).body.lines e.name full := by
    apply List.mem_singleton.mpr
    apply String.toList_injective
    simp [mapCall, toString]
  apply Selects.inCall hcall
  cases column <;> decide

theorem selects_textStream : Selects e full (defineTextStream column) column := by
  have hcall : "strmTar << " ++ mapCall e.name "strMapEnumVal"
        ["tCIDLib::TCard4(eVal)", selector column, "kCIDLib::False"] ++ ";" ∈
      (defineTextStream column).body.lines e.name full := by
    apply List.mem_cons.mpr
    left
    apply String.toList_injective
    simp [mapCall, toString]
  apply Selects.inCall hcall
  cases column <;> decide

theorem selects_format (hon : e.maps.format.isEnabled = true) :
    Selects e full (defineFormat e.name) e.maps.format := by
  have hcall : "" ++ mapCall e.name "FormatValues"
        ["strToFill", "strPrefix", "chSepChar", "eVal"] ++ ";" ∈
      (defineFormat e.name).body.lines e.name full := by
    apply List.mem_singleton.mpr
    apply String.toList_injective
    simp [mapCall, toString]
  have hmem : declareFormat e.name e.maps.format ∈ scopedDeclarations e := by
    simp [scopedDeclarations, hon]
  apply Selects.byDefault hcall (by decide) rfl (by decide) ⟨_, hmem, rfl⟩
  intro q hq hname
  rw [List.inj_on_of_nodup_map (scoped_names_nodup e) hq hmem hname]
  rfl

end

/-- Each function of a mapping is the one that the mapping defines. -/
theorem selects_of_name {e : Enumeration} {m : Mapping} (full : String)
    (hon : (m.column e.maps).isEnabled = true) {d : Definition} (hd : d ∈ definitions e)
    (hname : d.name ∈ m.functions e.name) : Selects e full d (m.column e.maps) := by
  rw [← m.names_wrappers e.name (m.column e.maps), List.mem_map] at hname
  obtain ⟨w, hw, hname⟩ := hname
  rw [← List.inj_on_of_nodup_map (names_nodup e) (m.wrappers_defined hon hw) hd hname]
  cases m
  all_goals simp only [Mapping.wrappers, List.mem_cons, List.not_mem_nil, or_false] at hw
  case format =>
    rw [hw]
    exact selects_format e full hon
  case load =>
    rw [hw]
    exact selects_toText e full _ _
  case textStream =>
    rw [hw]
    exact selects_textStream e full _
  all_goals
    rcases hw with rfl | rfl
    · exact selects_toText e full _ _
    · exact selects_fromText e full _ _

/-! ## Agreement -/

/-- Two signals of which one has a text. -/
def signals : Element :=
  let span : Span := ⟨0, 0⟩
  ⟨Tag.enumeration, span,
    [⟨Key.name, "ESignal", span, false⟩, ⟨Key.formatMap, "Name", span, false⟩,
      ⟨Key.loadMap, "Text", span, false⟩, ⟨Key.messageFacility, "Sea", span, false⟩,
      ⟨Key.messageNamespace, "kSeaMsgs", span, false⟩], "",
    [⟨Tag.enumValue, span, [⟨Key.name, "Red", span, false⟩, ⟨Key.text, "midRed", span, false⟩], "",
        []⟩,
      ⟨Tag.enumValue, span, [⟨Key.name, "Dark", span, false⟩], "", []⟩]⟩

def signalInfo : Enumeration where
  name := "ESignal"
  shape := .standard
  base := none
  altTextSource := .off
  altPattern := ""
  altText2 := false
  altNumbers := false
  binaryStream := false
  increments := .off
  maps := ⟨.off, .off, .name, .text, .off, .off⟩
  span := ⟨0, 0⟩
  values := [
    ⟨"Red", none, some "midRed", "", "", 0, ⟨0, 0⟩⟩, ⟨"Dark", none, none, "", "", 0, ⟨0, 0⟩⟩]
  synonyms := []
  textSource := .resource "Sea" "kSeaMsgs"

theorem ofElement_signals : (Enumeration.ofElement signals).result = .ok signalInfo := by
  rfl

/-- The id of a text in the scope that it is loaded from, or the sentinel where there is none. -/
def ownId : Option String → Option String → String
  | some scope, some text => scope ++ "::" ++ text
  | _, _ => "0"

/-- The scope of the resources for an element: one of its values has a text, and the resources are
named in full. -/
def scopeOf? (t : Element) : Option String :=
  let values := t.children.filter (·.name == Tag.enumValue)
  if values.any fun child => (child.get? Key.text).isSome then
    (t.get? Key.messageFacility).bind fun _ => t.get? Key.messageNamespace
  else none

theorem loadScope?_eq {t : Element} {info : Enumeration} {entries : List EnumEntry}
    (h : info.ReadFrom entries t) : loadScope? info = scopeOf? t := by
  have hany := EnumValue.any_text_eq h.forall₂_values
  rw [loadScope?, h.textSource, Enumeration.textSourceOf, scopeOf?]
  simp only [hany]
  cases info.values.any fun v => v.text.isSome
  · rfl
  · rcases t.get? Key.messageFacility with _ | _ <;>
      rcases t.get? Key.messageNamespace with _ | _ <;> rfl

theorem rowResourceId_eq (e : Enumeration) (v : EnumValue) :
    rowResourceId e v = match loadScope? e with
      | some scope => scope ++ "::" ++ v.text.getD ""
      | none => "0" := by
  rw [rowResourceId, loadScope?]
  rcases e.textSource with _ | _ | _ <;> simp [toString]

/-- The scope alone is no sentinel. -/
theorem scope_ne_sentinel (scope : String) : scope ++ "::" ≠ "0" := by
  intro h
  have hlength := congrArg String.length h
  rw [String.length_append] at hlength
  change scope.length + 2 = 1 at hlength
  omega

/-- Each row has the id of its own text or the sentinel, but for a value without a text among others
whose texts are loaded: its row has the bare scope. -/
theorem resourceIds_own_iff {t : Element} {info : Enumeration}
    (hread : (Enumeration.ofElement t).result = .ok info) (enclosing : String) :
    let rows := (table info).rows
    (∃ rest, implementation enclosing info =
      itemArray info.name rows.length (rows.map (Row.render enclosing info.name)) ++ rest) ∧
    List.Forall₂ (fun child r =>
        let text? := child.get? Key.text
        (r.resourceId = ownId (scopeOf? t) text? ↔ ¬((scopeOf? t).isSome ∧ text? = none)) ∧
        ∀ scope, scopeOf? t = some scope → text? = none → r.resourceId = scope ++ "::")
      (t.children.filter (·.name == Tag.enumValue)) rows := by
  intro rows
  obtain ⟨entries, hread⟩ := Enumeration.ofElement_ok_iff.mp hread
  have hlength : (table info).size = rows.length := by simp [rows, table]
  constructor
  · rw [implementation, render_table, hlength, String.append_assoc]
    exact ⟨_, rfl⟩
  · simp only [rows, table, List.forall₂_map_right_iff]
    apply hread.forall₂_values.imp
    intro child v hv
    simp only [row, rowResourceId_eq, loadScope?_eq hread, hv.text]
    rcases scopeOf? t with _ | scope
    · simp [ownId]
    rcases v.text with _ | text
    · simp [ownId, scope_ne_sentinel]
    · simp [ownId]

theorem signals_ids :
    (Enumeration.ofElement signals).result = .ok signalInfo ∧
      (table signalInfo).rows.map (·.resourceId) = ["kSeaMsgs::midRed", "kSeaMsgs::"] := by
  obtain ⟨-, hrows⟩ := resourceIds_own_iff ofElement_signals "TSea"
  obtain ⟨hred, hrows⟩ := List.forall₂_cons.mp hrows
  obtain ⟨hdark, -⟩ := List.forall₂_cons.mp hrows
  have hred := hred.1.mpr (by decide)
  have hdark := hdark.2 "kSeaMsgs" rfl rfl
  exact ⟨ofElement_signals, congrArg₂ (fun a b => [a, b]) hred hdark⟩

/-- The value without a text has an id that is not the sentinel. -/
theorem dark_not_sentinel :
    (Enumeration.ofElement signals).result = .ok signalInfo ∧
      ¬List.Forall₂ (fun child r => r.resourceId = ownId (scopeOf? signals) (child.get? Key.text))
        (signals.children.filter (·.name == Tag.enumValue)) (table signalInfo).rows := by
  refine ⟨ofElement_signals, ?_⟩
  intro hrows
  obtain ⟨-, hrows⟩ := List.forall₂_cons.mp hrows
  obtain ⟨hdark, -⟩ := List.forall₂_cons.mp hrows
  exact absurd hdark (by decide)

end OrbIdl.Cpp.Enum
