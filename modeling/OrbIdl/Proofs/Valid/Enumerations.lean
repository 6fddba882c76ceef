import OrbIdl.Proofs.Reading.Enumerations
import OrbIdl.Proofs.Valid.Leftover
import OrbIdl.Proofs.Valid.Types

/-! # Enumerations of a valid tree -/

namespace OrbIdl.Model

open Xml Schema

variable {e : Element}

/-! ## Options -/

namespace EnumHeader

section

variable (h : Valid interfaceDocument e) (he : e.name = Tag.enumeration)
include h he

theorem shape_never_fails (decl : String) : NeverFails (shapeOf decl e) := by
  have hlisted : optionOr e Key.type "Std" ∈ ["Std", "Bmp"] :=
    optionOr_of_valid h he (by rfl) (by decide)
  unfold shapeOf
  obtain hvalue | hvalue := List.mem_pair.mp hlisted
  · rw [hvalue]
    exact .ok _
  · rw [hvalue]
    exact .ok _

theorem altTextSource_never_fails (decl : String) : NeverFails (altTextSourceOf decl e) := by
  have hlisted : optionOr e Key.altTextSource no ∈ ["No", "Inline", "Pattern"] :=
    optionOr_of_valid h he (by rfl) (by decide)
  unfold altTextSourceOf
  simp only [List.mem_cons, List.not_mem_nil, or_false] at hlisted
  obtain hvalue | hvalue | hvalue := hlisted
  all_goals
    rw [hvalue]
    exact .ok _

theorem increments_never_fails (decl : String) : NeverFails (incrementsOf decl e) := by
  have hlisted : optionOr e Key.increments no ∈ ["No", "Inc", "Both"] :=
    optionOr_of_valid h he (by rfl) (by decide)
  unfold incrementsOf
  simp only [List.mem_cons, List.not_mem_nil, or_false] at hlisted
  obtain hvalue | hvalue | hvalue := hlisted
  all_goals
    rw [hvalue]
    exact .ok _

theorem namedBase_never_fails : NeverFails (namedBase e) := by
  unfold namedBase
  cases hvalue : e.get? Key.baseType with
  | none => exact .ok _
  | some name =>
    have hadmits :
        (AttributeType.oneOfEntity Position.enumBase.entity).Admits interfaceDocument name :=
      h.admits he (by rfl) hvalue
    rw [AttributeType.Admits, entityValues_entity] at hadmits
    obtain hdefault | ⟨type, htype⟩ := exists_type_of_baseName hadmits
    · simp only [if_pos hdefault]
      exact .ok _
    · simp only [htype]
      split
      · exact .ok _
      · exact .ok _

theorem base_fails_only (decl : String) (shape : EnumShape) :
    FailsOnly (Leftover e) (baseOf decl shape e) := by
  unfold baseOf
  refine .bind (.of_never (namedBase_never_fails h he)) fun base _ => ?_
  cases shape with
  | standard => exact .ok _
  | bitmap =>
    cases base with
    | none => exact .ok _
    | some base =>
      have hsigned :
          Leftover e (.malformed decl (.bitmapBaseSigned base) (e.spanOf Key.baseType)) :=
        .of_malformed decl _ rfl nofun
      simp only
      split
      · exact .ok _
      · exact .error hsigned

theorem column_never_fails (decl key : String) (hkey : key ∈ mappingKeys) :
    NeverFails (columnOf decl e key) := by
  have hdeclared : ∀ key ∈ mappingKeys, interfaceDocument.attribute? Tag.enumeration key =
      some ⟨key, .oneOf textColumns, .value no⟩ := by decide
  have hcolumns : ∀ value ∈ textColumns, (TextColumn.ofName? value).isSome := by decide
  have hlisted := optionOr_of_valid h he (hdeclared key hkey) (by decide)
  obtain ⟨column, hcolumn⟩ := Option.isSome_iff_exists.mp (hcolumns _ hlisted)
  unfold columnOf
  simp only [hcolumn]
  exact .ok column

theorem maps_never_fail (decl : String) : NeverFails (mapsOf decl e) := by
  have hcolumn (key : String) (hkey : key ∈ mappingKeys) := column_never_fails h he decl key hkey
  unfold mapsOf
  refine .bind (hcolumn Key.altMap (by decide)) fun _ _ => ?_
  refine .bind (hcolumn Key.altMap2 (by decide)) fun _ _ => ?_
  refine .bind (hcolumn Key.formatMap (by decide)) fun _ _ => ?_
  refine .bind (hcolumn Key.loadMap (by decide)) fun _ _ => ?_
  refine .bind (hcolumn Key.textStreamMap (by decide)) fun _ _ => ?_
  exact .bind (hcolumn Key.translateMap (by decide)) fun _ _ => .ok _

theorem fails_only : FailsOnly (Leftover e) (EnumHeader.ofElement e) := by
  obtain ⟨name, hname, _⟩ := require_of_valid h he Key.name (by rfl) rfl
  unfold EnumHeader.ofElement
  refine .bind_of_ok hname ?_
  refine .bind (.of_never (shape_never_fails h he name)) fun shape _ => ?_
  refine .bind (base_fails_only h he name shape) fun base _ => ?_
  refine .bind (.of_never (altTextSource_never_fails h he name)) fun source _ => ?_
  refine .bind (.of_never (maps_never_fail h he name)) fun maps _ => ?_
  refine .guard (.of_malformed name _ rfl nofun) ?_
  exact .bind (.of_never (increments_never_fails h he name)) fun _ _ => .ok _

end

theorem get?_of_altTextSource {decl : String} (h : altTextSourceOf decl e = .ok .inline) :
    e.get? Key.altTextSource = some "Inline" := by
  have hvalue : optionOr e Key.altTextSource no = "Inline" := altTextSourceOf_eq_ok_iff.mp h
  unfold optionOr at hvalue
  rcases hgiven : e.get? Key.altTextSource with _ | value
  · rw [hgiven] at hvalue
    exact absurd hvalue (by decide)
  · rw [hgiven, Option.getD_some] at hvalue
    rw [hvalue]

/-- What the header says about the texts of values stands in its attributes. -/
theorem texts_of_ofElement {header : EnumHeader} (h : EnumHeader.ofElement e = .ok header) :
    (header.altTextSource = .inline → e.get? Key.altTextSource = some "Inline") ∧
    (header.altText2 = true → e.get? Key.altText2 = some yes) := by
  have hread := ofElement_eq_ok_iff.mp h
  constructor
  · intro hinline
    exact get?_of_altTextSource (hinline ▸ hread.altTextSource)
  · intro hyes
    exact beq_iff_eq.mp (hread.altText2.trans hyes)

end EnumHeader

/-! ## Values -/

theorem require_fails_only {root : Element} {key : String}
    (h : Unrequired root ⟨e.name, key, e.span⟩) : FailsOnly (Leftover root) (require e key) := by
  unfold require Element.require
  cases e.get? key with
  | none => exact .error (.of_missing h)
  | some value => exact .ok value

namespace EnumValue

theorem mask_fails_only (header : EnumHeader) (name : String) :
    FailsOnly (Leftover e) (maskOf header name e) := by
  unfold maskOf
  split
  · exact .error (.of_malformed header.name _ rfl nofun)
  · exact .ok _
  · exact .error (.of_malformed header.name _ rfl nofun)
  · split
    · exact .ok _
    · exact .error (.of_malformed header.name _ rfl nofun)

theorem altNumber_fails_only (header : EnumHeader) (name : String) :
    FailsOnly (Leftover e) (altNumberOf header name e).result := by
  unfold altNumberOf
  split
  · exact .ok _
  · split
    · exact .ok _
    · exact .error (.of_malformed header.name _ rfl nofun)
  · exact Logged.failsOnly_bind (.ok ()) fun _ _ => .ok _

variable {root : Element} {header : EnumHeader}

/-- A value of the enumeration `root` may break a rule of its own, or lack a text that the
enumeration wants. -/
theorem fails_only (h : Valid interfaceDocument root) (hroot : root.name = Tag.enumeration)
    (hheader : EnumHeader.ofElement root = .ok header) (hmem : e ∈ root.children)
    (he : e.name = Tag.enumValue) :
    FailsOnly (Leftover root) (EnumValue.ofElement header e).result := by
  obtain ⟨name, hname, _⟩ := require_of_valid (h.child hmem) he Key.name (by rfl) rfl
  obtain ⟨hinline, hsecond⟩ := EnumHeader.texts_of_ofElement hheader
  have haltText : FailsOnly (Leftover root) (altTextOf header name e) := by
    unfold altTextOf
    split
    · exact .ok _
    · rename_i hsource
      exact require_fails_only (.altText (.root root) hroot hmem he (hinline hsource))
    · exact .ok _
  have haltText2 : FailsOnly (Leftover root) (altText2Of header e) := by
    unfold altText2Of
    split
    · rename_i hwanted
      exact require_fails_only (.altText2 (.root root) hroot hmem he (hsecond hwanted))
    · exact .ok _
  unfold EnumValue.ofElement
  refine Logged.failsOnly_bind_of_ok hname ?_
  have hmask := (mask_fails_only (e := e) header name).mono fun _ => Leftover.of_child hmem
  refine Logged.failsOnly_bind hmask fun _ _ => ?_
  refine Logged.failsOnly_bind haltText fun _ _ => ?_
  refine Logged.failsOnly_bind haltText2 fun _ _ => ?_
  refine Logged.failsOnly_bind ?_ fun _ _ => .ok _
  exact (altNumber_fails_only header name).mono fun _ => Leftover.of_child hmem

end EnumValue

theorem EnumEntry.fails_only {root : Element} {header : EnumHeader}
    (h : Valid interfaceDocument root) (hroot : root.name = Tag.enumeration)
    (hheader : EnumHeader.ofElement root = .ok header) (hmem : e ∈ root.children) :
    FailsOnly (Leftover root) (EnumEntry.ofElement header e).result := by
  have hname : e.name ∈ [Tag.docText, Tag.enumValue, Tag.enumSynonym] :=
    h.childName_mem hroot (by rfl) hmem
  unfold EnumEntry.ofElement
  by_cases hdoc : e.name = Tag.docText
  · rw [if_pos hdoc]
    exact .ok _
  rw [if_neg hdoc]
  by_cases hsynonym : e.name = Tag.enumSynonym
  · rw [if_pos hsynonym]
    obtain ⟨name, hname, _⟩ := require_of_valid (h.child hmem) hsynonym Key.name (by rfl) rfl
    obtain ⟨i, hi⟩ := List.getElem?_of_mem hmem
    have hmissing : Unrequired root ⟨e.name, Key.value, e.span⟩ :=
      .synonymValue (.child trivial hi (.root e)) hsynonym
    refine Logged.failsOnly_bind_of_ok hname ?_
    exact Logged.failsOnly_bind (require_fails_only hmissing) fun _ _ => .ok _
  rw [if_neg hsynonym]
  have hvalue : e.name = Tag.enumValue := by simpa [hdoc, hsynonym] using hname
  rw [if_pos hvalue]
  exact Logged.failsOnly_bind (EnumValue.fails_only h hroot hheader hmem hvalue) fun _ _ => .ok _

/-! ## The whole enumeration -/

theorem EnumEntry.value?_of_ofElement {header : EnumHeader} {entry : EnumEntry}
    (h : (EnumEntry.ofElement header e).result = .ok entry) (he : e.name = Tag.enumValue) :
    ∃ value, entry.value? = some value := by
  cases EnumEntry.ofElement_ok_iff.mp h with
  | doc hname => exact absurd (hname.symm.trans he) (by decide)
  | synonym hname => exact absurd (hname.symm.trans he) (by decide)
  | value => exact ⟨_, rfl⟩

theorem Enumeration.fails_only (h : Valid interfaceDocument e) (he : e.name = Tag.enumeration) :
    FailsOnly (Leftover e) (Enumeration.ofElement e).result := by
  unfold Enumeration.ofElement
  refine Logged.failsOnly_bind (EnumHeader.fails_only h he) fun header hheader => ?_
  have hentries : FailsOnly (Leftover e) (e.children.mapM (EnumEntry.ofElement header)).result := by
    rw [Logged.result_mapM]
    exact .mapM fun child hchild => EnumEntry.fails_only h he hheader hchild
  refine Logged.failsOnly_bind hentries fun entries hread => ?_
  -- The content model asks for one value at least, and a value is read as a value.
  have hvalues : ¬ (entries.filterMap (·.value?)).isEmpty = true := by
    obtain ⟨child, hchild, hname⟩ := exists_enumValue_of_valid h he
    rw [Logged.result_mapM] at hread
    obtain ⟨entry, hentry, hread⟩ := exists_of_mapM_eq_ok hread hchild
    obtain ⟨value, hvalue⟩ := EnumEntry.value?_of_ofElement hread hname
    intro hempty
    have hmem : value ∈ entries.filterMap (·.value?) :=
      List.mem_filterMap.mpr ⟨entry, hentry, hvalue⟩
    rw [List.isEmpty_iff.mp hempty] at hmem
    exact List.not_mem_nil hmem
  dsimp only
  rw [if_neg hvalues]
  split
  · exact .error (.of_malformed _ _ rfl nofun)
  · exact .ok _

end OrbIdl.Model
