import OrbIdl.Proofs.Report.Columns
import OrbIdl.Report.Report

/-!
# Spans without a column

A span has no column if an end that matters lies inside a character. It has none either if it begins
behind the carriage return at the end of a line, though a character ends there.
-/

namespace OrbIdl.Text

/-! ## Beginnings of a text -/

variable {n : Nat} {cs : List Char}

theorem takeBytes?_eq_none_iff :
    takeBytes? n cs = none ↔ ¬∃ lead, lead <+: cs ∧ byteSize lead = n := by
  rw [Option.eq_none_iff_forall_ne_some]
  constructor
  · rintro hnone ⟨lead, ⟨rest, rfl⟩, rfl⟩
    exact hnone lead (takeBytes?_append lead rest)
  · intro hnone lead hlead
    obtain ⟨rest, hparts, hsize⟩ := eq_append_of_takeBytes? hlead
    exact hnone ⟨lead, ⟨rest, hparts.symm⟩, hsize⟩

/-- A byte between characters, or at one of the ends, comes behind a beginning of the text. -/
theorem isValid_iff {text : String} :
    (⟨n⟩ : String.Pos.Raw).IsValid text ↔ ∃ lead, lead <+: text.toList ∧ byteSize lead = n := by
  rw [String.Pos.Raw.isValid_iff_exists_append]
  constructor
  · rintro ⟨lead, rest, rfl, hn⟩
    refine ⟨lead.toList, ?_, ?_⟩
    · rw [String.toList_append]
      exact List.prefix_append _ _
    · rw [← utf8ByteSize_eq]
      exact (congrArg String.Pos.Raw.byteIdx hn).symm
  · rintro ⟨lead, ⟨rest, hparts⟩, hsize⟩
    refine ⟨String.ofList lead, String.ofList rest, ?_, ?_⟩
    · rw [← String.ofList_append, hparts, String.ofList_toList]
    · rw [← hsize, ← String.toList_ofList (l := lead), ← utf8ByteSize_eq, String.toList_ofList]
      rfl

end OrbIdl.Text

namespace OrbIdl.Report

open Text

variable {text : String} {before line after shown : List Char} {offset n : Nat}

theorem columnOf_eq_none_iff {start stop : Nat} :
    columnOf line start stop = none ↔
      takeBytes? start line = none ∨ takeBytes? stop line = none := by
  unfold columnOf
  cases hlead : takeBytes? start line with
  | none => simp
  | some lead =>
    by_cases hempty : start = stop
    · subst hempty
      simp [hlead]
    · cases hcovered : takeBytes? stop line <;> simp [hempty]

/-- A beginning of the text that ends on the line is all before the line and a beginning of it. -/
theorem Around.exists_part {text lead : List Char} (h : Around text offset before line after)
    (hlead : lead <+: text) (hbegins : byteSize before ≤ byteSize lead)
    (hends : byteSize lead ≤ byteSize before + byteSize line) :
    ∃ part, part <+: line ∧ lead = before ++ part := by
  rw [h.parts, List.append_assoc] at hlead
  obtain ⟨part, rfl⟩ := prefix_of_byteSize_le (List.prefix_append _ _) hlead hbegins
  rw [byteSize_append] at hends
  exact ⟨part, prefix_of_byteSize_le ((List.prefix_append_right_inj _).mp hlead)
    (List.prefix_append _ _) (by omega), rfl⟩

/-- On a line, the bytes between characters are those behind a beginning of the line. -/
theorem Around.isValid_iff (h : Around text.toList offset before line after)
    (hbegins : byteSize before ≤ n) (hends : n ≤ byteSize before + byteSize line) :
    (⟨n⟩ : String.Pos.Raw).IsValid text ↔
      ∃ lead, lead <+: line ∧ byteSize lead = n - byteSize before := by
  rw [Text.isValid_iff]
  constructor
  · rintro ⟨lead, hlead, rfl⟩
    obtain ⟨part, hpart, rfl⟩ := h.exists_part hlead hbegins hends
    refine ⟨part, hpart, ?_⟩
    rw [byteSize_append]
    omega
  · rintro ⟨part, hpart, hsize⟩
    refine ⟨before ++ part, ?_, by rw [byteSize_append]; omega⟩
    rw [h.parts, List.append_assoc, List.prefix_append_right_inj]
    exact hpart.trans (List.prefix_append _ _)

/-! ## Behind a carriage return -/

/-- Byte `n` comes behind a carriage return that ends a line. -/
def BehindReturn (text : List Char) (n : Nat) : Prop :=
  ∃ before after, text = before ++ '\r' :: after ∧ byteSize before + 1 = n ∧
    ∀ c ∈ after.head?, c = '\n'

/-- A character other than a newline is the last one of its line if a newline or the end of the text
comes next. -/
theorem Around.line_eq_concat {text lead rest : List Char} {c : Char}
    (h : Around text offset before line after) (htext : text = lead ++ [c] ++ rest)
    (hoffset : byteSize (lead ++ [c]) = offset) (hc : c ≠ '\n')
    (hnext : ∀ d ∈ rest.head?, d = '\n') :
    line.getLast? = some c ∧ offset = byteSize before + byteSize line := by
  obtain ⟨part, ⟨tail, rfl⟩, hpart⟩ := h.exists_part ⟨rest, htext.symm⟩
    (hoffset ▸ h.begins) (hoffset ▸ h.ends)
  have htail : tail = [] := by
    have hrest : rest = tail ++ after := by
      have hparts := h.parts
      rw [htext, hpart, List.append_assoc, List.append_assoc, List.append_assoc] at hparts
      exact List.append_cancel_left (List.append_cancel_left hparts)
    cases tail with
    | nil => rfl
    | cons d tail =>
      obtain rfl := hnext d (by rw [hrest]; rfl)
      exact absurd (List.mem_append_right _ List.mem_cons_self) h.free
  rw [htail, List.append_nil]
  refine ⟨?_, by rw [← hoffset, hpart, byteSize_append]⟩
  have hlast := congrArg List.getLast? hpart
  rw [List.getLast?_concat, List.getLast?_append] at hlast
  cases hpartLast : part.getLast? with
  | none =>
    rw [hpartLast] at hlast
    exact absurd (h.left c hlast.symm) hc
  | some d =>
    rw [hpartLast] at hlast
    exact hlast.symm

/-- That is where the line ends, and its carriage return is not shown. -/
theorem Around.behindReturn_iff (h : Around text.toList offset before line after)
    (hshown : ShownAs line shown) :
    BehindReturn text.toList offset ↔
      line = shown ++ ['\r'] ∧ offset = byteSize before + byteSize line := by
  constructor
  · rintro ⟨lead, rest, hparts, hsize, hright⟩
    obtain ⟨hlast, hends⟩ := h.line_eq_concat (by rw [hparts, List.append_cons])
      (by rw [byteSize_append]; exact hsize) (by decide) hright
    obtain hreturn | ⟨-, hnone⟩ := hshown
    · exact ⟨hreturn, hends⟩
    · exact absurd hlast hnone
  · rintro ⟨rfl, hends⟩
    refine ⟨before ++ shown, after, ?_, ?_, h.right⟩
    · rw [h.parts]
      simp
    · rw [hends, byteSize_append, byteSize_append]
      rfl

/-- Up to where a line is shown, it begins as the line does; behind that, there is only the end of a
carriage return. -/
theorem ShownAs.exists_lead_iff (h : ShownAs line shown) :
    (∃ lead, lead <+: shown ∧ byteSize lead = n) ↔
      (∃ lead, lead <+: line ∧ byteSize lead = n) ∧
        ¬(line = shown ++ ['\r'] ∧ n = byteSize line) := by
  obtain rfl | ⟨rfl, -⟩ := h
  · have hsize : byteSize (shown ++ ['\r']) = byteSize shown + 1 := by
      rw [byteSize_append]
      rfl
    constructor
    · rintro ⟨lead, hlead, rfl⟩
      obtain ⟨rest, rfl⟩ := hlead
      refine ⟨⟨lead, ?_, rfl⟩, ?_⟩
      · rw [List.append_assoc]
        exact List.prefix_append _ _
      · rw [hsize, byteSize_append]
        omega
    · rintro ⟨⟨lead, hlead, rfl⟩, hend⟩
      obtain rfl | hlead := List.prefix_concat_iff.mp hlead
      · exact absurd ⟨rfl, rfl⟩ hend
      · exact ⟨lead, hlead, rfl⟩
  · simp

/-! ## Missing columns -/

/-- The first byte of a span has no place on the line that is shown. -/
theorem Around.takeBytes?_eq_none_iff (h : Around text.toList offset before line after)
    (hshown : ShownAs line shown) :
    takeBytes? (offset - byteSize before) shown = none ↔
      ¬(⟨offset⟩ : String.Pos.Raw).IsValid text ∨ BehindReturn text.toList offset := by
  have hbegins := h.begins
  rw [Text.takeBytes?_eq_none_iff, hshown.exists_lead_iff, h.isValid_iff hbegins h.ends,
    h.behindReturn_iff hshown, not_and_or, not_not]
  have hsize : offset - byteSize before = byteSize line ↔
      offset = byteSize before + byteSize line := by
    omega
  rw [hsize]

/-- The end of a span counts up to where the line is shown. -/
theorem Around.takeBytes?_stop_eq_none_iff (h : Around text.toList offset before line after)
    (hshown : ShownAs line shown) {stop : Nat} (hle : offset ≤ stop)
    (hlead : takeBytes? (offset - byteSize before) shown ≠ none) :
    takeBytes? (max (min stop (byteSize before + byteSize shown) - byteSize before)
        (offset - byteSize before)) shown = none ↔
      ¬(⟨stop⟩ : String.Pos.Raw).IsValid text ∧ stop < byteSize before + byteSize shown := by
  have hbegins := h.begins
  obtain ⟨lead, hlead⟩ := Option.ne_none_iff_exists'.mp hlead
  obtain ⟨rest, rfl, hsize⟩ := eq_append_of_takeBytes? hlead
  have hfits := hshown.byteSize_le
  by_cases hstop : stop < byteSize before + byteSize (lead ++ rest)
  · have hmax : max (min stop (byteSize before + byteSize (lead ++ rest)) - byteSize before)
        (offset - byteSize before) = stop - byteSize before := by
      omega
    have hinside : ¬(line = lead ++ rest ++ ['\r'] ∧ stop - byteSize before = byteSize line) := by
      omega
    rw [hmax, Text.takeBytes?_eq_none_iff, hshown.exists_lead_iff,
      h.isValid_iff (by omega) (by omega)]
    simp only [hinside, not_false_eq_true, and_true, hstop]
  · have hmax : max (min stop (byteSize before + byteSize (lead ++ rest)) - byteSize before)
        (offset - byteSize before) = byteSize (lead ++ rest) := by
      rw [byteSize_append] at hstop ⊢
      omega
    have hall := takeBytes?_append (lead ++ rest) []
    rw [List.append_nil] at hall
    rw [hmax, hall]
    exact iff_of_false nofun fun hinside => hstop hinside.2

theorem systemLabels_eq_nil_iff {l : Location} : systemLabels (.ok l) = [] ↔ l.column ≠ none := by
  unfold systemLabels
  dsimp only
  split
  · rename_i hsome
    exact iff_of_true rfl (Option.isSome_iff_ne_none.mp hsome)
  · rename_i hnone
    exact iff_of_false (List.cons_ne_nil _ _) (not_not.mpr (Option.not_isSome_iff_eq_none.mp hnone))

/-- A span within the text has no column, and is said to split a character, just when it begins
inside a character or behind the carriage return of a line end, or ends inside a character of the
line that is shown. -/
theorem column_missing_iff (text : String) (span : Span)
    (h : span.stop.toNat ≤ text.utf8ByteSize) :
    ∃ l, locate text span = .ok l ∧ (systemLabels (.ok l) = [] ↔ l.column ≠ none) ∧
      (l.column = none ↔
        ¬(⟨span.offset.toNat⟩ : String.Pos.Raw).IsValid text ∨
        BehindReturn text.toList span.offset.toNat ∨
        (¬(⟨span.stop.toNat⟩ : String.Pos.Raw).IsValid text ∧
          span.stop.toNat < (lineAt text.toList span.offset.toNat).stop)) := by
  refine ⟨_, locate_eq_ok h, systemLabels_eq_nil_iff, ?_⟩
  obtain ⟨before, after, haround, hstart, hstop, -⟩ := lineAt_of_within h
  generalize lineAt text.toList span.offset.toNat = line at *
  show columnOf _ _ _ = none ↔ _
  rw [columnOf_eq_none_iff, hstart, hstop, ← or_assoc,
    ← haround.takeBytes?_eq_none_iff line.shownAs]
  exact or_congr_right' (haround.takeBytes?_stop_eq_none_iff line.shownAs span.offset_le_stop)

/-- A line end that is shown with its line has a column. -/
theorem whole_line_has_column :
    let text := "\u4E2D\r\n"
    (⟨0, 5⟩ : Span).stop.toNat ≤ text.utf8ByteSize ∧
      ∃ l, locate text ⟨0, 5⟩ = .ok l ∧ l.column ≠ none := by
  intro text
  have hwithin : (⟨0, 5⟩ : Span).stop.toNat ≤ text.utf8ByteSize := by decide
  obtain ⟨l, hl, -, hmissing⟩ := column_missing_iff text ⟨0, 5⟩ hwithin
  refine ⟨hwithin, l, hl, fun hnone => ?_⟩
  obtain hinside | ⟨before, after, -, hsize, -⟩ | ⟨-, hshort⟩ := hmissing.mp hnone
  · exact hinside (isValid_iff.mpr ⟨[], List.nil_prefix, rfl⟩)
  · cases hsize
  · exact absurd hshort (by decide +kernel)

/-- The newline behind a carriage return has no column, though no character is split. -/
theorem newline_without_column :
    let text := "a\r\n"
    let span : Span := ⟨2, 1⟩
    (⟨span.offset.toNat⟩ : String.Pos.Raw).IsValid text ∧
      (⟨span.stop.toNat⟩ : String.Pos.Raw).IsValid text ∧
      ∃ l, locate text span = .ok l ∧ l.column = none ∧ systemLabels (.ok l) ≠ [] := by
  intro text span
  have hl : locate text span = .ok ⟨span, 1, none, ⟨0, 1⟩, "a"⟩ := by
    rw [← toOption_eq_some_iff]
    decide +kernel
  refine ⟨isValid_iff.mpr ⟨['a', '\r'], ⟨['\n'], by decide⟩, rfl⟩,
    isValid_iff.mpr ⟨text.toList, List.prefix_rfl, by decide⟩, _, hl, rfl, ?_⟩
  exact fun hnil => systemLabels_eq_nil_iff.mp hnil rfl

end OrbIdl.Report
