import OrbIdl.Proofs.Report.Columns
import OrbIdl.Report.Report

/-!
# Headings that count bytes

Where a span has no column, its heading counts bytes from the beginning of the line. The count is
true if the span ends on the line; else the heading says `0--0`.
-/

namespace OrbIdl

namespace Span

/-! ## Spans on a line -/

variable {s : Span} {start stop : Nat}

theorem toNat_offset_ofInterval_of_le (h : start ≤ s.offset.toNat) :
    (ofInterval start stop).offset.toNat = start := by
  have := s.offset.toNat_lt
  simp only [ofInterval, ofBytes, toNat_clamp, UInt32.size]
  omega

theorem toNat_stop_ofInterval_of_le (hstart : start ≤ s.offset.toNat) (hle : start ≤ stop) :
    (ofInterval start stop).stop.toNat = min stop (UInt32.size - 1) := by
  have := s.offset.toNat_lt
  simp only [toNat_stop, ofInterval, ofBytes, toNat_clamp, UInt32.size]
  omega

/-- A span that begins on a line is within it if it ends there. -/
theorem within_ofInterval_iff (hstart : start ≤ s.offset.toNat) (hle : start ≤ stop) :
    s.Within (ofInterval start stop) ↔ s.stop.toNat ≤ stop := by
  have hlt := s.stop.toNat_lt
  simp only [Within, UInt32.le_iff_toNat_le, toNat_offset_ofInterval_of_le hstart,
    toNat_stop_ofInterval_of_le hstart hle, UInt32.size]
  omega

theorem relativeTo?_ofInterval (hstart : start ≤ s.offset.toNat) (hle : start ≤ stop)
    (hstop : s.stop.toNat ≤ stop) :
    ∃ rel, s.relativeTo? (ofInterval start stop) = some rel ∧
      rel.offset.toNat = s.offset.toNat - start ∧
      rel.stop.toNat = min (s.offset.toNat - start + s.length.toNat) (UInt32.size - 1) := by
  have hoffset : (ofInterval start stop).offset.toNat = start :=
    toNat_offset_ofInterval_of_le hstart
  have hsub : (s.offset - (ofInterval start stop).offset).toNat = s.offset.toNat - start := by
    rw [UInt32.toNat_sub_of_le _ _ (by rwa [UInt32.le_iff_toNat_le, hoffset]), hoffset]
  refine ⟨_, if_pos ((within_ofInterval_iff hstart hle).mpr hstop), hsub, ?_⟩
  rw [toNat_stop, hsub]

theorem relativeTo?_eq_none (hstart : start ≤ s.offset.toNat) (hle : start ≤ stop)
    (hstop : stop < s.stop.toNat) : s.relativeTo? (ofInterval start stop) = none :=
  if_neg (by rw [within_ofInterval_iff hstart hle]; omega)

end Span

namespace Report

open Text

/-! ## Counted bytes -/

/-- A heading that counts the bytes from `first` up to `last` of a line. -/
def bytesText (line first last : Nat) : String :=
  s!":{line} bytes {first}--{last}"

theorem render_bytes (line : Nat) (s : Span) :
    (Place.bytes line s).render = bytesText line s.offset.toNat s.stop.toNat := rfl

theorem dash_not_mem_toDigits (n : Nat) : '-' ∉ Nat.toDigits 10 n := fun h =>
  absurd (Nat.isDigit_of_mem_toDigits (by decide) (by decide) h) (by decide)

theorem toDigits_ten_inj {m n : Nat} (h : Nat.toDigits 10 m = Nat.toDigits 10 n) : m = n := by
  have hread := congrArg (Nat.ofDigitChars 10 · 0) h
  simpa using hread

/-- What comes before the first dash can be read back. -/
theorem append_dash_inj {xs ys as bs : List Char} (hxs : '-' ∉ xs) (hys : '-' ∉ ys)
    (h : xs ++ '-' :: as = ys ++ '-' :: bs) : xs = ys ∧ as = bs := by
  have hcut {zs : List Char} (hzs : '-' ∉ zs) (cs : List Char) :
      (zs ++ '-' :: cs).takeWhile (· ≠ '-') = zs := by
    rw [List.takeWhile_append_of_pos]
    · simp
    · intro c hc
      simpa using fun heq : c = '-' => hzs (heq ▸ hc)
  have hfirst := congrArg (List.takeWhile (· ≠ '-')) h
  rw [hcut hxs, hcut hys] at hfirst
  subst hfirst
  simpa using h

theorem bytesText_inj {line first last first' last' : Nat} :
    bytesText line first last = bytesText line first' last' ↔ first = first' ∧ last = last' := by
  constructor
  · intro h
    have hdash : toString "--" = "--" := rfl
    have hdigits : Nat.toDigits 10 first ++ '-' :: '-' :: Nat.toDigits 10 last =
        Nat.toDigits 10 first' ++ '-' :: '-' :: Nat.toDigits 10 last' := by
      simpa [bytesText, hdash, ← String.toList_inj] using h
    obtain ⟨hfirst, hlast⟩ :=
      append_dash_inj (dash_not_mem_toDigits first) (dash_not_mem_toDigits first') hdigits
    exact ⟨toDigits_ten_inj hfirst, toDigits_ten_inj (List.cons_inj_right _ |>.mp hlast)⟩
  · rintro ⟨rfl, rfl⟩
    rfl

/-! ## Places -/

theorem place_ofRemark {text : String} {r : Remark} {l : Location}
    (h : locate text r.span = .ok l) : (Section.ofRemark text r).place = .ofLocation l := by
  simp [Section.ofRemark, h]

theorem ofLocation_of_none {l : Location} (h : l.column = none) :
    Place.ofLocation l = .bytes l.line ((l.span.relativeTo? l.lineSpan).getD .unknown) := by
  simp [Place.ofLocation, h]

variable {span : Span} {line : Line}

theorem render_onLine (hcolumn : (Location.onLine span line).column = none)
    (hbegins : line.start ≤ span.offset.toNat) (hstop : span.stop.toNat ≤ line.stop) :
    (Place.ofLocation (.onLine span line)).render =
      bytesText line.number (span.offset.toNat - line.start)
        (min (span.offset.toNat - line.start + span.length.toNat) (UInt32.size - 1)) := by
  have hle : line.start ≤ line.stop := Nat.le_add_right _ _
  obtain ⟨rel, hrel, hoffset, hend⟩ := Span.relativeTo?_ofInterval hbegins hle hstop
  rw [ofLocation_of_none hcolumn, render_bytes]
  simp only [Location.onLine, hrel, Option.getD_some, hoffset, hend]

theorem render_onLine_of_leaves (hcolumn : (Location.onLine span line).column = none)
    (hbegins : line.start ≤ span.offset.toNat) (hstop : line.stop < span.stop.toNat) :
    (Place.ofLocation (.onLine span line)).render = bytesText line.number 0 0 := by
  have hle : line.start ≤ line.stop := Nat.le_add_right _ _
  rw [ofLocation_of_none hcolumn, render_bytes]
  simp only [Location.onLine, Span.relativeTo?_eq_none hbegins hle hstop, Option.getD_none]
  rfl

theorem render_onLine_iff (hcolumn : (Location.onLine span line).column = none)
    (hbegins : line.start ≤ span.offset.toNat) :
    (Place.ofLocation (.onLine span line)).render =
        bytesText line.number (span.offset.toNat - line.start)
          (span.offset.toNat - line.start + span.length.toNat) ↔
      span.stop.toNat ≤ line.stop ∧
        span.offset.toNat - line.start + span.length.toNat < UInt32.size := by
  by_cases hends : span.stop.toNat ≤ line.stop
  · simp only [render_onLine hcolumn hbegins hends, bytesText_inj, hends, true_and, UInt32.size]
    omega
  · -- `0--0` is no true count: such a span would be empty and begin with the line.
    have hstop := span.toNat_stop
    have hle : line.start ≤ line.stop := Nat.le_add_right _ _
    simp only [render_onLine_of_leaves hcolumn hbegins (Nat.lt_of_not_le hends), bytesText_inj,
      hends, false_and, iff_false]
    omega

/-- The heading of a span without a column counts its bytes from the beginning of the line just when
the span ends on the line as it is shown and the count fits into 32 bits. If the span goes beyond the
line, the heading says `0--0`. -/
theorem heading_counts_bytes_iff (text : String) (r : Remark) (l : Location)
    (hl : locate text r.span = .ok l) (hcolumn : l.column = none) :
    let line := lineAt text.toList r.span.offset.toNat
    let first := r.span.offset.toNat - line.start
    let last := first + r.span.length.toNat
    (∃ before after, Around text.toList r.span.offset.toNat before line.content after ∧
      line.start = byteSize before ∧ line.number = before.count '\n' + 1) ∧
    ((Section.ofRemark text r).place.render = bytesText line.number first last ↔
      r.span.stop.toNat ≤ line.stop ∧ last < UInt32.size) ∧
    (line.stop < r.span.stop.toNat →
      (Section.ofRemark text r).place.render = bytesText line.number 0 0) := by
  intro line first last
  rw [place_ofRemark hl]
  obtain ⟨hwithin, rfl⟩ := locate_eq_ok_iff.mp hl
  obtain ⟨before, after, haround, hstart, -, hnumber⟩ := lineAt_of_within hwithin
  have hbegins : line.start ≤ r.span.offset.toNat := hstart ▸ haround.begins
  exact ⟨⟨before, after, haround, hstart, hnumber⟩, render_onLine_iff hcolumn hbegins,
    render_onLine_of_leaves hcolumn hbegins⟩

/-- A span from inside a character up to its end, on the second line. -/
theorem split_character_counted :
    let text := "a\n\u4E2Dx"
    let r : Remark := .error ⟨3, 2⟩ "split"
    ∃ l, locate text r.span = .ok l ∧ l.column = none ∧
      (Section.ofRemark text r).place.render = bytesText 2 1 3 := by
  intro text r
  have hl : locate text r.span = .ok ⟨⟨3, 2⟩, 2, none, ⟨2, 4⟩, "\u4E2Dx"⟩ := by
    rw [← toOption_eq_some_iff]
    decide +kernel
  have hline : lineAt text.toList r.span.offset.toNat = ⟨2, 2, ['\u4E2D', 'x']⟩ := by
    decide +kernel
  obtain ⟨-, hcounts, -⟩ := heading_counts_bytes_iff text r _ hl rfl
  rw [hline] at hcounts
  exact ⟨_, hl, rfl, hcounts.mpr (by decide +kernel)⟩

/-- A span from inside a character to the next line has bytes 1 to 5 of its line, and a heading that
says `0--0`. -/
theorem two_lines_not_counted :
    let text := "\u4E2D\nx"
    let r : Remark := .mark ⟨1, 4⟩
    r.span.stop.toNat ≤ text.utf8ByteSize ∧
      (∃ l, locate text r.span = .ok l ∧ l.column = none) ∧
      (lineAt text.toList 1).start = 0 ∧
      (Section.ofRemark text r).place.render = ":1 bytes 0--0" ∧
      (Section.ofRemark text r).place.render ≠ ":1 bytes 1--5" := by
  intro text r
  have hl : locate text r.span = .ok ⟨⟨1, 4⟩, 1, none, ⟨0, 3⟩, "\u4E2D"⟩ := by
    rw [← toOption_eq_some_iff]
    decide +kernel
  have hplace : (Section.ofRemark text r).place.render = ":1 bytes 0--0" := by
    rw [place_ofRemark hl]
    rfl
  refine ⟨by decide, ⟨_, hl, rfl⟩, by decide +kernel, hplace, ?_⟩
  rw [hplace]
  decide

end Report

end OrbIdl
