import OrbIdl.Proofs.Location.Bounds
import OrbIdl.Proofs.Report.Lines

/-!
# Where a span begins

A span that ends within the text is found on the line of its first byte. Its columns count the cells
of what the line shows before it.
-/

namespace OrbIdl.Text

/-! ## Cells and bytes -/

theorem le_of_mem_wideRanges : ∀ r ∈ wideRanges, 0x1100 ≤ r.1 := by
  decide

theorem three_le_utf8Size {c : Char} (h : 0x800 ≤ c.toNat) : 3 ≤ c.utf8Size := by
  have hval : c.val.toNat = c.toNat := rfl
  simp only [Char.utf8Size, UInt32.le_iff_toNat_le, UInt32.toNat_ofNatLT]
  split
  · omega
  split
  · omega
  split <;> omega

/-- No character takes more cells than bytes. -/
theorem charWidth_le_utf8Size (c : Char) : charWidth c ≤ c.utf8Size := by
  have hpos := c.utf8Size_pos
  unfold charWidth
  split
  · omega
  split
  · omega
  split
  · omega
  split
  · rename_i hwide
    obtain ⟨r, hr, hfirst, -⟩ := (Ranges.contains_iff _ _).mp hwide
    have hleast := le_of_mem_wideRanges r hr
    have hsize := three_le_utf8Size (c := c) (by omega)
    omega
  split
  · rename_i hc
    rw [hc]
    decide
  · omega

theorem width_le_byteSize (cs : List Char) : width cs ≤ byteSize cs := by
  induction cs with
  | nil => exact Nat.le_refl _
  | cons c cs ih => exact Nat.add_le_add (charWidth_le_utf8Size c) ih

theorem takeBytes?_eq_some_iff {n : Nat} {cs xs : List Char} :
    takeBytes? n cs = some xs ↔ ∃ ys, cs = xs ++ ys ∧ byteSize xs = n := by
  constructor
  · exact eq_append_of_takeBytes?
  · rintro ⟨ys, rfl, rfl⟩
    exact takeBytes?_append xs ys

/-- Of two beginnings of a text, the one with fewer bytes is the beginning of the other. -/
theorem prefix_of_byteSize_le {cs xs ys : List Char} (hxs : xs <+: cs) (hys : ys <+: cs)
    (h : byteSize xs ≤ byteSize ys) : xs <+: ys := by
  obtain hprefix | ⟨more, rfl⟩ := List.prefix_or_prefix_of_prefix hxs hys
  · exact hprefix
  · have hmore := length_le_byteSize more
    rw [byteSize_append] at h
    obtain rfl : more = [] := List.length_eq_zero_iff.mp (by omega)
    exact ⟨[], by simp⟩

end OrbIdl.Text

namespace OrbIdl.Report

open Text

variable {line shown : List Char} {start stop : Nat} {c : Column}

/-! ## Columns -/

/-- The columns of the bytes from `start` up to `stop` of a line, if these are whole characters. -/
inductive ColumnsOf (line : List Char) (start stop : Nat) : Column → Prop
  | before {lead rest : List Char} (parts : line = lead ++ rest) (hstart : byteSize lead = start)
      (hempty : start = stop) : ColumnsOf line start stop (.before (width lead + 1))
  | endpoints {lead covered rest : List Char} (parts : line = lead ++ covered ++ rest)
      (hstart : byteSize lead = start) (hstop : byteSize (lead ++ covered) = stop)
      (hsome : start < stop) : ColumnsOf line start stop
        (.endpoints (width lead + 1) (max (width (lead ++ covered)) (width lead + 1)))

theorem columnsOf_of_columnOf (hle : start ≤ stop) (h : columnOf line start stop = some c) :
    ColumnsOf line start stop c := by
  unfold columnOf at h
  obtain ⟨lead, hlead, h⟩ := Option.bind_eq_some_iff.mp h
  obtain ⟨rest, hparts, hstart⟩ := takeBytes?_eq_some_iff.mp hlead
  dsimp only at h
  split at h
  · rename_i hempty
    cases h
    exact .before hparts hstart hempty
  · rename_i hne
    obtain ⟨covered, hcovered, h⟩ := Option.bind_eq_some_iff.mp h
    obtain ⟨rest', hparts', hstop⟩ := takeBytes?_eq_some_iff.mp hcovered
    cases h
    obtain ⟨more, rfl⟩ : lead <+: covered :=
      prefix_of_byteSize_le ⟨rest, hparts.symm⟩ ⟨rest', hparts'.symm⟩ (by omega)
    exact .endpoints hparts' hstart hstop (by omega)

namespace ColumnsOf

variable (h : ColumnsOf line start stop c)
include h

/-- A column counts the cells before it. -/
theorem first_eq : ∃ lead rest, line = lead ++ rest ∧ byteSize lead = start ∧
    c.first = width lead + 1 := by
  cases h with
  | before hparts hstart _ => exact ⟨_, _, hparts, hstart, rfl⟩
  | @endpoints lead covered rest hparts hstart _ _ =>
    exact ⟨lead, covered ++ rest, by rw [hparts, List.append_assoc], hstart, rfl⟩

/-- The last column comes no earlier than the first one and, counted from one, no later than the
bytes of the line. -/
theorem ordered {first last : Nat} (hc : c = .endpoints first last) :
    first ≤ last ∧ last ≤ byteSize line := by
  cases h with
  | before => cases hc
  | @endpoints lead covered rest hparts hstart hstop hsome =>
    cases hc
    have hlead := width_le_byteSize lead
    have hcovered := width_le_byteSize (lead ++ covered)
    rw [hparts, byteSize_append]
    omega

theorem isBefore_iff : (∃ column, c = .before column) ↔ start = stop := by
  cases h with
  | before _ _ hempty => exact iff_of_true ⟨_, rfl⟩ hempty
  | endpoints _ _ _ hsome => exact iff_of_false nofun (by omega)

end ColumnsOf

/-! ## Spans -/

/-- A column of a span on the line that is shown from byte `start` on. -/
structure Column.Shows (c : Column) (span : Span) (start : Nat) (shown : List Char) : Prop where
  first : ∃ lead rest, shown = lead ++ rest ∧ start + byteSize lead = span.offset.toNat ∧
    c.first = width lead + 1
  ordered : ∀ first last, c = .endpoints first last → first ≤ last ∧ last ≤ byteSize shown
  before_iff : (∃ column, c = .before column) ↔
    ¬∃ byte, (span.offset.toNat ≤ byte ∧ byte < span.stop.toNat) ∧
      start ≤ byte ∧ byte < start + byteSize shown

/-- The location of a span on the stretch of the text around its first byte. -/
structure Location.Shows (l : Location) (text : String) (span : Span)
    (before line after shown : List Char) : Prop where
  around : Around text.toList span.offset.toNat before line after
  shownAs : ShownAs line shown
  unresolved : l.span = span
  number : l.line = newlinesBefore text span.offset.toNat + 1
  lineText : l.lineText = String.ofList shown
  lineStart : l.lineSpan.offset.toNat = byteSize before
  lineStop : l.lineSpan.stop.toNat = byteSize before + byteSize shown
  column : ∀ c, l.column = some c → c.Shows span (byteSize before) shown

theorem Column.shows_of_columnOf {span : Span} {start : Nat} (hstart : start ≤ span.offset.toNat)
    (h : columnOf shown (span.offset.toNat - start)
      (max (min span.stop.toNat (start + byteSize shown) - start) (span.offset.toNat - start)) =
        some c) : c.Shows span start shown := by
  have hcolumns := columnsOf_of_columnOf (Nat.le_max_right _ _) h
  obtain ⟨lead, rest, hparts, hlead, hfirst⟩ := hcolumns.first_eq
  refine ⟨⟨lead, rest, hparts, by omega, hfirst⟩, fun _ _ => hcolumns.ordered, ?_⟩
  rw [hcolumns.isBefore_iff]
  constructor
  · rintro hempty ⟨byte, hspan, hshown⟩
    omega
  · intro hnone
    by_contra hsome
    exact hnone ⟨span.offset.toNat, by omega⟩

variable {text : String} {span : Span}

theorem locate_eq_error_iff {e : OutOfRange} :
    locate text span = .error e ↔
      text.utf8ByteSize < span.stop.toNat ∧ e = ⟨span, text.utf8ByteSize⟩ := by
  rw [utf8ByteSize_eq]
  unfold locate
  dsimp only
  split
  · rename_i hbeyond
    simp [hbeyond, eq_comm]
  · rename_i hwithin
    simp [hwithin]

theorem locate_eq_ok_iff {l : Location} :
    locate text span = .ok l ↔ span.stop.toNat ≤ text.utf8ByteSize ∧
      l = .onLine span (lineAt text.toList span.offset.toNat) := by
  rw [utf8ByteSize_eq]
  unfold locate
  dsimp only
  split
  · rename_i hbeyond
    simp [Nat.not_le.mpr hbeyond]
  · rename_i hwithin
    simp [Nat.le_of_not_lt hwithin, eq_comm]

theorem locate_eq_ok (h : span.stop.toNat ≤ text.utf8ByteSize) :
    locate text span = .ok (.onLine span (lineAt text.toList span.offset.toNat)) :=
  locate_eq_ok_iff.mpr ⟨h, rfl⟩

/-- The line of a span within the text is the one around its first byte. -/
theorem lineAt_of_within (h : span.stop.toNat ≤ text.utf8ByteSize) :
    ∃ before after,
      Around text.toList span.offset.toNat before
        (lineAt text.toList span.offset.toNat).content after ∧
      (lineAt text.toList span.offset.toNat).start = byteSize before ∧
      (lineAt text.toList span.offset.toNat).stop =
        byteSize before + byteSize (lineAt text.toList span.offset.toNat).shown ∧
      (lineAt text.toList span.offset.toNat).number = before.count '\n' + 1 := by
  have hoffset := span.offset_le_stop
  rw [utf8ByteSize_eq] at h
  obtain ⟨before, after, haround, hstart, hnumber⟩ := lineAt_around (Nat.le_trans hoffset h)
  exact ⟨before, after, haround, hstart, by rw [Line.stop, hstart], hnumber⟩

end OrbIdl.Report
