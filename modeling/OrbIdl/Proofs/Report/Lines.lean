import Mathlib.Data.List.Count
import OrbIdl.Report.Line

/-!
# The line of a byte

The line that is found for a byte is the whole stretch without a newline around it. Its number
counts the newlines before the byte.
-/

namespace OrbIdl.Text

/-! ## Bytes -/

theorem eq_newline_iff {c : Char} : c = '\n' ↔ c.val.toNat = 10 := by
  constructor
  · rintro rfl
    rfl
  · exact fun h => Char.ext (UInt32.toNat_inj.mp h)

theorem newline_ne_ofNat {n : Nat} (h : n ≠ 10) (hbyte : n < 256) : 0x0A ≠ UInt8.ofNat n := by
  intro heq
  have hvalue := congrArg UInt8.toNat heq
  rw [UInt8.toNat_ofNat', Nat.mod_eq_of_lt hbyte] at hvalue
  exact h hvalue.symm

/-- A newline is the only character with a byte of its value. -/
theorem count_utf8EncodeChar (c : Char) :
    (String.utf8EncodeChar c).count 0x0A = if c = '\n' then 1 else 0 := by
  by_cases hc : c = '\n'
  · subst hc
    rfl
  · rw [if_neg hc, List.count_eq_zero]
    rw [eq_newline_iff] at hc
    -- The bytes of a longer character have their highest bit set.
    have hlong (n bits mark : Nat) (hbits : 0 < bits) (hmark : 128 ≤ mark)
        (hbyte : mark + bits ≤ 256) : 0x0A ≠ UInt8.ofNat (n % bits + mark) :=
      have := Nat.mod_lt n hbits
      newline_ne_ofNat (by omega) (by omega)
    unfold String.utf8EncodeChar
    dsimp only
    split
    · rw [List.mem_singleton]
      exact newline_ne_ofNat hc (by omega)
    · repeat' split
      all_goals
        simp (disch := decide) only [List.mem_cons, List.not_mem_nil, hlong, or_self,
          not_false_eq_true]

theorem count_utf8 (cs : List Char) :
    (cs.flatMap String.utf8EncodeChar).count 0x0A = cs.count '\n' := by
  induction cs with
  | nil => rfl
  | cons c cs ih =>
    rw [List.flatMap_cons, List.count_append, ih, count_utf8EncodeChar, List.count_cons]
    by_cases hc : c = '\n' <;> simp [hc, Nat.add_comm]

theorem length_utf8 (cs : List Char) :
    (cs.flatMap String.utf8EncodeChar).length = byteSize cs := by
  induction cs with
  | nil => rfl
  | cons c cs ih =>
    rw [List.flatMap_cons, List.length_append, ih, String.length_utf8EncodeChar, byteSize_cons]

theorem toList_toByteArray (text : String) :
    text.toByteArray.data.toList = text.toList.flatMap String.utf8EncodeChar := by
  conv_lhs => rw [← String.ofList_toList (s := text), String.toByteArray_ofList]
  exact List.toList_data_toByteArray

theorem utf8ByteSize_eq (text : String) : text.utf8ByteSize = byteSize text.toList := by
  rw [← length_utf8, ← toList_toByteArray]
  rfl

end OrbIdl.Text

namespace OrbIdl.Report

open Text

variable {text before line after : List Char} {offset : Nat}

/-! ## Stretches -/

/-- `line` is the stretch of the text around the byte `offset` that has no newline and cannot be
made longer: on either side there is a newline or the end of the text. -/
structure Around (text : List Char) (offset : Nat) (before line after : List Char) : Prop where
  parts : text = before ++ line ++ after
  free : '\n' ∉ line
  left : ∀ c ∈ before.getLast?, c = '\n'
  right : ∀ c ∈ after.head?, c = '\n'
  begins : byteSize before ≤ offset
  ends : offset ≤ byteSize before + byteSize line

theorem Around.byteSize_le (h : Around text offset before line after) :
    byteSize before + byteSize line ≤ byteSize text := by
  rw [h.parts, byteSize_append, byteSize_append]
  exact Nat.le_add_right _ _

/-- The first line of a text, if the byte is on it. -/
theorem Around.first (hfree : '\n' ∉ line) (hends : offset ≤ byteSize line)
    (hright : ∀ c ∈ after.head?, c = '\n') : Around (line ++ after) offset [] line after where
  parts := rfl
  free := hfree
  left := nofun
  right := hright
  begins := Nat.zero_le _
  ends := by rwa [byteSize_nil, Nat.zero_add]

/-- A line and a newline are put before the text. -/
theorem Around.later (h : Around text offset before line after) (first : List Char) :
    Around (first ++ '\n' :: text) (byteSize first + 1 + offset) (first ++ '\n' :: before) line
      after := by
  have hsize : byteSize (first ++ '\n' :: before) = byteSize first + 1 + byteSize before := by
    rw [byteSize_append, byteSize_cons, ← Nat.add_assoc]
    rfl
  refine ⟨by simp [h.parts], h.free, ?_, h.right, ?_, ?_⟩
  · intro c hc
    rw [List.getLast?_append, List.getLast?_cons] at hc
    cases hlast : before.getLast? with
    | none =>
      rw [hlast] at hc
      exact (Option.some.inj hc).symm
    | some c' =>
      rw [hlast] at hc
      obtain rfl := Option.some.inj hc
      exact h.left _ hlast
  · have := h.begins
    omega
  · have := h.ends
    omega

/-! ## The line that is found -/

theorem lineFrom_around {lines : List (List Char)} (hne : lines ≠ [])
    (hfree : ∀ l ∈ lines, '\n' ∉ l) (number start : Nat)
    (hoffset : offset ≤ byteSize (['\n'].intercalate lines)) :
    ∃ before after,
      Around (['\n'].intercalate lines) offset before
        (lineFrom (start + offset) number start lines).content after ∧
      (lineFrom (start + offset) number start lines).start = start + byteSize before ∧
      (lineFrom (start + offset) number start lines).number = number + before.count '\n' := by
  induction lines generalizing offset number start with
  | nil => exact absurd rfl hne
  | cons line rest ih =>
    have hline := hfree line List.mem_cons_self
    cases rest with
    | nil =>
      have htext : ['\n'].intercalate [line] = line ++ [] := by simp
      rw [htext] at hoffset ⊢
      exact ⟨[], [], .first hline (by simpa using hoffset) nofun, rfl, rfl⟩
    | cons next rest =>
      have htext : ['\n'].intercalate (line :: next :: rest) =
          line ++ '\n' :: ['\n'].intercalate (next :: rest) := by
        simp
      rw [htext] at hoffset ⊢
      simp only [lineFrom]
      split
      · rename_i hon
        exact ⟨[], _, .first hline (by omega) (by simp), rfl, rfl⟩
      · rename_i hbehind
        obtain ⟨k, rfl⟩ : ∃ k, offset = byteSize line + 1 + k :=
          Nat.exists_eq_add_of_le (by omega)
        have hrest : k ≤ byteSize (['\n'].intercalate (next :: rest)) := by
          have hnewline : '\n'.utf8Size = 1 := rfl
          rw [byteSize_append, byteSize_cons] at hoffset
          omega
        obtain ⟨before, after, haround, hstart, hnumber⟩ :=
          ih (List.cons_ne_nil _ _) (fun l hl => hfree l (List.mem_cons_of_mem _ hl)) (number + 1)
            (start + byteSize line + 1) hrest
        rw [show start + byteSize line + 1 + k = start + (byteSize line + 1 + k) by omega]
          at haround hstart hnumber
        refine ⟨line ++ '\n' :: before, after, haround.later line, ?_, ?_⟩
        · rw [hstart, byteSize_append, byteSize_cons, show '\n'.utf8Size = 1 from rfl]
          omega
        · rw [hnumber, List.count_append, List.count_cons_self, List.count_eq_zero.mpr hline]
          omega

/-- The line of a byte within the text. -/
theorem lineAt_around (h : offset ≤ byteSize text) :
    ∃ before after, Around text offset before (lineAt text offset).content after ∧
      (lineAt text offset).start = byteSize before ∧
      (lineAt text offset).number = before.count '\n' + 1 := by
  have htext := intercalate_split '\n' text
  rw [← htext] at h
  obtain ⟨before, after, haround, hstart, hnumber⟩ :=
    lineFrom_around (split_ne_nil '\n' text) (fun _ => not_mem_of_mem_split) 1 0 h
  rw [htext, Nat.zero_add] at haround
  rw [Nat.zero_add, Nat.zero_add] at hstart
  rw [Nat.zero_add, Nat.add_comm] at hnumber
  exact ⟨before, after, haround, hstart, hnumber⟩

/-! ## Carriage returns -/

/-- What of a line is shown: all but one carriage return at its end. -/
def ShownAs (line shown : List Char) : Prop :=
  line = shown ++ ['\r'] ∨ (line = shown ∧ line.getLast? ≠ some '\r')

theorem Line.shownAs (l : Line) : ShownAs l.content l.shown := by
  unfold Line.shown
  split
  · rename_i hlast
    obtain ⟨shown, hcontent⟩ := List.getLast?_eq_some_iff.mp hlast
    rw [hcontent, List.dropLast_concat]
    exact .inl rfl
  · rename_i hlast
    exact .inr ⟨rfl, hlast⟩

theorem ShownAs.byteSize_le {shown : List Char} (h : ShownAs line shown) :
    byteSize shown ≤ byteSize line := by
  obtain rfl | ⟨rfl, -⟩ := h
  · rw [byteSize_append]
    omega
  · exact Nat.le_refl _

/-! ## Newlines among the bytes -/

/-- The newlines among the bytes of a text before `offset`. -/
def newlinesBefore (text : String) (offset : Nat) : Nat :=
  (text.toByteArray.data.toList.take offset).count 0x0A

theorem Around.newlinesBefore_eq {text : String} (h : Around text.toList offset before line after) :
    newlinesBefore text offset = before.count '\n' := by
  have hbegins := h.begins
  have hends := h.ends
  rw [← length_utf8] at hbegins hends
  rw [← length_utf8] at hends
  have hnone : (line.flatMap String.utf8EncodeChar).count 0x0A = 0 := by
    rw [count_utf8, List.count_eq_zero]
    exact h.free
  rw [newlinesBefore, toList_toByteArray, h.parts, List.flatMap_append, List.flatMap_append,
    List.append_assoc, List.take_append, List.take_of_length_le hbegins, List.count_append,
    count_utf8, Nat.add_eq_left, List.take_append_of_le_length (by omega)]
  exact Nat.le_zero.mp (hnone ▸ (List.take_sublist _ _).count_le _)

end OrbIdl.Report
