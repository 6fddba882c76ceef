/-! # Indented text -/

namespace OrbIdl.Text

/-- The text cut after each newline; the last piece may be without one. -/
def pieces : List Char → List (List Char)
  | [] => []
  | c :: cs =>
    if c = '\n' then ['\n'] :: pieces cs
    else match pieces cs with
      | [] => [[c]]
      | piece :: rest => (c :: piece) :: rest

theorem flatten_pieces (cs : List Char) : (pieces cs).flatten = cs := by
  induction cs with
  | nil => rfl
  | cons c cs ih =>
    rw [pieces]
    split
    · simp_all
    · split <;> simp_all

theorem ne_nil_of_mem_pieces {cs piece : List Char} (h : piece ∈ pieces cs) : piece ≠ [] := by
  induction cs generalizing piece with
  | nil => simp [pieces] at h
  | cons c cs ih =>
    rw [pieces] at h
    split at h
    · rcases List.mem_cons.1 h with rfl | h
      · simp
      · exact ih h
    · split at h
      · simp_all
      · rcases List.mem_cons.1 h with rfl | h
        · simp
        · exact ih (by simp_all)

/-- A newline can stand at the end of a piece and nowhere else. -/
theorem line_of_mem_pieces {cs piece : List Char} (h : piece ∈ pieces cs) :
    ∃ line, '\n' ∉ line ∧ (piece = line ∨ piece = line ++ ['\n']) := by
  induction cs generalizing piece with
  | nil => simp [pieces] at h
  | cons c cs ih =>
    rw [pieces] at h
    split at h
    · obtain rfl | h := List.mem_cons.mp h
      · exact ⟨[], by simp, .inr rfl⟩
      · exact ih h
    · rename_i hc
      split at h
      · obtain rfl := List.mem_singleton.mp h
        exact ⟨[c], by simp [Ne.symm hc], .inl rfl⟩
      · rename_i first rest hpieces
        obtain rfl | h := List.mem_cons.mp h
        · have hmem : first ∈ pieces cs := by simp [hpieces]
          obtain ⟨line, hline, hfirst⟩ := ih hmem
          refine ⟨c :: line, by simp [Ne.symm hc, hline], ?_⟩
          obtain rfl | rfl := hfirst
          · exact .inl rfl
          · exact .inr rfl
        · exact ih (by simp [hpieces, h])

/-- A writer that puts `width` spaces in front of each line. -/
structure Indenter where
  width : Nat
  /-- The next character begins a line. -/
  atStart : Bool := true

namespace Indenter

/-- Passes one piece on: a line that is nothing but its newline gets no spaces. -/
def pass (w : Indenter) (piece : List Char) : List (List Char) × Indenter :=
  let spaces := if w.atStart && piece != ['\n'] then [List.replicate w.width ' '] else []
  (spaces ++ [piece], { w with atStart := piece.getLast? == some '\n' })

def passAll (w : Indenter) : List (List Char) → List (List Char) × Indenter
  | [] => ([], w)
  | piece :: rest =>
    let (out, w) := w.pass piece
    let (more, w) := w.passAll rest
    (out ++ more, w)

/-- The texts handed on for one text written, in order, and the writer after it. -/
def write (w : Indenter) (text : List Char) : List (List Char) × Indenter :=
  w.passAll (pieces text)

/-- The texts handed on for texts written one after the other. -/
def writeAll (w : Indenter) : List (List Char) → List (List Char) × Indenter
  | [] => ([], w)
  | text :: texts =>
    let (out, w) := w.write text
    let (more, w) := w.writeAll texts
    (out ++ more, w)

end Indenter

/-- A text with `width` spaces in front of each line that is not empty. -/
def indent (width : Nat) (text : String) : String :=
  String.ofList (Indenter.write ⟨width, true⟩ text.toList).1.flatten

end OrbIdl.Text
