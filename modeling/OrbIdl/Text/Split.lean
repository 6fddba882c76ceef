/-! # Texts cut at a separator -/

namespace OrbIdl.Text

/-- The texts between the separators, one more than there are separators. -/
def split (separator : Char) : List Char → List (List Char)
  | [] => [[]]
  | c :: cs =>
    if c = separator then [] :: split separator cs
    else match split separator cs with
      | [] => [[c]]
      | part :: rest => (c :: part) :: rest

theorem split_ne_nil (separator : Char) (cs : List Char) : split separator cs ≠ [] := by
  cases cs with
  | nil => simp [split]
  | cons c cs =>
    rw [split]
    split
    · simp
    · split <;> simp

/-- Put together with the separator between them, the parts are the text again. -/
theorem intercalate_split (separator : Char) (cs : List Char) :
    [separator].intercalate (split separator cs) = cs := by
  induction cs with
  | nil => simp [split, List.intercalate]
  | cons c cs ih =>
    rw [split]
    split
    · rename_i h
      cases hs : split separator cs with
      | nil => exact absurd hs (split_ne_nil separator cs)
      | cons part rest =>
        rw [hs] at ih
        rw [h, ← ih]
        simp [List.intercalate, List.intersperse]
    · split
      · rename_i hs
        exact absurd hs (split_ne_nil separator cs)
      · rename_i part rest hs
        rw [hs] at ih
        rw [← ih]
        cases rest <;> simp [List.intercalate, List.intersperse]

theorem not_mem_of_mem_split {separator : Char} {cs part : List Char}
    (h : part ∈ split separator cs) : separator ∉ part := by
  induction cs generalizing part with
  | nil =>
    rw [split, List.mem_singleton] at h
    simp [h]
  | cons c cs ih =>
    rw [split] at h
    split at h
    · rcases List.mem_cons.1 h with rfl | h
      · simp
      · exact ih h
    · rename_i hc
      split at h
      · rename_i hs
        exact absurd hs (split_ne_nil separator cs)
      · rename_i hs
        rcases List.mem_cons.1 h with rfl | h
        · rw [List.mem_cons, not_or]
          exact ⟨fun h => hc h.symm, ih (by simp [hs])⟩
        · exact ih (by simp [hs, h])

end OrbIdl.Text
