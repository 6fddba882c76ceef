/-! # The bytes that a text takes -/

namespace OrbIdl.Text

/-- The number of bytes of a text in UTF-8. -/
def byteSize : List Char → Nat
  | [] => 0
  | c :: cs => c.utf8Size + byteSize cs

@[simp] theorem byteSize_nil : byteSize [] = 0 := rfl

@[simp] theorem byteSize_cons (c : Char) (cs : List Char) :
    byteSize (c :: cs) = c.utf8Size + byteSize cs := rfl

@[simp] theorem byteSize_append (xs ys : List Char) :
    byteSize (xs ++ ys) = byteSize xs + byteSize ys := by
  induction xs with
  | nil => simp
  | cons x xs ih => simp [ih, Nat.add_assoc]

theorem length_le_byteSize (cs : List Char) : cs.length ≤ byteSize cs := by
  induction cs with
  | nil => simp
  | cons c cs ih =>
    have := c.utf8Size_pos
    simp only [List.length_cons, byteSize_cons]
    omega

/-- The first `n` bytes as characters, unless they end inside one or there are fewer. -/
def takeBytes? : Nat → List Char → Option (List Char)
  | 0, _ => some []
  | _ + 1, [] => none
  | n + 1, c :: cs =>
    if c.utf8Size ≤ n + 1 then (takeBytes? (n + 1 - c.utf8Size) cs).map (c :: ·) else none
termination_by _ cs => cs.length

theorem takeBytes?_zero (cs : List Char) : takeBytes? 0 cs = some [] := by
  unfold takeBytes?; rfl

theorem takeBytes?_append (xs ys : List Char) : takeBytes? (byteSize xs) (xs ++ ys) = some xs := by
  induction xs with
  | nil => simp [takeBytes?_zero]
  | cons x xs ih =>
    have hx := x.utf8Size_pos
    obtain ⟨k, hk⟩ : ∃ k, byteSize (x :: xs) = k + 1 :=
      ⟨byteSize (x :: xs) - 1, by simp only [byteSize_cons]; omega⟩
    rw [hk, List.cons_append, takeBytes?, if_pos (by simp only [byteSize_cons] at hk; omega),
      ← hk]
    simp [ih]

/-- What is taken is the beginning of the text and takes just that many bytes. -/
theorem eq_append_of_takeBytes? {n : Nat} {cs xs : List Char} (h : takeBytes? n cs = some xs) :
    ∃ ys, cs = xs ++ ys ∧ byteSize xs = n := by
  fun_induction takeBytes? n cs generalizing xs with
  | case1 cs =>
    obtain rfl := Option.some.inj h
    exact ⟨cs, by simp, rfl⟩
  | case2 => simp at h
  | case3 n c cs hc ih =>
    obtain ⟨zs, hz, rfl⟩ := Option.map_eq_some_iff.1 h
    obtain ⟨ys, rfl, hn⟩ := ih hz
    refine ⟨ys, rfl, ?_⟩
    simp only [byteSize_cons]
    omega
  | case4 => simp at h

end OrbIdl.Text
