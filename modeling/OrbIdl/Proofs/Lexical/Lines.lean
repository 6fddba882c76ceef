import Mathlib.Data.List.Induction

/-!
# Lines as C++ has them

Before it looks for tokens a C++ compiler makes every line end a newline and joins a line that ends
in a backslash with the next.
-/

namespace OrbIdl.Cpp

/-! ## Line ends -/

/-- A carriage return ends a line, with or without a newline behind it. -/
def withNewlines : List Char → List Char
  | [] => []
  | '\r' :: '\n' :: cs => '\n' :: withNewlines cs
  | '\r' :: cs => '\n' :: withNewlines cs
  | c :: cs => c :: withNewlines cs

def spliced : List Char → List Char
  | [] => []
  | '\\' :: '\n' :: cs => spliced cs
  | c :: cs => c :: spliced cs

/-- The characters that tokens are made from. -/
def logical (cs : List Char) : List Char :=
  spliced (withNewlines cs)

theorem withNewlines_cons {c : Char} (hc : c ≠ '\r') (cs : List Char) :
    withNewlines (c :: cs) = c :: withNewlines cs := by
  rw [withNewlines] <;> simp [hc]

theorem withNewlines_return {cs : List Char} (h : cs.head? ≠ some '\n') :
    withNewlines ('\r' :: cs) = '\n' :: withNewlines cs := by
  rw [withNewlines]
  rintro cs rfl
  exact h rfl

theorem spliced_cons {c : Char} (hc : c ≠ '\\') (cs : List Char) :
    spliced (c :: cs) = c :: spliced cs := by
  rw [spliced]
  simp [hc]

theorem spliced_backslash {cs : List Char} (h : cs.head? ≠ some '\n') :
    spliced ('\\' :: cs) = '\\' :: spliced cs := by
  rw [spliced]
  rintro cs - rfl
  exact h rfl

theorem head?_append_cons {xs : List Char} {c : Char} (hxs : xs.head? ≠ some '\n') (hc : c ≠ '\n')
    (cs : List Char) : (xs ++ c :: cs).head? ≠ some '\n' := by
  cases xs with
  | nil => simpa using hc
  | cons x xs => exact hxs

/-- Only a newline can change what stands before it. -/
theorem withNewlines_append_cons (xs : List Char) {c : Char} (hc : c ≠ '\n') (cs : List Char) :
    withNewlines (xs ++ c :: cs) = withNewlines xs ++ withNewlines (c :: cs) := by
  fun_induction withNewlines xs with
  | case1 => rfl
  | case2 xs ih => simp [withNewlines, ih]
  | case3 xs h ih =>
    have hxs : xs.head? ≠ some '\n' := fun hhead => by
      obtain ⟨ys, rfl⟩ := List.head?_eq_some_iff.mp hhead
      exact h ys rfl
    rw [List.cons_append, withNewlines_return (head?_append_cons hxs hc cs), ih, List.cons_append]
  | case4 x xs hfirst hreturn ih =>
    have hx : x ≠ '\r' := hreturn
    rw [List.cons_append, withNewlines_cons hx, ih, List.cons_append]

theorem spliced_append_cons (xs : List Char) {c : Char} (hc : c ≠ '\n') (cs : List Char) :
    spliced (xs ++ c :: cs) = spliced xs ++ spliced (c :: cs) := by
  fun_induction spliced xs with
  | case1 => rfl
  | case2 xs ih => simp [spliced, ih]
  | case3 x xs h ih =>
    by_cases hx : x = '\\'
    · subst hx
      have hxs : xs.head? ≠ some '\n' := fun hhead => by
        obtain ⟨ys, rfl⟩ := List.head?_eq_some_iff.mp hhead
        exact h ys rfl rfl
      rw [List.cons_append, spliced_backslash (head?_append_cons hxs hc cs), ih, List.cons_append]
    · rw [List.cons_append, spliced_cons hx, ih, List.cons_append]

theorem withNewlines_append {xs : List Char} (h : '\r' ∉ xs) (cs : List Char) :
    withNewlines (xs ++ cs) = xs ++ withNewlines cs := by
  induction xs with
  | nil => rfl
  | cons x xs ih =>
    rw [List.mem_cons, not_or] at h
    rw [List.cons_append, withNewlines_cons (Ne.symm h.1), ih h.2, List.cons_append]

theorem spliced_of_not_mem {line : List Char} (h : '\n' ∉ line) : spliced line = line := by
  induction line with
  | nil => rfl
  | cons c line ih =>
    rw [List.mem_cons, not_or] at h
    have hhead : line.head? ≠ some '\n' := fun hhead => h.2 (List.mem_of_mem_head? hhead)
    by_cases hc : c = '\\'
    · rw [hc, spliced_backslash hhead, ih h.2]
    · rw [spliced_cons hc, ih h.2]

theorem spliced_continued {line : List Char} (h : '\n' ∉ line) (cs : List Char) :
    spliced (line ++ '\\' :: '\n' :: cs) = line ++ spliced cs := by
  rw [spliced_append_cons line (by decide), spliced_of_not_mem h, spliced]

theorem spliced_ended {line : List Char} (h : '\n' ∉ line) (hlast : line.getLast? ≠ some '\\')
    (cs : List Char) : spliced (line ++ '\n' :: cs) = line ++ '\n' :: spliced cs := by
  induction line using List.reverseRecOn with
  | nil => rfl
  | append_singleton line c =>
    rw [List.mem_append, List.mem_singleton, not_or] at h
    have hc : c ≠ '\\' := by simpa using hlast
    rw [List.append_assoc, List.singleton_append, spliced_append_cons line (Ne.symm h.2),
      spliced_of_not_mem h.1, spliced_cons hc, spliced_cons (by decide), List.append_assoc]
    rfl

/-! ## Characters that end nothing -/

theorem logical_cons {c : Char} (hreturn : c ≠ '\r') (hbackslash : c ≠ '\\') (cs : List Char) :
    logical (c :: cs) = c :: logical cs := by
  rw [logical, withNewlines_cons hreturn, spliced_cons hbackslash, logical]

theorem logical_append_cons (xs : List Char) {c : Char} (hnewline : c ≠ '\n') (hreturn : c ≠ '\r')
    (cs : List Char) : logical (xs ++ c :: cs) = logical xs ++ logical (c :: cs) := by
  simp only [logical]
  rw [withNewlines_append_cons xs hnewline, withNewlines_cons hreturn, spliced_append_cons _ hnewline]

end OrbIdl.Cpp
