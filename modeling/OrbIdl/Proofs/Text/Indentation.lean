import OrbIdl.Text.Indent
import OrbIdl.Text.Split

/-!
# Text that is written in pieces

An indenter does the same to a text however it is cut. Character by character, it needs to know only
whether a line begins. So two of them, one writing into the other, do what one for both widths does.
-/

namespace OrbIdl.Text

/-! ## Indented lines -/

/-- A line behind `width` spaces. An empty one stays empty. -/
def padded (width : Nat) (line : List Char) : List Char :=
  if line = [] then [] else List.replicate width ' ' ++ line

def indented (width : Nat) (text : List Char) : List Char :=
  ['\n'].intercalate ((split '\n' text).map (padded width))

theorem padded_nil (width : Nat) : padded width [] = [] := rfl

theorem padded_cons (width : Nat) (c : Char) (line : List Char) :
    padded width (c :: line) = List.replicate width ' ' ++ c :: line :=
  if_neg (List.cons_ne_nil c line)

/-- The lines padded. The first of them may have begun before. -/
def indentedFrom (width : Nat) (atStart : Bool) : List (List Char) → List Char
  | [] => []
  | line :: rest =>
    (if atStart then padded width line else line) ++
      rest.flatMap fun line => '\n' :: padded width line

theorem intercalate_cons_eq_flatMap (line : List Char) (rest : List (List Char)) :
    ['\n'].intercalate (line :: rest) = line ++ rest.flatMap ('\n' :: ·) := by
  induction rest generalizing line with
  | nil => simp
  | cons next rest ih => simp [ih]

theorem indentedFrom_split (width : Nat) (text : List Char) :
    indentedFrom width true (split '\n' text) = indented width text := by
  obtain ⟨line, rest, hlines⟩ := List.exists_cons_of_ne_nil (split_ne_nil '\n' text)
  simp [indented, hlines, indentedFrom, intercalate_cons_eq_flatMap, List.flatMap_map]

namespace Indenter

/-! ## Character by character -/

/-- What is written first, and what the writer after it writes. -/
def andThen (first : List Char × Indenter) (next : Indenter → List Char × Indenter) :
    List Char × Indenter :=
  (first.1 ++ (next first.2).1, (next first.2).2)

theorem andThen_assoc (first : List Char × Indenter) (next last : Indenter → List Char × Indenter) :
    andThen (andThen first next) last = andThen first fun w => andThen (next w) last := by
  simp [andThen]

def put (w : Indenter) (c : Char) : List Char × Indenter :=
  if c = '\n' then (['\n'], { w with atStart := true })
  else ((if w.atStart then padded w.width [c] else [c]), { w with atStart := false })

def putAll (w : Indenter) : List Char → List Char × Indenter
  | [] => ([], w)
  | c :: cs => andThen (w.put c) (putAll · cs)

theorem putAll_append (w : Indenter) (xs ys : List Char) :
    w.putAll (xs ++ ys) = andThen (w.putAll xs) (putAll · ys) := by
  induction xs generalizing w with
  | nil => simp [putAll, andThen]
  | cons x xs ih => simp [putAll, ih, andThen_assoc]

theorem putAll_lines (w : Indenter) (text : List Char) :
    (w.putAll text).1 = indentedFrom w.width w.atStart (split '\n' text) := by
  induction text generalizing w with
  | nil => simp [putAll, split, indentedFrom, padded_nil]
  | cons c cs ih =>
    obtain ⟨line, rest, hlines⟩ := List.exists_cons_of_ne_nil (split_ne_nil '\n' cs)
    by_cases hc : c = '\n'
    · subst hc
      simp [putAll, andThen, put, ih, split, hlines, indentedFrom, padded_nil]
    · by_cases h : w.atStart <;>
        simp [putAll, andThen, put, ih, split, hlines, indentedFrom, padded_cons, hc, h]

/-! ## Piece by piece -/

/-- The texts handed on, put together. -/
def joined (r : List (List Char) × Indenter) : List Char × Indenter :=
  (r.1.flatten, r.2)

theorem joined_pass_newline (w : Indenter) : joined (w.pass ['\n']) = w.put '\n' := by
  simp [joined, pass, put]

theorem joined_pass_singleton (w : Indenter) {c : Char} (hc : c ≠ '\n') :
    joined (w.pass [c]) = w.put c := by
  by_cases h : w.atStart <;> simp [joined, pass, put, hc, h, padded_cons]

/-- A piece goes on behind a character of its line. -/
theorem joined_pass_cons (w : Indenter) {c : Char} {piece : List Char} (hc : c ≠ '\n')
    (hpiece : piece ≠ []) :
    joined (w.pass (c :: piece)) = andThen (w.put c) fun w => joined (w.pass piece) := by
  have hlast : (c :: piece).getLast? = piece.getLast? := by
    simp [List.getLast?_cons, List.getLast?_eq_some_getLast hpiece]
  by_cases h : w.atStart <;> simp [joined, andThen, pass, put, hc, h, hlast, padded_cons]

theorem joined_passAll_nil (w : Indenter) : joined (w.passAll []) = ([], w) := rfl

theorem joined_passAll_cons (w : Indenter) (piece : List Char) (rest : List (List Char)) :
    joined (w.passAll (piece :: rest)) =
      andThen (joined (w.pass piece)) fun w => joined (w.passAll rest) := by
  simp [joined, andThen, passAll]

theorem joined_write (w : Indenter) (text : List Char) : joined (w.write text) = w.putAll text := by
  unfold write
  induction text generalizing w with
  | nil => rfl
  | cons c cs ih =>
    by_cases hc : c = '\n'
    · subst hc
      simp [pieces, joined_passAll_cons, joined_pass_newline, ih, putAll]
    · cases hpieces : pieces cs with
      | nil =>
        -- There is no piece for the character to begin: it is the last one.
        have hcs := flatten_pieces cs
        rw [hpieces] at hcs
        subst hcs
        simp [pieces, hc, joined_passAll_cons, joined_pass_singleton, joined_passAll_nil, putAll]
      | cons piece rest =>
        have hmem : piece ∈ pieces cs := by simp [hpieces]
        have hpiece := ne_nil_of_mem_pieces hmem
        simp [pieces, hc, hpieces, putAll, ← ih, joined_passAll_cons, joined_pass_cons w hc hpiece,
          andThen_assoc]

theorem joined_writeAll (w : Indenter) (texts : List (List Char)) :
    joined (w.writeAll texts) = w.putAll texts.flatten := by
  induction texts generalizing w with
  | nil => rfl
  | cons text texts ih =>
    have hfirst : joined (w.writeAll (text :: texts)) =
        andThen (joined (w.write text)) fun w => joined (w.writeAll texts) := by
      simp [joined, andThen, writeAll]
    simp [hfirst, joined_write, ih, putAll_append]

/-- What a fresh indenter hands on is the text as a whole with its lines padded, wherever it was
cut. -/
theorem writeAll_indents (width : Nat) (texts : List (List Char)) :
    (writeAll ⟨width, true⟩ texts).1.flatten = indented width texts.flatten := by
  calc (writeAll ⟨width, true⟩ texts).1.flatten
      = (putAll ⟨width, true⟩ texts.flatten).1 := congrArg Prod.fst (joined_writeAll _ texts)
    _ = indentedFrom width true (split '\n' texts.flatten) := putAll_lines _ _
    _ = indented width texts.flatten := indentedFrom_split width texts.flatten

/-! ## One writer into another

The outer writer hands spaces on only in front of a character of the line, so both writers are at
the beginning of a line at the same time.
-/

/-- A line begins behind the text. What stood before counts only if there is no text. -/
def beginsLine (atStart : Bool) (text : List Char) : Bool :=
  text.foldl (fun _ c => c == '\n') atStart

theorem snd_put (w : Indenter) (c : Char) : (w.put c).2 = { w with atStart := c == '\n' } := by
  unfold put
  split <;> simp_all

theorem snd_putAll (w : Indenter) (text : List Char) :
    (w.putAll text).2 = { w with atStart := beginsLine w.atStart text } := by
  induction text generalizing w with
  | nil => rfl
  | cons c cs ih => simp [putAll, andThen, ih, snd_put, beginsLine]

theorem flatten_write (w : Indenter) (text : List Char) :
    (w.write text).1.flatten = (w.putAll text).1 :=
  congrArg Prod.fst (joined_write w text)

theorem snd_write (w : Indenter) (text : List Char) :
    (w.write text).2 = { w with atStart := beginsLine w.atStart text } :=
  (congrArg Prod.snd (joined_write w text)).trans (snd_putAll w text)

/-- A line of text goes behind the spaces as a whole. -/
theorem putAll_line (w : Indenter) {line : List Char} (hline : line ≠ []) (h : '\n' ∉ line) :
    w.putAll line =
      (if w.atStart then padded w.width line else line, { w with atStart := false }) := by
  induction line generalizing w with
  | nil => exact absurd rfl hline
  | cons c cs ih =>
    rw [List.mem_cons, not_or] at h
    have hc : c ≠ '\n' := Ne.symm h.1
    by_cases hcs : cs = []
    · subst hcs
      simp [putAll, andThen, put, hc]
    · cases hw : w.atStart <;> simp [putAll, andThen, put, ih _ hcs h.2, hc, hw, padded_cons]

theorem putAll_put (outer inner : Nat) (atStart : Bool) (c : Char) :
    putAll ⟨inner, atStart⟩ (put ⟨outer, atStart⟩ c).1 =
      ((put ⟨outer + inner, atStart⟩ c).1, ⟨inner, c == '\n'⟩) := by
  by_cases hc : c = '\n'
  · simp [putAll, andThen, put, hc]
  cases atStart with
  | false => simp [putAll, andThen, put, hc]
  | true =>
    have hnonempty : padded outer [c] ≠ [] := by simp [padded_cons]
    have hline : '\n' ∉ padded outer [c] := by simp [padded_cons, Ne.symm hc]
    have hspaces : padded inner (padded outer [c]) = padded (outer + inner) [c] := by
      rw [padded, if_neg hnonempty, padded_cons, padded_cons, Nat.add_comm,
        ← List.replicate_append_replicate, List.append_assoc]
    simp [put, hc, putAll_line _ hnonempty hline, hspaces]

theorem putAll_putAll (outer inner : Nat) (atStart : Bool) (text : List Char) :
    putAll ⟨inner, atStart⟩ (putAll ⟨outer, atStart⟩ text).1 =
      ((putAll ⟨outer + inner, atStart⟩ text).1, ⟨inner, beginsLine atStart text⟩) := by
  induction text generalizing atStart with
  | nil => rfl
  | cons c cs ih => simp [putAll, andThen, putAll_append, putAll_put, snd_put, ih, beginsLine]

/-- Two writers of which the outer one writes into the inner one. -/
structure Nested where
  outer : Indenter
  inner : Indenter

namespace Nested

def write (n : Nested) (text : List Char) : List (List Char) × Nested :=
  let (handed, outer) := n.outer.write text
  let (out, inner) := n.inner.writeAll handed
  (out, ⟨outer, inner⟩)

def writeAll (n : Nested) : List (List Char) → List (List Char) × Nested
  | [] => ([], n)
  | text :: texts =>
    let (out, n) := n.write text
    let (more, n) := n.writeAll texts
    (out ++ more, n)

/-- The two writers and one writer for both widths have got equally far. -/
inductive InStep : Nested → Indenter → Prop
  | mk (outer inner : Nat) (atStart : Bool) :
    InStep ⟨⟨outer, atStart⟩, ⟨inner, atStart⟩⟩ ⟨outer + inner, atStart⟩

theorem InStep.write {n : Nested} {one : Indenter} (h : n.InStep one) (text : List Char) :
    (n.write text).1.flatten = (one.write text).1.flatten ∧
      (n.write text).2.InStep (one.write text).2 := by
  obtain ⟨outer, inner, atStart⟩ := h
  have hout : joined (Indenter.writeAll ⟨inner, atStart⟩ (Indenter.write ⟨outer, atStart⟩ text).1) =
      ((putAll ⟨outer + inner, atStart⟩ text).1, ⟨inner, beginsLine atStart text⟩) := by
    rw [joined_writeAll, flatten_write, putAll_putAll]
  obtain ⟨htext, hinner⟩ := Prod.mk.inj hout
  dsimp only [Nested.write]
  rw [htext, hinner, snd_write, snd_write, flatten_write]
  exact ⟨rfl, .mk outer inner _⟩

theorem InStep.writeAll {n : Nested} {one : Indenter} (h : n.InStep one)
    (texts : List (List Char)) :
    (n.writeAll texts).1.flatten = (one.writeAll texts).1.flatten ∧
      (n.writeAll texts).2.InStep (one.writeAll texts).2 := by
  induction texts generalizing n one with
  | nil => exact ⟨rfl, h⟩
  | cons text texts ih =>
    obtain ⟨hfirst, hstep⟩ := h.write text
    obtain ⟨hrest, hlast⟩ := ih hstep
    refine ⟨?_, hlast⟩
    simp only [Nested.writeAll, Indenter.writeAll, List.flatten_append, hfirst, hrest]

end Nested

/-- An indenter that writes into another one does the same as one indenter for both widths, however
often it is written to. -/
theorem nested_widths_add (outer inner : Nat) (texts : List (List Char)) :
    let nested := Nested.writeAll ⟨⟨outer, true⟩, ⟨inner, true⟩⟩ texts
    let one := writeAll ⟨outer + inner, true⟩ texts
    nested.1.flatten = one.1.flatten ∧ nested.2.InStep one.2 :=
  (Nested.InStep.mk outer inner true).writeAll texts

end Indenter

end OrbIdl.Text
