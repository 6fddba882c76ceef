import OrbIdl.Text.Bytes
import OrbIdl.Text.Split

/-! # The lines of a text -/

namespace OrbIdl.Report

/-- A line of a text: its number from one, the byte at which it begins, and its characters without
the newline. -/
structure Line where
  number : Nat
  start : Nat
  content : List Char
deriving DecidableEq

/-- The lines of a text. A text that ends in a newline has an empty line after it. -/
def lineTexts (text : List Char) : List (List Char) :=
  Text.split '\n' text

/-- The line with the byte `offset`, among lines of which the first has the given number and
beginning. A newline belongs to the line that it ends; what lies beyond belongs to the last. -/
def lineFrom (offset number start : Nat) : List (List Char) → Line
  | [] => ⟨number, start, []⟩
  | [last] => ⟨number, start, last⟩
  | line :: rest =>
    if offset ≤ start + Text.byteSize line then ⟨number, start, line⟩
    else lineFrom offset (number + 1) (start + Text.byteSize line + 1) rest

/-- The line of a text with the byte `offset`. -/
def lineAt (text : List Char) (offset : Nat) : Line :=
  lineFrom offset 1 0 (lineTexts text)

namespace Line

/-- The line as it is shown: a carriage return at its end is not part of it. -/
def shown (l : Line) : List Char :=
  if l.content.getLast? = some '\r' then l.content.dropLast else l.content

/-- The byte after the last one shown. -/
def stop (l : Line) : Nat :=
  l.start + Text.byteSize l.shown

end Line

end OrbIdl.Report
