import OrbIdl.Report.Line
import OrbIdl.Span
import OrbIdl.Text.Width

/-! # Where a span lies -/

namespace OrbIdl.Report

/-! ## Columns -/

/-- The terminal columns of a span on its first line, counted from one. -/
inductive Column where
  | endpoints (first last : Nat)
  /-- Of an empty stretch. -/
  | before (column : Nat)
deriving DecidableEq

namespace Column

/-- The column that a heading shows. -/
def first : Column → Nat
  | endpoints first _ | before first => first

end Column

/-- The columns of the bytes from `start` up to `stop` of a line. There are none if one of the two
lies inside a character or beyond the line. A stretch takes at least one column, even if it has no
width. -/
def columnOf (line : List Char) (start stop : Nat) : Option Column := do
  let lead ← Text.takeBytes? start line
  let first := Text.width lead + 1
  if start = stop then return .before first
  let covered ← Text.takeBytes? stop line
  return .endpoints first (max (Text.width covered) first)

/-! ## Spans -/

/-- A span that reaches beyond the end of its source. -/
structure OutOfRange where
  span : Span
  size : Nat
deriving DecidableEq

def OutOfRange.message (e : OutOfRange) : String :=
  s!"span {e.span.render} is out of range of the {e.size}-byte source"

/-- Where a span begins: its line, and its columns there. -/
structure Location where
  span : Span
  line : Nat
  column : Option Column
  /-- The bytes of the line as it is shown. -/
  lineSpan : Span
  lineText : String
deriving DecidableEq

/-- The location of a span on a line. What of the span is beyond the line does not count. -/
def Location.onLine (span : Span) (l : Line) : Location :=
  let start := span.offset.toNat - l.start
  let stop := min span.stop.toNat l.stop - l.start
  { span
    line := l.number
    column := columnOf l.shown start (max stop start)
    lineSpan := .ofInterval l.start l.stop
    lineText := String.ofList l.shown }

/-- The location of a span in a text. -/
def locate (text : String) (span : Span) : Except OutOfRange Location :=
  let cs := text.toList
  if Text.byteSize cs < span.stop.toNat then .error ⟨span, Text.byteSize cs⟩
  else .ok (.onLine span (lineAt cs span.offset.toNat))

end OrbIdl.Report
