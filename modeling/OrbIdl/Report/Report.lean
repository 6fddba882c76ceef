import OrbIdl.Diagnostic
import OrbIdl.Report.Location

/-! # Reports of diagnostics -/

namespace OrbIdl.Report

/-- A text and the name that it goes by. -/
structure Source where
  name : String
  text : String

/-! ## Headings -/

/-- The place that a heading names. -/
inductive Place where
  | column (line number : Nat)
  /-- A span counted from the beginning of its line. -/
  | bytes (line : Nat) (span : Span)
  /-- A span that the source does not have. -/
  | offset (span : Span)
deriving DecidableEq

namespace Place

def ofLocation (l : Location) : Place :=
  match l.column with
  | some c => .column l.line c.first
  | none => .bytes l.line ((l.span.relativeTo? l.lineSpan).getD .unknown)

def render : Place → String
  | column line number => s!":{line}:{number}"
  | bytes line span => s!":{line} bytes {span.offset}--{span.stop}"
  | offset s => s!" offset {s.offset}--{s.stop}"

end Place

/-! ## Labels -/

structure Label where
  level : Level
  text : String
deriving DecidableEq

def Label.render (l : Label) : String :=
  s!"      {l.level.render}: {l.text}"

/-- The remarks that explain why a heading is not what it should be. -/
def systemLabels : Except OutOfRange Location → List Label
  | .ok l =>
    if l.column.isSome then []
    else [⟨.help, "unable to calculate columns because the span does not fall on a character " ++
        "boundary"⟩,
      ⟨.help, "you have been provided with 0-indexed line-relative byte offsets"⟩]
  | .error e =>
    [⟨.help, "an error occurred while trying to look up information about this span: " ++
      e.message⟩]

/-- The label of a remark, if it has words. -/
def ownLabel (r : Remark) : Option Label :=
  r.label.map fun text => ⟨r.level, text⟩

/-! ## Sections -/

/-- What a report says about one span. -/
structure Section where
  span : Span
  place : Place
  labels : List Label
  level : Level
deriving DecidableEq

namespace Section

/-- A section for one remark. Without words it counts as an error. -/
def ofRemark (text : String) (r : Remark) : Section :=
  let located := locate text r.span
  { span := r.span
    place := match located with
      | .ok l => .ofLocation l
      | .error _ => .offset r.span
    labels := systemLabels located ++ (ownLabel r).toList
    level := ((ownLabel r).map (·.level)).getD .error }

/-- A section goes on with what the next one says about the same span. -/
def join (s t : Section) : Section :=
  { s with labels := s.labels ++ t.labels, level := s.level.worse t.level }

/-- Sections with one more: it joins the last of them if both are about the same span. -/
def push (sections : List Section) (s : Section) : List Section :=
  match sections.getLast? with
  | some last => if s.span = last.span then sections.dropLast ++ [last.join s] else sections ++ [s]
  | none => [s]

def render (context : String) (s : Section) : String :=
  s!"  --> {context}{s.place.render}\n" ++ String.join (s.labels.map fun l => l.render ++ "\n")

end Section

end OrbIdl.Report

namespace OrbIdl

open Report

/-- What is said about a diagnostic: its message, and a section for each place. -/
structure Report where
  context : String
  message : String
  level : Level
  sections : List Section
deriving DecidableEq

namespace Report

/-- Nothing but a message is an error. -/
def empty (context message : String) : Report :=
  { context, message, level := .error, sections := [] }

/-- The report goes on with a section, which can make it worse. -/
def extend (r : Report) (s : Section) : Report :=
  { r with level := r.level.worse s.level, sections := Section.push r.sections s }

/-- The report of a diagnostic, one remark after the other. -/
def ofDiagnostic (source : Source) (d : Diagnostic) : Report :=
  (d.remarks.map (Section.ofRemark source.text)).foldl extend (empty source.name d.message)

def render (r : Report) : String :=
  s!"{r.level.render}: {r.message}\n" ++ String.join (r.sections.map (·.render r.context))

/-- Notes and advice alone are no error. -/
def isError (r : Report) : Bool :=
  r.level.rank ≤ Level.error.rank

/-- How many of the reports are errors. -/
def errorCount (reports : List Report) : Nat :=
  reports.countP (·.isError)

end Report

end OrbIdl
