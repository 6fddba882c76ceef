import Mathlib.Data.List.SplitBy
import OrbIdl.Proofs.Report.Columns
import OrbIdl.Report.Report

/-!
# The sections of a report

A report has one section for each stretch of remarks on the same span. Each of the remarks has its
lines there, in order.
-/

namespace OrbIdl

namespace Report

namespace Section

/-! ## One section after the other -/

@[simp] theorem span_ofRemark (text : String) (r : Remark) : (ofRemark text r).span = r.span := rfl

theorem foldl_join (s : Section) (more : List Section) :
    more.foldl join s =
      { s with
        labels := s.labels ++ more.flatMap (·.labels)
        level := (more.map (·.level)).foldl Level.worse s.level } := by
  induction more generalizing s with
  | nil => simp
  | cons t more ih => simp [ih, join]

theorem push_append (front : List Section) (last s : Section) :
    push (front ++ [last]) s =
      front ++ if s.span = last.span then [last.join s] else [last, s] := by
  unfold push
  split <;> split <;> simp_all

/-- Only the last section takes part in what follows. -/
theorem foldl_push_append (front : List Section) (last : Section) (sections : List Section) :
    sections.foldl push (front ++ [last]) = front ++ sections.foldl push [last] := by
  induction sections generalizing front last with
  | nil => rfl
  | cons s sections ih =>
    have hlast := push_append [] last s
    rw [List.nil_append, List.nil_append] at hlast
    rw [List.foldl_cons, List.foldl_cons, push_append, hlast]
    split
    · exact ih front (last.join s)
    · -- From here on `s` is the last section, behind `last` on either side.
      have hnext := ih (front ++ [last]) s
      have hsecond := ih [last] s
      simp only [List.append_assoc, List.singleton_append] at hnext hsecond
      rw [hnext, hsecond]

/-- A stretch of sections on one span becomes one section. -/
theorem foldl_push_stretch {s : Section} {more : List Section}
    (hmore : ∀ t ∈ more, t.span = s.span) : more.foldl push [s] = [more.foldl join s] := by
  induction more generalizing s with
  | nil => rfl
  | cons t more ih =>
    have ht : t.span = s.span := hmore t List.mem_cons_self
    have hpush : push [s] t = [s.join t] := by simp [push, ht]
    rw [List.foldl_cons, List.foldl_cons, hpush]
    exact ih fun u hu => hmore u (List.mem_cons_of_mem _ hu)

/-- A section on another span begins anew. -/
theorem foldl_push_cons {s : Section} {more rest : List Section}
    (hmore : ∀ t ∈ more, t.span = s.span) (hrest : ∀ t ∈ rest.head?, s.span ≠ t.span) :
    (s :: (more ++ rest)).foldl push [] = more.foldl join s :: rest.foldl push [] := by
  have hfirst : push [] s = [s] := rfl
  rw [List.foldl_cons, hfirst, List.foldl_append, foldl_push_stretch hmore]
  cases rest with
  | nil => rfl
  | cons t rest =>
    have hspan : t.span ≠ (more.foldl join s).span := by
      rw [foldl_join]
      exact (hrest t rfl).symm
    have hpush : push [more.foldl join s] t = [more.foldl join s] ++ [t] := by simp [push, hspan]
    rw [List.foldl_cons, hpush, foldl_push_append]
    rfl

end Section

theorem foldl_extend (report : Report) (sections : List Section) :
    sections.foldl extend report =
      { report with
        level := (sections.map (·.level)).foldl Level.worse report.level
        sections := sections.foldl Section.push report.sections } := by
  induction sections generalizing report with
  | nil => rfl
  | cons s sections ih => simp [ih, extend]

/-! ## Stretches of remarks -/

def sameSpan (a b : Remark) : Bool :=
  a.span = b.span

/-- Where the heading of a span points. -/
def placeAt (text : String) (span : Span) : Place :=
  match locate text span with
  | .ok l => .ofLocation l
  | .error _ => .offset span

/-- The lines on one remark: the help of the system, and its own label. -/
def remarkLines (text : String) (r : Remark) : List String :=
  (systemLabels (locate text r.span) ++ (ownLabel r).toList).map fun l => l.render ++ "\n"

/-- What is shown for remarks on one span. -/
def stretchText (source : Source) : List Remark → String
  | [] => ""
  | r :: more =>
    s!"  --> {source.name}{(placeAt source.text r.span).render}\n" ++
      String.join ((r :: more).flatMap (remarkLines source.text))

variable {r : Remark} {more later : List Remark}

theorem exists_stretch (r : Remark) (remarks : List Remark) :
    ∃ more later, remarks = more ++ later ∧ (∀ t ∈ more, t.span = r.span) ∧
      ∀ t ∈ later.head?, r.span ≠ t.span := by
  refine ⟨remarks.takeWhile (·.span = r.span), remarks.dropWhile (·.span = r.span),
    List.takeWhile_append_dropWhile.symm, ?_, ?_⟩
  · intro t ht
    simpa using List.all_eq_true.mp List.all_takeWhile t ht
  · intro t ht heq
    have hstop := List.head?_dropWhile_not (fun t : Remark => decide (t.span = r.span)) remarks
    rw [Option.mem_def.mp ht] at hstop
    simp [heq] at hstop

theorem splitBy_stretch (hmore : ∀ t ∈ more, t.span = r.span)
    (hlater : ∀ t ∈ later.head?, r.span ≠ t.span) :
    (r :: (more ++ later)).splitBy sameSpan = (r :: more) :: later.splitBy sameSpan := by
  have hspan : ∀ t ∈ r :: more, t.span = r.span := by simpa using hmore
  have hchain : (r :: more).IsChain fun a b => sameSpan a b := by
    refine List.Pairwise.isChain (List.pairwise_of_forall_mem_list fun a ha b hb => ?_)
    simp [sameSpan, hspan a ha, hspan b hb]
  have hfirst := List.splitBy_of_isChain (List.cons_ne_nil r more) hchain
  cases later with
  | nil => simpa using hfirst
  | cons t later =>
    have hlast : ∀ a ∈ (r :: more).getLast?, sameSpan a t = false := by
      intro a ha
      simp [sameSpan, hspan a (List.mem_of_getLast? ha), hlater t rfl]
    rw [← List.cons_append, List.splitBy_append_cons later hlast, hfirst, List.singleton_append]

/-- The sections of a stretch become one, and it goes on with those of later remarks. -/
theorem foldl_push_ofRemark (text : String) (hmore : ∀ t ∈ more, t.span = r.span)
    (hlater : ∀ t ∈ later.head?, r.span ≠ t.span) :
    ((r :: (more ++ later)).map (Section.ofRemark text)).foldl Section.push [] =
      (more.map (Section.ofRemark text)).foldl Section.join (Section.ofRemark text r) ::
        (later.map (Section.ofRemark text)).foldl Section.push [] := by
  rw [List.map_cons, List.map_append]
  exact Section.foldl_push_cons (by simpa using hmore) (by simpa using hlater)

theorem render_stretch (source : Source) (r : Remark) (more : List Remark) :
    ((more.map (Section.ofRemark source.text)).foldl Section.join
      (Section.ofRemark source.text r)).render source.name = stretchText source (r :: more) := by
  have hlines (t : Remark) : (Section.ofRemark source.text t).labels.map (fun l => l.render ++ "\n") =
      remarkLines source.text t := rfl
  simp only [Section.render, Section.foldl_join, stretchText,
    List.flatMap_map, List.map_append, List.map_flatMap, hlines, List.flatMap_cons]
  rfl

theorem render_foldl_push (source : Source) (remarks : List Remark) :
    ((remarks.map (Section.ofRemark source.text)).foldl Section.push []).map
        (·.render source.name) =
      (remarks.splitBy sameSpan).map (stretchText source) := by
  -- A step takes a whole stretch off, so the induction is on how many remarks are left.
  induction hsize : remarks.length using Nat.strong_induction_on generalizing remarks with
  | _ size ih =>
    cases remarks with
    | nil => rfl
    | cons r remarks =>
      obtain ⟨more, later, rfl, hmore, hlater⟩ := exists_stretch r remarks
      rw [splitBy_stretch hmore hlater, foldl_push_ofRemark source.text hmore hlater, List.map_cons,
        List.map_cons, render_stretch, ih later.length (by simp at hsize; omega) later rfl]

theorem render_ofDiagnostic (source : Source) (d : Diagnostic) :
    (ofDiagnostic source d).render =
      s!"{(ofDiagnostic source d).level.render}: {d.message}\n" ++
        String.join ((d.remarks.splitBy sameSpan).map (stretchText source)) := by
  simp only [Report.render, ofDiagnostic, foldl_extend, empty, render_foldl_push]

/-! ## Help -/

/-- How many help lines a span needs. -/
def helpCount (text : String) (span : Span) : Nat :=
  match locate text span with
  | .error _ => 1
  | .ok l => if l.column = none then 2 else 0

theorem levels_systemLabels (text : String) (span : Span) :
    (systemLabels (locate text span)).map (·.level) =
      List.replicate (helpCount text span) .help := by
  unfold helpCount
  cases locate text span with
  | error e => rfl
  | ok l => cases h : l.column <;> simp [systemLabels, h]

end Report

end OrbIdl
