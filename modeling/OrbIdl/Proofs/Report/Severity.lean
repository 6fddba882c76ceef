import OrbIdl.Proofs.Report.Sections

/-!
# How serious a report is

A report is as serious as the most serious of its labels, and an error at least. A remark without a
label does not make it worse, whatever its level.
-/

namespace OrbIdl

namespace Level

/-! ## The most serious of some levels -/

/-- One of the levels, and none of them is more serious. -/
def MostSerious (a : Level) (levels : List Level) : Prop :=
  a ∈ levels ∧ ∀ b ∈ levels, a.rank ≤ b.rank

theorem worse_eq_or (a b : Level) : a.worse b = a ∨ a.worse b = b := by
  unfold worse
  split <;> simp

theorem mostSerious_foldl_worse (a : Level) (levels : List Level) :
    MostSerious (levels.foldl worse a) (a :: levels) := by
  induction levels generalizing a with
  | nil => simp [MostSerious]
  | cons b levels ih =>
    obtain ⟨hmem, hleast⟩ := ih (a.worse b)
    -- The result is no less serious than both of the levels that came first.
    have hworse := hleast _ List.mem_cons_self
    rw [rank_worse] at hworse
    rw [List.foldl_cons]
    constructor
    · rcases List.mem_cons.mp hmem with hfirst | hrest
      · rw [hfirst]
        rcases worse_eq_or a b with h | h <;> simp [h]
      · simp [hrest]
    · intro c hc
      simp only [List.mem_cons] at hc
      rcases hc with rfl | rfl | hc
      · omega
      · omega
      · exact hleast c (List.mem_cons_of_mem _ hc)

/-- Beside an error, only an internal error counts. -/
theorem mostSerious_error_iff {a : Level} {levels : List Level} :
    MostSerious a (.error :: levels) ↔
      a = if .internalError ∈ levels then .internalError else .error := by
  constructor
  · rintro ⟨hmem, hleast⟩
    have herror := hleast .error List.mem_cons_self
    split
    · rename_i h
      have hinternal := hleast .internalError (List.mem_cons_of_mem _ h)
      cases a <;> simp_all [rank]
    · cases a <;> simp_all [rank]
  · rintro rfl
    split
    · rename_i h
      exact ⟨List.mem_cons_of_mem _ h, fun b _ => by cases b <;> simp [rank]⟩
    · rename_i h
      refine ⟨List.mem_cons_self, fun b hb => ?_⟩
      cases b <;> simp_all [rank]

end Level

namespace Report

/-! ## The levels of remarks -/

def labelledLevels (remarks : List Remark) : List Level :=
  (remarks.filter (·.label.isSome)).map (·.level)

theorem level_ofRemark (text : String) (r : Remark) :
    (Section.ofRemark text r).level = if r.label.isSome then r.level else .error := by
  cases h : r.label <;> simp [Section.ofRemark, ownLabel, h]

theorem internalError_mem_levels_iff (text : String) (remarks : List Remark) :
    .internalError ∈ (remarks.map (Section.ofRemark text)).map (·.level) ↔
      .internalError ∈ labelledLevels remarks := by
  induction remarks with
  | nil => simp [labelledLevels]
  | cons r remarks ih =>
    cases h : r.label <;> simp_all [labelledLevels, level_ofRemark]

theorem level_eq (source : Source) (d : Diagnostic) :
    (ofDiagnostic source d).level =
      if .internalError ∈ labelledLevels d.remarks then .internalError else .error := by
  have hlevel : (ofDiagnostic source d).level.MostSerious
      (.error :: (d.remarks.map (Section.ofRemark source.text)).map (·.level)) := by
    rw [ofDiagnostic, foldl_extend]
    exact Level.mostSerious_foldl_worse _ _
  rw [Level.mostSerious_error_iff] at hlevel
  simpa only [internalError_mem_levels_iff] using hlevel

theorem mem_levels_of_labelled {remarks : List Remark} {a : Level}
    (h : a ∈ labelledLevels remarks) : a ∈ remarks.map (·.level) := by
  unfold labelledLevels at h
  grind

/-- The level of a report is the most serious of `error` and the levels of the labelled remarks. It
is that of `error` and the levels of all remarks unless there are internal errors and none of them
has a label. -/
theorem level_most_serious_iff (source : Source) (d : Diagnostic) :
    (ofDiagnostic source d).level.MostSerious (.error :: labelledLevels d.remarks) ∧
    ((ofDiagnostic source d).level.MostSerious (.error :: d.remarks.map (·.level)) ↔
      (.internalError ∈ d.remarks.map (·.level) → .internalError ∈ labelledLevels d.remarks)) ∧
    ((ofDiagnostic source d).level = .internalError ↔
      .internalError ∈ labelledLevels d.remarks) ∧
    ∃ sections, (ofDiagnostic source d).render =
      s!"{(ofDiagnostic source d).level.render}: {d.message}\n" ++ sections := by
  have hsub : .internalError ∈ labelledLevels d.remarks →
      .internalError ∈ d.remarks.map (·.level) := mem_levels_of_labelled
  refine ⟨?_, ?_, ?_, _, render_ofDiagnostic source d⟩
  · rw [Level.mostSerious_error_iff, level_eq]
  · rw [Level.mostSerious_error_iff, level_eq]
    by_cases hlabelled : .internalError ∈ labelledLevels d.remarks
    · simp [hlabelled, hsub hlabelled]
    · by_cases hall : .internalError ∈ d.remarks.map (·.level) <;> simp [hlabelled, hall]
  · simp [level_eq]

/-- An internal error without a label is reported as an error. -/
theorem unlabelled_internal_error_lost :
    let d : Diagnostic := ⟨"m", [⟨⟨0, 0⟩, .internalError, none⟩]⟩
    (ofDiagnostic ⟨"n", ""⟩ d).level = .error ∧
      ¬(ofDiagnostic ⟨"n", ""⟩ d).level.MostSerious (.error :: d.remarks.map (·.level)) := by
  intro d
  have hlevel : (ofDiagnostic ⟨"n", ""⟩ d).level = .error := rfl
  refine ⟨hlevel, fun hmost => ?_⟩
  rw [hlevel, Level.mostSerious_error_iff] at hmost
  simp [d] at hmost

end Report

end OrbIdl
