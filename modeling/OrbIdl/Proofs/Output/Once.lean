import OrbIdl.Proofs.Output.Writing

/-!
# Writing each path once

A sink that writes each path once asks the sink below for no path that this has written before. What
it holds as written are the paths that were taken, however the sink below fails in between.
-/

namespace OrbIdl.Output

variable {σ : Type} {sink : Sink σ}

/-! ## Requests -/

/-- A file that was handed over, and what became of it. -/
structure Answer where
  file : File
  result : Except WriteError Unit

def Answer.taken (a : Answer) : Bool :=
  a.result.isOk

def takenPaths (answers : List Answer) : List Path :=
  (answers.filter (·.taken)).map (·.file.path)

/-- Hands all files over, those after a refused one too. -/
def writeEach (sink : Sink σ) : σ → List File → σ × List Answer
  | s, [] => (s, [])
  | s, file :: files =>
    let (s', result) := sink s file
    let (s'', answers) := writeEach sink s' files
    (s'', ⟨file, result⟩ :: answers)

/-- The same sink with a record of what it answers. -/
def recorded (sink : Sink σ) : Sink (σ × List Answer) := fun (s, answers) file =>
  let (state, result) := sink s file
  ((state, answers ++ [⟨file, result⟩]), result)

/-- What every request keeps holds after any number of them. -/
theorem writeEach_invariant {P : σ → Prop} (hstep : ∀ s file, P s → P (sink s file).1)
    (files : List File) {s : σ} (hs : P s) : P (writeEach sink s files).1 := by
  induction files generalizing s with
  | nil => exact hs
  | cons file files ih => exact ih (hstep s file hs)

/-! ## One request -/

theorem same_symm {p q : Path} (h : p.same q = true) : q.same p = true := by
  rw [Path.same_iff] at *
  exact h.symm

theorem same_trans {p q r : Path} (h : p.same q = true) (h' : q.same r = true) :
    p.same r = true := by
  rw [Path.same_iff] at *
  exact h.trans h'

theorem distinct_append_singleton {paths : List Path} {path : Path} (h : Distinct paths)
    (hnew : ∀ p ∈ paths, p.same path = false) : Distinct (paths ++ [path]) := by
  rw [Distinct, List.pairwise_append]
  refine ⟨h, List.pairwise_singleton _ _, ?_⟩
  simpa using hnew

namespace Once

/-- A path that was written before is refused and nothing changes; any other is asked of the sink
below, and marked when that takes it. -/
theorem sink_cases (sink : Sink σ) (t : Once σ) (file : File) :
    (t.isWritten file.path = true ∧
        Once.sink sink t file = (t, .error (.alreadyGenerated file.path))) ∨
      (∀ p ∈ t.written, p.same file.path = false) ∧
        ((∃ s', sink t.inner file = (s', .ok ()) ∧
            Once.sink sink t file = (⟨s', t.written ++ [file.path]⟩, .ok ())) ∨
          ∃ s' e, sink t.inner file = (s', .error e) ∧
            Once.sink sink t file = (⟨s', t.written⟩, .error e)) := by
  by_cases hwritten : t.isWritten file.path = true
  · exact Or.inl ⟨hwritten, sink_of_isWritten hwritten⟩
  · right
    have hnew : ∀ p ∈ t.written, p.same file.path = false := by
      intro p hp
      have hother := mt isWritten_iff.mpr hwritten
      simpa using fun hsame => hother ⟨p, hp, hsame⟩
    refine ⟨hnew, ?_⟩
    cases hfile : sink t.inner file with
    | mk s' result =>
      cases result with
      | ok _ => exact Or.inl ⟨s', rfl, sink_of_new hnew hfile⟩
      | error e => exact Or.inr ⟨s', e, rfl, sink_of_refused hnew hfile⟩

theorem written_of_error {t : Once σ} {file : File} {e : WriteError}
    (h : (Once.sink sink t file).2 = .error e) : (Once.sink sink t file).1.written = t.written := by
  rcases sink_cases sink t file with ⟨_, hsink⟩ | ⟨_, ⟨s', _, hsink⟩ | ⟨s', e', _, hsink⟩⟩
  · rw [hsink]
  · rw [hsink] at h
    cases h
  · rw [hsink]

theorem distinct_sink {t : Once σ} (file : File) (h : Distinct t.written) :
    Distinct (Once.sink sink t file).1.written := by
  rcases sink_cases sink t file with ⟨_, hsink⟩ | ⟨hnew, ⟨s', _, hsink⟩ | ⟨s', e, _, hsink⟩⟩
  · rwa [hsink]
  · rw [hsink]
    exact distinct_append_singleton h hnew
  · rwa [hsink]

theorem written_writeEach (sink : Sink σ) (t : Once σ) (files : List File) :
    (writeEach (Once.sink sink) t files).1.written =
      t.written ++ takenPaths (writeEach (Once.sink sink) t files).2 := by
  induction files generalizing t with
  | nil => simp [writeEach, takenPaths]
  | cons file files ih =>
    have hrest := ih (Once.sink sink t file).1
    rcases sink_cases sink t file with ⟨_, hsink⟩ | ⟨_, ⟨s', _, hsink⟩ | ⟨s', e, _, hsink⟩⟩
    all_goals
      rw [hsink] at hrest
      simp [writeEach, hsink, hrest, takenPaths, Answer.taken, Except.isOk, Except.toBool]

/-! ## What the sink below is asked for -/

/-- A path that was taken does not come again. -/
def NotRepeated (asked : List Answer) : Prop :=
  asked.Pairwise fun a b => a.taken = true → a.file.path.same b.file.path = false

/-- The sink below was asked for nothing twice, and what it took is marked. -/
structure Accounts (t : Once (σ × List Answer)) : Prop where
  notRepeated : NotRepeated t.inner.2
  marked : ∀ a ∈ t.inner.2, a.taken = true → a.file.path ∈ t.written

theorem Accounts.step {t : Once (σ × List Answer)} (file : File) (h : t.Accounts) :
    (Once.sink (recorded sink) t file).1.Accounts := by
  have hasked {result : Except WriteError Unit} (hnew : ∀ p ∈ t.written, p.same file.path = false) :
      NotRepeated (t.inner.2 ++ [⟨file, result⟩]) := by
    rw [NotRepeated, List.pairwise_append]
    refine ⟨h.notRepeated, List.pairwise_singleton _ _, ?_⟩
    intro a ha b hb htaken
    rw [List.mem_singleton.mp hb]
    exact hnew _ (h.marked a ha htaken)
  rcases sink_cases (recorded sink) t file with
    ⟨_, hsink⟩ | ⟨hnew, ⟨s', hfile, hsink⟩ | ⟨s', e, hfile, hsink⟩⟩
  · rw [hsink]
    exact h
  · obtain ⟨rfl, -⟩ := Prod.mk.inj hfile
    rw [hsink]
    refine ⟨hasked hnew, ?_⟩
    intro a ha htaken
    rw [List.mem_append, List.mem_singleton] at ha ⊢
    rcases ha with ha | rfl
    · exact Or.inl (h.marked a ha htaken)
    · exact Or.inr rfl
  · obtain ⟨rfl, hresult⟩ := Prod.mk.inj hfile
    rw [hsink]
    refine ⟨hasked hnew, ?_⟩
    intro a ha htaken
    rcases List.mem_append.mp ha with ha | ha
    · exact h.marked a ha htaken
    · rw [List.mem_singleton.mp ha, Answer.taken, hresult] at htaken
      cases htaken

end Once

/-- The record is kept beside the requests and does not change them. -/
theorem writeEach_recorded (sink : Sink σ) (s : σ) (asked : List Answer) (written : List Path)
    (files : List File) :
    let recording := writeEach (Once.sink (recorded sink)) ⟨(s, asked), written⟩ files
    writeEach (Once.sink sink) ⟨s, written⟩ files =
      (⟨recording.1.inner.1, recording.1.written⟩, recording.2) := by
  induction files generalizing s asked written with
  | nil => rfl
  | cons file files ih =>
    rcases Once.sink_cases sink ⟨s, written⟩ file with
      ⟨hwritten, hsink⟩ | ⟨hnew, ⟨s', hfile, hsink⟩ | ⟨s', e, hfile, hsink⟩⟩
    · have hrecorded := @Once.sink_of_isWritten _ (recorded sink) ⟨(s, asked), written⟩ file hwritten
      simp only [writeEach, hsink, hrecorded, ih s asked written]
    · have hbelow : recorded sink (s, asked) file = ((s', asked ++ [⟨file, .ok ()⟩]), .ok ()) := by
        simp only [recorded, hfile]
      simp only [writeEach, hsink, Once.sink_of_new hnew hbelow,
        ih s' (asked ++ [⟨file, .ok ()⟩]) (written ++ [file.path])]
    · have hbelow : recorded sink (s, asked) file =
          ((s', asked ++ [⟨file, .error e⟩]), .error e) := by
        simp only [recorded, hfile]
      simp only [writeEach, hsink, Once.sink_of_refused hnew hbelow,
        ih s' (asked ++ [⟨file, .error e⟩]) written]

/-! ## Files in memory -/

theorem find?_reverse {files : List File} (h : Distinct (files.map (·.path))) (path : Path) :
    files.reverse.find? (·.path.same path) = files.find? (·.path.same path) := by
  induction files with
  | nil => rfl
  | cons file files ih =>
    obtain ⟨hfirst, hrest⟩ := List.pairwise_cons.mp h
    rw [List.reverse_cons, List.find?_append, ih hrest]
    by_cases hsame : file.path.same path = true
    · -- No other file has the path of this one.
      have hnone : files.find? (·.path.same path) = none := by
        rw [List.find?_eq_none]
        intro other hother hsame'
        have hdiffer := hfirst other.path (List.mem_map_of_mem hother)
        rw [same_trans hsame (same_symm hsame')] at hdiffer
        cases hdiffer
      rw [hnone]
      simp [hsame]
    · simp [hsame]

/-- The files kept have the paths that are marked. -/
theorem writeEach_memory (kept files : List File) (h : Distinct (kept.map (·.path))) :
    let after := (writeEach (Once.sink Memory.sink) ⟨kept, kept.map (·.path)⟩ files).1.inner
    Distinct (after.map (·.path)) ∧
      ∀ path, after.find? (·.path.same path) = (kept ++ files).find? (·.path.same path) := by
  induction files generalizing kept with
  | nil =>
    refine ⟨h, ?_⟩
    intro path
    rw [List.append_nil]
    rfl
  | cons file files ih =>
    rcases Once.sink_cases Memory.sink ⟨kept, kept.map (·.path)⟩ file with
      ⟨hwritten, hsink⟩ | ⟨hnew, ⟨s', hfile, hsink⟩ | ⟨s', e, hfile, _⟩⟩
    · obtain ⟨hdistinct, hfind⟩ := ih kept h
      simp only [writeEach, hsink]
      refine ⟨hdistinct, ?_⟩
      intro path
      rw [hfind, List.find?_append, List.find?_append, List.find?_cons]
      split
      · -- The file that is refused has the path of one that is kept.
        rename_i hsame
        obtain ⟨p, hp, hsame'⟩ := Once.isWritten_iff.mp hwritten
        obtain ⟨earlier, hmem, rfl⟩ := List.mem_map.mp hp
        have hfound : (kept.find? (·.path.same path)).isSome = true :=
          List.find?_isSome.mpr ⟨earlier, hmem, same_trans hsame' hsame⟩
        obtain ⟨first, hfirst⟩ := Option.isSome_iff_exists.mp hfound
        rw [hfirst, Option.some_or, Option.some_or]
      · rfl
    · obtain ⟨rfl, -⟩ := Prod.mk.inj hfile
      have hkept : Distinct ((kept ++ [file]).map (·.path)) := by
        rw [List.map_append]
        exact distinct_append_singleton h hnew
      have hrest := ih (kept ++ [file]) hkept
      rw [List.map_append, ← List.append_cons] at hrest
      simp only [writeEach, hsink]
      exact hrest
    · cases hfile

/-! ## Any sequence of requests -/

/-- Whatever the sink below does: it is never asked for a path that it has written before. The paths
marked as written are those of the files that were taken, each once. A request that fails marks
nothing, and one for a marked path fails and changes nothing at all. In memory the files kept have
different paths, and each path has the text that was first written to it. -/
theorem paths_written_once (sink : Sink σ) (s : σ) (files : List File) :
    let run := writeEach (Once.sink sink) ⟨s, []⟩ files
    let recording := writeEach (Once.sink (recorded sink)) ⟨(s, []), []⟩ files
    let kept := (writeEach (Once.sink Memory.sink) ⟨[], []⟩ files).1.inner
    run = (⟨recording.1.inner.1, recording.1.written⟩, recording.2) ∧
      (recording.1.inner.2.Pairwise fun a b =>
        a.result = .ok () → a.file.path.same b.file.path = false) ∧
      (run.1.written = takenPaths run.2 ∧ Distinct run.1.written ∧
        run.1.written.length = (run.2.filter (·.taken)).length) ∧
      (∀ (t : Once σ) (file : File),
        (∀ e, (Once.sink sink t file).2 = .error e →
          (Once.sink sink t file).1.written = t.written) ∧
        (t.isWritten file.path = true →
          Once.sink sink t file = (t, .error (.alreadyGenerated file.path)))) ∧
      Distinct (kept.map (·.path)) ∧
      ∀ path, Memory.get? kept path = (files.find? (·.path.same path)).map (·.text) := by
  intro run recording kept
  have hwritten : run.1.written = takenPaths run.2 := by
    simpa using Once.written_writeEach sink ⟨s, []⟩ files
  have hdistinct : Distinct run.1.written :=
    writeEach_invariant (P := fun t : Once σ => Distinct t.written)
      (fun _ file h => Once.distinct_sink file h) files List.Pairwise.nil
  have haccounts : recording.1.Accounts :=
    writeEach_invariant (fun _ file h => Once.Accounts.step file h) files
      ⟨List.Pairwise.nil, fun a ha => absurd ha List.not_mem_nil⟩
  obtain ⟨hkept, hfind⟩ := writeEach_memory [] files List.Pairwise.nil
  refine ⟨writeEach_recorded sink s [] [] files, ?_, ⟨hwritten, hdistinct, ?_⟩, ?_, hkept, ?_⟩
  · refine haccounts.notRepeated.imp ?_
    intro a b hab hok
    exact hab (by rw [Answer.taken, hok]; rfl)
  · rw [hwritten, takenPaths, List.length_map]
  · intro t file
    exact ⟨fun e he => Once.written_of_error he, Once.sink_of_isWritten⟩
  · intro path
    have hsame : kept.reverse.find? (·.path.same path) = files.find? (·.path.same path) :=
      (find?_reverse hkept path).trans (hfind path)
    rw [Memory.get?, hsame]

/-- The second file has the path of the first, spelt otherwise, and there is no room for the third. -/
theorem second_spelling_refused :
    let first : File := ⟨⟨"out/Till.hpp"⟩, "first"⟩
    let second : File := ⟨⟨"out/./Till.hpp"⟩, "second"⟩
    let third : File := ⟨⟨"out/Till.cpp"⟩, "third"⟩
    let narrow := Memory.limited (some 1)
    let run := writeEach (Once.sink narrow) ⟨[], []⟩ [first, second, third]
    (Once.sink narrow run.1 third).2 = .error (.device "disk full") ∧
      (Once.sink narrow run.1 third).1.written = run.1.written ∧
      run.1.isWritten second.path = true ∧ (Once.sink narrow run.1 second).1 = run.1 ∧
      run.1.written = [first.path] ∧
      Memory.get? (writeEach (Once.sink Memory.sink) ⟨[], []⟩ [first, second, third]).1.inner
        ⟨"out//Till.hpp"⟩ = some "first" := by
  intro first second third narrow run
  obtain ⟨-, -, ⟨hwritten, -⟩, hrequest, -, hget⟩ :=
    paths_written_once narrow [] [first, second, third]
  have hrefused : (Once.sink narrow run.1 third).2 = .error (.device "disk full") := by
    decide +kernel
  have hmarked : run.1.isWritten second.path = true := by decide +kernel
  refine ⟨hrefused, (hrequest run.1 third).1 _ hrefused, hmarked, ?_, ?_, ?_⟩
  · rw [(hrequest run.1 second).2 hmarked]
  · exact hwritten.trans (by decide +kernel)
  · rw [hget]
    decide +kernel

end OrbIdl.Output
