import Mathlib.Data.List.Induction
import OrbIdl.Output.Sink

/-! # What a sink receives -/

namespace OrbIdl.Output

variable {σ : Type} {sink : Sink σ} {s s' s'' : σ}

/-- The same sink with a record of all files that reach it, those that it refuses included. -/
def watched (sink : Sink σ) : Sink (σ × List File) := fun (s, received) file =>
  let (state, result) := sink s file
  ((state, received ++ [file]), result)

/-- The sink takes the files one after the other, which leads it from one state to another. -/
inductive Writes (sink : Sink σ) : σ → List File → σ → Prop where
  | nil (s : σ) : Writes sink s [] s
  | cons {s s' s'' : σ} {file : File} {files : List File} (hfile : sink s file = (s', .ok ()))
      (hfiles : Writes sink s' files s'') : Writes sink s (file :: files) s''

/-! ## Several files -/

theorem writeAll_of_writes {files : List File} (h : Writes sink s files s') :
    writeAll sink s files = (s', .ok ()) := by
  induction h with
  | nil s => rfl
  | cons hfile _ ih =>
    unfold writeAll
    simp only [hfile]
    exact ih

/-- What comes after a file that is refused never reaches the sink. -/
theorem writeAll_of_refused {done rest : List File} {file : File} {e : WriteError}
    (h : Writes sink s done s') (hfile : sink s' file = (s'', .error e)) :
    writeAll sink s (done ++ file :: rest) = (s'', .error (file.path, e)) := by
  induction h with
  | nil s =>
    simp only [List.nil_append, writeAll, hfile]
  | cons hfirst _ ih =>
    rw [List.cons_append, writeAll]
    simp only [hfirst]
    exact ih hfile

theorem Writes.of_never_fails (h : ∀ s file, (sink s file).2 = .ok ()) (s : σ)
    (received files : List File) :
    ∃ s', Writes (watched sink) (s, received) files (s', received ++ files) := by
  induction files generalizing s received with
  | nil =>
    rw [List.append_nil]
    exact ⟨s, .nil _⟩
  | cons file files ih =>
    obtain ⟨s', hs'⟩ := ih (sink s file).1 (received ++ [file])
    have hfile : watched sink (s, received) file =
        (((sink s file).1, received ++ [file]), .ok ()) := by
      rw [← h s file]
      rfl
    rw [List.append_cons]
    exact ⟨s', .cons hfile hs'⟩

theorem result_memory (files : List File) (file : File) :
    (Memory.sink files file).2 = .ok () := rfl

theorem writes_memory (held files : List File) :
    Writes Memory.sink held files (held ++ files) := by
  induction files generalizing held with
  | nil =>
    rw [List.append_nil]
    exact .nil held
  | cons file files ih =>
    rw [List.append_cons]
    exact .cons rfl (ih (held ++ [file]))

/-! ## Paths that are written once -/

/-- No two of the paths name the same file. -/
def Distinct (paths : List Path) : Prop :=
  paths.Pairwise fun p q => p.same q = false

theorem distinct_or_repeated (files : List File) :
    Distinct (files.map (·.path)) ∨
      ∃ done file rest, files = done ++ file :: rest ∧ Distinct (done.map (·.path)) ∧
        ∃ earlier ∈ done, earlier.path.same file.path = true := by
  induction files using List.reverseRecOn with
  | nil => exact Or.inl .nil
  | append_singleton files last ih =>
    obtain hdistinct | ⟨done, file, rest, rfl, hdone, hrepeated⟩ := ih
    · by_cases hlast : ∃ earlier ∈ files, earlier.path.same last.path = true
      · exact Or.inr ⟨files, last, [], rfl, hdistinct, hlast⟩
      · left
        rw [Distinct, List.map_append, List.pairwise_append]
        refine ⟨hdistinct, List.pairwise_singleton _ _, ?_⟩
        simpa using hlast
    · refine Or.inr ⟨done, file, rest ++ [last], ?_, hdone, hrepeated⟩
      rw [List.append_assoc, List.cons_append]

theorem Once.isWritten_iff {s : Once σ} {path : Path} :
    s.isWritten path = true ↔ ∃ p ∈ s.written, p.same path = true := by
  simp [Once.isWritten]

theorem Once.sink_of_isWritten {s : Once σ} {file : File} (h : s.isWritten file.path = true) :
    Once.sink sink s file = (s, .error (.alreadyGenerated file.path)) := by
  rw [Once.sink, if_pos h]

theorem Once.isWritten_of_new {s : Once σ} {path : Path}
    (hnew : ∀ p ∈ s.written, p.same path = false) : ¬ s.isWritten path = true := by
  rw [Once.isWritten_iff]
  rintro ⟨p, hp, hsame⟩
  rw [hnew p hp] at hsame
  cases hsame

theorem Once.sink_of_new {written : List Path} {file : File}
    (hnew : ∀ p ∈ written, p.same file.path = false) (hfile : sink s file = (s', .ok ())) :
    Once.sink sink ⟨s, written⟩ file = (⟨s', written ++ [file.path]⟩, .ok ()) := by
  rw [Once.sink, if_neg (Once.isWritten_of_new hnew)]
  simp only [hfile]

theorem Once.sink_of_refused {written : List Path} {file : File} {e : WriteError}
    (hnew : ∀ p ∈ written, p.same file.path = false) (hfile : sink s file = (s', .error e)) :
    Once.sink sink ⟨s, written⟩ file = (⟨s', written⟩, .error e) := by
  rw [Once.sink, if_neg (Once.isWritten_of_new hnew)]
  simp only [hfile]

theorem Writes.once {files : List File} {written : List Path} (h : Writes sink s files s')
    (hdistinct : Distinct (written ++ files.map (·.path))) :
    Writes (Once.sink sink) ⟨s, written⟩ files ⟨s', written ++ files.map (·.path)⟩ := by
  induction h generalizing written with
  | nil s =>
    rw [List.map_nil, List.append_nil]
    exact .nil _
  | @cons s s' s'' file files hfile _ ih =>
    have hnew : ∀ p ∈ written, p.same file.path = false := by
      intro p hp
      exact (List.pairwise_append.mp hdistinct).2.2 p hp file.path List.mem_cons_self
    rw [List.map_cons, List.append_cons] at hdistinct ⊢
    exact .cons (Once.sink_of_new hnew hfile) (ih hdistinct)

/-- Over a sink that never fails, files with distinct paths are all taken; otherwise those before
the first path that comes back. -/
theorem writeAll_once (h : ∀ s file, (sink s file).2 = .ok ()) (s : σ) (files : List File) :
    (Distinct (files.map (·.path)) ∧
      ∃ s', writeAll (Once.sink (watched sink)) ⟨(s, []), []⟩ files =
        (⟨(s', files), files.map (·.path)⟩, .ok ())) ∨
    ∃ done file rest s', files = done ++ file :: rest ∧
      (∃ earlier ∈ done, earlier.path.same file.path = true) ∧
      writeAll (Once.sink (watched sink)) ⟨(s, []), []⟩ files =
        (⟨(s', done), done.map (·.path)⟩, .error (file.path, .alreadyGenerated file.path)) := by
  obtain hdistinct | ⟨done, file, rest, rfl, hdone, hrepeated⟩ := distinct_or_repeated files
  · obtain ⟨s', hs'⟩ := Writes.of_never_fails h s [] files
    exact Or.inl ⟨hdistinct, s', writeAll_of_writes (hs'.once hdistinct)⟩
  · obtain ⟨s', hs'⟩ := Writes.of_never_fails h s [] done
    have hwritten : Once.isWritten (σ := σ × List File) ⟨(s', done), done.map (·.path)⟩
        file.path = true := by
      obtain ⟨earlier, hmem, hsame⟩ := hrepeated
      exact Once.isWritten_iff.mpr ⟨earlier.path, List.mem_map_of_mem hmem, hsame⟩
    exact Or.inr ⟨done, file, rest, s', rfl, hrepeated,
      writeAll_of_refused (hs'.once hdone) (Once.sink_of_isWritten hwritten)⟩

end OrbIdl.Output
