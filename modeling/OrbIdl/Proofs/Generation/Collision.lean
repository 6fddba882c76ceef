import OrbIdl.Proofs.Emission.Run
import OrbIdl.Proofs.Generation.Requested

/-!
# Outputs that share a path

All files wait for the end of a run, but then they go to the sink one by one. Where each path is
written once and two outputs share one, the run fails with the first of them already written.
-/

namespace OrbIdl.Cpp

open Model Emission Output

instance (paths : List Path) : Decidable (Distinct paths) :=
  inferInstanceAs (Decidable (paths.Pairwise _))

section

variable {σ : Type} {o : Options} {source : String} {d : Document}

/-- A run over a source into a new sink that writes each path once. -/
def compileOnce (sink : Sink σ) (s : σ) (o : Options) (source : String) :
    Compiled (Generator (Once (σ × List File))) :=
  compile (Generator.backend (Once.sink (watched sink))) (Generator.fresh ⟨(s, []), []⟩) o source

/-- The files that reach the sink below. -/
def received (compiled : Compiled (Generator (Once (σ × List File)))) : List File :=
  compiled.state.sink.inner.2

theorem received_of_unread (sink : Sink σ) (s : σ) {e : CompileError}
    (h : (readDocument o.mappings source).result = .error e) :
    received (compileOnce sink s o source) = [] ∧
      (compileOnce sink s o source).result = .error e := by
  unfold received compileOnce
  rw [compile_of_error h]
  exact ⟨rfl, rfl⟩

theorem compileOnce_of_document (sink : Sink σ) (s : σ)
    (h : (readDocument o.mappings source).result = .ok d) :
    let written := writeAll (Once.sink (watched sink)) ⟨(s, []), []⟩ (documentFiles o d)
    received (compileOnce sink s o source) = written.1.inner.2 ∧
      (compileOnce sink s o source).result =
        written.2.mapError fun (path, error) => .aborted (.write path error) := by
  obtain ⟨hsink, hresult⟩ := Generator.emit_backend (Once.sink (watched sink))
    (Generator.fresh ⟨(s, []), []⟩) o d
  unfold received compileOnce
  rw [compile_of_document h]
  dsimp only
  rw [hsink, hresult]
  exact ⟨rfl, rfl⟩

theorem not_distinct_of_repeated {done rest : List File} {file earlier : File}
    (hmem : earlier ∈ done) (hsame : earlier.path.same file.path = true) :
    ¬ Distinct ((done ++ file :: rest).map (·.path)) := by
  intro hdistinct
  rw [Distinct, List.map_append, List.pairwise_append] at hdistinct
  have hother := hdistinct.2.2 earlier.path (List.mem_map_of_mem hmem) file.path
    List.mem_cons_self
  rw [hsame] at hother
  cases hother

/-- All files are written, or those before the first path that comes back. -/
theorem compileOnce_cases {sink : Sink σ} (s : σ) (h : ∀ s file, (sink s file).2 = .ok ())
    (hread : (readDocument o.mappings source).result = .ok d) :
    let compiled := compileOnce sink s o source
    (Distinct (documentPaths o d) ∧ compiled.result = .ok () ∧
        received compiled = documentFiles o d) ∨
      ∃ done file rest, documentFiles o d = done ++ file :: rest ∧
        (∃ earlier ∈ done, earlier.path.same file.path = true) ∧ received compiled = done ∧
        compiled.result =
          .error (.aborted (.write file.path (.alreadyGenerated file.path))) := by
  obtain ⟨hreceived, hresult⟩ := compileOnce_of_document sink s hread
  dsimp only
  obtain ⟨hdistinct, s', hwritten⟩ | ⟨done, file, rest, s', hfiles, hrepeated, hwritten⟩ :=
    writeAll_once h s (documentFiles o d)
  · left
    rw [hwritten] at hreceived hresult
    rw [paths_documentFiles] at hdistinct
    exact ⟨hdistinct, hresult, hreceived⟩
  · right
    rw [hwritten] at hreceived hresult
    exact ⟨done, file, rest, hfiles, hrepeated, hreceived, hresult⟩

end

/-- A run over a sink that never fails, where each path is written once. If it fails it has
written nothing just when there is no document or the outputs have distinct paths. With a document
it either writes all files, or fails at the first path that comes back with the files before it
already written. -/
theorem failed_run_wrote_nothing_iff {σ : Type} (sink : Sink σ)
    (h : ∀ s file, (sink s file).2 = .ok ()) (s : σ) (o : Options) (source : String) :
    let compiled := compileOnce sink s o source
    (∀ e, compiled.result = .error e →
      (received compiled = [] ↔
        ∀ d, (readDocument o.mappings source).result = .ok d → Distinct (documentPaths o d))) ∧
    ∀ d, (readDocument o.mappings source).result = .ok d →
      (Distinct (documentPaths o d) ∧ compiled.result = .ok () ∧
        received compiled = documentFiles o d) ∨
      ∃ done file rest, documentFiles o d = done ++ file :: rest ∧
        (∃ earlier ∈ done, earlier.path.same file.path = true) ∧ received compiled = done ∧
        compiled.result =
          .error (.aborted (.write file.path (.alreadyGenerated file.path))) := by
  intro compiled
  refine ⟨fun e he => ?_, fun d hread => compileOnce_cases s h hread⟩
  cases hread : (readDocument o.mappings source).result with
  | error e' =>
    obtain ⟨hreceived, -⟩ := received_of_unread sink s hread
    refine ⟨fun _ d hd => ?_, fun _ => hreceived⟩
    cases hd
  | ok d =>
    obtain ⟨-, hok, -⟩ | ⟨done, file, rest, hfiles, ⟨earlier, hmem, hsame⟩, hreceived, -⟩ :=
      compileOnce_cases s h hread
    · -- Such a run does not fail.
      exact nomatch hok.symm.trans he
    · have hrepeated : ¬ Distinct (documentPaths o d) := by
        rw [← paths_documentFiles, hfiles]
        exact not_distinct_of_repeated hmem hsame
      constructor
      · intro hnothing
        rw [hreceived] at hnothing
        rw [hnothing] at hmem
        cases hmem
      · intro hdistinct
        exact absurd (hdistinct d rfl) hrepeated

/-- An interface with no methods. -/
def tillSource : String :=
  "<CIDIDL:Interface><CIDIDL:ClassIntf CIDIDL:Name='Till' CIDIDL:InterfaceId='7'>" ++
    "<CIDIDL:Methods/></CIDIDL:ClassIntf></CIDIDL:Interface>"

/-- A client and a server of one name in one directory. -/
def tillOptions : Options :=
  let target : Target := ⟨"Shop", ⟨"out"⟩, some "Till"⟩
  { client := some target, server := some target }

def tillDocument : Document :=
  ⟨[], some ⟨"Till", "7", "TOrbClientBase", "TOrbServerBase", [], none, [], [], ⟨18, 96⟩⟩⟩

theorem readDocument_till :
    (readDocument tillOptions.mappings tillSource).result = .ok tillDocument := by
  rw [← toOption_eq_some_iff]
  decide +kernel

theorem first_pair_written_before_failure :
    let compiled := compileOnce Memory.sink [] tillOptions tillSource
    let unread := compileOnce Memory.sink [] tillOptions "<CIDIDL:Interface>"
    (∀ files file, (Memory.sink files file).2 = .ok ()) ∧
      (∃ e, compiled.result = .error e) ∧ received compiled ≠ [] ∧
      (∃ e, unread.result = .error e) ∧ received unread = [] := by
  obtain ⟨hiff, hcases⟩ := failed_run_wrote_nothing_iff Memory.sink result_memory []
    tillOptions tillSource
  obtain ⟨hiff', -⟩ := failed_run_wrote_nothing_iff Memory.sink result_memory []
    tillOptions "<CIDIDL:Interface>"
  obtain ⟨e, he⟩ : ∃ e,
      (readDocument tillOptions.mappings "<CIDIDL:Interface>").result = .error e :=
    readDocument_unclosed
  have hunread := (received_of_unread Memory.sink [] he).2
  have hrepeated : ¬ Distinct (documentPaths tillOptions tillDocument) := by decide +kernel
  obtain ⟨hdistinct, -⟩ | ⟨_, _, _, -, -, -, hresult⟩ := hcases _ readDocument_till
  · exact absurd hdistinct hrepeated
  · refine ⟨result_memory, ⟨_, hresult⟩, fun hnothing => ?_, ⟨e, hunread⟩, ?_⟩
    · exact hrepeated ((hiff _ hresult).mp hnothing _ readDocument_till)
    · refine (hiff' e hunread).mpr fun d hd => ?_
      rw [he] at hd
      cases hd

/-- The run fails at the server with the client already written. -/
theorem failed_run_wrote_the_client :
    let compiled := compile (Generator.backend (Once.sink Memory.sink))
      (Generator.fresh ⟨[], []⟩) tillOptions tillSource
    (∃ e, compiled.result = .error e) ∧
      compiled.state.sink.inner.map (·.path) =
        [⟨"out/Shop_Till.hpp"⟩, ⟨"out/Shop_Till.cpp"⟩] := by
  rw [compile_of_document readDocument_till]
  dsimp only
  rw [← toOption_eq_none_iff]
  decide +kernel

end OrbIdl.Cpp
