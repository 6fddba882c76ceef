import OrbIdl.Proofs.Generation.Pairs

/-!
# Several runs of one generator

What a run hands over hangs on its own options and document alone. Runs before it, failed or not,
leave nothing behind but what the sink has made of their files.
-/

namespace OrbIdl.Output

variable {σ : Type}

/-- The files handed over are all, or those up to one that is refused. -/
theorem writeAll_watched (sink : Sink σ) (s : σ) (files : List File) :
    ∃ s' handed result, handed <+: files ∧ (result = .ok () → handed = files) ∧
      ∀ received, writeAll (watched sink) (s, received) files =
        ((s', received ++ handed), result) := by
  induction files generalizing s with
  | nil =>
    refine ⟨s, [], .ok (), List.nil_prefix, fun _ => rfl, ?_⟩
    intro received
    rw [List.append_nil]
    rfl
  | cons file files ih =>
    cases hfile : sink s file with
    | mk s' answer =>
      cases answer with
      | error e =>
        refine ⟨s', [file], .error (file.path, e), ⟨files, rfl⟩, nofun, ?_⟩
        intro received
        simp only [writeAll, watched, hfile]
      | ok _ =>
        obtain ⟨s'', handed, result, hprefix, hall, hwrite⟩ := ih s'
        refine ⟨s'', file :: handed, result, List.prefix_cons_inj file |>.mpr hprefix, ?_, ?_⟩
        · intro hok
          rw [hall hok]
        · intro received
          simp only [writeAll, watched, hfile]
          rw [hwrite (received ++ [file]), List.append_assoc, List.singleton_append]

end OrbIdl.Output

namespace OrbIdl

open Emission Output

variable {σ : Type}

/-! ## Jobs -/

/-- A run starts from a source that is still to be read, or from a document. -/
inductive Input where
  | source (text : String)
  | document (document : Model.Document)

structure Job where
  options : Options
  input : Input

namespace Job

def document (job : Job) : Except CompileError Model.Document :=
  match job.input with
  | .source text => (readDocument job.options.mappings text).result
  | .document d => .ok d

/-- What a job has to hand over: nothing when there is no document. -/
def files (job : Job) : List File :=
  match job.document with
  | .ok d => Cpp.documentFiles job.options d
  | .error _ => []

def run (backend : Backend σ) (s : σ) (job : Job) : Compiled σ :=
  match job.input with
  | .source text => compile backend s job.options text
  | .document d => emit backend s job.options d

/-- One backend does one job after the other, whether or not they succeed. -/
def runAll (backend : Backend σ) (s : σ) (jobs : List Job) : σ :=
  jobs.foldl (fun s job => (job.run backend s).state) s

theorem run_of_error {job : Job} {e : CompileError} (h : job.document = .error e)
    (backend : Backend σ) (s : σ) :
    (job.run backend s).state = s ∧ (job.run backend s).result = .error e := by
  obtain ⟨options, input⟩ := job
  cases input with
  | document d => cases h
  | source text =>
    have hread : (readDocument options.mappings text).result = .error e := h
    simp only [run, compile_of_error hread]
    exact ⟨trivial, trivial⟩

theorem run_of_document {job : Job} {d : Model.Document} (h : job.document = .ok d)
    (backend : Backend σ) (s : σ) :
    (job.run backend s).state = (emit backend s job.options d).state ∧
      (job.run backend s).result = (emit backend s job.options d).result := by
  obtain ⟨options, input⟩ := job
  cases input with
  | document d' =>
    cases h
    exact ⟨rfl, rfl⟩
  | source text =>
    have hread : (readDocument options.mappings text).result = .ok d := h
    simp only [run, compile_of_document hread]
    exact ⟨trivial, trivial⟩

end Job

namespace Cpp

open Job

/-- A job writes its files, from whatever state the generator is in. -/
theorem Generator.run_backend (sink : Sink σ) (g : Generator σ) (job : Job) :
    let written := writeAll sink g.sink job.files
    (job.run (backend sink) g).state.sink = written.1 ∧
      (job.run (backend sink) g).result = (job.document >>= fun _ =>
        written.2.mapError fun (path, error) => .aborted (.write path error)) := by
  unfold files
  cases hread : job.document with
  | error e =>
    obtain ⟨hstate, hresult⟩ := run_of_error hread (backend sink) g
    rw [hstate, hresult]
    exact ⟨rfl, rfl⟩
  | ok d =>
    obtain ⟨hstate, hresult⟩ := run_of_document hread (backend sink) g
    rw [hstate, hresult]
    exact emit_backend sink g job.options d

/-- The last of several jobs hands over what a new generator with the same sink would hand over for
it, and ends as that would. These are the files of its document, all of them or those up to one that
the sink refuses. -/
theorem earlier_runs_leave_no_trace (sink : Sink σ) (s : σ) (jobs : List Job) (last : Job) :
    let backend := Generator.backend (watched sink)
    let used := runAll backend (Generator.fresh (s, [])) jobs
    let again := last.run backend used
    let alone := last.run backend (Generator.fresh (used.sink.1, []))
    ∃ handed, again.state.sink.2 = used.sink.2 ++ handed ∧ alone.state.sink.2 = handed ∧
      again.state.sink.1 = alone.state.sink.1 ∧ again.result = alone.result ∧
      handed <+: last.files ∧ (again.result = .ok () → handed = last.files) := by
  intro backend used again alone
  obtain ⟨hagain, hresult⟩ := Generator.run_backend (watched sink) used last
  obtain ⟨halone, hresult'⟩ :=
    Generator.run_backend (watched sink) (Generator.fresh (used.sink.1, [])) last
  obtain ⟨s', handed, result, hprefix, hall, hwrite⟩ :=
    writeAll_watched sink used.sink.1 last.files
  have hused : writeAll (watched sink) used.sink last.files =
      ((s', used.sink.2 ++ handed), result) := hwrite used.sink.2
  have hfresh : writeAll (watched sink) (Generator.fresh (used.sink.1, [])).sink last.files =
      ((s', handed), result) := hwrite []
  rw [hused] at hagain hresult
  rw [hfresh] at halone hresult'
  refine ⟨handed, congrArg Prod.snd hagain, congrArg Prod.snd halone, ?_, ?_, hprefix, ?_⟩
  · exact (congrArg Prod.fst hagain).trans (congrArg Prod.fst halone).symm
  · exact hresult.trans hresult'.symm
  · intro hok
    obtain ⟨d, -, hwritten⟩ := bind_eq_ok_iff.mp (hresult.symm.trans hok)
    apply hall
    cases result with
    | ok _ => rfl
    | error e => cases hwritten

/-- The first run fails at its second file and the next has no document. -/
theorem all_files_after_failed_runs :
    let flaky : Sink Nat := fun n _ => (n + 1, if n = 1 then .error (.device "disk full") else .ok ())
    let o : Options := { client := some ⟨"Shop", ⟨"out"⟩, none⟩ }
    let job : Job := ⟨o, .document ⟨[], some ⟨"Till", "7", "", "", [], none, [], [], .unknown⟩⟩⟩
    let backend := Generator.backend (watched flaky)
    let used := runAll backend (Generator.fresh (0, [])) [job, ⟨o, .source "<"⟩]
    let again := job.run backend used
    used.sink.2.length = 2 ∧ again.result = .ok () ∧
      again.state.sink.2 = used.sink.2 ++ job.files ∧
      job.files.map (·.path) =
        [⟨"out/Shop_TillClientProxy.hpp"⟩, ⟨"out/Shop_TillClientProxy.cpp"⟩] := by
  intro flaky o job backend used again
  obtain ⟨handed, hagain, -, -, -, -, hall⟩ :=
    earlier_runs_leave_no_trace flaky 0 [job, ⟨o, .source "<"⟩] job
  have hresult : again.result = .ok () := by
    rw [← toOption_eq_some_iff]
    decide +kernel
  refine ⟨by decide +kernel, hresult, ?_, by decide +kernel⟩
  rw [← hall hresult]
  exact hagain

end Cpp

end OrbIdl
