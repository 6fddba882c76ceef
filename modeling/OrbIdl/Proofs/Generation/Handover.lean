import OrbIdl.Cpp.Generator
import OrbIdl.Proofs.Output.Once

/-!
# The end of a run

The files that wait go to the sink in their order, those of the globals last. The first one that is
refused ends this. Either way none is left, so that another end of the run has nothing to write.
-/

namespace OrbIdl.Output

variable {σ : Type}

/-! ## What is asked of a sink -/

/-- The record of files that were all taken. -/
def allTaken (files : List File) : List Answer :=
  files.map fun file => ⟨file, .ok ()⟩

/-- How several files fare: all are taken, or those before the first that is refused, whose path the
error has. Nothing is asked behind that one. -/
inductive Fares (files : List File) : Except (Path × WriteError) Unit → List Answer → Prop where
  | taken : Fares files (.ok ()) (allTaken files)
  | refused {done rest : List File} {file : File} {e : WriteError}
      (hfiles : files = done ++ file :: rest) :
      Fares files (.error (file.path, e)) (allTaken done ++ [⟨file, .error e⟩])

theorem Fares.cons {files : List File} {result : Except (Path × WriteError) Unit}
    {asked : List Answer} (first : File) (h : Fares files result asked) :
    Fares (first :: files) result (⟨first, .ok ()⟩ :: asked) := by
  cases h with
  | taken => exact .taken
  | @refused done rest file e hfiles =>
    have hcons : first :: files = (first :: done) ++ file :: rest := by
      rw [hfiles, List.cons_append]
    exact .refused hcons

/-- The record is kept beside the requests and does not change them. -/
theorem writeAll_recorded (sink : Sink σ) (s : σ) (files : List File) :
    ∃ asked, Fares files (writeAll sink s files).2 asked ∧
      ∀ earlier, writeAll (recorded sink) (s, earlier) files =
        (((writeAll sink s files).1, earlier ++ asked), (writeAll sink s files).2) := by
  induction files generalizing s with
  | nil =>
    refine ⟨[], .taken, ?_⟩
    intro earlier
    rw [List.append_nil]
    rfl
  | cons file files ih =>
    cases hfile : sink s file with
    | mk s' answer =>
      cases answer with
      | error e =>
        refine ⟨[⟨file, .error e⟩], ?_, ?_⟩
        · simp only [writeAll, hfile]
          exact @Fares.refused _ [] files file e rfl
        · intro earlier
          simp only [writeAll, recorded, hfile]
      | ok _ =>
        obtain ⟨asked, hfares, hrecorded⟩ := ih s'
        refine ⟨⟨file, .ok ()⟩ :: asked, ?_, ?_⟩
        · simp only [writeAll, hfile]
          exact hfares.cons file
        · intro earlier
          simp only [writeAll, recorded, hfile]
          rw [hrecorded, List.append_assoc, List.singleton_append]

end OrbIdl.Output

namespace OrbIdl.Cpp

open Emission Output

variable {σ : Type}

/-- Where nothing waits, the end of a run asks nothing of the sink. -/
theorem Generator.endRun_of_idle (sink : Sink σ) {g : Generator σ} (hpending : g.pending = [])
    (hparked : g.parked = none) : Generator.endRun sink g = .accept g [] := by
  obtain ⟨s, interfaceName, current, parked, pending⟩ := g
  cases hpending
  cases hparked
  rfl

/-- From any state, the end of a run hands over the files that wait, in order and those of the
parked pair last. The record of the sink has all of them as taken, or those before the first that it
refused and then that one, whose path the error names. Nothing waits afterwards, and a second end of
the run adds nothing to the record. -/
theorem handed_over_until_refused (sink : Sink σ) (g : Generator σ) :
    let files := g.pending ++ (g.parked.map (·.files)).getD []
    let ended := Generator.backend sink g .endRun
    let recording := Generator.backend (recorded sink) { g with sink := (g.sink, []) } .endRun
    (ended.state.pending = [] ∧ ended.state.parked = none) ∧
      (ended.state.sink = recording.state.sink.1 ∧ ended.result = recording.result) ∧
      (ended.result = .ok () ∧ recording.state.sink.2 = allTaken files ∨
        ∃ done file rest e, files = done ++ file :: rest ∧
          ended.result = .error (.write file.path e) ∧
          recording.state.sink.2 = allTaken done ++ [⟨file, .error e⟩]) ∧
      Generator.backend (recorded sink) recording.state .endRun = .accept recording.state [] := by
  intro files ended recording
  obtain ⟨asked, hfares, hrecorded⟩ := writeAll_recorded sink g.sink files
  have hwritten : writeAll (recorded sink) (g.sink, []) files =
      (((writeAll sink g.sink files).1, asked), (writeAll sink g.sink files).2) := hrecorded []
  have hresult : ended.result =
      (writeAll sink g.sink files).2.mapError fun refusal => .write refusal.1 refusal.2 := rfl
  have hsame : recording.result = ended.result :=
    congrArg (fun w => w.2.mapError fun refusal => EmitError.write refusal.1 refusal.2) hwritten
  have hsink : recording.state.sink = ((writeAll sink g.sink files).1, asked) :=
    congrArg Prod.fst hwritten
  refine ⟨⟨rfl, rfl⟩, ⟨?_, hsame.symm⟩, ?_, Generator.endRun_of_idle _ rfl rfl⟩
  · rw [hsink]
    rfl
  · rw [hsink, hresult]
    generalize (writeAll sink g.sink files).2 = result at hfares ⊢
    cases hfares with
    | taken => exact Or.inl ⟨rfl, rfl⟩
    | refused hfiles => exact Or.inr ⟨_, _, _, _, hfiles, rfl, rfl⟩

end OrbIdl.Cpp
