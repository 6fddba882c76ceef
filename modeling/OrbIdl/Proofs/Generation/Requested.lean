import OrbIdl.Proofs.Generation.Pairs

/-!
# The files that are asked for

`targetPaths` is what the options ask for, written out. A run writes files with these paths, those
of the client first, then those of the server, and last one pair for all globals.
-/

namespace OrbIdl.Cpp

open Model Emission Output

/-! ## Paths -/

/-- A header and its implementation. The name of a private header ends with an underscore. -/
def pairPaths (t : Target) (isPrivate : Bool) (stem : String) : List Path :=
  let mark := if isPrivate then "_" else ""
  [t.directory.join s!"{t.facility}_{stem}{mark}.hpp", t.directory.join s!"{t.facility}_{stem}.cpp"]

def targetPaths (o : Options) (d : Document) : TargetKind → List Path
  | .client =>
    match o.client, d.classInterface with
    | some t, some i => pairPaths t o.privateHeaders (t.name.getD s!"{i.name}ClientProxy")
    | _, _ => []
  | .server =>
    match o.server, d.classInterface with
    | some t, some i => pairPaths t o.privateHeaders (t.name.getD s!"{i.name}ServerBase")
    | _, _ => []
  | .globals =>
    match o.globals, d.globals with
    | some t, _ :: _ => pairPaths t o.privateHeaders (t.name.getD "Globals")
    | _, _ => []

def documentPaths (o : Options) (d : Document) : List Path :=
  targetPaths o d .client ++ targetPaths o d .server ++ targetPaths o d .globals

theorem paths_files (p : FilePair) :
    p.files.map (·.path) = [p.frame.header, p.frame.implementation] := rfl

theorem paths_targetFiles (o : Options) (d : Document) (kind : TargetKind) :
    (targetFiles o d kind).map (·.path) = targetPaths o d kind := by
  cases kind with
  | client =>
    unfold targetFiles pair? targetPaths clientDestination
    cases o.client <;> cases d.classInterface <;> try rfl
    simp only [Option.bind_some, Option.map_some, Option.getD_some, paths_files, sidePair,
      FilePair.frame_fill]
    rfl
  | server =>
    unfold targetFiles pair? targetPaths serverDestination
    cases o.server <;> cases d.classInterface <;> try rfl
    simp only [Option.bind_some, Option.map_some, Option.getD_some, paths_files, sidePair,
      FilePair.frame_fill]
    rfl
  | globals =>
    unfold targetFiles pair? targetPaths globalsDestination
    cases o.globals <;> cases d.globals <;> try rfl
    simp only [List.isEmpty_cons, Option.map_some, Option.getD_some, Bool.false_eq_true, if_false,
      paths_files, globalsPair, FilePair.frame_fill]
    rfl

theorem paths_documentFiles (o : Options) (d : Document) :
    (documentFiles o d).map (·.path) = documentPaths o d := by
  simp only [documentFiles, documentPaths, List.map_append, paths_targetFiles]

/-! ## What is written -/

/-- Over a sink that never fails a run succeeds, and it writes the files that are asked for: a pair
for each half of the interface and one for the globals, however many sections these have. -/
theorem requested_files_written {σ : Type} (sink : Sink σ)
    (h : ∀ s file, (sink s file).2 = .ok ()) (s : σ) (o : Options) (d : Document) :
    let compiled := emit (Generator.backend (watched sink)) (Generator.fresh (s, [])) o d
    compiled.result = .ok () ∧ compiled.state.sink.2 = documentFiles o d ∧
      compiled.state.sink.2.map (·.path) = documentPaths o d := by
  obtain ⟨hsink, hresult⟩ :=
    Generator.emit_backend (watched sink) (Generator.fresh (s, [])) o d
  obtain ⟨s', hwrites⟩ := Writes.of_never_fails h s [] (documentFiles o d)
  have hwritten : writeAll (watched sink) (Generator.fresh (s, [])).sink (documentFiles o d) =
      ((s', documentFiles o d), .ok ()) := writeAll_of_writes hwrites
  rw [hwritten] at hsink hresult
  dsimp only
  rw [hsink, hresult]
  exact ⟨rfl, rfl, paths_documentFiles o d⟩

theorem three_pairs_written :
    let o : Options := {
      client := some ⟨"Shop", ⟨"out"⟩, none⟩
      server := some ⟨"Shop", ⟨"out/"⟩, some "Till"⟩
      globals := some ⟨"Shop", ⟨""⟩, some "Types"⟩
      privateHeaders := true }
    let i : ClassInterface := ⟨"Till", "7", "", "", [], none, [], [], .unknown⟩
    let d : Document := ⟨[⟨[], .unknown⟩, ⟨[.constants []], .unknown⟩], some i⟩
    let compiled := emit (Generator.backend (watched Memory.sink)) (Generator.fresh ([], [])) o d
    (∀ files file, (Memory.sink files file).2 = .ok ()) ∧ compiled.result = .ok () ∧
      compiled.state.sink.2.map (·.path) =
        [⟨"out/Shop_TillClientProxy_.hpp"⟩, ⟨"out/Shop_TillClientProxy.cpp"⟩,
          ⟨"out/Shop_Till_.hpp"⟩, ⟨"out/Shop_Till.cpp"⟩, ⟨"Shop_Types_.hpp"⟩,
          ⟨"Shop_Types.cpp"⟩] := by
  intro o i d
  obtain ⟨hresult, -, hpaths⟩ := requested_files_written Memory.sink result_memory [] o d
  dsimp only
  rw [hresult, hpaths]
  exact ⟨result_memory, rfl, by decide⟩

end OrbIdl.Cpp
