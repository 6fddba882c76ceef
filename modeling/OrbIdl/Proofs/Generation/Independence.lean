import OrbIdl.Proofs.Generation.Requested

/-!
# What the files of an output do not depend on

The files of an output are the same whatever is asked for besides, and the globals are the same
however their blocks are divided into sections.
-/

namespace OrbIdl

namespace Options

def target? (o : Options) : TargetKind → Option Target
  | .client => o.client
  | .server => o.server
  | .globals => o.globals

def exportWord (o : Options) : TargetKind → String
  | .client => o.clientExport
  | .server => o.serverExport
  | .globals => o.globalsExport

/-- The options ask for the same output of that kind. What else they ask for may differ. -/
structure AgreeOn (kind : TargetKind) (o o' : Options) : Prop where
  target : o.target? kind = o'.target? kind
  exportWord : o.exportWord kind = o'.exportWord kind
  privateHeaders : o.privateHeaders = o'.privateHeaders

end Options

namespace Cpp

open Model Emission Output

variable {o o' : Options} {kind : TargetKind}

/-! ## Outputs -/

theorem targetFiles_congr (h : o.AgreeOn kind o') (d : Document) :
    targetFiles o d kind = targetFiles o' d kind := by
  obtain ⟨htarget, hexport, hprivate⟩ := h
  cases kind with
  | client =>
    simp only [Options.target?, Options.exportWord] at htarget hexport
    simp only [targetFiles, pair?, clientDestination, htarget, hexport, hprivate]
  | server =>
    simp only [Options.target?, Options.exportWord] at htarget hexport
    simp only [targetFiles, pair?, serverDestination, htarget, hexport, hprivate]
  | globals =>
    simp only [Options.target?, Options.exportWord] at htarget hexport
    simp only [targetFiles, pair?, globalsDestination, htarget, hexport, hprivate]

/-- The files that a run leaves in memory. -/
def writtenFiles (o : Options) (d : Document) : List File :=
  (emit (Generator.backend Memory.sink) (Generator.fresh []) o d).state.sink

/-- The files of a run that are those of one output. The client comes first, then the server. -/
def filesFor (o : Options) (d : Document) (files : List File) : TargetKind → List File
  | .client => files.take (targetPaths o d .client).length
  | .server =>
    (files.drop (targetPaths o d .client).length).take (targetPaths o d .server).length
  | .globals =>
    (files.drop (targetPaths o d .client).length).drop (targetPaths o d .server).length

theorem writtenFiles_eq (o : Options) (d : Document) : writtenFiles o d = documentFiles o d := by
  obtain ⟨hsink, -⟩ := Generator.emit_backend Memory.sink (Generator.fresh []) o d
  have hall := writeAll_of_writes (writes_memory [] (documentFiles o d))
  rw [writtenFiles, hsink, Generator.fresh, hall]
  rfl

theorem length_targetPaths (o : Options) (d : Document) (kind : TargetKind) :
    (targetPaths o d kind).length = (targetFiles o d kind).length := by
  rw [← paths_targetFiles, List.length_map]

theorem filesFor_documentFiles (o : Options) (d : Document) (kind : TargetKind) :
    filesFor o d (documentFiles o d) kind = targetFiles o d kind := by
  cases kind <;> simp [filesFor, documentFiles, length_targetPaths]

/-- Two runs over one document that agree on an output leave the same files for it, byte for byte,
whatever else they are asked for. These files are the ones at the paths of the output, and there
are no others than those of the three outputs. -/
theorem targets_do_not_interfere (kind : TargetKind) (o o' : Options) (h : o.AgreeOn kind o')
    (d : Document) :
    filesFor o d (writtenFiles o d) kind = filesFor o' d (writtenFiles o' d) kind ∧
      (filesFor o d (writtenFiles o d) kind).map (·.path) = targetPaths o d kind ∧
      writtenFiles o d =
        [.client, .server, .globals].flatMap (filesFor o d (writtenFiles o d)) := by
  simp only [writtenFiles_eq, filesFor_documentFiles, paths_targetFiles, List.flatMap_cons,
    List.flatMap_nil, List.append_nil]
  exact ⟨targetFiles_congr h d, trivial, by rw [documentFiles, List.append_assoc]⟩

theorem client_without_the_server :
    let target : Target := ⟨"Shop", ⟨"out"⟩, some "Till"⟩
    let both : Options := { client := some target, server := some target, serverExport := "X" }
    let alone : Options := { client := some target, globals := some target }
    let i : ClassInterface := ⟨"Till", "7", "", "", [], none, [], [], .unknown⟩
    let d : Document := ⟨[⟨[], .unknown⟩], some i⟩
    both.AgreeOn .client alone ∧
      filesFor both d (writtenFiles both d) .client =
        filesFor alone d (writtenFiles alone d) .client ∧
      (filesFor both d (writtenFiles both d) .client).map (·.path) =
        [⟨"out/Shop_Till.hpp"⟩, ⟨"out/Shop_Till.cpp"⟩] := by
  intro target both alone i d
  have hagree : both.AgreeOn .client alone := ⟨rfl, rfl, rfl⟩
  obtain ⟨hfiles, hpaths, -⟩ := targets_do_not_interfere .client both alone hagree d
  rw [hpaths]
  exact ⟨hagree, hfiles, by decide⟩

/-! ## Sections -/

theorem documentFiles_of_content {gs gs' : List Globals} (hempty : gs.isEmpty = gs'.isEmpty)
    (hcontent : globalsContent gs = globalsContent gs') (o : Options)
    (i : Option ClassInterface) : documentFiles o ⟨gs, i⟩ = documentFiles o ⟨gs', i⟩ := by
  have hpair : globalsPair gs = globalsPair gs' := by
    unfold globalsPair
    rw [hcontent]
  simp only [documentFiles, targetFiles, pair?, hempty, hpair]

theorem globalsContent_append (gs gs' : List Globals) :
    globalsContent (gs ++ gs') = globalsContent gs ++ globalsContent gs' :=
  List.flatMap_append

/-- One section with the blocks of several. -/
theorem globalsContent_merged (gs : List Globals) (span : Span) :
    globalsContent [⟨gs.flatMap (·.blocks), span⟩] = globalsContent gs := by
  simp [globalsContent, List.flatMap_assoc]

theorem emit_of_content {σ : Type} {gs gs' : List Globals} (hempty : gs.isEmpty = gs'.isEmpty)
    (hcontent : globalsContent gs = globalsContent gs') (sink : Sink σ) (g : Generator σ)
    (o : Options) (i : Option ClassInterface) :
    (emit (Generator.backend sink) g o ⟨gs, i⟩).state.sink =
        (emit (Generator.backend sink) g o ⟨gs', i⟩).state.sink ∧
      (emit (Generator.backend sink) g o ⟨gs, i⟩).result =
        (emit (Generator.backend sink) g o ⟨gs', i⟩).result := by
  obtain ⟨hsink, hresult⟩ := Generator.emit_backend sink g o ⟨gs, i⟩
  obtain ⟨hsink', hresult'⟩ := Generator.emit_backend sink g o ⟨gs', i⟩
  rw [hsink, hresult, hsink', hresult', documentFiles_of_content hempty hcontent]
  exact ⟨rfl, rfl⟩

/-- Two sections of globals in a row may be one with the blocks of both, and all sections may be one:
a sink receives the same files, and the run ends as before. -/
theorem sections_leave_no_trace {σ : Type} (sink : Sink σ) (g : Generator σ) (o : Options)
    (before after : List Globals) (first second : Globals) (span : Span)
    (i : Option ClassInterface) :
    let sections := before ++ first :: second :: after
    let merged : Globals := ⟨first.blocks ++ second.blocks, span⟩
    let all : Globals := ⟨sections.flatMap (·.blocks), span⟩
    let run (gs : List Globals) := emit (Generator.backend sink) g o ⟨gs, i⟩
    ((run (before ++ merged :: after)).state.sink = (run sections).state.sink ∧
        (run (before ++ merged :: after)).result = (run sections).result) ∧
      (run [all]).state.sink = (run sections).state.sink ∧
        (run [all]).result = (run sections).result := by
  intro sections merged all run
  have hmerged : globalsContent [merged] = globalsContent [first, second] := by
    simp [merged, globalsContent]
  have htwo : globalsContent (before ++ merged :: after) = globalsContent sections := by
    calc globalsContent (before ++ merged :: after)
        = globalsContent before ++ globalsContent [merged] ++ globalsContent after := by
          rw [List.append_cons, globalsContent_append, globalsContent_append]
      _ = globalsContent before ++ globalsContent [first, second] ++ globalsContent after := by
          rw [hmerged]
      _ = globalsContent sections := by
          rw [← globalsContent_append, ← globalsContent_append, List.append_assoc]
          rfl
  have hempty : (before ++ merged :: after).isEmpty = sections.isEmpty := by
    cases before <;> rfl
  have hempty' : [all].isEmpty = sections.isEmpty := by
    cases before <;> rfl
  exact ⟨emit_of_content hempty htwo sink g o i,
    emit_of_content hempty' (globalsContent_merged sections span) sink g o i⟩

end Cpp

end OrbIdl
