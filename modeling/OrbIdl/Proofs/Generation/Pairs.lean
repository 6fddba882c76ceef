import OrbIdl.Cpp.Generator
import OrbIdl.Proofs.Emission.Layout
import OrbIdl.Proofs.Output.Writing

/-!
# What a run hands over

Each output of a document is a pair of files that is filled by the calls of its sections. A run of
the generator hands over these pairs and nothing else, whatever an earlier run has left behind.
-/

namespace OrbIdl.Cpp

open Model Emission Output

/-! ## Filling a pair -/

/-- The calls that add to the pair that is open. -/
def isContent : Call → Bool
  | .beginConstants | .constant _ | .endConstants | .beginTypes | .enumeration .. | .struct _
  | .endTypes | .beginMethods | .method _ | .endMethods => true
  | .beginRun | .endRun | .beginGlobals _ | .endGlobals | .beginInterface .. | .endInterface
  | .beginClient .. | .endClient | .beginServer .. | .endServer => false

namespace FilePair

/-- The pair after one call more. -/
def take (p : FilePair) : Call → FilePair
  | .beginConstants => p.beginConstants
  | .constant c => p.add (.constant c)
  | .endConstants => p.add .gap
  | .beginTypes => p.beginTypes
  | .enumeration doc info => p.add (.enumeration doc info)
  | .struct info => p.add (.struct info)
  | .beginMethods => p.beginMethods
  | .method m => p.method m
  | .endMethods => p.endMethods
  | _ => p

def fill (p : FilePair) (cs : List Call) : FilePair :=
  cs.foldl take p

theorem fill_append (p : FilePair) (cs cs' : List Call) :
    p.fill (cs ++ cs') = (p.fill cs).fill cs' :=
  List.foldl_append

theorem frame_take (p : FilePair) (c : Call) : (p.take c).frame = p.frame := by
  cases c with
  | beginMethods =>
    simp only [take, beginMethods]
    split <;> rfl
  | method m =>
    simp only [take, method]
    split <;> rfl
  | endMethods =>
    simp only [take, endMethods]
    split <;> rfl
  | _ => rfl

@[simp] theorem frame_fill (p : FilePair) (cs : List Call) : (p.fill cs).frame = p.frame := by
  induction cs generalizing p with
  | nil => rfl
  | cons c cs ih => exact (ih (p.take c)).trans (frame_take p c)

end FilePair

/-! ## The calls that fill -/

theorem forall_block {α : Type} (P : Call → Prop) {opening closing : Call} {call : α → Call}
    (hopening : P opening) (hcall : ∀ x, P (call x)) (hclosing : P closing) (xs : List α) :
    ∀ c ∈ opening :: xs.map call ++ [closing], P c := by
  intro c hc
  simp only [List.cons_append, List.mem_cons, List.mem_append, List.mem_map, List.not_mem_nil,
    or_false] at hc
  obtain rfl | ⟨x, -, rfl⟩ | rfl := hc
  · exact hopening
  · exact hcall x
  · exact hclosing

theorem forall_typesSlot {P : Call → Prop} (h : ∀ ts, ∀ c ∈ typesBlock ts, P c)
    (slot : Option (List TypeDecl)) : ∀ c ∈ (slot.map typesBlock).getD [], P c := by
  cases slot with
  | none =>
    intro c hc
    cases hc
  | some ts => exact h ts

theorem isContent_constantsBlock (cs : List Constant) :
    ∀ c ∈ constantsBlock cs, isContent c = true :=
  forall_block (isContent · = true) rfl (fun _ => rfl) rfl cs

theorem isContent_typesBlock (ts : List TypeDecl) : ∀ c ∈ typesBlock ts, isContent c = true := by
  refine forall_block (isContent · = true) rfl (fun t => ?_) rfl ts
  cases t <;> rfl

theorem isContent_methodsBlock (ms : List Method) :
    ∀ c ∈ methodsBlock ms, isContent c = true :=
  forall_block (isContent · = true) rfl (fun _ => rfl) rfl ms

theorem isContent_blockCalls (b : Block) : ∀ c ∈ blockCalls b, isContent c = true := by
  cases b with
  | constants cs => exact isContent_constantsBlock cs
  | types ts => exact isContent_typesBlock ts

theorem isContent_halfCalls (i : ClassInterface) : ∀ c ∈ halfCalls i, isContent c = true := by
  intro c hc
  rw [halfCalls, List.mem_append, List.mem_append] at hc
  obtain (hc | hc) | hc := hc
  · exact isContent_constantsBlock _ c hc
  · exact forall_typesSlot isContent_typesBlock i.types c hc
  · exact isContent_methodsBlock _ c hc

/-- What stands in some sections of globals, one after the other. -/
def globalsContent (gs : List Globals) : List Call :=
  gs.flatMap fun g => g.blocks.flatMap blockCalls

theorem globalsContent_singleton (g : Globals) :
    globalsContent [g] = g.blocks.flatMap blockCalls :=
  List.flatMap_singleton _ g

theorem globalsContent_cons (g : Globals) (gs : List Globals) :
    globalsContent (g :: gs) = globalsContent [g] ++ globalsContent gs := by
  simp [globalsContent]

theorem isContent_globalsContent (gs : List Globals) :
    ∀ c ∈ globalsContent gs, isContent c = true := by
  intro c hc
  simp only [globalsContent, List.mem_flatMap] at hc
  obtain ⟨g, _, b, _, hc⟩ := hc
  exact isContent_blockCalls b c hc

/-! ## The pairs of a document -/

/-- The pair for one half of an interface. -/
def sidePair (i : ClassInterface) (d : Destination) : Plan.Side → FilePair
  | .client => (FilePair.client i.name i.clientBase d).fill (halfCalls i)
  | .server => (FilePair.server i.name i.serverBase d i.constructor).fill (halfCalls i)

/-- All sections of globals share one pair. -/
def globalsPair (gs : List Globals) (d : Destination) : FilePair :=
  (FilePair.globals d).fill (globalsContent gs)

/-- The pair for one output, if it is asked for and the document has something to put there. -/
def pair? (o : Options) (d : Document) : TargetKind → Option FilePair
  | .client => d.classInterface.bind fun i => (clientDestination o).map (sidePair i · .client)
  | .server => d.classInterface.bind fun i => (serverDestination o).map (sidePair i · .server)
  | .globals =>
    if d.globals.isEmpty then none else (globalsDestination o).map (globalsPair d.globals)

def targetFiles (o : Options) (d : Document) (kind : TargetKind) : List File :=
  ((pair? o d kind).map (·.files)).getD []

/-- All files of a document, in the order in which they are handed over. -/
def documentFiles (o : Options) (d : Document) : List File :=
  targetFiles o d .client ++ targetFiles o d .server ++ targetFiles o d .globals

/-! ## The declarations of a pair -/

/-- The piece declares a constant or a type. -/
def Piece.isDeclaration : Piece → Bool
  | constant _ | enumeration .. | struct _ => true
  | _ => false

def declaration? : Call → Option Piece
  | .constant c => some (.constant c)
  | .enumeration doc info => some (.enumeration doc info)
  | .struct info => some (.struct info)
  | _ => none

namespace FilePair

def declarations (p : FilePair) : List Piece :=
  p.pieces.filter Piece.isDeclaration

theorem declarations_add (p : FilePair) (piece : Piece) :
    (p.add piece).declarations =
      p.declarations ++ if piece.isDeclaration then [piece] else [] := by
  rw [declarations, add, List.filter_append, List.filter_singleton, declarations]
  cases piece.isDeclaration <;> rfl

/-- What else a call adds depends on the pair, and what it declares does not. -/
theorem declarations_take (p : FilePair) (c : Call) :
    (p.take c).declarations = p.declarations ++ (declaration? c).toList := by
  cases c with
  | beginMethods =>
    simp only [take, beginMethods]
    split <;> simp [declarations_add, Piece.isDeclaration, declaration?]
  | method m =>
    simp only [take, method]
    split <;> simp [declarations_add, Piece.isDeclaration, declaration?]
  | endMethods =>
    simp only [take, endMethods]
    split <;> simp [declarations_add, Piece.isDeclaration, declaration?]
  | _ =>
    simp [take, beginConstants, beginTypes, declarations_add, Piece.isDeclaration, declaration?]

theorem declarations_fill (p : FilePair) (cs : List Call) :
    (p.fill cs).declarations = p.declarations ++ cs.filterMap declaration? := by
  induction cs generalizing p with
  | nil => exact (List.append_nil _).symm
  | cons c cs ih =>
    have hrest := ih (p.take c)
    rw [declarations_take, List.append_assoc] at hrest
    refine hrest.trans ?_
    cases h : declaration? c <;> simp [h]

end FilePair

def typePiece : TypeDecl → Piece
  | .enumeration doc info => .enumeration doc info
  | .struct info => .struct info

def blockPieces : Block → List Piece
  | .constants cs => cs.map .constant
  | .types ts => ts.map typePiece

/-- What the brackets around a block hand over is no declaration. -/
theorem filterMap_declaration?_block {α : Type} {opening closing : Call}
    (hopening : declaration? opening = none) (hclosing : declaration? closing = none)
    (call : α → Call) (xs : List α) :
    (opening :: xs.map call ++ [closing]).filterMap declaration? =
      xs.filterMap fun x => declaration? (call x) := by
  simp [hopening, hclosing]

theorem declarations_blockCalls (b : Block) :
    (blockCalls b).filterMap declaration? = blockPieces b := by
  cases b with
  | constants cs =>
    refine (filterMap_declaration?_block rfl rfl _ cs).trans ?_
    exact congrFun (List.filterMap_eq_map (f := Piece.constant)) cs
  | types ts =>
    refine (filterMap_declaration?_block rfl rfl _ ts).trans ?_
    have htype (t : TypeDecl) : declaration? (Plan.typeDecl t) = some (typePiece t) := by
      cases t <;> rfl
    simp only [htype]
    exact congrFun (List.filterMap_eq_map (f := typePiece)) ts

/-- An interface declares its id before its constants. -/
def interfacePieces (i : ClassInterface) : List Piece :=
  blockPieces (.constants (.interfaceId i.id i.span :: i.constants)) ++
    blockPieces (.types (i.types.getD []))

/-- What a document declares in an output. -/
def documentPieces (d : Document) : TargetKind → List Piece
  | .client | .server => (d.classInterface.map interfacePieces).getD []
  | .globals => d.globals.flatMap fun g => g.blocks.flatMap blockPieces

theorem declarations_halfCalls (i : ClassInterface) :
    (halfCalls i).filterMap declaration? = interfacePieces i := by
  have hmethods : (methodsBlock i.methods).filterMap declaration? = [] := by
    refine (filterMap_declaration?_block rfl rfl _ i.methods).trans ?_
    exact List.filterMap_eq_nil_iff.mpr fun _ _ => rfl
  have htypes : ((i.types.map typesBlock).getD []).filterMap declaration? =
      blockPieces (.types (i.types.getD [])) := by
    cases i.types with
    | none => rfl
    | some ts => exact declarations_blockCalls (.types ts)
  rw [halfCalls, List.filterMap_append, List.filterMap_append, hmethods, htypes, List.append_nil]
  exact congrArg (· ++ _) (declarations_blockCalls (.constants _))

theorem declarations_sidePair (i : ClassInterface) (d : Destination) (s : Plan.Side) :
    (sidePair i d s).declarations = interfacePieces i := by
  rw [← declarations_halfCalls]
  cases s with
  | client => exact FilePair.declarations_fill _ _
  | server => exact FilePair.declarations_fill _ _

theorem declarations_globalsPair (gs : List Globals) (d : Destination) :
    (globalsPair gs d).declarations = gs.flatMap fun g => g.blocks.flatMap blockPieces := by
  have hcalls : (globalsContent gs).filterMap declaration? =
      gs.flatMap fun g => g.blocks.flatMap blockPieces := by
    simp only [globalsContent, List.filterMap_flatMap, declarations_blockCalls]
  rw [← hcalls]
  exact FilePair.declarations_fill _ _

theorem declarations_pair {o : Options} {d : Document} {kind : TargetKind} {p : FilePair}
    (h : pair? o d kind = some p) : p.declarations = documentPieces d kind := by
  have hside (s : Plan.Side) {t : Option Destination}
      (h : (d.classInterface.bind fun i => t.map (sidePair i · s)) = some p) :
      p.declarations = (d.classInterface.map interfacePieces).getD [] := by
    obtain ⟨i, hi, h⟩ := Option.bind_eq_some_iff.mp h
    obtain ⟨t, -, rfl⟩ := Option.map_eq_some_iff.mp h
    rw [declarations_sidePair, hi, Option.map_some, Option.getD_some]
  cases kind with
  | client => exact hside .client h
  | server => exact hside .server h
  | globals =>
    dsimp only [pair?] at h
    split at h
    · cases h
    · obtain ⟨t, -, rfl⟩ := Option.map_eq_some_iff.mp h
      exact declarations_globalsPair d.globals t

namespace Generator

variable {σ : Type} (sink : Sink σ) {g : Generator σ} {d : Destination}

/-! ## Sections -/

theorem backend_content {c : Call} (hc : isContent c = true) (g : Generator σ) :
    (backend sink g c).result = .ok () ∧ (backend sink g c).state = g.edit (·.take c) := by
  cases c <;> first | exact ⟨rfl, rfl⟩ | cases hc

theorem takes_content {cs : List Call} (h : ∀ c ∈ cs, isContent c = true) (g : Generator σ) :
    Takes (backend sink) g cs (g.edit (·.fill cs)) := by
  induction cs generalizing g with
  | nil => exact .nil g
  | cons c cs ih =>
    obtain ⟨hresult, hstate⟩ := backend_content sink (h c List.mem_cons_self) g
    have hrest := ih (fun c' hc' => h c' (List.mem_cons_of_mem c hc')) (g.edit (·.take c))
    exact .cons hresult (hstate ▸ hrest)

/-- A section is opened, filled and closed. -/
theorem takes_section (g : Generator σ) {opening closing : Call} {cs : List Call}
    (hopening : (backend sink g opening).result = .ok ()) (hcs : ∀ c ∈ cs, isContent c = true)
    (hclosing : ∀ g', (backend sink g' closing).result = .ok ()) :
    Takes (backend sink) g (opening :: cs ++ [closing])
      (backend sink ((backend sink g opening).state.edit (·.fill cs)) closing).state :=
  .cons hopening ((takes_content sink hcs _).append (.cons (hclosing _) (.nil _)))

/-! ## Globals -/

/-- A section fills the pair that its beginning opens, which then waits. -/
theorem takes_globals {p : FilePair}
    (hopened : g.beginGlobals d = { g with current := p, parked := none }) (x : Globals) :
    Takes (backend sink) g (globalsCalls d x)
      { g with current := {}, parked := some (p.fill (globalsContent [x])) } := by
  have hcontent := isContent_globalsContent [x]
  rw [globalsContent_singleton] at hcontent ⊢
  have hsection : Takes (backend sink) g (globalsCalls d x)
      ((g.beginGlobals d).edit (·.fill (x.blocks.flatMap blockCalls))).endGlobals :=
    takes_section sink g rfl hcontent fun _ => rfl
  rw [hopened] at hsection
  exact hsection

/-- The first section opens a pair. -/
theorem beginGlobals_of_none (hparked : g.parked = none) (d : Destination) :
    g.beginGlobals d = { g with current := .globals d, parked := none } := by
  rw [beginGlobals, hparked]

/-- A further section goes on in the pair that waits. -/
theorem beginGlobals_of_parked {p : FilePair} (hparked : g.parked = some p)
    (hframe : p.frame = .globals d) :
    g.beginGlobals d = { g with current := p, parked := none } := by
  have hsame : p.frame.header.same (FilePair.globals d).frame.header = true := by
    rw [hframe, Path.same_iff]
    rfl
  rw [beginGlobals, hparked]
  exact if_pos hsame

theorem takes_more_globals {p : FilePair} (hcurrent : g.current = {}) (hparked : g.parked = some p)
    (hframe : p.frame = .globals d) (xs : List Globals) :
    Takes (backend sink) g (xs.flatMap (globalsCalls d))
      { g with current := {}, parked := some (p.fill (globalsContent xs)) } := by
  -- The pair that waits grows with every section, so it is any pair with the frame of globals.
  induction xs generalizing g p with
  | nil =>
    have hg : { g with current := {}, parked := some p } = g := by rw [← hcurrent, ← hparked]
    show Takes (backend sink) g [] { g with current := {}, parked := some p }
    rw [hg]
    exact .nil g
  | cons x xs ih =>
    have hfirst := takes_globals sink (beginGlobals_of_parked hparked hframe) x
    have hrest := @ih { g with current := {}, parked := some (p.fill (globalsContent [x])) }
      (p.fill (globalsContent [x])) rfl rfl ((FilePair.frame_fill p _).trans hframe)
    rw [List.flatMap_cons, globalsContent_cons, FilePair.fill_append]
    exact hfirst.append hrest

theorem takes_allGlobals (o : Options) (doc : Document) (hparked : g.parked = none) :
    ∃ current, Takes (backend sink) g (allGlobalsCalls o doc.globals)
      { g with current := current, parked := pair? o doc .globals } := by
  unfold allGlobalsCalls pair?
  cases globalsDestination o with
  | none =>
    refine ⟨g.current, ?_⟩
    rw [Option.map_none, ite_self, ← hparked]
    exact .nil g
  | some t =>
    cases doc.globals with
    | nil =>
      refine ⟨g.current, ?_⟩
      rw [List.isEmpty_nil, if_pos rfl, ← hparked]
      exact .nil g
    | cons x xs =>
      have hfirst := takes_globals sink (beginGlobals_of_none hparked t) x
      have hrest := @takes_more_globals σ sink
        { g with current := {}, parked := some (globalsPair [x] t) } t (globalsPair [x] t) rfl rfl
        (FilePair.frame_fill _ _) xs
      have hpair : (globalsPair [x] t).fill (globalsContent xs) = globalsPair (x :: xs) t := by
        rw [globalsPair, globalsPair, ← FilePair.fill_append, ← globalsContent_cons]
      rw [hpair] at hrest
      exact ⟨{}, hfirst.append hrest⟩

/-! ## Interfaces -/

theorem takes_side (i : ClassInterface) (d : Destination) (s : Plan.Side) (g : Generator σ) :
    Takes (backend sink) { g with interfaceName := i.name } (sideCalls s i d)
      { g with
        interfaceName := i.name
        current := {}
        pending := g.pending ++ (sidePair i d s).files } := by
  cases s with
  | client => exact takes_section sink _ rfl (isContent_halfCalls i) fun _ => rfl
  | server => exact takes_section sink _ rfl (isContent_halfCalls i) fun _ => rfl

/-- A half that is not asked for changes nothing. -/
theorem takes_side_of_target (i : ClassInterface) (target : Option Destination) (s : Plan.Side)
    (g : Generator σ) :
    ∃ current, Takes (backend sink) { g with interfaceName := i.name }
      ((target.map (sideCalls s i)).getD [])
      { g with
        interfaceName := i.name
        current := current
        pending := g.pending ++ ((target.map (sidePair i · s)).map (·.files)).getD [] } := by
  cases target with
  | none =>
    refine ⟨g.current, ?_⟩
    rw [Option.map_none, Option.map_none, Option.map_none, Option.getD_none, Option.getD_none,
      List.append_nil]
    exact .nil _
  | some d => exact ⟨{}, takes_side sink i d s g⟩

theorem takes_interface (o : Options) (doc : Document) (g : Generator σ) :
    ∃ current name, Takes (backend sink) g ((doc.classInterface.map (interfaceCalls o)).getD [])
      { g with
        interfaceName := name
        current := current
        pending := g.pending ++ targetFiles o doc .client ++ targetFiles o doc .server } := by
  unfold targetFiles pair?
  cases doc.classInterface with
  | none =>
    refine ⟨g.current, g.interfaceName, ?_⟩
    simp only [Option.bind_none, Option.map_none, Option.getD_none, List.append_nil]
    exact .nil g
  | some i =>
    obtain ⟨current, hclient⟩ := takes_side_of_target sink i (clientDestination o) .client g
    obtain ⟨current', hserver⟩ := takes_side_of_target sink i (serverDestination o) .server
      { g with
        current := current
        pending := g.pending ++
          (((clientDestination o).map (sidePair i · .client)).map (·.files)).getD [] }
    exact ⟨current', "", .cons rfl ((hclient.append hserver).append (.cons rfl (.nil _)))⟩

/-! ## Runs -/

theorem takes_document (o : Options) (doc : Document) (g : Generator σ) :
    ∃ g', Takes (backend sink) g (.beginRun :: allGlobalsCalls o doc.globals ++
        (doc.classInterface.map (interfaceCalls o)).getD []) g' ∧
      g'.sink = g.sink ∧ g'.outputs = documentFiles o doc := by
  obtain ⟨current, hglobals⟩ := @takes_allGlobals σ sink g.beginRun o doc rfl
  obtain ⟨current', name, hinterface⟩ := takes_interface sink o doc
    { g.beginRun with current := current, parked := pair? o doc .globals }
  exact ⟨_, .cons rfl (hglobals.append hinterface), rfl, rfl⟩

/-- A run of the generator writes the files of the document, and fails as this does. -/
theorem emit_backend (g : Generator σ) (o : Options) (doc : Document) :
    let written := writeAll sink g.sink (documentFiles o doc)
    (emit (backend sink) g o doc).state.sink = written.1 ∧
      (emit (backend sink) g o doc).result =
        written.2.mapError fun (path, error) => .aborted (.write path error) := by
  obtain ⟨g', hg', hsink, houtputs⟩ := takes_document sink o doc g
  obtain ⟨hstate, hresult⟩ := emit_of_last (calls_eq o doc) hg'
  have hend : backend sink g' .endRun = endRun sink g' := rfl
  rw [hstate, hresult, hend, endRun, hsink, houtputs]
  dsimp only
  cases (writeAll sink g.sink (documentFiles o doc)).2 <;> exact ⟨rfl, rfl⟩

end Generator

end OrbIdl.Cpp
