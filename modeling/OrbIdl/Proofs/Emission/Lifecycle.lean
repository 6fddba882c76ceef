import Mathlib.Computability.Language
import OrbIdl.Proofs.Emission.Layout

/-!
# The order in which a backend is called

`lifecycle` is the grammar of a run over what its calls do: open a bracket, close one, or generate
something inside. Every run is a word of it, and in every word what is generated stands in its own
bracket.
-/

namespace OrbIdl.Emission

open Model
open scoped Computability

/-! ## What a call does -/

inductive Bracket where
  | run
  | globals
  | interface
  | client
  | server
  | constants
  | types
  | methods
deriving DecidableEq

inductive Item where
  | constant
  | enumeration
  | struct
  | method
deriving DecidableEq

/-- The bracket in which something is generated. -/
def Item.home : Item → Bracket
  | constant => .constants
  | enumeration | struct => .types
  | method => .methods

inductive Event where
  | opening (bracket : Bracket)
  | item (item : Item)
  | closing (bracket : Bracket)
deriving DecidableEq

def Call.event : Call → Event
  | beginRun => .opening .run
  | endRun => .closing .run
  | beginGlobals _ => .opening .globals
  | endGlobals => .closing .globals
  | beginInterface .. => .opening .interface
  | endInterface => .closing .interface
  | beginClient .. => .opening .client
  | endClient => .closing .client
  | beginServer .. => .opening .server
  | endServer => .closing .server
  | beginConstants => .opening .constants
  | constant _ => .item .constant
  | endConstants => .closing .constants
  | beginTypes => .opening .types
  | enumeration .. => .item .enumeration
  | struct _ => .item .struct
  | endTypes => .closing .types
  | beginMethods => .opening .methods
  | method _ => .item .method
  | endMethods => .closing .methods

/-! ## The grammar -/

def one (e : Event) : Language Event := {[e]}

def bracketed (b : Bracket) (body : Language Event) : Language Event :=
  one (.opening b) * body * one (.closing b)

def constantsSection : Language Event :=
  bracketed .constants (one (.item .constant))∗

def typesSection : Language Event :=
  bracketed .types (one (.item .enumeration) + one (.item .struct))∗

def globalsSection : Language Event :=
  bracketed .globals (constantsSection + typesSection)∗

/-- One half of an interface, which has one constant at least. -/
def half (side : Bracket) : Language Event :=
  bracketed side
    (bracketed .constants (one (.item .constant) * (one (.item .constant))∗) *
      (1 + typesSection) * bracketed .methods (one (.item .method))∗)

def interfaceSection : Language Event :=
  bracketed .interface ((1 + half .client) * (1 + half .server))

def lifecycle : Language Event :=
  bracketed .run (globalsSection∗ * (1 + interfaceSection))

/-! ## Words of the grammar -/

theorem mem_one (e : Event) : [e] ∈ one e :=
  Set.mem_singleton _

theorem mem_bracketed {b : Bracket} {body : Language Event} {word : List Event} (h : word ∈ body) :
    .opening b :: (word ++ [.closing b]) ∈ bracketed b body :=
  Language.append_mem_mul (Language.append_mem_mul (mem_one _) h) (mem_one _)

theorem flatMap_mem_kstar {α : Type} {L : Language Event} {f : α → List Event} {xs : List α}
    (h : ∀ x ∈ xs, f x ∈ L) : xs.flatMap f ∈ L∗ := by
  rw [List.flatMap_def]
  refine Language.join_mem_kstar fun word hword => ?_
  obtain ⟨x, hx, rfl⟩ := List.mem_map.mp hword
  exact h x hx

theorem map_mem_kstar {α : Type} {L : Language Event} {f : α → Event} {xs : List α}
    (h : ∀ x ∈ xs, [f x] ∈ L) : xs.map f ∈ L∗ := by
  rw [List.map_eq_flatMap]
  exact flatMap_mem_kstar h

/-! ## Runs are words -/

theorem constantsBlock_mem (cs : List Constant) :
    (constantsBlock cs).map Call.event ∈ constantsSection := by
  simp only [constantsBlock, List.map_append, List.map_cons, List.cons_append, List.map_map]
  exact mem_bracketed (map_mem_kstar fun c _ => mem_one _)

theorem typesBlock_mem (ts : List TypeDecl) : (typesBlock ts).map Call.event ∈ typesSection := by
  simp only [typesBlock, List.map_append, List.map_cons, List.cons_append, List.map_map]
  refine mem_bracketed (map_mem_kstar fun t _ => ?_)
  cases t with
  | enumeration doc info => exact Or.inl (mem_one _)
  | struct info => exact Or.inr (mem_one _)

theorem methodsBlock_mem (ms : List Method) :
    (methodsBlock ms).map Call.event ∈ bracketed .methods (one (.item .method))∗ := by
  simp only [methodsBlock, List.map_append, List.map_cons, List.cons_append, List.map_map]
  exact mem_bracketed (map_mem_kstar fun m _ => mem_one _)

theorem globalsCalls_mem (d : Destination) (g : Globals) :
    (globalsCalls d g).map Call.event ∈ globalsSection := by
  simp only [globalsCalls, List.map_append, List.map_cons, List.cons_append, List.map_flatMap]
  refine mem_bracketed (flatMap_mem_kstar fun b _ => ?_)
  cases b with
  | constants cs => exact Or.inl (constantsBlock_mem cs)
  | types ts => exact Or.inr (typesBlock_mem ts)

theorem sideCalls_mem (s : Plan.Side) (i : ClassInterface) (d : Destination) :
    (sideCalls s i d).map Call.event ∈
      half (match s with | .client => .client | .server => .server) := by
  have hconstants : (constantsBlock (.interfaceId i.id i.span :: i.constants)).map Call.event ∈
      bracketed .constants (one (.item .constant) * (one (.item .constant))∗) := by
    simp only [constantsBlock, List.map_append, List.map_cons, List.cons_append, List.map_map]
    exact mem_bracketed (Language.append_mem_mul (mem_one _) (map_mem_kstar fun c _ => mem_one _))
  have htypes : ((i.types.map typesBlock).getD []).map Call.event ∈ 1 + typesSection := by
    cases i.types with
    | none => exact Or.inl Language.nil_mem_one
    | some ts => exact Or.inr (typesBlock_mem ts)
  have hbody := Language.append_mem_mul (Language.append_mem_mul hconstants htypes)
    (methodsBlock_mem i.methods)
  simp only [sideCalls, halfCalls, List.map_append, List.map_cons, List.cons_append]
  cases s <;> exact mem_bracketed hbody

theorem interfaceCalls_mem (o : Options) (i : ClassInterface) :
    (interfaceCalls o i).map Call.event ∈ interfaceSection := by
  have hclient : (((clientDestination o).map (sideCalls .client i)).getD []).map Call.event ∈
      1 + half .client := by
    cases clientDestination o with
    | none => exact Or.inl Language.nil_mem_one
    | some d => exact Or.inr (sideCalls_mem .client i d)
  have hserver : (((serverDestination o).map (sideCalls .server i)).getD []).map Call.event ∈
      1 + half .server := by
    cases serverDestination o with
    | none => exact Or.inl Language.nil_mem_one
    | some d => exact Or.inr (sideCalls_mem .server i d)
  simp only [interfaceCalls, List.map_append, List.map_cons, List.cons_append]
  exact mem_bracketed (Language.append_mem_mul hclient hserver)

theorem calls_mem_lifecycle (o : Options) (d : Document) :
    (calls o d).map Call.event ∈ lifecycle := by
  have hglobals : (allGlobalsCalls o d.globals).map Call.event ∈ globalsSection∗ := by
    unfold allGlobalsCalls
    cases globalsDestination o with
    | none => exact Language.nil_mem_kstar _
    | some t =>
      simp only [List.map_flatMap]
      exact flatMap_mem_kstar fun g _ => globalsCalls_mem t g
  have hinterface : ((d.classInterface.map (interfaceCalls o)).getD []).map Call.event ∈
      1 + interfaceSection := by
    cases d.classInterface with
    | none => exact Or.inl Language.nil_mem_one
    | some i => exact Or.inr (interfaceCalls_mem o i)
  simp only [calls_eq, List.map_append, List.map_cons, List.cons_append]
  exact mem_bracketed (Language.append_mem_mul hglobals hinterface)

/-! ## Brackets that are open -/

/-- The open brackets after an event, the innermost first. Only the innermost is closed, and in it
alone something is generated. -/
def follow : List Bracket → Event → Option (List Bracket)
  | within, .opening b => some (b :: within)
  | b :: within, .closing b' => if b' = b then some within else none
  | b :: within, .item i => if i.home = b then some (b :: within) else none
  | [], _ => none

/-- The brackets that are open after some events, if each of these stands where it may. -/
def openAfter (events : List Event) : Option (List Bracket) :=
  events.foldlM follow []

/-- Each word leaves the brackets open that it finds, and stands where it may between them. -/
def Keeps (within : List Bracket) (L : Language Event) : Prop :=
  ∀ word ∈ L, word.foldlM follow within = some within

section

variable {within : List Bracket} {L M : Language Event} {b : Bracket}

theorem Keeps.one : Keeps within 1 := by
  intro word hword
  rw [Language.mem_one] at hword
  rw [hword]
  rfl

theorem Keeps.add (hL : Keeps within L) (hM : Keeps within M) : Keeps within (L + M) := by
  rintro word (hword | hword)
  · exact hL word hword
  · exact hM word hword

theorem Keeps.mul (hL : Keeps within L) (hM : Keeps within M) : Keeps within (L * M) := by
  intro word hword
  obtain ⟨first, hfirst, rest, hrest, rfl⟩ := Language.mem_mul.mp hword
  rw [List.foldlM_append, hL first hfirst]
  exact hM rest hrest

theorem Keeps.kstar (hL : Keeps within L) : Keeps within L∗ := by
  intro word hword
  obtain ⟨words, rfl, hwords⟩ := Language.mem_kstar.mp hword
  induction words with
  | nil => rfl
  | cons first rest ih =>
    have hrest : ∀ w ∈ rest, w ∈ L := fun w hw => hwords w (List.mem_cons_of_mem _ hw)
    rw [List.flatten_cons, List.foldlM_append, hL first (hwords first List.mem_cons_self)]
    exact ih hrest (Language.join_mem_kstar hrest)

theorem Keeps.item (i : Item) (h : i.home = b) :
    Keeps (b :: within) (Emission.one (.item i)) := by
  rintro word rfl
  simp [follow, h]

theorem Keeps.bracketed (h : Keeps (b :: within) L) : Keeps within (bracketed b L) := by
  rintro word ⟨opened, ⟨first, rfl, body, hbody, rfl⟩, last, rfl, rfl⟩
  have hopened : [Event.opening b].foldlM follow within = some (b :: within) := rfl
  have hclosed : [Event.closing b].foldlM follow (b :: within) = some within := by simp [follow]
  rw [List.foldlM_append, List.foldlM_append, hopened, Option.bind_eq_bind, Option.bind_some,
    h body hbody]
  exact hclosed

end

theorem keeps_typesSection (within : List Bracket) : Keeps within typesSection :=
  .bracketed (.kstar (.add (.item _ rfl) (.item _ rfl)))

theorem keeps_half (side : Bracket) (within : List Bracket) : Keeps within (half side) := by
  have hconstants : Keeps (.constants :: side :: within) (one (.item .constant)) := .item _ rfl
  have hmethods : Keeps (.methods :: side :: within) (one (.item .method)) := .item _ rfl
  exact .bracketed (.mul (.mul (.bracketed (.mul hconstants hconstants.kstar))
    (.add .one (keeps_typesSection _))) (.bracketed hmethods.kstar))

theorem keeps_lifecycle : Keeps [] lifecycle := by
  have hconstants : Keeps [.globals, .run] constantsSection := .bracketed (.kstar (.item _ rfl))
  have hglobals : Keeps [.run] globalsSection :=
    .bracketed (.kstar (.add hconstants (keeps_typesSection _)))
  have hinterface : Keeps [.run] interfaceSection :=
    .bracketed (.mul (.add .one (keeps_half .client _)) (.add .one (keeps_half .server _)))
  exact .bracketed (.mul hglobals.kstar (.add .one hinterface))

/-- What comes next in a sequence that keeps to its brackets is generated in its own. -/
theorem openAfter_of_append {before after : List Event} {within : List Bracket}
    (h : openAfter (before ++ after) = some within) :
    ∃ within', openAfter before = some within' ∧
      ∀ i rest, after = .item i :: rest → within'.head? = some i.home := by
  rw [openAfter, List.foldlM_append, Option.bind_eq_bind, Option.bind_eq_some_iff] at h
  obtain ⟨within', hbefore, hafter⟩ := h
  refine ⟨within', hbefore, ?_⟩
  rintro i rest rfl
  rw [List.foldlM_cons, Option.bind_eq_bind, Option.bind_eq_some_iff] at hafter
  obtain ⟨_, hitem, _⟩ := hafter
  cases within' with
  | nil => cases hitem
  | cons b outer =>
    rw [follow, Option.ite_none_right_eq_some] at hitem
    rw [hitem.1]
    rfl

/-! ## The lifecycle -/

/-- A backend that never refuses is called in the order of the grammar. At any point of the run the
brackets are closed in the order in which they are to be, and what is generated next stands in its
own bracket. -/
theorem received_in_lifecycle {σ : Type} (backend : Backend σ)
    (h : ∀ s c, (backend s c).result = .ok ()) (s : σ) (o : Options) (d : Document) :
    let events := (emit (traced backend) (s, []) o d).state.2.map Call.event
    events ∈ lifecycle ∧ openAfter events = some [] ∧
      ∀ before after, events = before ++ after → ∃ within, openAfter before = some within ∧
        ∀ i rest, after = .item i :: rest → within.head? = some i.home := by
  rw [received_of_never_refuses h s o d]
  have hword := calls_mem_lifecycle o d
  have hclosed := keeps_lifecycle _ hword
  refine ⟨hword, hclosed, fun before after hsplit => ?_⟩
  exact openAfter_of_append (hsplit ▸ hclosed)

theorem both_halves_in_lifecycle :
    let target : Target := ⟨"Shop", ⟨"out"⟩, none⟩
    let o : Options := { client := some target, server := some target, globals := some target }
    let i : ClassInterface := ⟨"Shop", "7", "", "", [], some [], [], [], .unknown⟩
    let d : Document := ⟨[⟨[.constants [], .types []], .unknown⟩, ⟨[], .unknown⟩], some i⟩
    let events := (emit (traced (recorder none)) ([], []) o d).state.2.map Call.event
    (∀ s c, (recorder none s c).result = .ok ()) ∧ events ∈ lifecycle ∧
      openAfter (events.take 12) = some [.constants, .client, .interface, .run] := by
  intro target o i d events
  obtain ⟨hword, -⟩ := received_in_lifecycle (recorder none) result_recorder_none [] o d
  refine ⟨result_recorder_none, hword, ?_⟩
  rw [show events = (calls o d).map Call.event from
    congrArg (List.map Call.event) (received_of_never_refuses result_recorder_none [] o d)]
  rfl

end OrbIdl.Emission
