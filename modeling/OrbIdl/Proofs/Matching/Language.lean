import Mathlib.Computability.Language
import OrbIdl.Proofs.Matching.Worklist
import OrbIdl.Schema.Declaration

/-! # The language of a content model -/

namespace OrbIdl.Schema

open Relation
open scoped Computability

/-! ## What a particle denotes -/

namespace Particle

mutual

/-- The lists of names that a particle stands for. -/
def language (values : String → List String) : Particle → Language String
  | element name => {[name]}
  | entity name => {word | ∃ value ∈ values name, word = [value]}
  | sequence parts => languageInOrder values parts
  | choice parts => languageOfAny values parts
  | optional part => 1 + part.language values
  | star part => (part.language values)∗
  | plus part => part.language values * (part.language values)∗

def languageInOrder (values : String → List String) : List Particle → Language String
  | [] => 1
  | part :: parts => part.language values * languageInOrder values parts

def languageOfAny (values : String → List String) : List Particle → Language String
  | [] => 0
  | part :: parts => part.language values + languageOfAny values parts

end

@[induction_eliminator]
theorem parts_induction {motive : Particle → Prop}
    (element : ∀ name, motive (element name))
    (entity : ∀ name, motive (entity name))
    (sequence : ∀ parts, (∀ p ∈ parts, motive p) → motive (sequence parts))
    (choice : ∀ parts, (∀ p ∈ parts, motive p) → motive (choice parts))
    (optional : ∀ part, motive part → motive (optional part))
    (star : ∀ part, motive part → motive (star part))
    (plus : ∀ part, motive part → motive (plus part)) : ∀ p, motive p
  | .element name => element name
  | .entity name => entity name
  | .sequence parts => sequence parts fun p _ =>
      parts_induction element entity sequence choice optional star plus p
  | .choice parts => choice parts fun p _ =>
      parts_induction element entity sequence choice optional star plus p
  | .optional part => optional part
      (parts_induction element entity sequence choice optional star plus part)
  | .star part => star part
      (parts_induction element entity sequence choice optional star plus part)
  | .plus part => plus part
      (parts_induction element entity sequence choice optional star plus part)

end Particle

/-! ## Words between two positions -/

/-- A word of `L` stands in `names` from position `i` up to position `j`. -/
def Spells (names : List String) (L : Language String) (i j : Nat) : Prop :=
  i ≤ names.length ∧ j ≤ names.length ∧ ∃ word ∈ L, names.drop i = word ++ names.drop j

section

variable {names : List String} {L M : Language String} {i j k : Nat}

theorem Spells.le (h : Spells names L i j) : i ≤ j := by
  obtain ⟨hi, hj, word, _, hword⟩ := h
  have hlen := congrArg List.length hword
  simp only [List.length_append, List.length_drop] at hlen
  omega

theorem exists_drop_eq {a b : List String} (h : names.drop i = a ++ (b ++ names.drop k)) :
    names.drop i = a ++ names.drop (i + a.length) ∧
      names.drop (i + a.length) = b ++ names.drop k := by
  have hrest : names.drop (i + a.length) = b ++ names.drop k := by
    rw [← List.drop_drop, h, List.drop_left]
  exact ⟨by rw [hrest, h], hrest⟩

theorem spells_one_iff (hi : i ≤ names.length) : Spells names 1 i j ↔ j = i := by
  constructor
  · rintro ⟨_, hj, word, hword, h⟩
    rw [Language.mem_one] at hword
    have hlen := congrArg List.length h
    simp only [hword, List.nil_append, List.length_drop] at hlen
    omega
  · rintro rfl
    exact ⟨hi, hi, [], Language.nil_mem_one, rfl⟩

theorem spells_add_iff : Spells names (L + M) i j ↔ Spells names L i j ∨ Spells names M i j := by
  constructor
  · rintro ⟨hi, hj, word, hword | hword, h⟩
    · exact Or.inl ⟨hi, hj, word, hword, h⟩
    · exact Or.inr ⟨hi, hj, word, hword, h⟩
  · rintro (⟨hi, hj, word, hword, h⟩ | ⟨hi, hj, word, hword, h⟩)
    · exact ⟨hi, hj, word, Or.inl hword, h⟩
    · exact ⟨hi, hj, word, Or.inr hword, h⟩

theorem spells_mul_iff :
    Spells names (L * M) i k ↔ ∃ j, Spells names L i j ∧ Spells names M j k := by
  constructor
  · rintro ⟨hi, hk, word, hword, h⟩
    obtain ⟨a, ha, b, hb, rfl⟩ := Language.mem_mul.mp hword
    rw [List.append_assoc] at h
    obtain ⟨hfirst, hsecond⟩ := exists_drop_eq h
    have hj : i + a.length ≤ names.length := by
      have hlen := congrArg List.length h
      simp only [List.length_append, List.length_drop] at hlen
      omega
    exact ⟨i + a.length, ⟨hi, hj, a, ha, hfirst⟩, ⟨hj, hk, b, hb, hsecond⟩⟩
  · rintro ⟨j, ⟨hi, _, a, ha, hfirst⟩, ⟨_, hk, b, hb, hsecond⟩⟩
    refine ⟨hi, hk, a ++ b, Language.mem_mul.mpr ⟨a, ha, b, hb, rfl⟩, ?_⟩
    rw [hfirst, hsecond, List.append_assoc]

theorem spells_kstar_iff (hi : i ≤ names.length) :
    Spells names L∗ i j ↔ ReflTransGen (Spells names L) i j := by
  constructor
  · rintro ⟨-, hj, word, hword, h⟩
    obtain ⟨words, rfl, hwords⟩ := Language.mem_kstar.mp hword
    -- One step for each word; an empty one is a step that stays.
    induction words generalizing i with
    | nil =>
      rw [(spells_one_iff hi).mp ⟨hi, hj, [], Language.nil_mem_one, h⟩]
    | cons w words ih =>
      rw [List.flatten_cons, List.append_assoc] at h
      obtain ⟨hfirst, hrest⟩ := exists_drop_eq h
      have hmid : i + w.length ≤ names.length := by
        have hlen := congrArg List.length h
        simp only [List.length_append, List.length_drop] at hlen
        omega
      refine .head (b := i + w.length) ⟨hi, hmid, w, hwords w List.mem_cons_self, hfirst⟩ ?_
      have hwords' : ∀ w ∈ words, w ∈ L := fun w hw => hwords w (List.mem_cons_of_mem _ hw)
      exact ih hmid hwords' (Language.join_mem_kstar hwords') hrest
  · intro h
    induction h using ReflTransGen.head_induction_on with
    | refl => exact ⟨hi, hi, [], Language.nil_mem_kstar L, rfl⟩
    | head hstep _ ih =>
      have hmul := spells_mul_iff.mpr ⟨_, hstep, ih hstep.2.1⟩
      rw [← Language.one_add_self_mul_kstar_eq_kstar]
      exact spells_add_iff.mpr (Or.inr hmul)

theorem spells_all_iff : Spells names L 0 names.length ↔ names ∈ L := by
  constructor
  · rintro ⟨_, _, word, hword, h⟩
    rw [List.drop_zero, List.drop_length, List.append_nil] at h
    exact h ▸ hword
  · intro h
    exact ⟨Nat.zero_le _, le_refl _, names, h, by simp⟩

theorem spells_name_iff {P : String → Prop} (hi : i ≤ names.length) :
    Spells names {word | ∃ name, P name ∧ word = [name]} i j ↔
      ∃ name, P name ∧ names[i]? = some name ∧ j = i + 1 := by
  constructor
  · rintro ⟨_, hj, word, ⟨name, hname, rfl⟩, h⟩
    refine ⟨name, hname, ?_, ?_⟩
    · have := congrArg List.head? h
      simpa [List.head?_drop] using this
    · have hlen := congrArg List.length h
      simp only [List.length_append, List.length_drop, List.length_singleton] at hlen
      omega
  · rintro ⟨name, hname, hget, rfl⟩
    obtain ⟨hlt, hget⟩ := List.getElem?_eq_some_iff.mp hget
    refine ⟨hi, hlt, [name], ⟨name, hname, rfl⟩, ?_⟩
    rw [List.drop_eq_getElem_cons hlt, hget]
    rfl

end

/-! ## Where matches end -/

/-- The positions in `out` are those up to which a word of `L` stands from `start`, each once. -/
structure Exact (names : List String) (L : Language String) (start : Nat) (out : List Nat) :
    Prop where
  nodup : out.Nodup
  mem_iff : ∀ stop, stop ∈ out ↔ Spells names L start stop

section

variable {values : String → List String} {names : List String}

theorem advances_of_exact {L : Language String} {next : Nat → List Nat}
    (h : ∀ start ≤ names.length, Exact names L start (next start)) :
    Advances next names.length := by
  intro p hp q hq
  have hspells := ((h p hp).mem_iff q).mp hq
  exact ⟨hspells.le, hspells.2.1⟩

theorem reached_iff {L : Language String} {next : Nat → List Nat} {seeds : List Nat}
    (h : ∀ start ≤ names.length, Exact names L start (next start))
    (hseeds : ∀ s ∈ seeds, s ≤ names.length) (stop : Nat) :
    Reached next seeds stop ↔ ∃ s ∈ seeds, Spells names L∗ s stop := by
  constructor
  · rintro ⟨s, hs, hpath⟩
    refine ⟨s, hs, (spells_kstar_iff (hseeds s hs)).mpr ?_⟩
    induction hpath with
    | refl => exact .refl
    | tail hpath hstep ih =>
      have hle := Reached.le ⟨s, hs, hpath⟩ (advances_of_exact h) hseeds
      exact ih.tail (((h _ hle).mem_iff _).mp hstep)
  · rintro ⟨s, hs, hstar⟩
    have hstep (a b : Nat) (hab : Spells names L a b) : b ∈ next a := ((h a hab.1).mem_iff b).mpr hab
    exact ⟨s, hs, ReflTransGen.mono hstep _ _ ((spells_kstar_iff (hseeds s hs)).mp hstar)⟩

theorem exact_reach {L : Language String} {next : Nat → List Nat} {seeds : List Nat}
    (h : ∀ start ≤ names.length, Exact names L start (next start)) (hnodup : seeds.Nodup)
    (hseeds : ∀ s ∈ seeds, s ≤ names.length) {M : Language String} {start : Nat}
    (hM : ∀ s, s ∈ seeds ↔ Spells names M start s) :
    Exact names (M * L∗) start (reach next names.length seeds) where
  nodup := nodup_reach (advances_of_exact h) hnodup hseeds
  mem_iff := fun stop => by
    rw [mem_reach_iff (advances_of_exact h) hnodup hseeds, reached_iff h hseeds, spells_mul_iff]
    simp only [hM]

theorem mem_foldl_insertAll (next : Nat → List Nat) (starts out : List Nat) (x : Nat) :
    x ∈ starts.foldl (fun out pos => insertAll out (next pos)) out ↔
      x ∈ out ∨ ∃ s ∈ starts, x ∈ next s := by
  induction starts generalizing out with
  | nil => simp
  | cons s starts ih => rw [List.foldl_cons, ih, mem_insertAll]; simp [or_assoc]

theorem nodup_foldl_insertAll (next : Nat → List Nat) (starts out : List Nat) (h : out.Nodup) :
    (starts.foldl (fun out pos => insertAll out (next pos)) out).Nodup := by
  induction starts generalizing out with
  | nil => exact h
  | cons s starts ih => exact ih _ (nodup_insertAll _ _ h)

theorem exact_endsInOrder (parts : List Particle)
    (h : ∀ p ∈ parts, ∀ start ≤ names.length,
      Exact names (p.language values) start (p.ends values names start))
    {L : Language String} {start : Nat} {starts : List Nat} (hstarts : Exact names L start starts) :
    Exact names (L * Particle.languageInOrder values parts) start
      (Particle.endsInOrder values names parts starts) := by
  induction parts generalizing L starts with
  | nil =>
    rw [Particle.languageInOrder, Particle.endsInOrder, mul_one]
    exact hstarts
  | cons part parts ih =>
    rw [Particle.languageInOrder, Particle.endsInOrder, ← mul_assoc]
    apply ih fun p hp => h p (List.mem_cons_of_mem _ hp)
    refine ⟨nodup_foldl_insertAll _ _ _ List.nodup_nil, fun stop => ?_⟩
    rw [mem_foldl_insertAll, spells_mul_iff]
    constructor
    · rintro (hnil | ⟨s, hs, hstop⟩)
      · exact absurd hnil List.not_mem_nil
      · have hfirst := (hstarts.mem_iff s).mp hs
        exact ⟨s, hfirst, ((h part List.mem_cons_self s hfirst.2.1).mem_iff stop).mp hstop⟩
    · rintro ⟨s, hfirst, hsecond⟩
      exact Or.inr ⟨s, (hstarts.mem_iff s).mpr hfirst,
        ((h part List.mem_cons_self s hfirst.2.1).mem_iff stop).mpr hsecond⟩

theorem exact_endsOfAny (parts : List Particle) {start : Nat}
    (h : ∀ p ∈ parts, Exact names (p.language values) start (p.ends values names start)) :
    Exact names (Particle.languageOfAny values parts) start
      (Particle.endsOfAny values names parts start) := by
  induction parts with
  | nil =>
    refine ⟨List.nodup_nil, fun stop => ⟨fun hstop => absurd hstop List.not_mem_nil, ?_⟩⟩
    rintro ⟨_, _, word, hword, _⟩
    exact absurd hword (Language.notMem_zero word)
  | cons part parts ih =>
    have hpart := h part List.mem_cons_self
    have hparts := ih fun p hp => h p (List.mem_cons_of_mem _ hp)
    rw [Particle.languageOfAny, Particle.endsOfAny]
    refine ⟨nodup_insertAll _ _ hpart.nodup, fun stop => ?_⟩
    rw [mem_insertAll, hpart.mem_iff, hparts.mem_iff, spells_add_iff]

theorem exact_ends (p : Particle) (start : Nat) (hstart : start ≤ names.length) :
    Exact names (p.language values) start (p.ends values names start) := by
  induction p generalizing start with
  | element name =>
    rw [Particle.language, Particle.ends]
    refine ⟨by split <;> simp, fun stop => ?_⟩
    have h := spells_name_iff (P := (· = name)) (j := stop) hstart
    simp only [exists_eq_left] at h
    rw [show ({[name]} : Language String) = {word | word = [name]} from rfl, h]
    split <;> simp [*]
  | entity name =>
    rw [Particle.language, Particle.ends]
    refine ⟨by split <;> (try split) <;> simp, fun stop => ?_⟩
    rw [spells_name_iff hstart]
    split
    · rename_i found hfound
      simp only [hfound, Option.some.injEq]
      split <;> simp_all
    · simp [*]
  | sequence parts ih =>
    have hone : Exact names 1 start [start] :=
      ⟨List.nodup_singleton _, fun stop => by rw [spells_one_iff hstart, List.mem_singleton]⟩
    rw [Particle.language, Particle.ends, ← one_mul (Particle.languageInOrder _ _)]
    exact exact_endsInOrder parts (fun p hp s hs => ih p hp s hs) hone
  | choice parts ih =>
    rw [Particle.language, Particle.ends]
    exact exact_endsOfAny parts fun p hp => ih p hp start hstart
  | optional part ih =>
    rw [Particle.language, Particle.ends]
    refine ⟨nodup_insertAll _ _ (List.nodup_singleton _), fun stop => ?_⟩
    rw [mem_insertAll, List.mem_singleton, (ih start hstart).mem_iff, spells_add_iff,
      spells_one_iff hstart]
  | star part ih =>
    rw [Particle.language, Particle.ends, ← one_mul (part.language values)∗]
    -- A star is reached from `start` itself, a plus from where its first word ends.
    refine exact_reach ih (List.nodup_singleton _) (by simpa using hstart) fun s => ?_
    rw [spells_one_iff hstart, List.mem_singleton]
  | plus part ih =>
    have hpart := ih start hstart
    rw [Particle.language, Particle.ends]
    exact exact_reach ih hpart.nodup (fun s hs => ((hpart.mem_iff s).mp hs).2.1) hpart.mem_iff

end

/-! ## The matcher -/

theorem matchesAll_iff (values : String → List String) (p : Particle) (names : List String) :
    p.matchesAll values names = true ↔ names ∈ p.language values := by
  rw [Particle.matchesAll, List.contains_iff_mem, (exact_ends p 0 (Nat.zero_le _)).mem_iff,
    spells_all_iff]

theorem language_unknown_entity (s : Schema) (name : String) (h : ∀ e ∈ s.entities, e.name ≠ name) :
    (Particle.entity name).language s.entityValues = 0 := by
  have hnone : s.entities.find? (·.name == name) = none := by simpa using h
  rw [Particle.language, entityValues, hnone]
  exact Set.eq_empty_of_forall_notMem fun word ⟨_, hname, _⟩ => absurd hname (by simp)

/-- The loops that a star and a plus of `part` begin at `start` end by themselves, with the
positions that the matcher goes on with. -/
theorem loops_drain (values : String → List String) (names : List String) (part : Particle)
    (start : Nat) (hstart : start ≤ names.length) :
    (∃ visited, Worklist.Drains (part.ends values names) ⟨[start], [start]⟩ visited
      ((Particle.star part).ends values names start)) ∧
    ∃ visited, Worklist.Drains (part.ends values names)
      ⟨(part.ends values names start).reverse, part.ends values names start⟩ visited
      ((Particle.plus part).ends values names start) := by
  have hnext : Advances (part.ends values names) names.length :=
    advances_of_exact (exact_ends part)
  have hpart : Exact names (part.language values) start (part.ends values names start) :=
    exact_ends part start hstart
  rw [Particle.ends, Particle.ends]
  refine ⟨reach_drains hnext (List.nodup_singleton _) (by simpa using hstart), ?_⟩
  exact reach_drains hnext hpart.nodup fun s hs => ((hpart.mem_iff s).mp hs).2.1

/-- The matcher decides the language of its particle, under any schema, and its loops end. -/
theorem matchesAll_decides_language (s : Schema) (p : Particle) (names : List String) :
    (p.matchesAll s.entityValues names = true ↔ names ∈ p.language s.entityValues) ∧
    (∀ name, (∀ e ∈ s.entities, e.name ≠ name) →
      (Particle.entity name).language s.entityValues = 0) ∧
    ∀ (part : Particle) (start : Nat), start ≤ names.length →
      (∃ visited, Worklist.Drains (part.ends s.entityValues names) ⟨[start], [start]⟩ visited
        ((Particle.star part).ends s.entityValues names start)) ∧
      ∃ visited, Worklist.Drains (part.ends s.entityValues names)
        ⟨(part.ends s.entityValues names start).reverse, part.ends s.entityValues names start⟩
        visited ((Particle.plus part).ends s.entityValues names start) :=
  ⟨matchesAll_iff _ p names, language_unknown_entity s, loops_drain _ names⟩

theorem matchesAll_star_optional :
    let s : Schema := ⟨"", "", [⟨"Sides", ["left", "right"]⟩], []⟩
    let part := Particle.optional (.entity "Sides")
    ["right", "left"] ∈ (Particle.star part).language s.entityValues ∧
    (Particle.entity "Ends").language s.entityValues = 0 ∧
    ∃ visited, Worklist.Drains (part.ends s.entityValues ["right", "left"]) ⟨[1], [1]⟩ visited
      ((Particle.star part).ends s.entityValues ["right", "left"] 1) := by
  intro s part
  have h := matchesAll_decides_language s (.star part) ["right", "left"]
  exact ⟨h.1.mp (by decide), h.2.1 "Ends" (by decide), (h.2.2 part 1 (by decide)).1⟩

end OrbIdl.Schema
