import OrbIdl.Proofs.Matching.Language

/-! # The names in the words of a content model -/

namespace OrbIdl.Schema

open scoped Computability

/-! ## Names that may occur -/

namespace Particle

mutual

def names (values : String → List String) : Particle → List String
  | element name => [name]
  | entity name => values name
  | sequence parts | choice parts => namesOfAll values parts
  | optional part | star part | plus part => part.names values

def namesOfAll (values : String → List String) : List Particle → List String
  | [] => []
  | part :: parts => part.names values ++ namesOfAll values parts

end

end Particle

section

variable {values : String → List String} {word : List String} {name : String}

theorem eq_of_mem_element (hword : word ∈ (Particle.element name).language values) :
    word = [name] := by
  rw [Particle.language] at hword
  exact Set.mem_singleton_iff.mp hword

theorem mem_of_mem_kstar {L : Language String} {P : String → Prop}
    (h : ∀ word ∈ L, ∀ name ∈ word, P name) (hword : word ∈ L∗) (hname : name ∈ word) : P name := by
  obtain ⟨words, rfl, hwords⟩ := Language.mem_kstar.mp hword
  obtain ⟨first, hfirst, hname⟩ := List.mem_flatten.mp hname
  exact h first (hwords first hfirst) name hname

theorem mem_namesOfAll_of_inOrder (parts : List Particle)
    (h : ∀ p ∈ parts, ∀ word ∈ p.language values, ∀ name ∈ word, name ∈ p.names values)
    (hword : word ∈ Particle.languageInOrder values parts) (hname : name ∈ word) :
    name ∈ Particle.namesOfAll values parts := by
  induction parts generalizing word with
  | nil =>
    rw [Particle.languageInOrder, Language.mem_one] at hword
    rw [hword] at hname
    exact absurd hname List.not_mem_nil
  | cons part parts ih =>
    obtain ⟨first, hfirst, rest, hrest, rfl⟩ := Language.mem_mul.mp hword
    obtain hname | hname := List.mem_append.mp hname
    · exact List.mem_append_left _ (h part List.mem_cons_self first hfirst name hname)
    · have hparts := ih (fun p hp => h p (List.mem_cons_of_mem _ hp)) hrest hname
      exact List.mem_append_right _ hparts

theorem mem_namesOfAll_of_ofAny (parts : List Particle)
    (h : ∀ p ∈ parts, ∀ word ∈ p.language values, ∀ name ∈ word, name ∈ p.names values)
    (hword : word ∈ Particle.languageOfAny values parts) (hname : name ∈ word) :
    name ∈ Particle.namesOfAll values parts := by
  induction parts with
  | nil => exact absurd hword (Language.notMem_zero word)
  | cons part parts ih =>
    obtain hword | hword := hword
    · exact List.mem_append_left _ (h part List.mem_cons_self word hword name hname)
    · have hparts := ih (fun p hp => h p (List.mem_cons_of_mem _ hp)) hword
      exact List.mem_append_right _ hparts

theorem mem_names_of_mem (p : Particle) (hword : word ∈ p.language values) (hname : name ∈ word) :
    name ∈ p.names values := by
  induction p generalizing word name with
  | element n =>
    rwa [eq_of_mem_element hword] at hname
  | entity n =>
    obtain ⟨value, hvalue, rfl⟩ := hword
    rwa [List.mem_singleton.mp hname]
  | sequence parts ih =>
    exact mem_namesOfAll_of_inOrder parts (fun p hp _ hw _ hn => ih p hp hw hn) hword hname
  | choice parts ih =>
    exact mem_namesOfAll_of_ofAny parts (fun p hp _ hw _ hn => ih p hp hw hn) hword hname
  | optional part ih =>
    obtain hword | hword := hword
    · rw [Set.mem_singleton_iff.mp hword] at hname
      exact absurd hname List.not_mem_nil
    · exact ih hword hname
  | star part ih => exact mem_of_mem_kstar (fun _ hw _ hn => ih hw hn) hword hname
  | plus part ih =>
    obtain ⟨first, hfirst, rest, hrest, rfl⟩ := Language.mem_mul.mp hword
    obtain hname | hname := List.mem_append.mp hname
    · exact ih hfirst hname
    · exact mem_of_mem_kstar (fun _ hw _ hn => ih hw hn) hrest hname

/-! ## Sequences of names -/

/-- A part that is one name or nothing. -/
def Particle.AtMost (values : String → List String) (p : Particle) (name : String) : Prop :=
  ∀ word ∈ p.language values, word = [] ∨ word = [name]

theorem Particle.atMost_element (name : String) : (element name).AtMost values name := by
  intro word hword
  exact Or.inr (eq_of_mem_element hword)

theorem Particle.atMost_optional (name : String) :
    (optional (element name)).AtMost values name := by
  rintro word (hword | hword)
  · exact Or.inl (Set.mem_singleton_iff.mp hword)
  · exact atMost_element name word hword

/-- A sequence of such parts runs through their names in order. -/
theorem sublist_of_mem_inOrder {parts : List Particle} {names : List String}
    (h : List.Forall₂ (Particle.AtMost values) parts names)
    (hword : word ∈ Particle.languageInOrder values parts) : word.Sublist names := by
  induction h generalizing word with
  | nil =>
    rw [Particle.languageInOrder, Language.mem_one] at hword
    rw [hword]
  | cons hpart _ ih =>
    rw [Particle.languageInOrder] at hword
    obtain ⟨first, hfirst, rest, hrest, rfl⟩ := Language.mem_mul.mp hword
    obtain rfl | rfl := hpart first hfirst
    · exact (ih hrest).cons _
    · exact (ih hrest).cons_cons _

end

end OrbIdl.Schema
