import OrbIdl.Proofs.Conformance.Listing
import OrbIdl.Proofs.Conformance.Tree
import OrbIdl.Proofs.Matching.Language
import OrbIdl.Schema.Interface

/-! # What conforms to a schema, and what is wrong where it does not -/

namespace OrbIdl.Schema

open Xml

/-! ## Elements that conform -/

def AttributeType.Admits (s : Schema) : AttributeType → String → Prop
  | text, _ => True
  | token, value => value ≠ "" ∧ ∀ c ∈ value.toList, isTokenChar c = true
  | oneOf values, value => value ∈ values
  | oneOfEntity name, value => value ∈ s.entityValues name

def Blank (e : Element) : Prop :=
  ∀ c ∈ e.text.toList, Text.isBlank c = true

def childNames (e : Element) : List String :=
  e.children.map (·.name)

namespace ContentModel

def AdmitsText : ContentModel → Element → Prop
  | characterData, _ => True
  | empty, e | children _, e => Blank e

def AdmitsChildren (s : Schema) : ContentModel → Element → Prop
  | empty, e | characterData, e => e.children = []
  | children particle, e => childNames e ∈ particle.language s.entityValues

/-- Where wrong children are reported: in character data at the first of them. -/
def faultSpan : ContentModel → Element → Span
  | characterData, e => (e.children.head?.map (·.span)).getD e.span
  | empty, e | children _, e => e.span

end ContentModel

/-- The element is as its declaration says, whatever its children are like. -/
structure Conforms (s : Schema) (d : ElementDeclaration) (e : Element) : Prop where
  given : ∀ a ∈ e.attributes, ∃ b, d.attribute? a.name = some b ∧ b.type.Admits s a.value
  required : ∀ b ∈ d.attributes, b.fallback = .required → ∃ a ∈ e.attributes, a.name = b.name
  text : d.content.AdmitsText e
  children : d.content.AdmitsChildren s e

/-- Every element of the tree is declared and as its declaration says. -/
def Valid (s : Schema) (root : Element) : Prop :=
  ∀ path x, root.Under (fun _ => True) path x → ∃ d, s.element? x.name = some d ∧ Conforms s d x

/-! ## Defects -/

/-- Where in an element something may be wrong: in the element as such, an attribute that is given
or missing, the text, or the children as a whole. -/
inductive Site where
  | element
  | given (index : Nat)
  | missing (index : Nat)
  | text
  | content
deriving DecidableEq

def Site.rank : Site → Nat × Nat
  | element => (0, 0)
  | given i => (1, i)
  | missing i => (2, i)
  | text => (3, 0)
  | content => (4, 0)

def Site.Before (a b : Site) : Prop :=
  a.rank.1 < b.rank.1 ∨ a.rank.1 = b.rank.1 ∧ a.rank.2 < b.rank.2

/-- What is wrong at a site of an element, seen for itself. -/
inductive ElementDefect (s : Schema) (e : Element) : Site → Violation → Prop where
  | undeclared (h : s.element? e.name = none) :
      ElementDefect s e .element (.undeclaredElement e.name e.span)
  | undeclaredAttribute {d i a} (hd : s.element? e.name = some d) (ha : e.attributes[i]? = some a)
      (h : d.attribute? a.name = none) :
      ElementDefect s e (.given i) (.undeclaredAttribute e.name a.name a.span)
  | badToken {d i a b} (hd : s.element? e.name = some d) (ha : e.attributes[i]? = some a)
      (hb : d.attribute? a.name = some b) (ht : b.type = .token) (h : ¬ b.type.Admits s a.value) :
      ElementDefect s e (.given i) (.badToken e.name a.name a.value a.span)
  | notListed {d i a b values} (hd : s.element? e.name = some d) (ha : e.attributes[i]? = some a)
      (hb : d.attribute? a.name = some b) (ht : b.type = .oneOf values)
      (h : ¬ b.type.Admits s a.value) :
      ElementDefect s e (.given i) (.valueNotListed e.name a.name a.value values a.span)
  | notInEntity {d i a b entity} (hd : s.element? e.name = some d) (ha : e.attributes[i]? = some a)
      (hb : d.attribute? a.name = some b) (ht : b.type = .oneOfEntity entity)
      (h : ¬ b.type.Admits s a.value) :
      ElementDefect s e (.given i)
        (.valueNotListed e.name a.name a.value (s.entityValues entity) a.span)
  | missing {d j b} (hd : s.element? e.name = some d) (hb : d.attributes[j]? = some b)
      (hreq : b.fallback = .required) (h : ¬ ∃ a ∈ e.attributes, a.name = b.name) :
      ElementDefect s e (.missing j) (.missingAttribute e.name b.name e.span)
  | text {d} (hd : s.element? e.name = some d) (h : ¬ d.content.AdmitsText e) :
      ElementDefect s e .text (.unexpectedText e.name e.span)
  | content {d} (hd : s.element? e.name = some d) (h : ¬ d.content.AdmitsChildren s e) :
      ElementDefect s e .content (.wrongContent e.name d.content.render (d.content.faultSpan e))

structure Place where
  path : List Nat
  site : Site
deriving DecidableEq

/-- Document order: an element before what is in it, and in each element the order of its sites. -/
def Place.Before (a b : Place) : Prop :=
  a.path < b.path ∨ a.path = b.path ∧ a.site.Before b.site

def Declared (s : Schema) (e : Element) : Prop :=
  ∃ d, s.element? e.name = some d

/-- What is wrong at a place of a tree. Nothing below an undeclared element counts. -/
def Defect (s : Schema) (root : Element) (place : Place) (v : Violation) : Prop :=
  ∃ x, root.Under (Declared s) place.path x ∧ ElementDefect s x place.site v

/-! ## One element -/

section

variable {s : Schema} {e : Element} {d : ElementDeclaration}

theorem isToken_iff (value : String) :
    isToken value = true ↔ value ≠ "" ∧ ∀ c ∈ value.toList, isTokenChar c = true := by
  simp [isToken]

theorem isBlank_iff (e : Element) : e.isBlank = true ↔ Blank e := by
  simp [Element.isBlank, Text.allBlank, Blank]

theorem attribute?_eq_none_iff (e : Element) (key : String) :
    e.attribute? key = none ↔ ¬ ∃ a ∈ e.attributes, a.name = key := by
  simp [Element.attribute?]

theorem length_givenViolations (a : Attribute) : (givenViolations s d e.name a).length ≤ 1 := by
  unfold givenViolations valueViolations
  split
  · split <;> (try split) <;> simp
  · simp

theorem mem_givenViolations_iff (hd : s.element? e.name = some d) {i : Nat} {a : Attribute}
    (ha : e.attributes[i]? = some a) (v : Violation) :
    v ∈ givenViolations s d e.name a ↔ ElementDefect s e (.given i) v := by
  constructor
  · unfold givenViolations valueViolations
    intro h
    split at h
    · rename_i b hb
      split at h
      · exact absurd h List.not_mem_nil
      · rename_i ht
        split at h
        · exact absurd h List.not_mem_nil
        · rename_i hv
          rw [List.mem_singleton.mp h]
          exact .badToken hd ha hb ht (by rw [ht]; rwa [isToken_iff] at hv)
      · rename_i values ht
        split at h
        · exact absurd h List.not_mem_nil
        · rename_i hv
          rw [List.mem_singleton.mp h]
          exact .notListed hd ha hb ht (by rw [ht]; rwa [List.contains_iff_mem] at hv)
      · rename_i entity ht
        split at h
        · exact absurd h List.not_mem_nil
        · rename_i hv
          rw [List.mem_singleton.mp h]
          exact .notInEntity hd ha hb ht (by rw [ht]; rwa [List.contains_iff_mem] at hv)
    · rename_i hb
      rw [List.mem_singleton.mp h]
      exact .undeclaredAttribute hd ha hb
  · intro h
    unfold givenViolations valueViolations
    cases h with
    | undeclaredAttribute hd' ha' hb =>
      obtain rfl := Option.some.inj (hd.symm.trans hd')
      obtain rfl := Option.some.inj (ha.symm.trans ha')
      simp [hb]
    | badToken hd' ha' hb ht hv =>
      obtain rfl := Option.some.inj (hd.symm.trans hd')
      obtain rfl := Option.some.inj (ha.symm.trans ha')
      rw [ht, AttributeType.Admits, ← isToken_iff] at hv
      simp [hb, ht, hv]
    | notListed hd' ha' hb ht hv =>
      obtain rfl := Option.some.inj (hd.symm.trans hd')
      obtain rfl := Option.some.inj (ha.symm.trans ha')
      rw [ht, AttributeType.Admits] at hv
      simp [hb, ht, hv]
    | notInEntity hd' ha' hb ht hv =>
      obtain rfl := Option.some.inj (hd.symm.trans hd')
      obtain rfl := Option.some.inj (ha.symm.trans ha')
      rw [ht, AttributeType.Admits] at hv
      simp [hb, ht, hv]

theorem mem_missingViolations_iff (hd : s.element? e.name = some d) {j : Nat}
    {b : AttributeDeclaration} (hb : d.attributes[j]? = some b) (v : Violation) :
    v ∈ missingViolations e b ↔ ElementDefect s e (.missing j) v := by
  unfold missingViolations
  constructor
  · intro h
    split at h
    · rename_i hmissing
      rw [List.mem_singleton.mp h]
      exact .missing hd hb hmissing.1 ((attribute?_eq_none_iff e b.name).mp hmissing.2)
    · exact absurd h List.not_mem_nil
  · intro h
    cases h with
    | missing hd' hb' hreq hnone =>
      obtain rfl := Option.some.inj (hd.symm.trans hd')
      obtain rfl := Option.some.inj (hb.symm.trans hb')
      rw [if_pos ⟨hreq, (attribute?_eq_none_iff e _).mpr hnone⟩]
      exact List.mem_singleton_self _

theorem lists_given (hd : s.element? e.name = some d) :
    Lists Site.Before (fun site v => (∃ i, site = .given i) ∧ ElementDefect s e site v)
      (e.attributes.flatMap (givenViolations s d e.name)) := by
  have h := Lists.flatMap e.attributes fun a _ =>
    Lists.atMostOne (givenViolations s d e.name a) (length_givenViolations a)
  refine (h.relabel (fun i => Site.given i.1) ?_).congr ?_
  · rintro i j (hij | ⟨_, hfalse⟩)
    · exact Or.inr ⟨rfl, hij⟩
    · exact hfalse.elim
  · intro site v
    constructor
    · rintro ⟨i, rfl, a, ha, hv⟩
      exact ⟨⟨i.1, rfl⟩, (mem_givenViolations_iff hd ha v).mp hv⟩
    · rintro ⟨⟨i, rfl⟩, hv⟩
      have hlt : ∃ a, e.attributes[i]? = some a := by cases hv <;> exact ⟨_, ‹_›⟩
      obtain ⟨a, ha⟩ := hlt
      exact ⟨(i, ()), rfl, a, ha, (mem_givenViolations_iff hd ha v).mpr hv⟩

theorem lists_missing (hd : s.element? e.name = some d) :
    Lists Site.Before (fun site v => (∃ j, site = .missing j) ∧ ElementDefect s e site v)
      (d.attributes.flatMap (missingViolations e)) := by
  have h := Lists.flatMap d.attributes fun b _ =>
    Lists.atMostOne (missingViolations e b) (by unfold missingViolations; split <;> simp)
  refine (h.relabel (fun j => Site.missing j.1) ?_).congr ?_
  · rintro i j (hij | ⟨_, hfalse⟩)
    · exact Or.inr ⟨rfl, hij⟩
    · exact hfalse.elim
  · intro site v
    constructor
    · rintro ⟨j, rfl, b, hb, hv⟩
      exact ⟨⟨j.1, rfl⟩, (mem_missingViolations_iff hd hb v).mp hv⟩
    · rintro ⟨⟨j, rfl⟩, hv⟩
      obtain ⟨b, hb⟩ : ∃ b, d.attributes[j]? = some b := by
        cases hv with
        | missing hd' hb => exact ⟨_, Option.some.inj (hd'.symm.trans hd) ▸ hb⟩
      exact ⟨(j, ()), rfl, b, hb, (mem_missingViolations_iff hd hb v).mpr hv⟩

theorem lists_text (hd : s.element? e.name = some d) (hc : d.content.AdmitsText e ↔ Blank e) :
    Lists Site.Before (fun site v => site = .text ∧ ElementDefect s e site v)
      (if e.isBlank then [] else [Violation.unexpectedText e.name e.span]) := by
  refine (Lists.ite_not .text _ (e.isBlank = true)).congr fun site v => ?_
  rw [isBlank_iff, ← hc]
  constructor
  · rintro ⟨rfl, htext, rfl⟩
    exact ⟨rfl, .text hd htext⟩
  · rintro ⟨rfl, hv⟩
    cases hv with
    | text hd' htext =>
      obtain rfl := Option.some.inj (hd.symm.trans hd')
      exact ⟨rfl, htext, rfl⟩

theorem lists_children (hd : s.element? e.name = some d) (fits : Prop) [Decidable fits] (span : Span)
    (hfits : d.content.AdmitsChildren s e ↔ fits) (hspan : ¬ fits → d.content.faultSpan e = span) :
    Lists Site.Before (fun site v => site = .content ∧ ElementDefect s e site v)
      (if fits then [] else [Violation.wrongContent e.name d.content.render span]) := by
  refine (Lists.ite_not .content _ fits).congr fun site v => ?_
  constructor
  · rintro ⟨rfl, hnot, rfl⟩
    rw [← hspan hnot]
    exact ⟨rfl, .content hd (hfits.not.mpr hnot)⟩
  · rintro ⟨rfl, hv⟩
    cases hv with
    | content hd' hnot =>
      obtain rfl := Option.some.inj (hd.symm.trans hd')
      exact ⟨rfl, hfits.not.mp hnot, by rw [hspan (hfits.not.mp hnot)]⟩

theorem lists_content (hd : s.element? e.name = some d) :
    Lists Site.Before (fun site v => (site = .text ∨ site = .content) ∧ ElementDefect s e site v)
      (contentViolations s d e) := by
  have hjoin {out out' : List Violation}
      (hout : Lists Site.Before (fun site v => site = .text ∧ ElementDefect s e site v) out)
      (hout' : Lists Site.Before (fun site v => site = .content ∧ ElementDefect s e site v) out') :
      Lists Site.Before (fun site v => (site = .text ∨ site = .content) ∧ ElementDefect s e site v)
        (out ++ out') := by
    refine (hout.append hout' ?_).congr fun site v => by rw [or_and_right]
    rintro _ v _ w ⟨rfl, _⟩ ⟨rfl, _⟩
    exact Or.inl (by decide)
  unfold contentViolations
  cases hc : d.content with
  | empty =>
    have htext := lists_text hd (by rw [hc]; rfl)
    have hchildren := lists_children hd (e.children.isEmpty = true) e.span
      (by rw [hc, List.isEmpty_iff]; rfl) (fun _ => by rw [hc]; rfl)
    rw [hc] at hchildren
    exact hjoin htext hchildren
  | children particle =>
    have htext := lists_text hd (by rw [hc]; rfl)
    have hchildren := lists_children hd
      (particle.matchesAll s.entityValues (e.children.map (·.name)) = true) e.span
      (by rw [hc, matchesAll_iff]; rfl) (fun _ => by rw [hc]; rfl)
    rw [hc] at hchildren
    exact hjoin htext hchildren
  | characterData =>
    -- Nothing is wrong with the text here.
    have htext : Lists Site.Before (fun site v => site = .text ∧ ElementDefect s e site v) [] := by
      refine Lists.nil ?_
      rintro _ v ⟨rfl, hv⟩
      cases hv with
      | text hd' htext =>
        obtain rfl := Option.some.inj (hd.symm.trans hd')
        exact htext (by rw [hc]; trivial)
    have hchildren (span : Span) := lists_children hd (e.children = []) span (by rw [hc]; rfl)
    rw [hc] at hchildren
    have h := hjoin htext (hchildren ((e.children.head?.map (·.span)).getD e.span) fun _ => rfl)
    rw [List.nil_append] at h
    cases hchild : e.children with
    | nil => rwa [if_pos hchild] at h
    | cons child rest => rwa [if_neg (by simp [hchild]), hchild] at h

theorem lists_element (hd : s.element? e.name = some d) :
    Lists Site.Before (ElementDefect s e) (attributeViolations s d e ++ contentViolations s d e) := by
  refine ((((lists_given hd).append (lists_missing hd) ?_).append (lists_content hd)) ?_).congr ?_
  · rintro _ v _ w ⟨⟨i, rfl⟩, _⟩ ⟨⟨j, rfl⟩, _⟩
    exact Or.inl Nat.one_lt_two
  · rintro _ v _ w (⟨⟨i, rfl⟩, _⟩ | ⟨⟨i, rfl⟩, _⟩) ⟨rfl | rfl, _⟩ <;>
      exact Or.inl (by simp [Site.rank])
  · intro site v
    cases site with
    | element =>
      simp only [reduceCtorEq, exists_false, false_and, or_self, false_iff]
      rintro ⟨hnone⟩
      cases hd.symm.trans hnone
    | given | missing | text | content => simp

end

end OrbIdl.Schema
