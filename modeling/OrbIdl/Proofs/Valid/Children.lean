import OrbIdl.Proofs.Matching.Words
import OrbIdl.Proofs.Valid.Attributes

/-! # The children of a valid tree -/

namespace OrbIdl.Schema

open Xml Particle

variable {s : Schema} {e : Element} {tag : String} {d : ElementDeclaration} {p : Particle}

/-! ## Names of children -/

theorem Valid.childNames_mem (h : Valid s e) (he : e.name = tag) (hd : s.element? tag = some d)
    (hp : d.content = .children p) : childNames e ∈ p.language s.entityValues := by
  have hchildren := (h.declared he hd).children
  rwa [hp] at hchildren

def ContentModel.childTags (s : Schema) : ContentModel → List String
  | empty | characterData => []
  | children p => p.names s.entityValues

/-- The names that the children of an element called `tag` may have. -/
def childTags (s : Schema) (tag : String) : List String :=
  ((s.element? tag).map fun d => d.content.childTags s).getD []

theorem Valid.childName_mem (h : Valid s e) (he : e.name = tag) {names : List String}
    (hnames : s.childTags tag = names) {child : Element} (hchild : child ∈ e.children) :
    child.name ∈ names := by
  obtain ⟨d, hd, hconforms⟩ := h.here
  have hchildren := hconforms.children
  rw [← hnames, childTags, ← he, hd, Option.map_some, Option.getD_some]
  cases hcontent : d.content with
  | empty | characterData =>
    have hnone : e.children = [] := by rwa [hcontent] at hchildren
    rw [hnone] at hchild
    exact absurd hchild List.not_mem_nil
  | children p =>
    have hword : childNames e ∈ p.language s.entityValues := by rwa [hcontent] at hchildren
    exact mem_names_of_mem p hword (List.mem_map_of_mem hchild)

/-! ## The children of each element -/

theorem element?_method : ∀ tag ∈ [Tag.method, Tag.pollMethod],
    ∃ timeout, interfaceDocument.element? tag = some (methodElement tag timeout) := by
  intro tag htag
  obtain rfl | rfl := List.mem_pair.mp htag
  · exact ⟨"30000", rfl⟩
  · exact ⟨"10000", rfl⟩

section

variable (h : Valid interfaceDocument e)
include h

theorem typeChild_of_valid (position : Position) (he : e.name = tag)
    (hd : interfaceDocument.element? tag = some d)
    (hp : d.content = .children (choice [entity position.entity])) :
    ∃ child, e.children = [child] ∧ child.name ∈ position.names := by
  have hword := h.childNames_mem he hd hp
  rw [language, languageOfAny, languageOfAny, add_zero] at hword
  obtain ⟨name, hname, hnames⟩ := hword
  obtain ⟨child, hchildren, rfl⟩ := List.map_eq_singleton_iff.mp hnames
  rw [entityValues_entity] at hname
  exact ⟨child, hchildren, hname⟩

/-- A method has its result first and then parameters. -/
theorem methodChildren_of_valid (he : e.name ∈ [Tag.method, Tag.pollMethod]) :
    ∃ first rest, e.children = first :: rest ∧ first.name = Tag.result ∧
      ∀ child ∈ rest, child.name = Tag.param := by
  obtain ⟨timeout, hd⟩ := element?_method e.name he
  have hword := h.childNames_mem rfl hd rfl
  rw [language, languageInOrder] at hword
  obtain ⟨_, hfirst, names, hrest, hnames⟩ := Language.mem_mul.mp hword
  rw [eq_of_mem_element hfirst, List.singleton_append] at hnames
  obtain ⟨first, rest, hchildren, hresult, hparams⟩ := List.map_eq_cons_iff.mp hnames.symm
  have hname (name : String) (hmem : name ∈ names) : name = Tag.param := by
    rw [languageInOrder, languageInOrder, mul_one] at hrest
    simpa [Particle.names] using mem_names_of_mem _ hrest hmem
  refine ⟨first, rest, hchildren, hresult, fun child hchild => hname child.name ?_⟩
  have hmem : child.name ∈ rest.map (·.name) := List.mem_map_of_mem hchild
  rwa [hparams] at hmem

theorem exists_enumValue_of_valid (he : e.name = Tag.enumeration) :
    ∃ child ∈ e.children, child.name = Tag.enumValue := by
  have hword := h.childNames_mem he (by rfl) (by rfl)
  rw [language, languageInOrder, languageInOrder] at hword
  obtain ⟨docs, _, word, hword, hnames⟩ := Language.mem_mul.mp hword
  obtain ⟨values, hvalues, synonyms, _, rfl⟩ := Language.mem_mul.mp hword
  rw [language] at hvalues
  obtain ⟨first, hfirst, more, _, rfl⟩ := Language.mem_mul.mp hvalues
  have hmem : Tag.enumValue ∈ childNames e := by
    rw [← hnames, eq_of_mem_element hfirst]
    simp
  exact List.mem_map.mp hmem

theorem sections_nodup_of_valid (he : e.name = Tag.classInterface) : (childNames e).Nodup := by
  have hword := h.childNames_mem he (by rfl) (by rfl)
  rw [language] at hword
  have hsub := sublist_of_mem_inOrder (.cons (atMost_optional Tag.constants)
    (.cons (atMost_optional Tag.types) (.cons (atMost_optional Tag.constructor)
      (.cons (atMost_element Tag.methods) .nil)))) hword
  exact hsub.nodup (by decide)

/-- Only globals have anything after them. -/
theorem interfaceChildren_of_valid (he : e.name = Tag.interface) :
    (childNames e).Pairwise fun name _ => name = Tag.globals := by
  have hword := h.childNames_mem he (by rfl) (by rfl)
  rw [language, languageInOrder] at hword
  obtain ⟨globals, hglobals, last, hlast, hnames⟩ := Language.mem_mul.mp hword
  have hname (name : String) (hmem : name ∈ globals) : name = Tag.globals := by
    simpa [Particle.names] using mem_names_of_mem _ hglobals hmem
  have hsub := sublist_of_mem_inOrder (.cons (atMost_optional Tag.classInterface) .nil) hlast
  rw [← hnames, List.pairwise_append]
  refine ⟨?_, (List.pairwise_singleton _ _).sublist hsub, fun name hmem _ _ => hname name hmem⟩
  exact List.pairwise_of_forall_mem_list fun name hmem _ _ => hname name hmem

end

end OrbIdl.Schema
