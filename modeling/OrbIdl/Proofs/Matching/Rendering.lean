import OrbIdl.Proofs.Matching.Language
import OrbIdl.Schema.Conformance

/-!
# Content models from their text

The last character of a text tells the outermost form of its particle, and the depth of parentheses
tells where a part of a group ends. What is left open is whether a group of one part is a sequence
or a choice, and both stand for the same words.
-/

namespace OrbIdl.Schema

/-! ## Depth of parentheses -/

/-- The depth behind a character; none if it cannot stand outside of all parentheses. -/
def nest : Nat → Char → Option Nat
  | depth, '(' => some (depth + 1)
  | 0, ')' | 0, ',' | 0, '|' => none
  | depth + 1, ')' => some depth
  | depth, _ => some depth

def depthAfter (depth : Nat) (text : List Char) : Option Nat :=
  text.foldlM nest depth

/-- Begun inside of so many parentheses or more, the text never leaves them and ends where it
began. -/
def Nests (least : Nat) (text : List Char) : Prop :=
  ∀ depth, least ≤ depth → depthAfter depth text = some depth

/-- Nothing follows, or a character that cannot stand outside of all parentheses. -/
def EndsPart (text : List Char) : Prop :=
  ∀ c ∈ text.head?, nest 0 c = none

section

variable {least : Nat} {a b : List Char}

theorem depthAfter_append (depth : Nat) (a b : List Char) :
    depthAfter depth (a ++ b) = (depthAfter depth a).bind (depthAfter · b) :=
  List.foldlM_append

theorem Nests.mono {least' : Nat} (h : Nests least a) (hle : least ≤ least') : Nests least' a :=
  fun depth hdepth => h depth (Nat.le_trans hle hdepth)

theorem Nests.append (ha : Nests least a) (hb : Nests least b) : Nests least (a ++ b) := by
  intro depth hdepth
  rw [depthAfter_append, ha depth hdepth]
  exact hb depth hdepth

theorem Nests.parenthesized (h : Nests 1 a) : Nests 0 ('(' :: (a ++ [')'])) := by
  intro depth _
  have hopened : depthAfter (depth + 1) (a ++ [')']) = some depth := by
    rw [depthAfter_append, h (depth + 1) (Nat.le_add_left 1 depth)]
    rfl
  exact hopened

theorem nests_of_free (h : ∀ c ∈ a, c ∉ ['(', ')', '|', ',']) : Nests 0 a := by
  intro depth _
  induction a with
  | nil => rfl
  | cons c a ih =>
    rw [List.forall_mem_cons] at h
    have hc : nest depth c = some depth := by
      unfold nest
      split <;> simp_all
    rw [depthAfter, List.foldlM_cons, hc]
    exact ih h.2

theorem nests_flatMap {α : Type} {f : α → List Char} {xs : List α}
    (h : ∀ x ∈ xs, Nests least (f x)) : Nests least (xs.flatMap f) := by
  induction xs with
  | nil => exact fun _ _ => rfl
  | cons x xs ih =>
    rw [List.flatMap_cons]
    exact (h x List.mem_cons_self).append (ih fun x hx => h x (List.mem_cons_of_mem _ hx))

theorem Nests.eq_nil_of_longer {x : List Char} (ha : Nests 0 a) (hab : Nests 0 (a ++ b))
    (hx : EndsPart (b ++ x)) : b = [] := by
  cases b with
  | nil => rfl
  | cons c b =>
    have hdepth := hab 0 (Nat.le_refl 0)
    rw [depthAfter_append, ha 0 (Nat.le_refl 0), Option.bind_some, depthAfter, List.foldlM_cons,
      hx c rfl] at hdepth
    exact absurd hdepth (by simp)

/-- No part is a proper beginning of another, so two texts of parts are cut alike. -/
theorem append_inj_of_nests {x y : List Char} (ha : Nests 0 a) (hb : Nests 0 b) (hx : EndsPart x)
    (hy : EndsPart y) (h : a ++ x = b ++ y) : a = b ∧ x = y := by
  rcases List.append_eq_append_iff.mp h with ⟨rest, rfl, rfl⟩ | ⟨rest, rfl, rfl⟩
  · obtain rfl := ha.eq_nil_of_longer hb hx
    exact ⟨(List.append_nil a).symm, rfl⟩
  · obtain rfl := hb.eq_nil_of_longer ha hy
    exact ⟨List.append_nil b, rfl⟩

end

/-! ## Plain particles -/

/-- The characters by which the text of a particle is read. -/
def marks : List Char := ['(', ')', '|', ',', '?', '*', '+', '%', ';']

namespace Particle

mutual

/-- Names are free of marks, and groups have parts. Blanks in a name do no harm. -/
def plain : Particle → Bool
  | element name | entity name => name.toList.all (!marks.contains ·)
  | sequence parts | choice parts => !parts.isEmpty && plainAll parts
  | optional part | star part | plus part => part.plain

def plainAll : List Particle → Bool
  | [] => true
  | part :: parts => part.plain && plainAll parts

end

theorem plainAll_iff {parts : List Particle} :
    plainAll parts = true ↔ ∀ part ∈ parts, part.plain = true := by
  induction parts with
  | nil => simp [plainAll]
  | cons part parts ih => simp [plainAll, ih]

theorem not_mem_marks {name : String} (h : name.toList.all (!marks.contains ·) = true) {c : Char}
    (hc : c ∈ name.toList) : c ∉ marks := by
  simpa using List.all_eq_true.mp h c hc

/-! ## Groups -/

/-- A group, how its parts are separated in its text, and its parts. -/
inductive Group : Particle → String → List Particle → Prop where
  | sequence (parts : List Particle) : Group (sequence parts) ", " parts
  | choice (parts : List Particle) : Group (choice parts) "|" parts

/-- The parts behind the first one, each with a separator before it. -/
def behind (separator : String) (parts : List Particle) : List Char :=
  parts.flatMap fun part => separator.toList ++ part.render.toList

section

variable {p q part other : Particle} {separator separator' : String}
  {parts parts' ps qs : List Particle} {values : String → List String}

theorem toList_renderAll_cons (separator : String) (part : Particle) (parts : List Particle) :
    (renderAll separator (part :: parts)).toList =
      part.render.toList ++ behind separator parts := by
  induction parts generalizing part with
  | nil => simp [renderAll, behind]
  | cons next parts ih => simp [renderAll, behind, ih next]

theorem toList_render_entity (name : String) :
    (entity name).render.toList = '%' :: (name.toList ++ [';']) := by
  rw [render, String.toList_append, String.toList_append, List.append_assoc]
  rfl

theorem Group.toList_render (h : Group p separator parts) :
    p.render.toList = '(' :: ((renderAll separator parts).toList ++ [')']) := by
  cases h <;> simp [render]

theorem Group.plain_iff (h : Group p separator parts) :
    p.plain = true ↔ parts ≠ [] ∧ ∀ part ∈ parts, part.plain = true := by
  cases h <;> simp [plain, plainAll_iff]

theorem Group.nests_separator (h : Group p separator parts) : Nests 1 separator.toList := by
  intro depth hdepth
  obtain ⟨depth, rfl⟩ := Nat.exists_eq_succ_of_ne_zero (Nat.ne_of_gt hdepth)
  cases h <;> rfl

theorem Group.endsPart (h : Group p separator parts) (ps : List Particle) :
    EndsPart (behind separator ps) := by
  cases ps with
  | nil => simp [EndsPart, behind]
  | cons part ps => cases h <;> simp [EndsPart, behind, nest]

theorem Group.behind_cons_ne_nil (h : Group p separator parts) :
    behind separator (part :: ps) ≠ [] := by
  cases h <;> simp [behind]

/-- The two separators begin with different characters. -/
theorem Group.separator_inj (hp : Group p separator parts) (hq : Group q separator' parts')
    {x y : List Char} (h : separator.toList ++ x = separator'.toList ++ y) :
    separator = separator' ∧ x = y := by
  cases hp <;> cases hq <;> simp_all

theorem Group.nests (h : Group p separator parts) (hp : p.plain = true)
    (ih : ∀ part ∈ parts, part.plain = true → Nests 0 part.render.toList) :
    Nests 0 p.render.toList := by
  obtain ⟨hne, hplain⟩ := h.plain_iff.mp hp
  obtain ⟨first, parts, rfl⟩ := List.exists_cons_of_ne_nil hne
  have hpart (part : Particle) (hmem : part ∈ first :: parts) : Nests 1 part.render.toList :=
    (ih part hmem (hplain part hmem)).mono (Nat.zero_le 1)
  rw [h.toList_render, toList_renderAll_cons]
  apply Nests.parenthesized
  refine (hpart first List.mem_cons_self).append (nests_flatMap fun part hmem => ?_)
  exact h.nests_separator.append (hpart part (List.mem_cons_of_mem _ hmem))

theorem nests_name {name : String} (h : name.toList.all (!marks.contains ·) = true) :
    Nests 0 name.toList := by
  apply nests_of_free
  intro c hc
  have hmarks := not_mem_marks h hc
  simp_all [marks]

theorem nests_of_plain (p : Particle) (h : p.plain = true) : Nests 0 p.render.toList := by
  induction p with
  | element name => exact nests_name h
  | entity name =>
    rw [toList_render_entity]
    have hsigns : Nests 0 ['%'] ∧ Nests 0 [';'] :=
      ⟨nests_of_free (by simp), nests_of_free (by simp)⟩
    exact hsigns.1.append ((nests_name h).append hsigns.2)
  | sequence parts ih => exact (Group.sequence parts).nests h ih
  | choice parts ih => exact (Group.choice parts).nests h ih
  | optional part ih | star part ih | plus part ih =>
    rw [render, String.toList_append]
    exact (ih h).append (nests_of_free (by simp))

theorem Group.first_inj (hp : Group p separator parts) (hq : Group q separator' parts')
    (hpart : part.plain = true) (hother : other.plain = true)
    (h : part.render.toList ++ behind separator ps = other.render.toList ++ behind separator' qs) :
    part.render = other.render ∧ behind separator ps = behind separator' qs := by
  obtain ⟨htext, hbehind⟩ := append_inj_of_nests (nests_of_plain part hpart)
    (nests_of_plain other hother) (hp.endsPart ps) (hq.endsPart qs) h
  exact ⟨String.toList_inj.mp htext, hbehind⟩

theorem Group.behind_inj (hp : Group p separator parts) (hq : Group q separator' parts')
    (hps : ∀ part ∈ ps, part.plain = true) (hqs : ∀ part ∈ qs, part.plain = true)
    (h : behind separator ps = behind separator' qs) :
    ps.map render = qs.map render ∧ (separator = separator' ∨ ps = []) := by
  induction ps generalizing qs with
  | nil =>
    cases qs with
    | nil => exact ⟨rfl, Or.inr rfl⟩
    | cons other qs => exact absurd h.symm hq.behind_cons_ne_nil
  | cons part ps ih =>
    cases qs with
    | nil => exact absurd h hp.behind_cons_ne_nil
    | cons other qs =>
      rw [List.forall_mem_cons] at hps hqs
      simp only [behind, List.flatMap_cons, List.append_assoc] at h
      obtain ⟨hsep, hrest⟩ := hp.separator_inj hq h
      obtain ⟨hpart, hbehind⟩ := hp.first_inj hq hps.1 hqs.1 hrest
      obtain ⟨hmap, _⟩ := ih hps.2 hqs.2 hbehind
      exact ⟨by rw [List.map_cons, List.map_cons, hpart, hmap], Or.inl hsep⟩

/-- Two groups of one text have parts with the same texts, and only groups of one part may differ
in kind. -/
theorem Group.parts_inj (hp : Group p separator ps) (hq : Group q separator' qs)
    (hplain : p.plain = true) (hplain' : q.plain = true) (h : p.render = q.render) :
    ps.map render = qs.map render ∧ (separator = separator' ∨ ps.length = 1) := by
  obtain ⟨hne, hps⟩ := hp.plain_iff.mp hplain
  obtain ⟨hne', hqs⟩ := hq.plain_iff.mp hplain'
  obtain ⟨part, ps, rfl⟩ := List.exists_cons_of_ne_nil hne
  obtain ⟨other, qs, rfl⟩ := List.exists_cons_of_ne_nil hne'
  have htext := congrArg String.toList h
  rw [hp.toList_render, hq.toList_render, List.cons.injEq, List.append_left_inj,
    toList_renderAll_cons, toList_renderAll_cons] at htext
  rw [List.forall_mem_cons] at hps hqs
  obtain ⟨hpart, hbehind⟩ := hp.first_inj hq hps.1 hqs.1 htext.2
  obtain ⟨hmap, hsep⟩ := hp.behind_inj hq hps.2 hqs.2 hbehind
  refine ⟨by rw [List.map_cons, List.map_cons, hpart, hmap], ?_⟩
  exact hsep.imp_right fun hnil => by rw [hnil, List.length_singleton]

/-! ## What groups stand for -/

theorem languageInOrder_eq (values : String → List String) (parts : List Particle) :
    languageInOrder values parts = (parts.map (language values)).prod := by
  induction parts with
  | nil => rfl
  | cons part parts ih => rw [languageInOrder, ih, List.map_cons, List.prod_cons]

theorem languageOfAny_eq (values : String → List String) (parts : List Particle) :
    languageOfAny values parts = (parts.map (language values)).sum := by
  induction parts with
  | nil => rfl
  | cons part parts ih => rw [languageOfAny, ih, List.map_cons, List.sum_cons]

theorem Group.language_eq (h : Group p separator parts) :
    p.language values =
      if separator = ", " then (parts.map (language values)).prod
      else (parts.map (language values)).sum := by
  cases h with
  | sequence => rw [language, languageInOrder_eq, if_pos rfl]
  | choice => rw [language, languageOfAny_eq, if_neg (by decide)]

theorem Group.language_single (h : Group p separator [part]) :
    p.language values = part.language values := by
  rw [h.language_eq, List.map_singleton, List.prod_singleton, List.sum_singleton, ite_self]

theorem Group.language_congr (hp : Group p separator ps) (hq : Group q separator' qs)
    (hsep : separator = separator' ∨ ps.length = 1)
    (h : ps.map (language values) = qs.map (language values)) :
    p.language values = q.language values := by
  rcases hsep with rfl | hone
  · rw [hp.language_eq, hq.language_eq, h]
  · have hone' : qs.length = 1 := by
      rw [← List.length_map, ← h, List.length_map, hone]
    obtain ⟨part, rfl⟩ := List.length_eq_one_iff.mp hone
    obtain ⟨other, rfl⟩ := List.length_eq_one_iff.mp hone'
    rw [hp.language_single, hq.language_single]
    exact List.singleton_inj.mp h

/-- Every plain particle of the same text stands for the same words. -/
def Determines (values : String → List String) (part : Particle) : Prop :=
  ∀ other : Particle, other.plain = true → part.render = other.render →
    part.language values = other.language values

theorem map_language_congr (h : ∀ part ∈ ps, Determines values part)
    (hqs : ∀ part ∈ qs, part.plain = true) (hmap : ps.map render = qs.map render) :
    ps.map (language values) = qs.map (language values) := by
  induction ps generalizing qs with
  | nil => rw [List.map_eq_nil_iff.mp hmap.symm]
  | cons part ps ih =>
    cases qs with
    | nil => exact absurd hmap (List.cons_ne_nil _ _)
    | cons other qs =>
      rw [List.map_cons, List.map_cons, List.cons.injEq] at hmap
      rw [List.forall_mem_cons] at hqs h
      rw [List.map_cons, List.map_cons, h.1 other hqs.1 hmap.1, ih h.2 hqs.2 hmap.2]

end

/-! ## The outermost form -/

inductive Form where
  | name
  | entity
  | group
  | optional
  | star
  | plus

def form : Particle → Form
  | element _ => .name
  | entity _ => .entity
  | sequence _ | choice _ => .group
  | optional _ => .optional
  | star _ => .star
  | plus _ => .plus

/-- The form that the last character of a text tells. -/
def Form.ofLast : Option Char → Form
  | some ';' => .entity
  | some ')' => .group
  | some '?' => .optional
  | some '*' => .star
  | some '+' => .plus
  | _ => .name

theorem Group.form_eq {p : Particle} {separator : String} {parts : List Particle}
    (h : Group p separator parts) : p.form = .group := by
  cases h <;> rfl

theorem exists_group {p : Particle} (h : p.form = .group) :
    ∃ separator parts, Group p separator parts := by
  cases p with
  | sequence parts => exact ⟨_, _, .sequence parts⟩
  | choice parts => exact ⟨_, _, .choice parts⟩
  | _ => cases h

theorem ofLast_render (p : Particle) (h : p.plain = true) :
    Form.ofLast p.render.toList.getLast? = p.form := by
  cases p with
  | element name =>
    rw [render]
    cases hlast : name.toList.getLast? with
    | none => rfl
    | some c =>
      have hmarks := not_mem_marks h (List.mem_of_getLast? hlast)
      unfold Form.ofLast
      split <;> simp_all [marks, form]
  | entity name =>
    rw [toList_render_entity, ← List.cons_append, List.getLast?_concat]
    rfl
  | sequence parts =>
    rw [(Group.sequence parts).toList_render, ← List.cons_append, List.getLast?_concat]
    rfl
  | choice parts =>
    rw [(Group.choice parts).toList_render, ← List.cons_append, List.getLast?_concat]
    rfl
  | optional part | star part | plus part =>
    rw [render, String.toList_append]
    simp [Form.ofLast, form]

theorem form_eq_of_render_eq {p q : Particle} (hp : p.plain = true) (hq : q.plain = true)
    (h : p.render = q.render) : p.form = q.form := by
  rw [← ofLast_render p hp, ← ofLast_render q hq, h]

/-! ## Equal texts -/

theorem Group.determines {values : String → List String} {p : Particle} {separator : String}
    {parts : List Particle} (hgroup : Group p separator parts) (hp : p.plain = true)
    (ih : ∀ part ∈ parts, part.plain = true → Determines values part) : Determines values p := by
  intro q hq h
  obtain ⟨separator', others, hgroup'⟩ :=
    exists_group ((form_eq_of_render_eq hp hq h).symm.trans hgroup.form_eq)
  obtain ⟨hmap, hsep⟩ := hgroup.parts_inj hgroup' hp hq h
  have hparts : ∀ part ∈ parts, Determines values part :=
    fun part hpart => ih part hpart ((hgroup.plain_iff.mp hp).2 part hpart)
  have hothers := (hgroup'.plain_iff.mp hq).2
  exact hgroup.language_congr hgroup' hsep (map_language_congr hparts hothers hmap)

theorem determines_of_plain (values : String → List String) (p : Particle) (hp : p.plain = true) :
    Determines values p := by
  induction p with
  | element name =>
    intro q hq h
    cases q with
    | element other =>
      rw [render, render] at h
      rw [h]
    | _ => cases form_eq_of_render_eq hp hq h
  | entity name =>
    intro q hq h
    cases q with
    | entity other =>
      have hchars := congrArg String.toList h
      rw [toList_render_entity, toList_render_entity, List.cons.injEq, List.append_left_inj,
        String.toList_inj] at hchars
      rw [hchars.2]
    | _ => cases form_eq_of_render_eq hp hq h
  | sequence parts ih => exact (Group.sequence parts).determines hp ih
  | choice parts ih => exact (Group.choice parts).determines hp ih
  | optional part ih =>
    intro q hq h
    cases q with
    | optional other =>
      rw [render, render, String.append_left_inj] at h
      rw [language, language, ih hp other hq h]
    | _ => cases form_eq_of_render_eq hp hq h
  | star part ih =>
    intro q hq h
    cases q with
    | star other =>
      rw [render, render, String.append_left_inj] at h
      rw [language, language, ih hp other hq h]
    | _ => cases form_eq_of_render_eq hp hq h
  | plus part ih =>
    intro q hq h
    cases q with
    | plus other =>
      rw [render, render, String.append_left_inj] at h
      rw [language, language, ih hp other hq h]
    | _ => cases form_eq_of_render_eq hp hq h

theorem matchesAll_congr {p q : Particle} {values : String → List String}
    (h : p.language values = q.language values) (names : List String) :
    p.matchesAll values names = q.matchesAll values names := by
  rw [Bool.eq_iff_iff, matchesAll_iff, matchesAll_iff, h]

/-! ## Models of children -/

/-- The particle whose text is that of the model. -/
def enclosed (p : Particle) : Particle :=
  if p.render.toList.head? = some '(' then p else sequence [p]

theorem render_children (p : Particle) : (ContentModel.children p).render = p.enclosed.render := by
  show (if p.render.toList.head? = some '(' then p.render else "(" ++ p.render ++ ")") = _
  unfold enclosed
  split
  · rfl
  · simp [render, renderAll]

theorem plain_enclosed {p : Particle} (h : p.plain = true) : p.enclosed.plain = true := by
  unfold enclosed
  split
  · exact h
  · rw [(Group.sequence [p]).plain_iff]
    simpa using h

theorem language_enclosed (p : Particle) (values : String → List String) :
    p.enclosed.language values = p.language values := by
  unfold enclosed
  split
  · rfl
  · exact (Group.sequence [p]).language_single

theorem language_eq_of_children_render_eq {p q : Particle} (hp : p.plain = true)
    (hq : q.plain = true) (h : (ContentModel.children p).render = (ContentModel.children q).render)
    (values : String → List String) : p.language values = q.language values := by
  rw [render_children, render_children] at h
  rw [← language_enclosed p, ← language_enclosed q]
  exact determines_of_plain values _ (plain_enclosed hp) _ (plain_enclosed hq) h

/-- Only children of the one reserved name are written like character data. -/
theorem matchesAll_of_render_characterData {p : Particle} (hp : p.plain = true)
    (h : (ContentModel.children p).render = ContentModel.characterData.render)
    (values : String → List String) (names : List String) :
    p.matchesAll values names = true ↔ names = ["#PCDATA"] := by
  have hname : (ContentModel.children (element "#PCDATA")).render =
      ContentModel.characterData.render := by decide
  have hreserved : (element "#PCDATA").plain = true := by decide
  rw [matchesAll_iff, language_eq_of_children_render_eq hp hreserved (h.trans hname.symm), language]
  exact Set.mem_singleton_iff

end Particle

/-- Particles of one text match the same lists of names under every schema, and element models of
one text are enforced alike, with the same help. -/
theorem render_determines_matches (p q : Particle) (hp : p.plain = true) (hq : q.plain = true) :
    (p.render = q.render → ∀ (s : Schema) (names : List String),
      p.matchesAll s.entityValues names = q.matchesAll s.entityValues names) ∧
    ((ContentModel.children p).render = (ContentModel.children q).render →
      ∀ (s : Schema) (d : ElementDeclaration) (e : Xml.Element),
        contentViolations s { d with content := .children p } e =
          contentViolations s { d with content := .children q } e) := by
  refine ⟨fun h s names => ?_, fun h s d e => ?_⟩
  · exact Particle.matchesAll_congr (p.determines_of_plain s.entityValues hp q hq h) names
  · have hlanguage := Particle.language_eq_of_children_render_eq hp hq h s.entityValues
    simp only [contentViolations, h, Particle.matchesAll_congr hlanguage]

theorem single_part_groups_match_alike :
    let p := Particle.star (.sequence [.optional (.element "Text"), .choice [.entity "Sides"]])
    let q := Particle.star (.sequence [.optional (.element "Text"), .sequence [.entity "Sides"]])
    let s : Schema := ⟨"", "", [⟨"Sides", ["left", "right"]⟩], []⟩
    let names := ["Text", "left", "right"]
    let d : ElementDeclaration := ⟨"Door", .empty, []⟩
    let e : Xml.Element := ⟨"Door", .unknown, [], "", []⟩
    (p.plain = true ∧ q.plain = true ∧ p.render = q.render ∧
      (ContentModel.children p).render = (ContentModel.children q).render) ∧
    (p.matchesAll s.entityValues names = q.matchesAll s.entityValues names ∧
      q.matchesAll s.entityValues names = true) ∧
    contentViolations s { d with content := .children p } e =
      contentViolations s { d with content := .children q } e := by
  intro p q s names d e
  have hp : p.plain = true := by decide
  have hq : q.plain = true := by decide
  have htext : p.render = q.render := by decide
  have hmodel : (ContentModel.children p).render = (ContentModel.children q).render := by decide
  have h := render_determines_matches p q hp hq
  exact ⟨⟨hp, hq, htext, hmodel⟩, ⟨h.1 htext s names, by decide⟩, h.2 hmodel s d e⟩

end OrbIdl.Schema
