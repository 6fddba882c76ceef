import OrbIdl.Proofs.Results
import OrbIdl.Report.Location
import OrbIdl.Xml.Attribute

/-! # Places in the text of a document -/

namespace OrbIdl

/-! ## Spans -/

namespace Span

theorem toNat_offset_ofBytes {offset length : Nat} (h : offset + length < UInt32.size) :
    (ofBytes offset length).offset.toNat = offset := by
  rw [ofBytes, toNat_clamp]
  omega

theorem toNat_stop_ofBytes {offset length : Nat} (h : offset + length < UInt32.size) :
    (ofBytes offset length).stop.toNat = offset + length := by
  rw [toNat_stop, toNat_offset_ofBytes h, ofBytes, toNat_clamp]
  omega

theorem toNat_offset_ofInterval {start stop : Nat} (hle : start ≤ stop)
    (h : stop < UInt32.size) : (ofInterval start stop).offset.toNat = start :=
  toNat_offset_ofBytes (by omega)

theorem toNat_stop_ofInterval {start stop : Nat} (hle : start ≤ stop) (h : stop < UInt32.size) :
    (ofInterval start stop).stop.toNat = stop := by
  rw [ofInterval, toNat_stop_ofBytes (by omega), Nat.add_sub_cancel' hle]

/-- The span ends at byte `n` at the latest. -/
def Fits (n : Nat) (s : Span) : Prop :=
  s.offset.toNat + s.length.toNat ≤ n

variable {n : Nat}

theorem fits_ofBytes {offset length : Nat} (h : offset + length ≤ n) :
    (ofBytes offset length).Fits n := by
  have hoffset : (clamp offset).toNat ≤ offset := by
    rw [toNat_clamp]
    exact Nat.min_le_left _ _
  have hlength : (clamp length).toNat ≤ length := by
    rw [toNat_clamp]
    exact Nat.min_le_left _ _
  exact Nat.le_trans (Nat.add_le_add hoffset hlength) h

theorem fits_ofInterval {start stop : Nat} (hstart : start ≤ n) (hstop : stop ≤ n) :
    (ofInterval start stop).Fits n :=
  fits_ofBytes (by omega)

theorem Fits.stop_le {s : Span} (h : s.Fits n) : s.stop.toNat ≤ n := by
  rw [toNat_stop]
  exact Nat.le_trans (Nat.min_le_left _ _) h

theorem toNat_min (a b : UInt32) : (min a b).toNat = min a.toNat b.toNat :=
  apply_ite UInt32.toNat (a ≤ b) a b

theorem toNat_max (a b : UInt32) : (max a b).toNat = max a.toNat b.toNat :=
  apply_ite UInt32.toNat (a ≤ b) b a

theorem toNat_offset_merge (a b : Span) :
    (a.merge b).offset.toNat = min a.offset.toNat b.offset.toNat :=
  toNat_min _ _

theorem min_offset_le_max_stop (a b : Span) : min a.offset b.offset ≤ max a.stop b.stop := by
  rw [UInt32.le_iff_toNat_le, toNat_min, toNat_max]
  have hoffset := a.offset_le_stop
  omega

theorem toNat_length_merge (a b : Span) :
    (a.merge b).length.toNat =
      max a.stop.toNat b.stop.toNat - min a.offset.toNat b.offset.toNat := by
  show (max a.stop b.stop - min a.offset b.offset).toNat = _
  rw [UInt32.toNat_sub_of_le _ _ (min_offset_le_max_stop a b), toNat_min, toNat_max]

theorem Fits.merge {a b : Span} (ha : a.Fits n) (hb : b.Fits n) : (a.merge b).Fits n := by
  have hstopA := ha.stop_le
  have hstopB := hb.stop_le
  have hoffset := a.offset_le_stop
  unfold Fits
  rw [toNat_offset_merge, toNat_length_merge]
  omega

/-- A span of the text has a line. -/
theorem Fits.exists_location {text : String} {s : Span}
    (h : s.Fits (Text.byteSize text.toList)) : ∃ l, Report.locate text s = .ok l := by
  have hstop := h.stop_le
  unfold Report.locate
  rw [if_neg (by omega)]
  exact ⟨_, rfl⟩

end Span

/-! ## Parts of a text -/

theorem Text.byteSize_takeWhile_add_dropWhile (p : Char → Bool) (cs : List Char) :
    byteSize (cs.takeWhile p) + byteSize (cs.dropWhile p) = byteSize cs := by
  rw [← byteSize_append, List.takeWhile_append_dropWhile]

theorem Text.byteSize_dropLast_add_one_le {cs : List Char} (h : cs ≠ []) :
    byteSize cs.dropLast + 1 ≤ byteSize cs := by
  have hsize : byteSize cs = byteSize cs.dropLast + (cs.getLast h).utf8Size := by
    calc byteSize cs = byteSize (cs.dropLast ++ [cs.getLast h]) := by
          rw [List.dropLast_concat_getLast h]
      _ = byteSize cs.dropLast + (cs.getLast h).utf8Size := by simp
  have hpos := (cs.getLast h).utf8Size_pos
  omega

namespace Xml

/-! ## What is read in order -/

/-- All items satisfy `P`, and the fault, if there is one, satisfies `Q`. -/
structure Reading.All {ε α : Type} (P : α → Prop) (Q : ε → Prop) (r : Reading ε α) : Prop where
  items : ∀ a ∈ r.items, P a
  fault : ∀ e, r.fault = some e → Q e

namespace Reading.All

variable {ε α : Type} {P : α → Prop} {Q : ε → Prop}

theorem done : (Reading.done : Reading ε α).All P Q :=
  ⟨nofun, nofun⟩

theorem stop {e : ε} (h : Q e) : (Reading.stop e : Reading ε α).All P Q where
  items := nofun
  fault := by
    rintro _ ⟨⟩
    exact h

theorem cons {a : α} {r : Reading ε α} (ha : P a) (hr : r.All P Q) : (Reading.cons a r).All P Q where
  items := List.forall_mem_cons.mpr ⟨ha, hr.items⟩
  fault := hr.fault

end Reading.All

/-! ## Tokens -/

/-- The text of a tag or a declaration, and how many bytes of its token come before it. -/
def Markup.tagText? : Markup → Option (Nat × List Char)
  | opening content | selfClosed content => some (1, content)
  | declaration content => some (2, content)
  | text _ | characterData _ | docType _ | closing _ | comment | instruction => none

/-- The token ends at byte `n` at the latest, and the text of a tag lies in it. -/
structure Token.EndsBy (n : Nat) (t : Token) : Prop where
  start_le : t.start ≤ n
  stop_le : t.stop ≤ n
  tagText_le : ∀ lead content, t.markup.tagText? = some (lead, content) →
    t.start + lead + Text.byteSize content ≤ t.stop

theorem Token.EndsBy.mono {m n : Nat} {t : Token} (h : t.EndsBy m) (hmn : m ≤ n) : t.EndsBy n where
  start_le := Nat.le_trans h.start_le hmn
  stop_le := Nat.le_trans h.stop_le hmn
  tagText_le := h.tagText_le

theorem Token.EndsBy.fits {n : Nat} {t : Token} (h : t.EndsBy n) : t.span.Fits n :=
  Span.fits_ofInterval h.start_le h.stop_le

/-- Between the angle brackets stands at least the text of the tag. -/
theorem byteSize_of_classify {content tag : List Char} {markup : Markup} {lead : Nat}
    (h : classify content = .ok markup) (htag : markup.tagText? = some (lead, tag)) :
    lead + Text.byteSize tag ≤ 1 + Text.byteSize content := by
  -- Only declarations and tags have a text, so most cases end at once.
  unfold classify at h
  split at h
  · split at h <;> cases h
    cases htag
  · split at h <;> cases h
    cases htag
  · split at h
    · split at h <;> cases h
      cases htag
    · cases h
  · cases h
  · rename_i rest hrest
    split at h <;> cases h
    · cases htag
      have hlast : Text.byteSize rest.dropLast ≤ Text.byteSize rest := by
        cases rest with
        | nil => exact Nat.le_refl _
        | cons c cs => exact Nat.le_of_succ_le (Text.byteSize_dropLast_add_one_le (by simp))
      simp only [Text.byteSize_cons]
      have hmark := '?'.utf8Size_pos
      omega
    · cases htag
  · cases h
    cases htag
  · split at h
    · rename_i hlast
      cases h
      cases htag
      have hne : content ≠ [] := by
        rintro rfl
        cases hlast
      have := Text.byteSize_dropLast_add_one_le hne
      omega
    · cases h
      cases htag
      omega

def Misplaced.EndsBy (n : Nat) (m : Misplaced) : Prop :=
  m.start ≤ n ∧ m.stop ≤ n

/-- All tokens of a text lie in it, and so does the fault that ends them. -/
theorem tokens_endsBy (start : Nat) (cs : List Char) :
    (tokens start cs).All (Token.EndsBy (start + Text.byteSize cs))
      (Misplaced.EndsBy (start + Text.byteSize cs)) := by
  have hopen : '<'.utf8Size = 1 := by decide
  have hclose : '>'.utf8Size = 1 := by decide
  fun_induction tokens start cs with
  | case1 start => exact .done
  | case2 start rest hknown =>
    refine .stop ?_
    simp only [Misplaced.EndsBy, Text.byteSize_cons]
    omega
  | case3 start rest hknown h =>
    refine .stop ?_
    simp only [Misplaced.EndsBy, Text.byteSize_cons]
    omega
  | case4 start rest hknown content after h stop fault hfault =>
    refine .stop ?_
    rw [eq_append_of_delimited h]
    simp only [Misplaced.EndsBy, stop, Text.byteSize_cons, Text.byteSize_append]
    omega
  | case5 start rest hknown content after h stop markup hmarkup ih =>
    have hsize : start + Text.byteSize ('<' :: rest) = stop + Text.byteSize after := by
      rw [eq_append_of_delimited h]
      simp only [stop, Text.byteSize_cons, Text.byteSize_append]
      omega
    have hstart : start ≤ stop + Text.byteSize after := by omega
    rw [hsize]
    refine .cons ⟨hstart, Nat.le_add_right _ _, ?_⟩ ih
    intro lead tag htag
    have htext := byteSize_of_classify hmarkup htag
    show start + lead + Text.byteSize tag ≤ stop
    omega
  | case6 start c rest hc raw stop ih =>
    have hsize : start + Text.byteSize (c :: rest) =
        stop + Text.byteSize (rest.dropWhile (· != '<')) := by
      have hrest := Text.byteSize_takeWhile_add_dropWhile (· != '<') rest
      simp only [stop, raw, Text.byteSize_cons]
      omega
    have hstart : start ≤ stop + Text.byteSize (rest.dropWhile (· != '<')) := by omega
    rw [hsize]
    exact .cons ⟨hstart, Nat.le_add_right _ _, nofun⟩ ih

/-! ## Attributes -/

/-- The name and the value of an attribute end at byte `n` of the tag at the latest. -/
structure RawAttribute.EndsBy (n : Nat) (a : RawAttribute) : Prop where
  key_le : a.keyStart + Text.byteSize a.key ≤ n
  value_le : a.valueStop ≤ n

theorem bound_of_afterEquals {size place place' : Nat} {cs rest : List Char}
    (h : afterEquals size place cs = .ok (place', rest)) :
    place' + Text.byteSize rest ≤ place + Text.byteSize cs := by
  have hcs := Text.byteSize_takeWhile_add_dropWhile isSpace cs
  have hspaces := Text.length_le_byteSize (cs.takeWhile isSpace)
  unfold afterEquals at h
  split at h
  · rename_i hrest
    cases h
    rw [hrest, Text.byteSize_cons] at hcs
    have hpos := '='.utf8Size_pos
    omega
  all_goals cases h

theorem bound_of_quotedValue {size place valueStart : Nat} {cs value rest : List Char}
    (h : quotedValue size place cs = .ok (value, valueStart, rest)) :
    valueStart + Text.byteSize value + 1 + Text.byteSize rest ≤ place + Text.byteSize cs := by
  cases cs with
  | nil => cases h
  | cons c cs =>
    have hcs := Text.byteSize_takeWhile_add_dropWhile (· != c) cs
    have hpos := c.utf8Size_pos
    rw [quotedValue] at h
    split at h
    · split at h
      · cases h
      · rename_i quote rest' hrest
        cases h
        rw [hrest, Text.byteSize_cons] at hcs
        rw [Text.byteSize_cons]
        have hquote := quote.utf8Size_pos
        omega
    · cases h

/-- An attribute and what follows it lie in the stretch of the tag that begins with it. -/
theorem bound_of_readAttribute {seen : List (List Char × Nat)} {size place : Nat} {c : Char}
    {cs rest : List Char} {a : RawAttribute}
    (h : readAttribute seen size place c cs = .ok (a, rest)) :
    a.EndsBy (place + Text.byteSize (c :: cs)) ∧
      a.valueStop + 1 + Text.byteSize rest ≤ place + Text.byteSize (c :: cs) := by
  unfold readAttribute at h
  obtain ⟨⟨place', after⟩, hafter, h⟩ := bind_eq_ok_iff.mp h
  dsimp only at h
  split at h
  · cases h
  obtain ⟨⟨value, valueStart, rest'⟩, hvalue, h⟩ := bind_eq_ok_iff.mp h
  cases h
  have hkey := Text.byteSize_takeWhile_add_dropWhile (fun d => d != '=' && !isSpace d) cs
  have hequals := bound_of_afterEquals hafter
  have hspaces := Text.byteSize_takeWhile_add_dropWhile isSpace after
  have hlength := Text.length_le_byteSize (after.takeWhile isSpace)
  have hquoted := bound_of_quotedValue hvalue
  simp only [Text.byteSize_cons] at hequals ⊢
  refine ⟨⟨?_, ?_⟩, ?_⟩
  · simp only [Text.byteSize_cons]
    omega
  all_goals
    simp only [RawAttribute.valueStop]
    omega

section

/-! Let `P n` hold of an attribute that is read from a stretch of the tag up to byte `n`, and go on
to hold for a larger `n`. It then holds of all attributes of a tag for the size of its text. -/

variable (P : Nat → RawAttribute → Prop)
  (hmono : ∀ {n m : Nat} {a : RawAttribute}, n ≤ m → P n a → P m a)
  (hread : ∀ {seen : List (List Char × Nat)} {size place : Nat} {c : Char} {cs rest : List Char}
    {a : RawAttribute}, readAttribute seen size place c cs = .ok (a, rest) →
    P (place + Text.byteSize (c :: cs)) a)
include hmono hread

theorem forall_attributesFrom (strict : Bool) (size : Nat) (seen : List (List Char × Nat))
    (place : Nat) (cs : List Char) :
    ∀ a ∈ (attributesFrom strict size seen place cs).items, P (place + Text.byteSize cs) a := by
  fun_induction attributesFrom strict size seen place cs with
  | case1 => exact List.forall_mem_nil _
  | case2 => exact List.forall_mem_nil _
  | case3 seen place cs spaces c rest hcs a after ha seen' ih =>
    have hsplit := Text.byteSize_takeWhile_add_dropWhile isSpace cs
    have hspaces := Text.length_le_byteSize (cs.takeWhile isSpace)
    rw [hcs] at hsplit
    have hstart : place + spaces.length + Text.byteSize (c :: rest) ≤ place + Text.byteSize cs := by
      simp only [spaces]
      omega
    have hafter := Nat.le_trans (bound_of_readAttribute ha).2 hstart
    exact List.forall_mem_cons.mpr ⟨hmono hstart (hread ha), fun b hb => hmono hafter (ih b hb)⟩

theorem forall_attributes (strict : Bool) (content : List Char) :
    ∀ a ∈ (attributes strict content).items, P (Text.byteSize content) a := by
  have h := forall_attributesFrom P hmono hread strict (Text.byteSize content) []
    (Text.byteSize (tagName content)) (content.dropWhile (!isSpace ·))
  rwa [tagName, Text.byteSize_takeWhile_add_dropWhile] at h

end

theorem attributes_endsBy (strict : Bool) (content : List Char) :
    ∀ a ∈ (attributes strict content).items, a.EndsBy (Text.byteSize content) :=
  forall_attributes (fun n a => a.EndsBy n)
    (fun hle ha => ⟨Nat.le_trans ha.key_le hle, Nat.le_trans ha.value_le hle⟩)
    (fun h => (bound_of_readAttribute h).1) strict content

end Xml

end OrbIdl
