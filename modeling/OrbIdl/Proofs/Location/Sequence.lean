import OrbIdl.Proofs.Location.Bounds
import OrbIdl.Xml.Token

/-!
# Tokens one after the other

Each token begins where the one before it ends. What a tag holds stands between its brackets, and
the value of an attribute between its quotes.
-/

namespace OrbIdl.Xml

/-! ## Tokens -/

/-- The bytes that a tag takes at the least: its text with the brackets and the slash. -/
def Markup.leastSize : Markup → Nat
  | opening content => Text.byteSize content + 2
  | selfClosed content => Text.byteSize content + 3
  | closing _ => 3
  | text _ | characterData _ | docType _ | declaration _ | comment | instruction => 0

/-- The token begins at byte `n` and has room for what it is. -/
structure Token.Follows (n : Nat) (t : Token) : Prop where
  start_eq : t.start = n
  room : n + t.markup.leastSize ≤ t.stop

/-- The first token begins at byte `n`, and each other one where the one before it ends. -/
inductive Consecutive : Nat → List Token → Prop where
  | nil (n : Nat) : Consecutive n []
  | cons {n : Nat} {t : Token} {ts : List Token} (ht : t.Follows n)
      (hts : Consecutive t.stop ts) : Consecutive n (t :: ts)

theorem leastSize_of_classify {content : List Char} {markup : Markup}
    (h : classify content = .ok markup) : markup.leastSize ≤ Text.byteSize content + 2 := by
  unfold classify at h
  split at h
  · split at h <;> cases h
    exact Nat.zero_le _
  · split at h <;> cases h
    exact Nat.zero_le _
  · split at h
    · split at h <;> cases h
      exact Nat.zero_le _
    · cases h
  · cases h
  · split at h <;> cases h
    · exact Nat.zero_le _
    · exact Nat.zero_le _
  · cases h
    have hslash := '/'.utf8Size_pos
    simp only [Markup.leastSize, Text.byteSize_cons]
    omega
  · split at h
    · rename_i hlast
      cases h
      have hne : content ≠ [] := by
        rintro rfl
        cases hlast
      have hslash := Text.byteSize_dropLast_add_one_le hne
      simp only [Markup.leastSize]
      omega
    · cases h
      exact Nat.le_refl _

theorem tokens_consecutive (start : Nat) (cs : List Char) :
    Consecutive start (tokens start cs).items := by
  fun_induction tokens start cs with
  | case1 start => exact .nil start
  | case2 start => exact .nil start
  | case3 start => exact .nil start
  | case4 start => exact .nil start
  | case5 start rest hknown content after h stop markup hmarkup ih =>
    have hsize := leastSize_of_classify hmarkup
    refine .cons ⟨rfl, ?_⟩ ih
    simp only [stop]
    omega
  | case6 start c rest hc raw stop ih =>
    refine .cons ⟨rfl, ?_⟩ ih
    simp only [Markup.leastSize, stop]
    omega

/-! ## Attributes -/

/-- The name comes before the value, and the closing quote before byte `n` of the tag. -/
structure RawAttribute.Quoted (n : Nat) (a : RawAttribute) : Prop where
  key_le : a.keyStart + Text.byteSize a.key ≤ a.valueStart
  value_lt : a.valueStop < n

theorem le_of_afterEquals {size place place' : Nat} {cs rest : List Char}
    (h : afterEquals size place cs = .ok (place', rest)) : place ≤ place' := by
  unfold afterEquals at h
  split at h
  · cases h
    omega
  all_goals cases h

theorem le_of_quotedValue {size place valueStart : Nat} {cs value rest : List Char}
    (h : quotedValue size place cs = .ok (value, valueStart, rest)) : place ≤ valueStart := by
  cases cs with
  | nil => cases h
  | cons c cs =>
    rw [quotedValue] at h
    split at h
    · split at h
      · cases h
      · cases h
        exact Nat.le_succ place
    · cases h

theorem quoted_of_readAttribute {seen : List (List Char × Nat)} {size place : Nat} {c : Char}
    {cs rest : List Char} {a : RawAttribute}
    (h : readAttribute seen size place c cs = .ok (a, rest)) :
    a.Quoted (place + Text.byteSize (c :: cs)) := by
  obtain ⟨-, hstop⟩ := bound_of_readAttribute h
  refine ⟨?_, by omega⟩
  unfold readAttribute at h
  obtain ⟨⟨place', after⟩, hafter, h⟩ := bind_eq_ok_iff.mp h
  dsimp only at h
  split at h
  · cases h
  obtain ⟨⟨value, valueStart, rest'⟩, hvalue, h⟩ := bind_eq_ok_iff.mp h
  cases h
  have hequals := le_of_afterEquals hafter
  have hquote := le_of_quotedValue hvalue
  dsimp only
  omega

theorem attributes_quoted (strict : Bool) (content : List Char) :
    ∀ a ∈ (attributes strict content).items, a.Quoted (Text.byteSize content) :=
  forall_attributes (fun n a => a.Quoted n)
    (fun hle ha => ⟨ha.key_le, Nat.lt_of_lt_of_le ha.value_lt hle⟩)
    quoted_of_readAttribute strict content

end OrbIdl.Xml
