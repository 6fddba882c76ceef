import Mathlib.Data.Nat.Digits.Defs
import Mathlib.Tactic.Linarith
import OrbIdl.Proofs.Reading.Enumerations

/-!
# Hexadecimal literals

A literal is `0x` and digits. What is taken for the mask of a bitmap value is a little more than
that: there may be a plus sign in front of the digits.
-/

namespace OrbIdl.Text

/-! ## Digits and numerals -/

/-- Capitals count like small letters. -/
def hexValue? (c : Char) : Option Nat :=
  "0123456789abcdef".toList.idxOf? c.toLower

/-- One digit at least and nothing else. -/
def IsHexNumeral (digits : List Char) (n : Nat) : Prop :=
  ∃ values, List.Forall₂ (fun c d => hexValue? c = some d) digits values ∧ values ≠ [] ∧
    Nat.ofDigits 16 values.reverse = n

theorem digit?_ascii : ∀ n : Fin 128, digit? 16 (Char.ofNat n) = hexValue? (Char.ofNat n) := by
  decide +kernel

theorem digit?_sixteen (c : Char) : digit? 16 c = hexValue? c := by
  by_cases h : c.toNat < 128
  · have hascii := digit?_ascii ⟨c.toNat, h⟩
    rwa [Char.ofNat_toNat] at hascii
  · have hnot (a : Char) (ha : a.toNat < 128) : ¬ c ≤ a := by
      intro hle
      have hle : c.toNat ≤ a.toNat := hle
      omega
    have hlower : c.toLower = c := by
      unfold Char.toLower
      apply dif_neg
      intro hcapital
      exact hnot 'Z' (by decide) hcapital.2
    have hmem : c ∉ "0123456789abcdef".toList := by
      intro hmem
      have hall : "0123456789abcdef".toList.all (·.toNat < 128) = true := by decide
      exact h (by simpa using List.all_eq_true.mp hall c hmem)
    rw [hexValue?, hlower, List.idxOf?_eq_none_iff.mpr hmem]
    simp [digit?, hnot '9' (by decide), hnot 'z' (by decide), hnot 'Z' (by decide)]

theorem le_foldl_digits {radix : Nat} (hradix : 0 < radix) (values : List Nat) (acc : Nat) :
    acc ≤ values.foldl (fun a d => a * radix + d) acc := by
  induction values generalizing acc with
  | nil => simp
  | cons d values ih =>
    have hstep : acc ≤ acc * radix + d := by nlinarith
    exact hstep.trans (ih _)

/-- The numbers on the way only grow, so that the limit is about the number at the end. -/
theorem readDigits_eq_ok_iff {radix limit acc n : Nat} {cs : List Char} (hradix : 0 < radix)
    (hacc : acc ≤ limit) :
    readDigits radix limit acc cs = .ok n ↔
      ∃ values, List.Forall₂ (fun c d => digit? radix c = some d) cs values ∧
        values.foldl (fun a d => a * radix + d) acc = n ∧ n ≤ limit := by
  induction cs generalizing acc with
  | nil =>
    simp only [readDigits, List.forall₂_nil_left_iff, exists_eq_left, List.foldl_nil]
    constructor
    · intro h
      cases h
      exact ⟨rfl, hacc⟩
    · rintro ⟨rfl, -⟩
      rfl
  | cons c cs ih =>
    rw [readDigits]
    cases hdigit : digit? radix c with
    | none => simp [List.forall₂_cons_left_iff, hdigit]
    | some d =>
      have hvalues : (∃ values, List.Forall₂ (fun c d => digit? radix c = some d) (c :: cs) values ∧
            values.foldl (fun a d => a * radix + d) acc = n ∧ n ≤ limit) ↔
          ∃ values, List.Forall₂ (fun c d => digit? radix c = some d) cs values ∧
            values.foldl (fun a d => a * radix + d) (acc * radix + d) = n ∧ n ≤ limit := by
        constructor
        · rintro ⟨_ | ⟨d', values⟩, h, hn⟩
          · cases h
          · obtain ⟨hd, hrest⟩ := List.forall₂_cons.mp h
            rw [hdigit, Option.some.injEq] at hd
            subst hd
            exact ⟨values, hrest, hn⟩
        · rintro ⟨values, h, hn⟩
          exact ⟨d :: values, .cons hdigit h, hn⟩
      rw [hvalues]
      dsimp only
      split
      · rename_i hle
        exact ih hle
      · rename_i hlarge
        constructor
        · intro h
          cases h
        · rintro ⟨values, -, rfl, hle⟩
          have hgrown := le_foldl_digits hradix values (acc * radix + d)
          omega

theorem readNumeral_sixteen_iff {limit n : Nat} {cs : List Char} :
    readNumeral 16 limit cs = .ok n ↔ IsHexNumeral cs n ∧ n ≤ limit := by
  cases cs with
  | nil => simp [readNumeral, IsHexNumeral]
  | cons c cs =>
    show readDigits 16 limit 0 (c :: cs) = .ok n ↔ _
    rw [readDigits_eq_ok_iff (by decide) (Nat.zero_le limit)]
    simp only [digit?_sixteen, IsHexNumeral, Nat.ofDigits_eq_foldr, List.foldr_reverse]
    constructor
    · rintro ⟨values, h, hn, hle⟩
      refine ⟨⟨values, h, ?_, ?_⟩, hle⟩
      · rintro rfl
        cases h
      · rw [← hn]
        simp [Nat.add_comm, Nat.mul_comm]
    · rintro ⟨⟨values, h, -, hn⟩, hle⟩
      refine ⟨values, h, ?_, hle⟩
      rw [← hn]
      simp [Nat.add_comm, Nat.mul_comm]

theorem not_isHexNumeral_plus (cs : List Char) (n : Nat) : ¬ IsHexNumeral ('+' :: cs) n := by
  rintro ⟨values, h, -, -⟩
  obtain ⟨d, _, hd, -, -⟩ := List.forall₂_cons_left_iff.mp h
  exact absurd hd (by simp [show hexValue? '+' = none from by decide])

theorem natural?_sixteen_iff {limit n : Nat} {cs : List Char} :
    natural? 16 limit cs = some n ↔
      (∃ sign ∈ [[], ['+']], ∃ digits, cs = sign ++ digits ∧ IsHexNumeral digits n) ∧
        n ≤ limit := by
  have hplain : (∃ sign ∈ [[], ['+']], ∃ digits, cs = sign ++ digits ∧ IsHexNumeral digits n) ↔
      IsHexNumeral cs n ∨ ∃ digits, cs = '+' :: digits ∧ IsHexNumeral digits n := by
    simp
  rw [hplain]
  unfold natural?
  split
  · rename_i digits
    rw [toOption_eq_some_iff, readNumeral_sixteen_iff]
    simp [not_isHexNumeral_plus]
  · rename_i hplus
    rw [toOption_eq_some_iff, readNumeral_sixteen_iff]
    have hnone : ¬ ∃ digits, cs = '+' :: digits ∧ IsHexNumeral digits n := by
      rintro ⟨digits, rfl, -⟩
      exact hplus digits rfl
    simp [hnone]

end OrbIdl.Text

namespace OrbIdl.Model

open Xml

/-! ## Literals -/

/-- Without the blanks around it the text is `0x` or `0X`, the sign, and the digits of a number of
32 bits. A literal has no sign. -/
def SpellsHex (sign : List Char) (s : String) (n : Nat) : Prop :=
  ∃ x digits, (x = 'x' ∨ x = 'X') ∧ Text.trimChars s.toList = '0' :: x :: (sign ++ digits) ∧
    Text.IsHexNumeral digits n ∧ n < 2 ^ 32

def IsHexLiteral : String → Nat → Prop :=
  SpellsHex []

/-- What is taken for the mask of a bitmap value. -/
def IsMask (s : String) (n : Nat) : Prop :=
  IsHexLiteral s n ∨ SpellsHex ['+'] s n

theorem isMask_iff {s : String} {n : Nat} : IsMask s n ↔ ∃ x cs, (x = 'x' ∨ x = 'X') ∧
    Text.trimChars s.toList = '0' :: x :: cs ∧
    Text.natural? 16 (UInt32.size - 1) cs = some n := by
  have hsize : n ≤ UInt32.size - 1 ↔ n < 2 ^ 32 := by
    norm_num [UInt32.size]
    omega
  simp only [Text.natural?_sixteen_iff, hsize]
  constructor
  · rintro (⟨x, digits, hx, htrim, hn, hlt⟩ | ⟨x, digits, hx, htrim, hn, hlt⟩)
    · exact ⟨x, digits, hx, htrim, ⟨[], by simp, digits, rfl, hn⟩, hlt⟩
    · exact ⟨x, '+' :: digits, hx, htrim, ⟨['+'], by simp, digits, rfl, hn⟩, hlt⟩
  · rintro ⟨x, cs, hx, htrim, ⟨sign, hsign, digits, rfl, hn⟩, hlt⟩
    rcases List.mem_pair.mp hsign with rfl | rfl
    · exact Or.inl ⟨x, digits, hx, htrim, hn, hlt⟩
    · exact Or.inr ⟨x, digits, hx, htrim, hn, hlt⟩

theorem hexadecimal?_eq_some_iff {s : String} {bits : UInt32} :
    hexadecimal? s = some bits ↔ IsMask s bits.toNat := by
  rw [isMask_iff]
  unfold hexadecimal?
  split
  · rename_i x digits htrim
    constructor
    · intro h
      split at h
      · rename_i hx
        obtain ⟨n, hn, rfl⟩ := Option.map_eq_some_iff.mp h
        have hle := (Text.natural?_sixteen_iff.mp hn).2
        have hbits : n.toUInt32.toNat = n := by
          apply UInt32.toNat_ofNat_of_lt'
          norm_num [UInt32.size] at hle ⊢
          omega
        exact ⟨x, digits, hx, htrim, by rw [hbits, hn]⟩
      · cases h
    · rintro ⟨x', cs, hx, htrim', hn⟩
      obtain ⟨rfl, rfl⟩ : x = x' ∧ digits = cs := by simpa using htrim.symm.trans htrim'
      rw [if_pos hx, hn, Option.map_some, Option.some.injEq]
      exact UInt32.ofNat_toNat
  · rename_i hother
    constructor
    · intro h
      cases h
    · rintro ⟨x, cs, -, htrim, -⟩
      exact absurd htrim (hother x cs)

theorem exists_bits_of_isMask {s : String} {n : Nat} (h : IsMask s n) :
    ∃ bits, hexadecimal? s = some bits ∧ bits.toNat = n := by
  have hlt : n < UInt32.size := by
    rcases h with ⟨_, _, _, _, _, hlt⟩ | ⟨_, _, _, _, _, hlt⟩ <;> exact hlt
  have hbits : n.toUInt32.toNat = n := UInt32.toNat_ofNat_of_lt' hlt
  refine ⟨n.toUInt32, ?_, hbits⟩
  rw [hexadecimal?_eq_some_iff, hbits]
  exact h

theorem hexadecimal?_eq_none_iff {s : String} : hexadecimal? s = none ↔ ¬ ∃ n, IsMask s n := by
  constructor
  · rintro hnone ⟨n, hn⟩
    obtain ⟨bits, hbits, -⟩ := exists_bits_of_isMask hn
    rw [hnone] at hbits
    cases hbits
  · intro hnone
    cases hbits : hexadecimal? s with
    | none => rfl
    | some bits => exact absurd ⟨_, hexadecimal?_eq_some_iff.mp hbits⟩ hnone

/-! ## Masks of values -/

variable {e : Element} {h : EnumHeader} {name s : String}

/-- Nothing but the literal itself is a reason to call it a bad one. -/
def LiteralToBlame (f : Fault) : Prop :=
  ∀ decl name literal span, f = .malformed decl (.badBitmapValue name literal) span →
    ¬ ∃ n, IsMask literal n

theorem require_literalToBlame (key : String) : FailsOnly LiteralToBlame (require e key) := by
  unfold require Element.require
  cases e.get? key with
  | some value => exact .ok value
  | none => exact .error (by rintro _ _ _ _ ⟨⟩)

namespace EnumValue

theorem mask_literalToBlame : FailsOnly LiteralToBlame (maskOf h name e) := by
  unfold maskOf
  split
  · exact .error (by rintro _ _ _ _ ⟨⟩)
  · exact .ok _
  · exact .error (by rintro _ _ _ _ ⟨⟩)
  · split
    · exact .ok _
    · rename_i hnone
      apply FailsOnly.error
      rintro _ _ _ _ ⟨⟩
      exact hexadecimal?_eq_none_iff.mp hnone

theorem literalToBlame : FailsOnly LiteralToBlame (EnumValue.ofElement h e).result := by
  have haltText (name : String) : FailsOnly LiteralToBlame (altTextOf h name e) := by
    unfold altTextOf
    split
    · exact .ok _
    · exact require_literalToBlame _
    · exact .ok _
  have haltText2 : FailsOnly LiteralToBlame (altText2Of h e) := by
    unfold altText2Of
    split
    · exact require_literalToBlame _
    · exact .ok _
  have haltNumber (name : String) : FailsOnly LiteralToBlame (altNumberOf h name e).result := by
    unfold altNumberOf
    split
    · exact .ok _
    · split
      · exact .ok _
      · exact .error (by rintro _ _ _ _ ⟨⟩)
    · exact Logged.failsOnly_bind (.ok ()) fun _ _ => .ok _
  unfold EnumValue.ofElement
  refine Logged.failsOnly_bind (require_literalToBlame _) fun name _ => ?_
  refine Logged.failsOnly_bind mask_literalToBlame fun mask _ => ?_
  refine Logged.failsOnly_bind (haltText name) fun altText _ => ?_
  refine Logged.failsOnly_bind haltText2 fun altText2 _ => ?_
  exact Logged.failsOnly_bind (haltNumber name) fun _ _ => .ok _

/-- A bitmap value is refused at once when its literal is none. -/
theorem ofElement_of_badLiteral (hbitmap : h.shape = .bitmap) (hname : e.get? Key.name = some name)
    (hs : e.get? Key.value = some s) (hbad : ¬ ∃ n, IsMask s n) :
    (EnumValue.ofElement h e).result =
      .error (.malformed h.name (.badBitmapValue name s) (e.spanOf Key.value)) := by
  have hmask : maskOf h name e =
      .error (.malformed h.name (.badBitmapValue name s) (e.spanOf Key.value)) := by
    unfold maskOf
    rw [hbitmap, hs]
    simp only [hexadecimal?_eq_none_iff.mpr hbad]
  apply Logged.bind_error_iff.mpr
  refine Or.inr ⟨name, require_eq_ok_iff.mpr hname, ?_⟩
  apply Logged.bind_error_iff.mpr
  exact Or.inl hmask

/-- The mask of a bitmap value is its literal, with the number that it spells. -/
theorem ReadFrom.mask_of_bitmap {v : EnumValue} (hv : v.ReadFrom h e)
    (hbitmap : h.shape = .bitmap) :
    ∃ m, v.mask = some m ∧ e.get? Key.value = some m.literal ∧ IsMask m.literal m.bits.toNat := by
  rcases maskOf_eq_ok_iff.mp hv.mask with ⟨hstandard, -⟩ | ⟨-, m, hmask, hliteral, hbits⟩
  · rw [hbitmap] at hstandard
    cases hstandard
  · exact ⟨m, hmask, hliteral, hexadecimal?_eq_some_iff.mp hbits⟩

end EnumValue

theorem EnumEntry.literalToBlame : FailsOnly LiteralToBlame (EnumEntry.ofElement h e).result := by
  unfold EnumEntry.ofElement
  split
  · exact .ok _
  split
  · refine Logged.failsOnly_bind (require_literalToBlame _) fun name _ => ?_
    exact Logged.failsOnly_bind (require_literalToBlame _) fun value _ => .ok _
  split
  · exact Logged.failsOnly_bind EnumValue.literalToBlame fun v _ => .ok _
  · exact .error (by rintro _ _ _ _ ⟨⟩)

theorem EnumEntry.ofElement_of_badValue {f : Fault} (htag : e.name = Tag.enumValue)
    (hvalue : (EnumValue.ofElement h e).result = .error f) :
    (EnumEntry.ofElement h e).result = .error f := by
  have hdoc : e.name ≠ Tag.docText := by
    rw [htag]
    decide
  have hsynonym : e.name ≠ Tag.enumSynonym := by
    rw [htag]
    decide
  unfold EnumEntry.ofElement
  rw [if_neg hdoc, if_neg hsynonym, if_pos htag]
  exact Logged.bind_error_iff.mpr (Or.inl hvalue)

theorem Enumeration.literalToBlame (hheader : EnumHeader.ofElement e = .ok h) :
    FailsOnly LiteralToBlame (Enumeration.ofElement e).result := by
  unfold Enumeration.ofElement
  refine Logged.failsOnly_bind_of_ok hheader ?_
  refine Logged.failsOnly_bind ?_ fun entries _ => ?_
  · rw [Logged.result_mapM]
    exact .mapM fun child _ => EnumEntry.literalToBlame
  dsimp only
  split
  · exact .error (by rintro _ _ _ _ ⟨⟩)
  split
  · exact .error (by rintro _ _ _ _ ⟨⟩)
  · exact .ok _

/-- The value of a bitmap is refused for its literal exactly when that is no mask, and a value that
is read has the number of its literal for its bits. A mask is a hexadecimal literal, or what would
be one but for a plus sign. -/
theorem bitmap_literals {before after : List Element} {value : Element}
    (hheader : EnumHeader.ofElement e = .ok h) (hbitmap : h.shape = .bitmap)
    (hchildren : e.children = before ++ value :: after)
    (hbefore : ∀ child ∈ before, (EnumEntry.ofElement h child).result.isOk = true)
    (htag : value.name = Tag.enumValue) (hname : value.get? Key.name = some name)
    (hs : value.get? Key.value = some s) :
    ((Enumeration.ofElement e).result =
        .error (.malformed h.name (.badBitmapValue name s) (value.spanOf Key.value)) ↔
      ¬ ∃ n, IsHexLiteral s n ∨ SpellsHex ['+'] s n) ∧
    ∀ info, (Enumeration.ofElement e).result = .ok info →
      List.Forall₂ (fun child (v : EnumValue) => ∃ m, v.mask = some m ∧
          child.get? Key.value = some m.literal ∧
          (IsHexLiteral m.literal m.bits.toNat ∨ SpellsHex ['+'] m.literal m.bits.toNat))
        (e.children.filter (·.name == Tag.enumValue)) info.values := by
  refine ⟨⟨?_, ?_⟩, ?_⟩
  · intro hfault
    exact Enumeration.literalToBlame hheader _ hfault _ _ _ _ rfl
  · intro hbad
    have hvalue := EnumEntry.ofElement_of_badValue htag
      (EnumValue.ofElement_of_badLiteral hbitmap hname hs hbad)
    apply Logged.bind_error_iff.mpr
    refine Or.inr ⟨h, hheader, Logged.bind_error_iff.mpr (Or.inl ?_)⟩
    rw [Logged.result_mapM, hchildren]
    exact mapM_eq_error_of_first hbefore hvalue
  · intro info hinfo
    obtain ⟨entries, hread⟩ := Enumeration.ofElement_ok_iff.mp hinfo
    have hsame : h = info.toEnumHeader := by
      have hinfo := EnumHeader.ofElement_eq_ok_iff.mpr hread.header
      exact Except.ok.inj (hheader.symm.trans hinfo)
    rw [hsame] at hbitmap
    exact hread.forall₂_values.imp fun child v hv => hv.mask_of_bitmap hbitmap

def flag (name literal : String) : Element :=
  ⟨Tag.enumValue, .unknown,
    [⟨Key.name, name, .unknown, false⟩, ⟨Key.value, literal, .unknown, false⟩], "", []⟩

def flags (values : List Element) : Element :=
  ⟨Tag.enumeration, .unknown,
    [⟨Key.name, "EFlags", .unknown, false⟩, ⟨Key.type, "Bmp", .unknown, false⟩], "", values⟩

def flagsHeader : EnumHeader where
  name := "EFlags"
  shape := .bitmap
  base := some .card4
  altTextSource := .off
  altPattern := ""
  altText2 := false
  altNumbers := false
  binaryStream := false
  increments := .off
  maps := ⟨.off, .off, .off, .off, .off, .off⟩
  span := .unknown

theorem badDigit_refused :
    let e := flags [flag "A" " 0XfF ", flag "B" "0x1G"]
    EnumHeader.ofElement e = .ok flagsHeader ∧
    (Enumeration.ofElement e).result =
      .error (.malformed "EFlags" (.badBitmapValue "B" "0x1G") .unknown) ∧
    ¬ ∃ n, IsHexLiteral "0x1G" n ∨ SpellsHex ['+'] "0x1G" n := by
  intro e
  have hheader : EnumHeader.ofElement e = .ok flagsHeader := by decide +kernel
  have hbefore : ∀ child ∈ [flag "A" " 0XfF "],
      (EnumEntry.ofElement flagsHeader child).result.isOk = true := by
    decide +kernel
  have hrefused : (Enumeration.ofElement e).result =
      .error (.malformed "EFlags" (.badBitmapValue "B" "0x1G") .unknown) := by
    decide +kernel
  have hchildren : e.children = [flag "A" " 0XfF "] ++ flag "B" "0x1G" :: [] := rfl
  have hiff := bitmap_literals hheader rfl hchildren hbefore rfl rfl rfl
  exact ⟨hheader, hrefused, hiff.1.mp hrefused⟩

/-- The plus sign is left in the literal, and so in the code of the enumeration. -/
theorem plusSign_taken :
    ∃ info, (Enumeration.ofElement (flags [flag "A" "0x+1"])).result = .ok info ∧
      info.allBits = 1 ∧ ¬ ∃ n, IsHexLiteral "0x+1" n := by
  have hread : (Enumeration.ofElement (flags [flag "A" "0x+1"])).result.toOption.map
      (·.allBits) = some 1 := by decide +kernel
  obtain ⟨info, hinfo, hbits⟩ := Option.map_eq_some_iff.mp hread
  refine ⟨info, toOption_eq_some_iff.mp hinfo, hbits, ?_⟩
  rintro ⟨n, x, digits, -, htrim, hn, -⟩
  have hplus : Text.trimChars "0x+1".toList = ['0', 'x', '+', '1'] := by decide
  rw [hplus] at htrim
  obtain ⟨-, rfl⟩ : 'x' = x ∧ ['+', '1'] = digits := by simpa using htrim
  exact Text.not_isHexNumeral_plus _ n hn

end OrbIdl.Model
