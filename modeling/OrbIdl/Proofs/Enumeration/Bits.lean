import OrbIdl.Cpp.Enum.Definition
import OrbIdl.Proofs.Enumeration.Literals

/-!
# The bits of a bitmap

The literal that is written for all bits is one that is read as the mask of a value.
-/

namespace OrbIdl.Text

/-! ## Hexadecimal digits -/

theorem hexValue?_hexDigit : ∀ d < 16, hexValue? (hexDigit d) = some d := by decide

theorem isBlank_hexDigit : ∀ d < 16, isBlank (hexDigit d) = false := by decide

/-- The digits of a number spell it. -/
theorem isHexNumeral_hexDigits (n : Nat) : IsHexNumeral (hexDigits n) n := by
  induction n using Nat.strong_induction_on with
  | _ n ih =>
    rw [hexDigits]
    split
    · rename_i hn
      exact ⟨[n], .cons (hexValue?_hexDigit n hn) .nil, by simp, by simp⟩
    · obtain ⟨values, hvalues, -, hvalue⟩ := ih (n / 16) (by omega)
      have hlast := hexValue?_hexDigit (n % 16) (Nat.mod_lt n (by omega))
      refine ⟨values ++ [n % 16], List.rel_append hvalues (.cons hlast .nil), by simp, ?_⟩
      rw [List.reverse_append, List.reverse_singleton, List.singleton_append, Nat.ofDigits_cons,
        hvalue]
      omega

theorem exists_hexDigits_eq (n : Nat) : ∃ front d, d < 16 ∧ hexDigits n = front ++ [hexDigit d] := by
  rw [hexDigits]
  split
  · rename_i hn
    exact ⟨[], n, hn, rfl⟩
  · exact ⟨_, n % 16, Nat.mod_lt n (by omega), rfl⟩

theorem trimChars_of_ends {first last : Char} (cs : List Char) (hfirst : isBlank first = false)
    (hlast : isBlank last = false) :
    trimChars (first :: (cs ++ [last])) = first :: (cs ++ [last]) := by
  unfold trimChars trimEnd trimStart
  simp [hfirst, hlast]

end OrbIdl.Text

namespace OrbIdl.Model

open Xml

/-! ## Unions -/

theorem testBit_foldl_or (ns : List Nat) (acc i : Nat) :
    (ns.foldl (· ||| ·) acc).testBit i = (acc.testBit i || ns.any (·.testBit i)) := by
  induction ns generalizing acc with
  | nil => simp
  | cons n ns ih => simp [ih, Bool.or_assoc]

theorem and_foldl_or {ns : List Nat} {n : Nat} (hn : n ∈ ns) :
    n &&& ns.foldl (· ||| ·) 0 = n := by
  apply Nat.eq_of_testBit_eq
  intro i
  rw [Nat.testBit_and, testBit_foldl_or]
  cases hbit : n.testBit i with
  | false => rfl
  | true =>
    have hany : ns.any (·.testBit i) = true := List.any_eq_true.mpr ⟨n, hn, hbit⟩
    simp [hany]

/-! ## Masks -/

/-- The value has a literal, which stands for the number. -/
def EnumValue.HasNumber (v : EnumValue) (n : Nat) : Prop :=
  ∃ m, v.mask = some m ∧ IsMask m.literal n

/-- Each value adds its bits to those of the values before it. -/
theorem toNat_foldl_bits {values : List EnumValue} {ns : List Nat} (acc : UInt32)
    (h : List.Forall₂ (fun v n => ∃ m, v.mask = some m ∧ m.bits.toNat = n) values ns) :
    (values.foldl (fun bits v => bits ||| (v.mask.map (·.bits)).getD 0) acc).toNat =
      ns.foldl (· ||| ·) acc.toNat := by
  induction h generalizing acc with
  | nil => rfl
  | cons hv _ ih =>
    obtain ⟨m, hm, rfl⟩ := hv
    rw [List.foldl_cons, List.foldl_cons, ih, hm, Option.map_some, Option.getD_some,
      UInt32.toNat_or]

namespace Enumeration

variable {info : Enumeration} {entries : List EnumEntry} {t : Element}

theorem ReadFrom.value_readFrom (h : info.ReadFrom entries t) {v : EnumValue}
    (hv : v ∈ info.values) : ∃ child, v.ReadFrom info.toEnumHeader child := by
  obtain ⟨child, -, hchild⟩ := exists_of_forall₂ h.forall₂_values.flip hv
  exact ⟨child, hchild⟩

theorem ReadFrom.mask_of_standard (h : info.ReadFrom entries t) (hshape : info.shape = .standard)
    {v : EnumValue} (hv : v ∈ info.values) : v.mask = none := by
  obtain ⟨child, hchild⟩ := h.value_readFrom hv
  rcases EnumValue.maskOf_eq_ok_iff.mp hchild.mask with ⟨-, hnone, -⟩ | ⟨hbitmap, -⟩
  · exact hnone
  · rw [hshape] at hbitmap
    cases hbitmap

/-- The bits of all values are those of the literals, together. -/
theorem ReadFrom.exists_numbers (h : info.ReadFrom entries t) (hshape : info.shape = .bitmap) :
    ∃ ns, List.Forall₂ EnumValue.HasNumber info.values ns ∧
      info.allBits.toNat = ns.foldl (· ||| ·) 0 := by
  have hmask : ∀ v ∈ info.values, ∃ n, v.HasNumber n ∧ ∃ m, v.mask = some m ∧ m.bits.toNat = n := by
    intro v hv
    obtain ⟨child, hchild⟩ := h.value_readFrom hv
    obtain ⟨m, hm, -, hnumber⟩ := hchild.mask_of_bitmap hshape
    exact ⟨m.bits.toNat, ⟨m, hm, hnumber⟩, m, hm, rfl⟩
  obtain ⟨ns, hns⟩ := exists_forall₂ hmask
  refine ⟨ns, hns.imp fun _ _ hv => hv.1, ?_⟩
  exact toNat_foldl_bits 0 (hns.imp fun _ _ hv => hv.2)

end Enumeration

end OrbIdl.Model

namespace OrbIdl.Cpp.Enum

open Model Xml

/-! ## What is written -/

/-- An enumeration class with its items on lines of their own. -/
def enumClass (title : String) (items : List String) : String :=
  title ++ "\n\x7b\n" ++
    String.join (items.mapIdx fun i item => (if i = 0 then "    " else "    , ") ++ item ++ "\n") ++
    "\x7d;\n"

def title (e : Enumeration) : String :=
  s!"enum class {e.name}" ++
    match e.base with
    | some base => s!" : tCIDLib::{base.name}"
    | none => ""

theorem renderEnumerators_eq (xs : List Enumerator) :
    renderEnumerators xs = String.join ((xs.map (·.render)).mapIdx fun i item =>
      (if i = 0 then "    " else "    , ") ++ item ++ "\n") := by
  cases xs with
  | nil => rfl
  | cons first rest =>
    have hrest : (rest.map fun x => "    , " ++ x.render ++ "\n") =
        (rest.map (·.render)).mapIdx fun _ item => "    , " ++ item ++ "\n" := by
      apply List.ext_getElem <;> simp
    simp [renderEnumerators, List.mapIdx_cons, hrest, toString]

theorem definition_eq (e : Enumeration) :
    definition e = enumClass (title e) ((enumerators e).map (·.render)) := by
  unfold enumClass
  rw [← renderEnumerators_eq]
  rfl

/-! ## The literal of all bits -/

theorem isHexLiteral_bits (bits : UInt32) :
    IsHexLiteral (Initializer.bits bits).render bits.toNat := by
  have hchars : (Initializer.bits bits).render.toList = '0' :: 'x' :: Text.hexDigits bits.toNat := by
    simp [Initializer.render]
  obtain ⟨front, d, hd, hdigits⟩ := Text.exists_hexDigits_eq bits.toNat
  refine ⟨'x', _, Or.inl rfl, ?_, Text.isHexNumeral_hexDigits _, bits.toNat_lt⟩
  rw [hchars, hdigits]
  exact Text.trimChars_of_ends ('x' :: front) (by decide) (Text.isBlank_hexDigit d hd)

theorem hexadecimal?_bits (bits : UInt32) :
    hexadecimal? (Initializer.bits bits).render = some bits :=
  hexadecimal?_eq_some_iff.mpr (Or.inl (isHexLiteral_bits bits))

theorem definition_bitmap {e : Enumeration} (hshape : e.shape = .bitmap) :
    definition e = enumClass (title e)
      ((e.values.map valueEnumerator).map (·.render) ++
        [s!"Count = {e.values.length}", "None = 0",
          "AllBits = " ++ (Initializer.bits e.allBits).render] ++
        (e.synonyms.map synonymEnumerator).map (·.render)) := by
  have hsentinels : (sentinels e).map (·.render) = [s!"Count = {e.values.length}", "None = 0",
      "AllBits = " ++ (Initializer.bits e.allBits).render] := by
    unfold sentinels
    rw [hshape]
    simp [Enumerator.render, Initializer.render, toString]
    rfl
  rw [definition_eq, enumerators, List.map_append, List.map_append, hsentinels]

/-- The bits of all values of a bitmap are the union of the numbers of its literals, and what is
written for them is read as the same bits. A standard enumeration has neither. -/
theorem allBits_union {t : Element} {info : Enumeration}
    (hread : (Enumeration.ofElement t).result = .ok info) :
    (info.shape = .bitmap → ∃ ns bits literal,
      List.Forall₂ EnumValue.HasNumber info.values ns ∧
      info.allBits? = some bits ∧ bits.toNat = ns.foldl (· ||| ·) 0 ∧
      (∀ n ∈ ns, n &&& bits.toNat = n) ∧
      definition info = enumClass (title info)
        ((info.values.map valueEnumerator).map (·.render) ++
          [s!"Count = {info.values.length}", "None = 0", "AllBits = " ++ literal] ++
          (info.synonyms.map synonymEnumerator).map (·.render)) ∧
      hexadecimal? literal = some bits) ∧
    (info.shape = .standard → (∀ v ∈ info.values, v.mask = none) ∧ info.allBits? = none) := by
  obtain ⟨entries, hread⟩ := Enumeration.ofElement_ok_iff.mp hread
  constructor
  · intro hshape
    obtain ⟨ns, hnumbers, hunion⟩ := hread.exists_numbers hshape
    refine ⟨ns, info.allBits, _, hnumbers, ?_, hunion, ?_, definition_bitmap hshape,
      hexadecimal?_bits info.allBits⟩
    · rw [Enumeration.allBits?, hshape]
    · intro n hn
      rw [hunion]
      exact and_foldl_or hn
  · intro hshape
    refine ⟨fun v hv => hread.mask_of_standard hshape hv, ?_⟩
    rw [Enumeration.allBits?, hshape]

theorem flags_united :
    ∃ info, (Enumeration.ofElement (flags [flag "A" "0x5", flag "B" " 0X6 "])).result = .ok info ∧
      info.shape = .bitmap ∧ ∃ ns literal, List.Forall₂ EnumValue.HasNumber info.values ns ∧
        ns.foldl (· ||| ·) 0 = 7 ∧ hexadecimal? literal = some 7 := by
  have hread : (Enumeration.ofElement (flags [flag "A" "0x5", flag "B" " 0X6 "])).result.toOption.map
      (fun info => (info.shape, info.allBits)) = some (.bitmap, 7) := by decide +kernel
  obtain ⟨info, hinfo, hfields⟩ := Option.map_eq_some_iff.mp hread
  have hinfo := toOption_eq_some_iff.mp hinfo
  obtain ⟨hshape, hbits⟩ := Prod.mk.inj hfields
  obtain ⟨ns, bits, literal, hnumbers, hall, hunion, -, -, hliteral⟩ := (allBits_union hinfo).1 hshape
  rw [Enumeration.allBits?, hshape] at hall
  obtain rfl := Option.some.inj hall
  rw [hbits] at hunion hliteral
  exact ⟨info, hinfo, hshape, ns, literal, hnumbers, hunion.symm, hliteral⟩

end OrbIdl.Cpp.Enum
