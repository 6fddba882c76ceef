/-! # Whole numbers written in digits -/

namespace OrbIdl.Text

/-- Why a text is no number. -/
inductive NumeralFault where
  | empty
  | badDigit
  | tooLarge
deriving DecidableEq

namespace NumeralFault

def message : NumeralFault → String
  | empty => "cannot parse integer from empty string"
  | badDigit => "invalid digit found in string"
  | tooLarge => "number too large to fit in target type"

end NumeralFault

/-- The value of an ASCII digit or letter as a digit of the radix. -/
def digit? (radix : Nat) (c : Char) : Option Nat :=
  let value :=
    if '0' ≤ c ∧ c ≤ '9' then some (c.toNat - '0'.toNat)
    else if 'a' ≤ c ∧ c ≤ 'z' then some (c.toNat - 'a'.toNat + 10)
    else if 'A' ≤ c ∧ c ≤ 'Z' then some (c.toNat - 'A'.toNat + 10)
    else none
  value.filter (· < radix)

/-- Reads digits from the left on top of `acc`. The first character that is no digit, or that
takes the number past `limit`, ends it. -/
def readDigits (radix limit acc : Nat) : List Char → Except NumeralFault Nat
  | [] => .ok acc
  | c :: cs =>
    match digit? radix c with
    | none => .error .badDigit
    | some d =>
      if acc * radix + d ≤ limit then readDigits radix limit (acc * radix + d) cs
      else .error .tooLarge

/-- At least one digit and nothing else. -/
def readNumeral (radix limit : Nat) : List Char → Except NumeralFault Nat
  | [] => .error .empty
  | cs => readDigits radix limit 0 cs

/-- A numeral after at most one plus sign. -/
def natural? (radix limit : Nat) : List Char → Option Nat
  | '+' :: cs => (readNumeral radix limit cs).toOption
  | cs => (readNumeral radix limit cs).toOption

/-- A numeral after at most one sign, from `-limit - 1` to `limit`. -/
def integer? (radix limit : Nat) : List Char → Option Int
  | '-' :: cs => (readNumeral radix (limit + 1) cs).toOption.map fun n => -(n : Int)
  | cs => (natural? radix limit cs).map fun n => (n : Int)

/-- A decimal number of 32 bits without sign. -/
def card32? (cs : List Char) : Option UInt32 :=
  (natural? 10 (UInt32.size - 1) cs).map fun n => n.toUInt32

/-- A decimal number of 32 bits with sign. -/
def int32? (cs : List Char) : Option Int :=
  integer? 10 (UInt32.size / 2 - 1) cs

/-! ## Writing -/

/-- A digit below sixteen; letters are capitals. -/
def hexDigit (d : Nat) : Char :=
  Char.ofNat (if d < 10 then d + '0'.toNat else d - 10 + 'A'.toNat)

/-- The hexadecimal digits of a number, at least one. -/
def hexDigits (n : Nat) : List Char :=
  if n < 16 then [hexDigit n] else hexDigits (n / 16) ++ [hexDigit (n % 16)]

end OrbIdl.Text
