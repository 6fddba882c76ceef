import OrbIdl.Text.Bytes
import OrbIdl.Xml.Fault

/-! # References to characters -/

namespace OrbIdl.Xml

/-- The five names that XML defines. -/
def namedCharacter? : List Char → Option Char
  | ['l', 't'] => some '<'
  | ['g', 't'] => some '>'
  | ['a', 'm', 'p'] => some '&'
  | ['a', 'p', 'o', 's'] => some '\''
  | ['q', 'u', 'o', 't'] => some '"'
  | _ => none

/-- A number that names a character: a Unicode scalar value other than zero. -/
def characterOf (code : Nat) : Except ReferenceFault Char :=
  if code = 0 then .error .zero
  else if h : code.isValidChar then .ok (Char.ofNatAux code h)
  else .error (.noCharacter code)

/-- The digits of a numeric reference, hexadecimal after `x`, without a sign. -/
def numberedCharacter (cs : List Char) : Except ReferenceFault Char := do
  let (radix, digits) := match cs with
    | 'x' :: digits => (16, digits)
    | digits => (10, digits)
  if digits.head? = some '+' ∨ digits.head? = some '-' then throw .signed
  match Text.readNumeral radix (UInt32.size - 1) digits with
  | .ok code => characterOf code
  | .error fault => throw (.badNumber fault)

/-- The character that the text between `&` and `;` stands for. -/
def referenced (start stop : Nat) (name : List Char) : Except ReferenceFault Char :=
  match name with
  | '#' :: number => numberedCharacter number
  | _ =>
    match namedCharacter? name with
    | some c => .ok c
    | none => .error (.unknownName start stop (String.ofList name))

/-- Resolves the references of a text of `size` bytes. An ampersand opens a reference, and the next
ampersand or semicolon has to be the semicolon that closes it. -/
def resolveFrom (size : Nat) (place : Nat) (opened : Option (Nat × List Char)) :
    List Char → Except ReferenceFault (List Char)
  | [] =>
    match opened with
    | none => .ok []
    | some (start, _) => .error (.unterminated start size)
  | c :: cs =>
    let next := place + c.utf8Size
    match opened with
    | none =>
      if c = '&' then resolveFrom size next (some (place, [])) cs
      else (resolveFrom size next none cs).map (c :: ·)
    | some (start, seen) =>
      if c = '&' then .error (.unterminated start size)
      else if c = ';' then do
        let character ← referenced (start + 1) place seen.reverse
        (resolveFrom size next none cs).map (character :: ·)
      else resolveFrom size next (some (start, c :: seen)) cs

/-- The text that a raw text stands for. -/
def resolve (raw : List Char) : Except ReferenceFault (List Char) :=
  resolveFrom (Text.byteSize raw) 0 none raw

end OrbIdl.Xml
