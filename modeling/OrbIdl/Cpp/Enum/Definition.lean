import OrbIdl.Model.Enumeration

/-! # The definition of an enumeration in C++ -/

namespace OrbIdl.Cpp.Enum

open Model

/-- What an enumerator is set to. -/
inductive Initializer where
  /-- An expression of the document. -/
  | expression (text : String)
  | number (n : Nat)
  | bits (mask : UInt32)
  | enumerator (name : String)
deriving DecidableEq

def Initializer.render : Initializer → String
  | expression text => text
  | number n => s!"{n}"
  | bits mask => "0x" ++ String.ofList (Text.hexDigits mask.toNat)
  | enumerator name => name

structure Enumerator where
  name : String
  initializer : Option Initializer
deriving DecidableEq

def Enumerator.render (e : Enumerator) : String :=
  match e.initializer with
  | some i => s!"{e.name} = {i.render}"
  | none => e.name

def valueEnumerator (v : EnumValue) : Enumerator :=
  ⟨v.name, v.mask.map fun m => .expression m.literal⟩

/-- The enumerators that close the values: their number and their range, or all their bits. -/
def sentinels (e : Enumeration) : List Enumerator :=
  match e.shape with
  | .standard =>
    [⟨"Count", none⟩,
      ⟨"Min", some (.enumerator ((e.values.head?.map (·.name)).getD ""))⟩,
      ⟨"Max", some (.enumerator ((e.values.getLast?.map (·.name)).getD ""))⟩]
  | .bitmap =>
    [⟨"Count", some (.number e.values.length)⟩, ⟨"None", some (.number 0)⟩,
      ⟨"AllBits", some (.bits e.allBits)⟩]

def synonymEnumerator (s : Synonym) : Enumerator :=
  ⟨s.name, some (.expression s.value)⟩

/-- All enumerators: values, then sentinels, then synonyms. -/
def enumerators (e : Enumeration) : List Enumerator :=
  e.values.map valueEnumerator ++ sentinels e ++ e.synonyms.map synonymEnumerator

/-- Each enumerator on a line, with a comma before all but the first. -/
def renderEnumerators : List Enumerator → String
  | [] => ""
  | first :: rest =>
    s!"    {first.render}\n" ++ String.join (rest.map fun e => s!"    , {e.render}\n")

def definition (e : Enumeration) : String :=
  s!"enum class {e.name}" ++
    (match e.base with
      | some base => s!" : tCIDLib::{base.name}"
      | none => "") ++
    "\n\x7b\n" ++ renderEnumerators (enumerators e) ++ "\x7d;\n"

end OrbIdl.Cpp.Enum
