import OrbIdl.Cpp.Enum.Definition
import OrbIdl.Cpp.Enum.Function
import OrbIdl.Cpp.Enum.Table
import OrbIdl.Text.Indent

/-! # The code of an enumeration -/

namespace OrbIdl.Cpp

/-- The word that exports a declaration and a space, or nothing. -/
def exportLead (exportWord : String) : String :=
  if exportWord = "" then "" else exportWord ++ " "

namespace Enum

open Model

/-- The name of the enumeration with the scope around it. -/
def fullName (enclosing : String) (e : Enumeration) : String :=
  if enclosing = "" then e.name else s!"{enclosing}::{e.name}"

/-! ## Operators with a body -/

def stepOperator (full operator sign : String) : String :=
  s!"inline {full} operator{operator}({full}& eVal, int)\n\x7b\n    {full} eTmp = eVal;\n" ++
    s!"    eVal = {full}(int(eVal){sign}1);\n    return eTmp;\n\x7d\n\n"

def binaryOperators (full : String) : String :=
  s!"inline TBinOutStream& operator<<(TBinOutStream& strmTar, const {full} eVal)\n\x7b\n" ++
    "    strmTar.WriteEnum(tCIDLib::TCard4(eVal));\n    return strmTar;\n\x7d\n" ++
    s!"inline TBinInStream& operator>>(TBinInStream& strmSrc, COP {full}& eToFill)\n\x7b\n" ++
    s!"    eToFill = {full}(strmSrc.c4ReadEnum());\n    return strmSrc;\n\x7d\n"

def maskOperators (full operator : String) : String :=
  let both :=
    s!"{full}(tCIDLib::TEnumMaskType(eLHS) {operator} tCIDLib::TEnumMaskType(eRHS))"
  s!"[[nodiscard]] constexpr {full} operator{operator}(const {full} eLHS, const {full} eRHS)\n" ++
    s!"\x7b\n    return {both};\n\x7d\n" ++
    s!"constexpr {full}& operator{operator}=({full}& eLHS, const {full} eRHS)\n" ++
    s!"\x7b\n    eLHS = {both};\n    return eLHS;\n\x7d\n"

def operators (enclosing : String) (e : Enumeration) : String :=
  let full := fullName enclosing e
  (if e.increments ≠ .off then stepOperator full "++" "+" else "") ++
    (if e.increments = .both then stepOperator full "--" "-" else "") ++
    (if e.binaryStream then binaryOperators full else "") ++
    (if e.shape = .bitmap then maskOperators full "|" ++ maskOperators full "&" else "")

/-! ## Header and implementation -/

/-- Where the header of an enumeration stands: in a class or in a namespace. -/
structure Surroundings where
  inClass : Bool
  enclosing : String
  exportWord : String

/-- What stands before the functions declared in the scope of the enumeration. -/
def scopedLead (s : Surroundings) : String :=
  if s.inClass then "static " else exportLead s.exportWord

def textStreamPlace (s : Surroundings) : Place :=
  if s.inClass then .global else .enclosing

def signatures (s : Surroundings) (e : Enumeration) : String :=
  String.join ((scopedDeclarations e).map (·.render e.name (scopedLead s))) ++ "\n"

def arraySignatures (s : Surroundings) (e : Enumeration) : String :=
  String.join ((arrayDeclarations e).map
    (·.render (fullName s.enclosing e) (exportLead s.exportWord)))

/-- The operators, which follow a class and stand in a namespace. -/
def operatorSection (s : Surroundings) (e : Enumeration) : String :=
  operators s.enclosing e ++
    String.join ((textStreamDeclaration (textStreamPlace s) e).map
      (·.render (fullName s.enclosing e) (exportLead s.exportWord)))

/-- All functions that the header declares without a body. -/
def declarations (s : Surroundings) (e : Enumeration) : List Declaration :=
  scopedDeclarations e ++ arrayDeclarations e ++ textStreamDeclaration (textStreamPlace s) e

/-- What stands inside the scope of the enumeration. -/
def header (s : Surroundings) (e : Enumeration) : String :=
  let width := if s.inClass then 8 else 4
  Text.indent width (definition e) ++ Text.indent width (signatures s e) ++
    if s.inClass then "" else Text.indent width (operatorSection s e)

/-- What has to follow the scope of the enumeration. -/
def trailer (s : Surroundings) (e : Enumeration) : String :=
  arraySignatures s e ++ if s.inClass then operatorSection s e else ""

/-- The table and the functions that use it. -/
def implementation (enclosing : String) (e : Enumeration) : String :=
  (table e).render enclosing ++
    String.join ((definitions e).map (·.render enclosing e.name (fullName enclosing e)))

end Enum

end OrbIdl.Cpp
