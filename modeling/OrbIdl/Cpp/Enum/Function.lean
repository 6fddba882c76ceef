import OrbIdl.Model.Enumeration

/-! # The functions of an enumeration -/

namespace OrbIdl.Cpp.Enum

open Model

/-! ## Types and parameters -/

/-- A type is the enumeration itself or another one by name, with what stands around it. -/
inductive BaseType where
  | self
  | named (name : String)
deriving DecidableEq

structure CppType where
  isConst : Bool
  base : BaseType
  /-- What follows the name, such as an ampersand. -/
  tail : String
deriving DecidableEq

namespace CppType

def plain (name : String) : CppType := ⟨false, .named name, ""⟩
def const (name : String) : CppType := ⟨true, .named name, ""⟩
def reference (name : String) : CppType := ⟨false, .named name, "&"⟩
def constReference (name : String) : CppType := ⟨true, .named name, "&"⟩

/-- The enumeration itself. -/
def self : CppType := ⟨false, .self, ""⟩
def constSelf : CppType := ⟨true, .self, ""⟩

/-- The type without its `const`, where the enumeration is written as `own`. -/
def core (own : String) (t : CppType) : String :=
  (match t.base with
    | .self => own
    | .named name => name) ++ t.tail

def render (own : String) (t : CppType) : String :=
  (if t.isConst then "const " else "") ++ t.core own

end CppType

structure Parameter where
  type : CppType
  name : String
  fallback : Option String := none
deriving DecidableEq

namespace Parameter

def fallbackText (p : Parameter) : String :=
  match p.fallback with
  | some value => s!" = {value}"
  | none => ""

def render (own : String) (p : Parameter) : String :=
  s!"{p.type.render own} {p.name}{p.fallbackText}"

end Parameter

/-! ## Columns -/

/-- The selector of a column in generated code. -/
def selector : TextColumn → String
  | .off => "TEnumMap::ETextVals::None"
  | .altText => "TEnumMap::ETextVals::AltText"
  | .altText2 => "TEnumMap::ETextVals::AltText2"
  | .baseName => "TEnumMap::ETextVals::BaseName"
  | .name => "TEnumMap::ETextVals::Name"
  | .text => "TEnumMap::ETextVals::Text"

/-- Where a function lives: in the scope around the enumeration, or outside of any. -/
inductive Place where
  | enclosing
  | global
deriving DecidableEq

/-! ## Declarations -/

/-- A function declared without a body. -/
structure Declaration where
  place : Place
  noDiscard : Bool
  result : CppType
  name : String
  params : List Parameter
  /-- Each parameter stands on a line of its own. -/
  spread : Bool := false
deriving DecidableEq

namespace Declaration

/-- Spread parameters keep their types and their names in columns. -/
def spreadLine (own : String) (isFirst : Bool) (p : Parameter) : String :=
  let core := p.type.core own
  let space := String.ofList (List.replicate (20 - core.length) ' ')
  (if isFirst then "      " else "    , ") ++ (if p.type.isConst then "const" else "     ") ++
    s!"    {core}{space}{p.name}{p.fallbackText}\n"

def spreadLines (own : String) : List Parameter → String
  | [] => ""
  | p :: rest => spreadLine own true p ++ String.join (rest.map (spreadLine own false))

/-- With `lead` in front of the result. -/
def render (own lead : String) (d : Declaration) : String :=
  let mark := if d.noDiscard then "[[nodiscard]] " else ""
  s!"{mark}{lead}{d.result.render own} {d.name}" ++
    if d.spread then s!"\n(\n{spreadLines own d.params});\n"
    else "(" ++ String.intercalate ", " (d.params.map (·.render own)) ++ ");\n"

end Declaration

def throwIfNot (fallback : String) : Parameter :=
  ⟨.const "tCIDLib::TBoolean", "bThrowIfNot", some fallback⟩

/-- A function from the enumeration to one of its texts. -/
def declareToText (noDiscard : Bool) (stem t fallback : String) : Declaration where
  place := .enclosing
  noDiscard := noDiscard
  result := .constReference "TString"
  name := stem ++ t
  params := [⟨.constSelf, "eToXlat", none⟩, throwIfNot fallback]

/-- A function from a text to the enumeration. -/
def declareFromText (stem t : String) : Declaration where
  place := .enclosing
  noDiscard := true
  result := .self
  name := stem ++ t
  params := [⟨.constReference "TString", "strToXlat", none⟩, throwIfNot "kCIDLib::False"]

def declareAltMap (suffix t : String) : List Declaration :=
  [declareToText true ("strAltXlat" ++ suffix) t "kCIDLib::True",
    declareFromText ("eAltXlat" ++ suffix) t]

def declareAltNumbers (t : String) : List Declaration :=
  [{ place := .enclosing
     noDiscard := true
     result := .plain "tCIDLib::TInt4"
     name := "i4AltNum" ++ t
     params := [⟨.constSelf, "eToXlat", none⟩, throwIfNot "kCIDLib::False"] },
   { place := .enclosing
     noDiscard := true
     result := .self
     name := "eAltNum" ++ t
     params := [⟨.const "tCIDLib::TInt4", "i4Xlat", none⟩, throwIfNot "kCIDLib::False"] }]

def declareFormat (t : String) (column : TextColumn) : Declaration where
  place := .enclosing
  noDiscard := false
  result := .plain "tCIDLib::TVoid"
  name := "Format" ++ t
  params := [
    ⟨.reference "TString", "strTarget", none⟩,
    ⟨.constReference "TString", "strPrefix", none⟩,
    ⟨.const "tCIDLib::TCh", "chSepChar", none⟩,
    ⟨.const "TEnumMap::ETextVals", "eVal", some (selector column)⟩]
  spread := true

def declareIsValid : Declaration where
  place := .enclosing
  noDiscard := true
  result := .plain "tCIDLib::TBoolean"
  name := "bIsValidEnum"
  params := [⟨.constSelf, "eVal", none⟩]

/-- The functions that are declared inside the scope of the enumeration. -/
def scopedDeclarations (e : Enumeration) : List Declaration :=
  let t := e.name
  (if e.maps.translate.isEnabled then
    [declareFromText "eXlat" t, declareToText true "strXlat" t "kCIDLib::True"] else []) ++
  (if e.maps.load.isEnabled then [declareToText false "strLoad" t "kCIDLib::False"] else []) ++
  (if e.maps.alt.isEnabled then declareAltMap "" t else []) ++
  (if e.maps.alt2.isEnabled then declareAltMap "2" t else []) ++
  (if e.altNumbers then declareAltNumbers t else []) ++
  (if e.maps.format.isEnabled then [declareFormat t e.maps.format] else []) ++
  [declareIsValid]

/-- The functions that are declared outside of any scope: they move whole arrays. -/
def arrayDeclarations (e : Enumeration) : List Declaration :=
  if e.binaryStream then
    [{ place := .global
       noDiscard := false
       result := .plain "tCIDLib::TVoid"
       name := "TBinInStream_ReadArray"
       params := [
        ⟨.reference "TBinInStream", "strmSrc", none⟩,
        ⟨⟨false, .self, "* const"⟩, "aeList", none⟩,
        ⟨.const "tCIDLib::TCard4", "c4Count", none⟩] },
     { place := .global
       noDiscard := false
       result := .plain "tCIDLib::TVoid"
       name := "TBinOutStream_WriteArray"
       params := [
        ⟨.reference "TBinOutStream", "strmTar", none⟩,
        ⟨⟨true, .self, "* const"⟩, "aeList", none⟩,
        ⟨.const "tCIDLib::TCard4", "c4Count", none⟩] }]
  else []

/-- The operator that writes a text, declared after the enumeration at `place`. -/
def textStreamDeclaration (place : Place) (e : Enumeration) : List Declaration :=
  if e.maps.textStream.isEnabled then
    [{ place := place
       noDiscard := false
       result := .reference "TTextOutStream"
       name := "operator<<"
       params := [
        ⟨.reference "TTextOutStream", "strmTar", none⟩, ⟨.constSelf, "eToStream", none⟩] }]
  else []

/-! ## Definitions -/

/-- What the body of a function does. -/
inductive Body where
  | toText (column : TextColumn)
  | fromText (column : TextColumn)
  | format
  | altNumber
  | fromAltNumber
  | streamText (column : TextColumn)
  | readArray
  | writeArray
  | isValid
deriving DecidableEq

/-- The lines of a body, where the enumeration is named `t` and written in full as `full`. -/
def Body.lines (t full : String) : Body → List String
  | toText column =>
    [s!"return emap{t}.strMapEnumVal(tCIDLib::TCard4(eVal), {selector column}, bThrowIfNot);"]
  | fromText column =>
    [s!"return {full}(emap{t}.i4MapEnumText(strVal, {selector column}, bThrowIfNot));"]
  | format => [s!"emap{t}.FormatValues(strToFill, strPrefix, chSepChar, eVal);"]
  | altNumber => [s!"return emap{t}.i4MapEnumAltNum(tCIDLib::c4EnumOrd(eVal), bThrowIfNot);"]
  | fromAltNumber => [s!"return {full}(emap{t}.eMapEnumAltNum(i4Val, bThrowIfNot));"]
  | streamText column =>
    [s!"strmTar << emap{t}.strMapEnumVal(tCIDLib::TCard4(eVal), {selector column}, " ++
        "kCIDLib::False);",
      "return strmTar;"]
  | readArray =>
    ["tCIDLib::TCard4 c4Cur;",
      "for (tCIDLib::TCard4 c4Index = 0; c4Index < c4Count; c4Index++)",
      "\x7b",
      "    strmSrc >> c4Cur;",
      s!"    aeList[c4Index] = {full}(c4Cur);",
      "\x7d"]
  | writeArray =>
    ["for (tCIDLib::TCard4 c4Index = 0; c4Index < c4Count; c4Index++)",
      "    strmTar << tCIDLib::TCard4(aeList[c4Index]);"]
  | isValid => [s!"return emap{t}.bIsValidEnum(tCIDLib::TCard4(eVal));"]

/-- A function defined out of line. -/
structure Definition where
  place : Place
  result : CppType
  name : String
  params : List Parameter
  body : Body
  /-- An empty line follows. -/
  spaced : Bool := true
deriving DecidableEq

def Definition.render (enclosing t full : String) (d : Definition) : String :=
  let scope := match d.place with
    | .enclosing => enclosing ++ "::"
    | .global => ""
  s!"{d.result.render full} {scope}{d.name}(" ++
    String.intercalate ", " (d.params.map (·.render full)) ++ ")\n\x7b\n" ++
    String.join ((d.body.lines t full).map fun l => s!"    {l}\n") ++
    if d.spaced then "\x7d\n\n" else "\x7d\n"

def throwFlag : Parameter :=
  ⟨.const "tCIDLib::TBoolean", "bThrowIfNot", none⟩

def defineToText (stem t : String) (column : TextColumn) : Definition where
  place := .enclosing
  result := .constReference "TString"
  name := stem ++ t
  params := [⟨.constSelf, "eVal", none⟩, throwFlag]
  body := .toText column

def defineFromText (stem t : String) (column : TextColumn) : Definition where
  place := .enclosing
  result := .self
  name := stem ++ t
  params := [⟨.constReference "TString", "strVal", none⟩, throwFlag]
  body := .fromText column

def defineFormat (t : String) : Definition where
  place := .enclosing
  result := .plain "tCIDLib::TVoid"
  name := "Format" ++ t
  params := [
    ⟨.reference "TString", "strToFill", none⟩,
    ⟨.constReference "TString", "strPrefix", none⟩,
    ⟨.const "tCIDLib::TCh", "chSepChar", none⟩,
    ⟨.const "TEnumMap::ETextVals", "eVal", none⟩]
  body := .format

def defineAltNumbers (t : String) : List Definition :=
  [{ place := .enclosing
     result := .plain "tCIDLib::TInt4"
     name := "i4AltNum" ++ t
     params := [⟨.constSelf, "eVal", none⟩, throwFlag]
     body := .altNumber },
   { place := .enclosing
     result := .self
     name := "eAltNum" ++ t
     params := [⟨.const "tCIDLib::TInt4", "i4Val", none⟩, throwFlag]
     body := .fromAltNumber }]

def defineTextStream (column : TextColumn) : Definition where
  place := .enclosing
  result := .reference "TTextOutStream"
  name := "operator<<"
  params := [⟨.reference "TTextOutStream", "strmTar", none⟩, ⟨.constSelf, "eVal", none⟩]
  body := .streamText column
  spaced := false

def defineArrays : List Definition :=
  [{ place := .global
     result := .plain "tCIDLib::TVoid"
     name := "TBinInStream_ReadArray"
     params := [
      ⟨.reference "TBinInStream", "strmSrc", none⟩,
      ⟨⟨false, .self, "* const"⟩, "aeList", none⟩,
      ⟨.const "tCIDLib::TCard4", "c4Count", none⟩]
     body := .readArray
     spaced := false },
   { place := .global
     result := .plain "tCIDLib::TVoid"
     name := "TBinOutStream_WriteArray"
     params := [
      ⟨.reference "TBinOutStream", "strmTar", none⟩,
      ⟨⟨true, .self, "* const"⟩, "aeList", none⟩,
      ⟨.const "tCIDLib::TCard4", "c4Count", none⟩]
     body := .writeArray
     spaced := false }]

def defineIsValid : Definition where
  place := .enclosing
  result := .plain "tCIDLib::TBoolean"
  name := "bIsValidEnum"
  params := [⟨.constSelf, "eVal", none⟩]
  body := .isValid
  spaced := false

/-- All functions that are defined out of line. -/
def definitions (e : Enumeration) : List Definition :=
  let t := e.name
  (if e.maps.alt.isEnabled then
    [defineToText "strAltXlat" t e.maps.alt, defineFromText "eAltXlat" t e.maps.alt] else []) ++
  (if e.maps.alt2.isEnabled then
    [defineToText "strAltXlat2" t e.maps.alt2, defineFromText "eAltXlat2" t e.maps.alt2]
    else []) ++
  (if e.maps.load.isEnabled then [defineToText "strLoad" t e.maps.load] else []) ++
  (if e.maps.format.isEnabled then [defineFormat t] else []) ++
  (if e.maps.translate.isEnabled then
    [defineToText "strXlat" t e.maps.translate, defineFromText "eXlat" t e.maps.translate]
    else []) ++
  (if e.altNumbers then defineAltNumbers t else []) ++
  (if e.maps.textStream.isEnabled then [defineTextStream e.maps.textStream] else []) ++
  (if e.binaryStream then defineArrays else []) ++
  [defineIsValid]

end OrbIdl.Cpp.Enum
