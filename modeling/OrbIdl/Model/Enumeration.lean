import OrbIdl.Logged
import OrbIdl.Model.Fault
import OrbIdl.Text.Numeral

/-! # Enumerations -/

namespace OrbIdl.Model

open Xml

/-! ## Options -/

/-- A standard enumeration numbers its values from zero; a bitmap gives each a mask. -/
inductive EnumShape where
  | standard
  | bitmap
deriving DecidableEq

/-- Where the alternate text of a value comes from. -/
inductive AltTextSource where
  | off
  | inline
  | pattern
deriving DecidableEq

/-- Where the main text of a value comes from: nowhere, the document, or a message resource. -/
inductive TextSource where
  | off
  | inline
  | resource (facility scope : String)
deriving DecidableEq

inductive Increments where
  | off
  | up
  | both
deriving DecidableEq

/-- The column that each mapping of an enumeration leads to. -/
structure TextMaps where
  alt : TextColumn
  alt2 : TextColumn
  format : TextColumn
  load : TextColumn
  textStream : TextColumn
  translate : TextColumn
deriving DecidableEq

/-- The mappings with the attributes that name them. -/
def TextMaps.toList (m : TextMaps) : List (String × TextColumn) :=
  [(Key.altMap, m.alt), (Key.altMap2, m.alt2), (Key.formatMap, m.format), (Key.loadMap, m.load),
    (Key.textStreamMap, m.textStream), (Key.translateMap, m.translate)]

/-- What the attributes of an enumeration say. -/
structure EnumHeader where
  name : String
  shape : EnumShape
  base : Option DataType
  altTextSource : AltTextSource
  altPattern : String
  altText2 : Bool
  altNumbers : Bool
  binaryStream : Bool
  increments : Increments
  maps : TextMaps
  span : Span
deriving DecidableEq

namespace EnumHeader

/-! ### Reading the options -/

/-- The value of an attribute, or what stands for it when it is not given. -/
def optionOr (e : Element) (key fallback : String) : String :=
  (e.get? key).getD fallback

def shapeOf (decl : String) (e : Element) : Except Fault EnumShape :=
  match optionOr e Key.type "Std" with
  | "Std" => .ok .standard
  | "Bmp" => .ok .bitmap
  | other => .error (.malformed decl (.badEnumShape other) (e.spanOf Key.type))

/-- The base type that the document names; `Default` names none. -/
def namedBase (e : Element) : Except Fault (Option DataType) :=
  match e.get? Key.baseType with
  | none => .ok none
  | some name =>
    if name = defaultBase then .ok none
    else match DataType.ofName? name with
      | some type => .ok (some type)
      | none => .error (.unknownType name (e.spanOf Key.baseType))

/-- A bitmap is stored in an unsigned type, by default one of four bytes. -/
def baseOf (decl : String) (shape : EnumShape) (e : Element) : Except Fault (Option DataType) := do
  match shape, ← namedBase e with
  | .standard, base => return base
  | .bitmap, none => return some .card4
  | .bitmap, some base =>
    if base.isUnsigned then return some base
    else throw (.malformed decl (.bitmapBaseSigned base) (e.spanOf Key.baseType))

def altTextSourceOf (decl : String) (e : Element) : Except Fault AltTextSource :=
  match optionOr e Key.altTextSource no with
  | "No" => .ok .off
  | "Inline" => .ok .inline
  | "Pattern" => .ok .pattern
  | other => .error (.malformed decl (.badAltTextSource other) (e.spanOf Key.altTextSource))

def columnOf (decl : String) (e : Element) (key : String) : Except Fault TextColumn :=
  let value := optionOr e key no
  match TextColumn.ofName? value with
  | some column => .ok column
  | none => .error (.malformed decl (.badTextColumn key value) (e.spanOf key))

def mapsOf (decl : String) (e : Element) : Except Fault TextMaps := do
  let alt ← columnOf decl e Key.altMap
  let alt2 ← columnOf decl e Key.altMap2
  let format ← columnOf decl e Key.formatMap
  let load ← columnOf decl e Key.loadMap
  let textStream ← columnOf decl e Key.textStreamMap
  let translate ← columnOf decl e Key.translateMap
  return { alt, alt2, format, load, textStream, translate }

def incrementsOf (decl : String) (e : Element) : Except Fault Increments :=
  match optionOr e Key.increments no with
  | "No" => .ok .off
  | "Inc" => .ok .up
  | "Both" => .ok .both
  | other => .error (.malformed decl (.badKeyword Key.increments other) (e.spanOf Key.increments))

end EnumHeader

/-! ## The pattern of alternate texts -/

/-- The pattern holds the token `%(v)`. -/
def holdsToken : List Char → Bool
  | '%' :: '(' :: 'v' :: ')' :: _ => true
  | _ :: cs => holdsToken cs
  | [] => false

/-- The pattern with each token `%(v)` replaced by a name. -/
def fillPattern (name : List Char) : List Char → List Char
  | '%' :: '(' :: 'v' :: ')' :: cs => name ++ fillPattern name cs
  | c :: cs => c :: fillPattern name cs
  | [] => []

/-- Reads the attributes of an enumeration. A pattern that is used has to hold its token. -/
def EnumHeader.ofElement (e : Element) : Except Fault EnumHeader := do
  let name ← require e Key.name
  let shape ← shapeOf name e
  let base ← baseOf name shape e
  let altTextSource ← altTextSourceOf name e
  let maps ← mapsOf name e
  let altPattern := optionOr e Key.altPattern ""
  if altTextSource = .pattern ∧ holdsToken altPattern.toList = false then
    throw (.malformed name (.patternLacksToken altPattern) (e.spanOf Key.altPattern))
  let increments ← incrementsOf name e
  return {
    name, shape, base, altTextSource, altPattern, increments, maps
    altText2 := isYes e Key.altText2
    altNumbers := isYes e Key.altNumber
    binaryStream := isYes e Key.binaryStream
    span := e.span }

/-! ## Values -/

/-- The mask of a bitmap value: the literal of the document and the bits that it stands for. -/
structure Mask where
  literal : String
  bits : UInt32
deriving DecidableEq

/-- The number of a hexadecimal literal, which begins with `0x` and may have blanks around it. -/
def hexadecimal? (literal : String) : Option UInt32 :=
  match Text.trimChars literal.toList with
  | '0' :: x :: digits =>
    if x = 'x' ∨ x = 'X' then
      (Text.natural? 16 (UInt32.size - 1) digits).map fun n => n.toUInt32
    else none
  | _ => none

structure EnumValue where
  name : String
  mask : Option Mask
  text : Option String
  altText : String
  altText2 : String
  altNumber : Int
  span : Span
deriving DecidableEq

/-- A further name for a value. -/
structure Synonym where
  name : String
  value : String
deriving DecidableEq

namespace EnumValue

/-- Only the values of a bitmap have a mask, and all of them do. -/
def maskOf (h : EnumHeader) (name : String) (e : Element) : Except Fault (Option Mask) :=
  match h.shape, e.get? Key.value with
  | .standard, some _ => .error (.malformed h.name (.valueNotUsed name) (e.spanOf Key.value))
  | .standard, none => .ok none
  | .bitmap, none => .error (.malformed h.name (.valueRequired name) e.span)
  | .bitmap, some literal =>
    match hexadecimal? literal with
    | some bits => .ok (some ⟨literal, bits⟩)
    | none => .error (.malformed h.name (.badBitmapValue name literal) (e.spanOf Key.value))

def altTextOf (h : EnumHeader) (name : String) (e : Element) : Except Fault String :=
  match h.altTextSource with
  | .off => .ok ""
  | .inline => require e Key.altText
  | .pattern => .ok (String.ofList (fillPattern name.toList h.altPattern.toList))

def altText2Of (h : EnumHeader) (e : Element) : Except Fault String :=
  if h.altText2 then require e Key.altText2 else .ok ""

/-- A number that is wanted and not given counts as zero, with a warning. -/
def altNumberOf (h : EnumHeader) (name : String) (e : Element) : Logged Fault Int :=
  match h.altNumbers, e.get? Key.altNumber with
  | false, _ => return 0
  | true, some value =>
    match Text.int32? (Text.trimChars value.toList) with
    | some n => return n
    | none => throw (.malformed h.name (.badNumber Key.altNumber value) (e.spanOf Key.altNumber))
  | true, none => do
    Logged.note (.warn s!"enum `{h.name}` value `{name}` has no `{Key.altNumber}`; assuming 0")
    return 0

def ofElement (h : EnumHeader) (e : Element) : Logged Fault EnumValue := do
  let name ← require e Key.name
  let mask ← maskOf h name e
  let altText ← altTextOf h name e
  let altText2 ← altText2Of h e
  let altNumber ← altNumberOf h name e
  return { name, mask, altText, altText2, altNumber, text := e.get? Key.text, span := e.span }

end EnumValue

/-- What a child of an enumeration declares. -/
inductive EnumEntry where
  | value (value : EnumValue)
  | synonym (synonym : Synonym)
  | doc

namespace EnumEntry

def ofElement (h : EnumHeader) (e : Element) : Logged Fault EnumEntry := do
  if e.name = Tag.docText then return .doc
  else if e.name = Tag.enumSynonym then
    let name ← require e Key.name
    let value ← require e Key.value
    return .synonym ⟨name, value⟩
  else if e.name = Tag.enumValue then return .value (← EnumValue.ofElement h e)
  else throw (.unexpectedElement [Tag.docText, Tag.enumValue, Tag.enumSynonym] e.name e.span)

def value? : EnumEntry → Option EnumValue
  | value v => some v
  | _ => none

def synonym? : EnumEntry → Option Synonym
  | synonym s => some s
  | _ => none

end EnumEntry

/-! ## The whole enumeration -/

structure Enumeration extends EnumHeader where
  values : List EnumValue
  synonyms : List Synonym
  textSource : TextSource
deriving DecidableEq

namespace Enumeration

/-- The bits of all values of a bitmap. -/
def allBits (e : Enumeration) : UInt32 :=
  e.values.foldl (fun bits v => bits ||| (v.mask.map (·.bits)).getD 0) 0

/-- A standard enumeration has no bits. -/
def allBits? (e : Enumeration) : Option UInt32 :=
  match e.shape with
  | .standard => none
  | .bitmap => some e.allBits

/-- One text among the values makes texts for all; they come from a resource when the document
names its facility and its scope. -/
def textSourceOf (e : Element) (values : List EnumValue) : TextSource :=
  if values.any (·.text.isSome) then
    match e.get? Key.messageFacility, e.get? Key.messageNamespace with
    | some facility, some scope => .resource facility scope
    | _, _ => .inline
  else .off

/-- The enumeration has texts for the column. Names are always there. -/
def provides (e : Enumeration) : TextColumn → Bool
  | .altText => e.altTextSource != .off
  | .altText2 => e.altText2
  | .text => e.textSource != .off
  | .off | .baseName | .name => true

/-- Reads an enumeration. Each mapping has to lead to a text that it provides. -/
def ofElement (e : Element) : Logged Fault Enumeration := do
  let header ← EnumHeader.ofElement e
  let entries ← e.children.mapM (EnumEntry.ofElement header)
  let values := entries.filterMap (·.value?)
  if values.isEmpty then throw (.malformed header.name .noValues e.span)
  let info : Enumeration := {
    header with
    values
    synonyms := entries.filterMap (·.synonym?)
    textSource := textSourceOf e values }
  match info.maps.toList.find? fun (_, column) => !info.provides column with
  | some (key, column) =>
    throw (.malformed info.name (.textNotProvided key column) (e.spanOf key))
  | none => return info

end Enumeration

end OrbIdl.Model
