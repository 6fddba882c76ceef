import OrbIdl.Vocabulary

/-! # The catalog of data types -/

namespace OrbIdl

/-- A place of a document that takes the name of a type. -/
inductive Position where
  | param
  | result
  | constant
  | enumBase
deriving DecidableEq

/-- An attribute that completes a type. -/
inductive TypeArgument where
  | elementType
  | keyType
  | keyOps
  | keyExtract
  | modulus
  | type
deriving DecidableEq

/-- What the value of a type argument may be: a name token or any text. -/
inductive ArgumentForm where
  | token
  | text
deriving DecidableEq

namespace TypeArgument

def key : TypeArgument → String
  | elementType => Key.elementType
  | keyType => Key.keyType
  | keyOps => Key.keyOps
  | keyExtract => Key.keyExtract
  | modulus => Key.modulus
  | type => Key.type

end TypeArgument

inductive DataType where
  | boolean
  | character
  | int1
  | int2
  | int4
  | int8
  | card1
  | card2
  | card4
  | card8
  | float4
  | float8
  | string
  | void
  | enumerated
  | object
  | memBuf
  | heapBuf
  | bag
  | hashSet
  | keyedHashSet
  | vector
  | fundArray
  | fundVector
deriving DecidableEq

namespace DataType

/-- All types, in the order of the catalog. -/
def all : List DataType := [
  .boolean, .character, .int1, .int2, .int4, .int8, .card1, .card2, .card4, .card8, .float4,
  .float8, .string, .void, .enumerated, .object, .memBuf, .heapBuf, .bag, .hashSet,
  .keyedHashSet, .vector, .fundArray, .fundVector]

theorem mem_all (t : DataType) : t ∈ all := by
  cases t <;> decide

/-- The name of a type in a document, bare of any prefix. -/
def name : DataType → String
  | boolean => "TBoolean"
  | character => "TCh"
  | int1 => "TInt1"
  | int2 => "TInt2"
  | int4 => "TInt4"
  | int8 => "TInt8"
  | card1 => "TCard1"
  | card2 => "TCard2"
  | card4 => "TCard4"
  | card8 => "TCard8"
  | float4 => "TFloat4"
  | float8 => "TFloat8"
  | string => "TString"
  | void => "TVoid"
  | enumerated => "Enumerated"
  | object => "Object"
  | memBuf => "TMemBuf"
  | heapBuf => "THeapBuf"
  | bag => "TBag"
  | hashSet => "THashSet"
  | keyedHashSet => "TKeyedHashSet"
  | vector => "TVector"
  | fundArray => "TFundArray"
  | fundVector => "TFundVector"

/-- The places where a type may stand. -/
def positions : DataType → List Position
  | boolean | character | int8 | card8 | float4 | float8 | string => [.param, .result, .constant]
  | int1 | int2 | card1 | card2 => [.constant, .enumBase]
  | int4 | card4 => [.param, .result, .constant, .enumBase]
  | void => [.result]
  | enumerated | object => [.param, .result]
  | memBuf | heapBuf | bag | hashSet | keyedHashSet | vector | fundArray | fundVector => [.param]

/-- The attributes that a type needs, with their form. -/
def arguments : DataType → List (TypeArgument × ArgumentForm)
  | enumerated => [(.type, .text)]
  | object => [(.type, .token)]
  | bag | vector => [(.elementType, .token)]
  | hashSet => [(.elementType, .token), (.keyOps, .token), (.modulus, .token)]
  | keyedHashSet => [
    (.elementType, .token), (.keyType, .token), (.keyOps, .token),
    (.keyExtract, .token), (.modulus, .token)]
  | fundArray | fundVector => [(.elementType, .text)]
  | _ => []

/-- A parameter of the type may be moved into the callee instead of being copied. -/
def isMoveable : DataType → Bool
  | string | object | memBuf | heapBuf | bag | hashSet | keyedHashSet | vector => true
  | _ => false

/-- A container, which always has an element type. -/
def isCollection : DataType → Bool
  | bag | hashSet | keyedHashSet | vector | fundArray | fundVector => true
  | _ => false

/-- A raw buffer, which goes with a count of bytes. -/
def isBuffer : DataType → Bool
  | memBuf | heapBuf => true
  | _ => false

def isUnsigned : DataType → Bool
  | card1 | card2 | card4 | card8 => true
  | _ => false

/-- A scalar, which is passed by value. -/
def isFundamental : DataType → Bool
  | boolean | character | int1 | int2 | int4 | int8 | card1 | card2 | card4 | card8 | float4
  | float8 => true
  | _ => false

def standsAt (t : DataType) (p : Position) : Bool :=
  t.positions.contains p

/-- The type of a bare name. -/
def ofName? (name : String) : Option DataType :=
  all.find? (·.name == name)

/-- The type of an element name, which has to carry the prefix. -/
def ofTag? (tag : String) : Option DataType :=
  all.find? (namePrefix ++ ·.name == tag)

@[simp] theorem ofName?_name (t : DataType) : ofName? t.name = some t := by
  cases t <;> decide

theorem name_inj {t u : DataType} (h : t.name = u.name) : t = u := by
  simpa using congrArg ofName? h

theorem tag_of_ofTag? {tag : String} {t : DataType} (h : ofTag? tag = some t) :
    namePrefix ++ t.name = tag := by
  simpa using List.find?_some h

@[simp] theorem ofTag?_tag (t : DataType) : ofTag? (namePrefix ++ t.name) = some t := by
  cases t <;> decide

end DataType

namespace Position

def all : List Position := [.param, .result, .constant, .enumBase]

/-- The entity of the schema that holds the names for this place. -/
def entity : Position → String
  | param => "IDLPTypes"
  | result => "IDLRTypes"
  | constant => "IDLCTypes"
  | enumBase => "BaseTypes"

/-- Types are elements here, so their names carry the prefix. -/
def takesElements : Position → Bool
  | param | result => true
  | constant | enumBase => false

def members (p : Position) : List DataType :=
  DataType.all.filter (·.standsAt p)

end Position

/-- The base type of an enumeration that leaves the choice to the compiler. -/
def defaultBase : String := "Default"

namespace Position

/-- The names that a document may use here, in the order of the catalog. -/
def names (p : Position) : List String :=
  let first := if p = enumBase then [defaultBase] else []
  first ++ p.members.map fun t => if p.takesElements then namePrefix ++ t.name else t.name

end Position

/-- The way of a parameter between caller and callee. -/
inductive Direction where
  | input
  | output
  | both
deriving DecidableEq

namespace Direction

def name : Direction → String
  | input => "In"
  | output => "Out"
  | both => "InOut"

def ofName? : String → Option Direction
  | "In" => some input
  | "Out" => some output
  | "InOut" => some both
  | _ => none

/-- The caller sends a value. -/
def isSent : Direction → Bool
  | input | both => true
  | output => false

/-- The callee returns a value. -/
def isReturned : Direction → Bool
  | output | both => true
  | input => false

end Direction

end OrbIdl
