import OrbIdl.Output.Path
import OrbIdl.Text.Blank
import OrbIdl.Text.Split

/-! # What a run is asked for -/

namespace OrbIdl

/-- The three outputs that can be asked for. -/
inductive TargetKind where
  | client
  | server
  | globals
deriving DecidableEq

def TargetKind.name : TargetKind → String
  | client => "client"
  | server => "server"
  | globals => "globals"

/-- Why a target cannot be understood. -/
inductive TargetFault where
  | noFacility
  | noDirectory
  | tooManyFields
  | nameRequired
deriving DecidableEq

def TargetFault.message : TargetFault → String
  | noFacility => "missing facility name"
  | noDirectory => "missing output directory"
  | tooManyFields => "too many fields"
  | nameRequired => "globals require a name"

/-- Why options cannot be used. -/
inductive OptionFault where
  | badTarget (kind : TargetKind) (spec : String) (fault : TargetFault)
  | badMapping (mapping : String)
  | noTarget
deriving DecidableEq

def OptionFault.message : OptionFault → String
  | badTarget kind spec fault => s!"invalid {kind.name} target `{spec}`: {fault.message}"
  | badMapping mapping => s!"invalid mapping `{mapping}`: expected `publicId=systemId`"
  | noTarget => "at least one of /Client, /Server, or /Global is required"

/-- An output: the facility that owns it, where it goes, and what it is called. -/
structure Target where
  facility : String
  directory : Output.Path
  name : Option String
deriving DecidableEq

namespace Target

/-- Reads the trimmed fields: facility, directory, and a name that may be left out or empty. -/
def ofFields (kind : TargetKind) : List (List Char) → Except TargetFault Target
  | [] | [] :: _ => .error .noFacility
  | [_] | _ :: [] :: _ => .error .noDirectory
  | facility :: directory :: rest =>
    let name := (rest.head?.filter (· != [])).map String.ofList
    if 1 < rest.length then .error .tooManyFields
    else if kind = .globals ∧ name = none then .error .nameRequired
    else .ok ⟨String.ofList facility, ⟨String.ofList directory⟩, name⟩

/-- Reads a target written as `facility;directory`, or with `;name` after it. -/
def ofString (kind : TargetKind) (spec : String) : Except OptionFault Target :=
  (ofFields kind ((Text.split ';' spec.toList).map Text.trimChars)).mapError (.badTarget kind spec)

end Target

structure Options where
  client : Option Target := none
  server : Option Target := none
  globals : Option Target := none
  /-- The words that export declarations from their facility. -/
  clientExport : String := ""
  serverExport : String := ""
  globalsExport : String := ""
  /-- Headers are private: marked by their name and never exported. -/
  privateHeaders : Bool := false
  noLogo : Bool := false
  /-- The system identifiers that public identifiers stand for. -/
  mappings : List (String × String) := []
deriving DecidableEq

namespace Options

def hasTarget (o : Options) : Bool :=
  o.client.isSome || o.server.isSome || o.globals.isSome

/-- Gives a key a new value where it stands, or adds it at the end. -/
def setMapping (key value : String) : List (String × String) → List (String × String)
  | [] => [(key, value)]
  | (k, v) :: rest =>
    if k = key then (key, value) :: rest else (k, v) :: setMapping key value rest

/-- Adds a mapping written as `publicId=systemId`; the first equals sign divides the two. -/
def addMapping (o : Options) (mapping : String) : Except OptionFault Options :=
  match mapping.toList.dropWhile (· != '=') with
  | [] => .error (.badMapping mapping)
  | _ :: rest =>
    let publicId := Text.trimChars (mapping.toList.takeWhile (· != '='))
    let systemId := Text.trimChars rest
    if publicId = [] ∨ systemId = [] then .error (.badMapping mapping)
    else .ok { o with
      mappings := setMapping (String.ofList publicId) (String.ofList systemId) o.mappings }

/-- Something has to be asked for. -/
def check (o : Options) : Except OptionFault Unit :=
  if o.hasTarget then .ok () else .error .noTarget

end Options

end OrbIdl
