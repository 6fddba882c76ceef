import OrbIdl.CommandLine.Argument

/-! # Commands -/

namespace OrbIdl.CommandLine

inductive Command where
  | showUsage
  | newId
  | generate (input : String) (options : Options)
deriving DecidableEq

namespace Command

/-- The target that an option asks for. -/
def target (kind : TargetKind) (name : String) (a : Arguments) :
    Except OptionFault (Option Target) :=
  match a.value? name with
  | some spec => (Target.ofString kind spec).map some
  | none => .ok none

/-- What the options ask for: the targets first, then the mappings in order. -/
def generationOptions (a : Arguments) : Except OptionFault Options := do
  let client ← target .client "client" a
  let server ← target .server "server" a
  let globals ← target .globals "global" a
  let options : Options :=
    { client, server, globals
      clientExport := (a.value? "cexport").getD ""
      serverExport := (a.value? "sexport").getD ""
      globalsExport := (a.value? "gexport").getD ""
      privateHeaders := a.has "privhdr"
      noLogo := a.has "nologo" }
  let options ← (a.values "mapping").foldlM Options.addMapping options
  options.check
  return options

/-- The command that stands in the arguments. A request for help comes before all else. -/
def ofArguments (a : Arguments) : Except UsageError Command :=
  if a.has "help" then .ok .showUsage
  else match a.free with
    | [] => .error (.missing "COMMAND")
    | name :: rest =>
      let command := name.map Char.toLower
      if command = "idgen" then
        match rest with
        | [] => .ok .newId
        | [extra] | _ :: extra :: _ => .error (.unexpectedArgument extra)
      else if command = "codegen" then
        match rest with
        | [] => .error (.missing "INPUT")
        | [input] => ((generationOptions a).mapError .badOptions).map (.generate input)
        | _ :: extra :: _ => .error (.unexpectedArgument extra)
      else .error (.unknownCommand name)

/-- The command that the arguments of the program give. -/
def ofList (arguments : List String) : Except UsageError Command := do
  ofArguments (← Arguments.ofList arguments)

end Command

end OrbIdl.CommandLine
