import OrbIdl.Options

/-! # Options among the arguments of the program -/

namespace OrbIdl.CommandLine

/-- Why the arguments cannot be used. -/
inductive UsageError where
  | unknownOption (name : String)
  | unexpectedArgument (name : String)
  | argumentMissing (name : String)
  | missing (name : String)
  | repeated (name : String)
  | badOptions (fault : OptionFault)
  | unknownCommand (name : String)
deriving DecidableEq

def UsageError.message : UsageError → String
  | unknownOption name => s!"Unrecognized option: '{name}'"
  | unexpectedArgument name => s!"Option '{name}' does not take an argument"
  | argumentMissing name => s!"Argument to option '{name}' missing"
  | missing name => s!"Required option '{name}' missing"
  | repeated name => s!"Option '{name}' given more than once"
  | badOptions fault => fault.message
  | unknownCommand name => s!"unknown command `{name}`: expected `IdGen` or `CodeGen`"

/-! ## The options that there are -/

/-- An option: its name and perhaps a letter, what its argument is, if it takes one, and what it is
for. -/
structure OptionInfo where
  name : String
  letter : Option Char := none
  argument : Option String := none
  repeatable : Bool := false
  purpose : String
deriving DecidableEq

def targetShape : String := "FAC;DIR[;NAME]"

def options : List OptionInfo := [
  { name := "client", argument := some targetShape, purpose := "generate the client proxy" },
  { name := "server", argument := some targetShape, purpose := "generate the server base" },
  { name := "global", argument := some "FAC;DIR;NAME", purpose := "generate global declarations" },
  { name := "cexport", argument := some "KEYWORD", purpose := "client export keyword" },
  { name := "sexport", argument := some "KEYWORD", purpose := "server export keyword" },
  { name := "gexport", argument := some "KEYWORD", purpose := "globals export keyword" },
  { name := "privhdr", purpose := "generate private headers" },
  { name := "mapping", argument := some "PUBLIC=SYSTEM", repeatable := true,
    purpose := "map a DOCTYPE public id to a system id" },
  { name := "nologo", purpose := "suppress the banner" },
  { name := "help", letter := some 'h', purpose := "print this help menu" }]

def optionNamed? (name : String) : Option OptionInfo :=
  options.find? (·.name == name)

def optionLettered? (letter : Char) : Option OptionInfo :=
  options.find? (·.letter == some letter)

/-- The option that a long name stands for; a name of one byte stands for a letter. -/
def findOption (name : String) : Except UsageError OptionInfo :=
  let found := match name.toList with
    | [c] => if c.utf8Size = 1 then optionLettered? c else optionNamed? name
    | _ => optionNamed? name
  match found with
  | some o => .ok o
  | none => .error (.unknownOption name)

/-! ## Switches -/

/-- The options that may also be written as a switch. -/
def switches : List String :=
  ["nologo", "client", "server", "global", "cexport", "sexport", "gexport", "privhdr", "mapping"]

/-- Turns a switch, in whatever case it is written, into an option and its value; anything else,
paths among it, stays as it is. -/
def ofSwitch (argument : String) : List String :=
  match argument.toList with
  | '/' :: body =>
    let name := String.ofList ((body.takeWhile (· != '=')).map Char.toLower)
    if switches.contains name then
      match body.dropWhile (· != '=') with
      | _ :: value => ["--" ++ name, String.ofList value]
      | [] => ["--" ++ name]
    else [argument]
  | _ => [argument]

/-! ## Taking the arguments apart -/

/-- What one argument is. -/
inductive ArgumentForm where
  | free
  | endOfOptions
  | named (name : String) (value : Option String)
  | letters (letters : List Char)
deriving DecidableEq

/-- A dash alone is no option. -/
def ArgumentForm.of (argument : String) : ArgumentForm :=
  match argument.toList with
  | ['-', '-'] => .endOfOptions
  | '-' :: '-' :: body =>
    let name := String.ofList (body.takeWhile (· != '='))
    match body.dropWhile (· != '=') with
    | _ :: value => .named name (some (String.ofList value))
    | [] => .named name none
  | '-' :: c :: cs => .letters (c :: cs)
  | _ => .free

/-- The arguments that are no options, and the options in the order given, each with its value. -/
structure Arguments where
  free : List String := []
  given : List (String × Option String) := []
deriving DecidableEq

namespace Arguments

def addFree (argument : String) (a : Arguments) : Arguments :=
  { a with free := argument :: a.free }

def addGiven (name : String) (value : Option String) (a : Arguments) : Arguments :=
  { a with given := (name, value) :: a.given }

/-- Each letter stands for an option without value. -/
def readLetters : List Char → Except UsageError (List (String × Option String))
  | [] => .ok []
  | c :: cs =>
    match optionLettered? c with
    | some o => (readLetters cs).map ((o.name, none) :: ·)
    | none => .error (.unknownOption c.toString)

/-- Reads arguments from the left. An option that needs a value takes the next argument, whatever it
is, unless the value stands behind an equals sign. -/
def read : List String → Except UsageError Arguments
  | [] => .ok {}
  | argument :: rest =>
    match ArgumentForm.of argument with
    | .free => (read rest).map (addFree argument)
    | .endOfOptions => .ok { free := rest }
    | .letters letters => do
      let given ← readLetters letters
      (read rest).map fun a => { a with given := given ++ a.given }
    | .named name value => do
      let o ← findOption name
      match o.argument, value with
      | none, none => (read rest).map (addGiven o.name none)
      | none, some _ => throw (.unexpectedArgument name)
      | some _, some value => (read rest).map (addGiven o.name (some value))
      | some _, none =>
        match rest with
        | value :: rest => (read rest).map (addGiven o.name (some value))
        | [] => throw (.argumentMissing name)

def has (a : Arguments) (name : String) : Bool :=
  a.given.any (·.1 == name)

/-- The values of an option, in order. -/
def values (a : Arguments) (name : String) : List String :=
  a.given.filterMap fun (n, value) => if n = name then value else none

def value? (a : Arguments) (name : String) : Option String :=
  (a.values name).head?

/-- The first of the options that is given more often than it may be. -/
def repeated? (a : Arguments) : Option OptionInfo :=
  options.find? fun o => !o.repeatable && 1 < a.given.countP (·.1 == o.name)

/-- The arguments of the program, with switches turned into options. Repetitions are found only once
all arguments are read. -/
def ofList (arguments : List String) : Except UsageError Arguments := do
  let a ← read (arguments.flatMap ofSwitch)
  match a.repeated? with
  | some o => throw (.repeated o.name)
  | none => return a

end Arguments

/-! ## The usage text -/

/-- An option in the usage text. What it is for stands in column 24, on a new line if need be. -/
def OptionInfo.render (o : OptionInfo) : String :=
  let letter := match o.letter with
    | some c => s!"-{c}, "
    | none => "    "
  let argument := match o.argument with
    | some shape => " " ++ shape
    | none => ""
  let lead := s!"    {letter}--{o.name}{argument}"
  let space (n : Nat) := String.ofList (List.replicate n ' ')
  let gap := if lead.length < 24 then space (24 - lead.length) else "\n" ++ space 24
  lead ++ gap ++ o.purpose ++ "\n"

def usage : String :=
  "Usage: idlc IdGen\n       idlc CodeGen INPUT [OPTIONS]\n\nOptions:\n" ++
    String.join (options.map OptionInfo.render)

end OrbIdl.CommandLine
