/-! # Content particles and where their matches end -/

namespace OrbIdl.Schema

/-- A term of the content of an element. An entity stands for a choice of names. -/
inductive Particle where
  | element (name : String)
  | entity (name : String)
  | sequence (parts : List Particle)
  | choice (parts : List Particle)
  | optional (part : Particle)
  | star (part : Particle)
  | plus (part : Particle)

/-! ## Reachable positions -/

/-- Adds a position at the end unless it is there. -/
def insertNew (out : List Nat) (pos : Nat) : List Nat :=
  if out.contains pos then out else out ++ [pos]

def insertAll (out more : List Nat) : List Nat :=
  more.foldl insertNew out

/-- Positions still to be visited, the next one first, and all that were ever put there. -/
structure Worklist where
  frontier : List Nat
  seen : List Nat

namespace Worklist

/-- Puts a position on the list the first time it is met. -/
def meet (w : Worklist) (pos : Nat) : Worklist :=
  if w.seen.contains pos then w else ⟨pos :: w.frontier, w.seen ++ [pos]⟩

/-- Visits the next position: those after it that `next` leads to are met. -/
def visit (next : Nat → List Nat) (w : Worklist) : Worklist :=
  match w.frontier with
  | [] => w
  | pos :: rest => ((next pos).filter (pos < ·)).foldl meet ⟨rest, w.seen⟩

/-- Visits at most so many positions. -/
def run (next : Nat → List Nat) : Nat → Worklist → Worklist
  | 0, w => w
  | n + 1, w => run next n (w.visit next)

end Worklist

/-- The positions up to `last` that are reached from the seeds by any number of steps. Each position
is visited once at most, so one visit more than `last` is enough. -/
def reach (next : Nat → List Nat) (last : Nat) (seeds : List Nat) : List Nat :=
  (Worklist.run next (last + 1) ⟨seeds.reverse, seeds⟩).seen

/-! ## Matching -/

namespace Particle

mutual

/-- The positions where a match may end that begins at a position of `names`. -/
def ends (values : String → List String) (names : List String) : Particle → Nat → List Nat
  | element name, start => if names[start]? = some name then [start + 1] else []
  | entity name, start =>
    match names[start]? with
    | some found => if (values name).contains found then [start + 1] else []
    | none => []
  | sequence parts, start => endsInOrder values names parts [start]
  | choice parts, start => endsOfAny values names parts start
  | optional part, start => insertAll [start] (part.ends values names start)
  | star part, start => reach (part.ends values names) names.length [start]
  | plus part, start =>
    reach (part.ends values names) names.length (part.ends values names start)

/-- Where the parts end one after the other, begun at any of the positions. -/
def endsInOrder (values : String → List String) (names : List String) :
    List Particle → List Nat → List Nat
  | [], starts => starts
  | part :: parts, starts =>
    endsInOrder values names parts
      (starts.foldl (fun out pos => insertAll out (part.ends values names pos)) [])

/-- Where any of the parts ends. -/
def endsOfAny (values : String → List String) (names : List String) :
    List Particle → Nat → List Nat
  | [], _ => []
  | part :: parts, start =>
    insertAll (part.ends values names start) (endsOfAny values names parts start)

end

/-- The particle matches the names from the first to the last. -/
def matchesAll (values : String → List String) (p : Particle) (names : List String) : Bool :=
  (p.ends values names 0).contains names.length

/-! ## Rendering -/

mutual

def render : Particle → String
  | element name => name
  | entity name => s!"%{name};"
  | sequence parts => "(" ++ renderAll ", " parts ++ ")"
  | choice parts => "(" ++ renderAll "|" parts ++ ")"
  | optional part => part.render ++ "?"
  | star part => part.render ++ "*"
  | plus part => part.render ++ "+"

def renderAll (separator : String) : List Particle → String
  | [] => ""
  | [part] => part.render
  | part :: parts => part.render ++ separator ++ renderAll separator parts

end

end Particle

end OrbIdl.Schema
