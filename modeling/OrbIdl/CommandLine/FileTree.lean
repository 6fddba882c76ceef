import OrbIdl.CommandLine.FileFault
import OrbIdl.CommandLine.Program
import Std.Data.HashMap

/-! # A world of files kept in memory -/

namespace OrbIdl.CommandLine

open Output

/-- A place in the tree: the names on the way to it from the root, the last one first. -/
abbrev Place := List String

inductive Node where
  | directory
  | file (content : ByteArray)

/-- The tree and the place that paths start from. The root is always there. -/
structure FileTree where
  here : Place
  nodes : Std.HashMap Place Node

namespace FileTree

def node? (t : FileTree) (p : Place) : Option Node :=
  if p.isEmpty then some .directory else t.nodes[p]?

def put (t : FileTree) (p : Place) (node : Node) : FileTree :=
  { t with nodes := t.nodes.insert p node }

theorem node?_put (t : FileTree) (p q : Place) (node : Node) (h : q ≠ []) :
    (t.put p node).node? q = if p = q then some node else t.node? q := by
  simp [node?, put, h, Std.HashMap.getElem?_insert]

/-! ## Following a path -/

/-- The most bytes that the name of a file may have. -/
def nameLimit : Nat := 255

/-- The most bytes that a path may have. -/
def pathLimit : Nat := 4095

/-- The steps of a path. One that is too long is refused before any step is taken. -/
def steps (path : Path) : Except FileFault (List Path.Component) :=
  if pathLimit < path.text.utf8ByteSize then .error .nameTooLong else .ok path.components

/-- Takes one step. Steps start from directories only. -/
def enter (t : FileTree) (p : Place) (c : Path.Component) : Except FileFault Place :=
  match t.node? p with
  | none => .error .notFound
  | some (.file _) => .error .notDirectory
  | some .directory =>
    match c with
    | .root => .ok []
    | .here => .ok p
    | .up => .ok p.tail
    | .name n => if nameLimit < n.utf8ByteSize then .error .nameTooLong else .ok (n :: p)

/-- The place that a path leads to, whether or not anything is there. -/
def follow (t : FileTree) (path : Path) : Except FileFault Place := do
  (← steps path).foldlM t.enter t.here

/-! ## Reading -/

/-- The path can only name a directory. -/
def namesDirectory (path : String) : Bool :=
  match path.toList.reverse with
  | '/' :: _ | '.' :: '/' :: _ => true
  | _ => false

def read (t : FileTree) (path : String) : Except FileFault ByteArray := do
  if path.isEmpty then throw .notFound
  match t.node? (← t.follow ⟨path⟩) with
  | none => throw .notFound
  | some .directory => throw .isDirectory
  | some (.file content) => if namesDirectory path then throw .notDirectory else return content

/-! ## Writing -/

/-- The part of a way that is there: the last place on it and the steps that are left. -/
def existing (t : FileTree) (p : Place) :
    List Path.Component → Except FileFault (Place × List Path.Component)
  | [] => .ok (p, [])
  | c :: cs => do
    let next ← t.enter p c
    if (t.node? next).isNone then return (p, c :: cs) else existing t next cs

/-- Adds a directory unless it is there. A file in its place stays. -/
def makeDirectory (t : FileTree) (p : Place) : Except FileFault FileTree :=
  match t.node? p with
  | none => .ok (t.put p .directory)
  | some .directory => .ok t
  | some (.file _) => .error .alreadyExists

/-- Adds the directories on the way from a place, each where it is missing. -/
def makeDirectories (t : FileTree) (p : Place) : List Path.Component → Except FileFault FileTree
  | [] => t.makeDirectory p
  | c :: cs => do
    let t ← t.makeDirectory p
    t.makeDirectories (← t.enter p c) cs

/-- Adds a directory and those above it, unless they are there. A file on the part of the way that
was there before is no directory to step from; after that, a file exists where one is to be made. -/
def ensureDirectories (t : FileTree) (path : Path) : Except FileFault FileTree := do
  let (p, missing) ← t.existing t.here (← steps path)
  t.makeDirectories p missing

/-- Writes a whole file in place of what was there, and adds the directories that it needs. -/
def write (t : FileTree) (path : Path) (content : ByteArray) : Except FileFault FileTree := do
  let t ← t.ensureDirectories path.parent
  let p ← t.follow path
  match t.node? p with
  | some .directory => throw .isDirectory
  | _ => return t.put p (.file content)

/-! ## As the world of the program -/

/-- A tree with files below the place that paths start from. -/
def ofFiles (files : List (String × ByteArray)) : FileTree :=
  files.foldl (fun t (path, content) =>
    match t.write ⟨path⟩ content with
    | .ok t => t
    | .error _ => t) ⟨["work"], {(["work"], .directory)}⟩

/-- The files below the place that paths start from, each with its path from there. -/
def files (t : FileTree) : List (String × ByteArray) :=
  t.nodes.toList.filterMap fun (p, node) =>
    match node with
    | .directory => none
    | .file content =>
      if p.drop (p.length - t.here.length) = t.here then
        some (String.intercalate "/" (p.take (p.length - t.here.length)).reverse, content)
      else none

/-- The files that are not in `before`, or not with the same content. -/
def changes (before after : FileTree) : List (String × ByteArray) :=
  after.files.filter fun f => !before.files.contains f

/-- A tree answers the program; `id` is the new id that it gives. -/
def host (id : String) : Host (StateM FileTree) where
  read path := fun t => ((t.read path).mapError FileFault.message, t)
  write file := fun t =>
    match t.write file.path file.text.toUTF8 with
    | .ok t => (.ok (), t)
    | .error e => (.error e.message, t)
  newId := return id

end FileTree

end OrbIdl.CommandLine
