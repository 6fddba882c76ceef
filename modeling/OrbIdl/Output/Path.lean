import OrbIdl.Text.Split

/-! # Paths of generated files -/

namespace OrbIdl.Output

/-- A path as it is written. Two paths are the same file name when their components agree. -/
structure Path where
  text : String
deriving DecidableEq, Inhabited

namespace Path

/-- A step of a path: the root, the directory one is in, the one above, or a name. -/
inductive Component where
  | root
  | here
  | up
  | name (name : String)
deriving DecidableEq

def ofSegment : List Char → Component
  | ['.', '.'] => .up
  | segment => .name (String.ofList segment)

/-- Repeated and trailing slashes do not count, nor do single dots except as the very first
segment. -/
def components (p : Path) : List Component :=
  let all := Text.split '/' p.text.toList
  let named := (all.filter fun s => s != [] && s != ['.']).map ofSegment
  match p.text.toList, all with
  | '/' :: _, _ => .root :: named
  | _, ['.'] :: _ => .here :: named
  | _, _ => named

/-- Takes segments that lead nowhere off the end of a path, but never its first segment. The path
is given from its end. -/
def trimIdle : List (List Char) → List (List Char)
  | s :: t :: rest => if s = [] ∨ s = ['.'] then trimIdle (t :: rest) else s :: t :: rest
  | first => first

/-- The directory that holds the last segment, as it is written: nothing when there is one segment
only, and a slash when that one is in the root. -/
def parent (p : Path) : Path :=
  match trimIdle ((Text.split '/' p.text.toList).reverse.drop 1) with
  | [[]] => ⟨"/"⟩
  | segments => ⟨String.ofList (['/'].intercalate segments.reverse)⟩

/-- The two paths name the same file. -/
def same (p q : Path) : Bool :=
  p.components == q.components

theorem same_iff (p q : Path) : p.same q = true ↔ p.components = q.components := by
  simp [same]

/-- The path of `file` inside a directory; a path from the root stands for itself. -/
def join (dir : Path) (file : String) : Path :=
  if file.toList.head? = some '/' then ⟨file⟩
  else if dir.text = "" ∨ dir.text.toList.getLast? = some '/' then ⟨dir.text ++ file⟩
  else ⟨dir.text ++ "/" ++ file⟩

end Path

end OrbIdl.Output
