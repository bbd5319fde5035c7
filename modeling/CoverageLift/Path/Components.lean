import CoverageLift.Path.Normal

/-!
# Paths as components

A file path is a root and a list of components. Reading a path drops empty components and `.` but
keeps `..`, since what it means depends on the file system. The text of a path without components
is its root, or `.` when it has none.
-/

namespace CoverageLift

/-- A path of the file system. -/
structure FilePath where
  /-- The leading slashes: none, one or two. -/
  root : Text
  components : List Text
  deriving DecidableEq, Inhabited

namespace FilePath

/-- The path that a text names. -/
def ofText (t : Text) : FilePath :=
  { root := Path.root t
    components := (Text.splitOn Path.separator t).filter fun c => c ≠ [] ∧ c ≠ "." }

/-- The text of a path. -/
def toText (p : FilePath) : Text :=
  match p.root ++ Text.join [Path.separator] p.components with
  | [] => "."
  | t => t

/-- Whether a path starts at the root. -/
def isAbsolute (p : FilePath) : Bool := !p.root.isEmpty

/-- The path `p` taken from the directory `base`. -/
def under (base p : FilePath) : FilePath :=
  if p.isAbsolute then p else { base with components := base.components ++ p.components }

/-- The path without its last component. -/
def parent (p : FilePath) : FilePath := { p with components := p.components.dropLast }

/-- The last component, and nothing when there is none. -/
def name (p : FilePath) : Text := p.components.getLast?.getD []

/-- The path with `suffix` added to its last component, if it has one. -/
def withSuffix? (p : FilePath) (suffix : Text) : Option FilePath :=
  match p.components.getLast? with
  | none => none
  | some last => some { p with components := p.components.dropLast ++ [last ++ suffix] }

/-- The absolute path without `.` and `..` that `p` names when `directory` is the current one. -/
def resolve (directory p : FilePath) : FilePath :=
  { root := [Path.separator]
    components := ((directory.under p).components.foldl (Path.step true) []).reverse }

end FilePath

end CoverageLift
