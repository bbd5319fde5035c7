import CoverageLift.Json.Basic
import CoverageLift.OrderedMap
import CoverageLift.Path.Components

/-!
# Atlases

An atlas keeps one map for each generated path, of whatever type `ρ` the maps are. Registering under
a path that has a map replaces it; registering fails when no map can be built, and then the atlas
stays as it was. A path given as a text is taken as it is, a path given as a file path in the text
form of its components.
-/

namespace CoverageLift

/-- A generated path as callers give it. -/
inductive GeneratedPath
  | text (t : Text)
  | file (p : FilePath)
  deriving DecidableEq

/-- The text that a path is known by. -/
def GeneratedPath.key : GeneratedPath → Text
  | text t => t
  | file p => p.toText

/-- The kind of a value that is no path. -/
inductive NotPath
  | null
  | bool
  | int
  | float
  | array
  | object
  deriving DecidableEq, Repr

/-- The path that a value names: strings are paths, and nothing else is. -/
def GeneratedPath.ofJson (asFile : Bool) : Json → Except NotPath GeneratedPath
  | .str t => .ok (if asFile then file (FilePath.ofText t) else text t)
  | .null => .error .null
  | .bool _ => .error .bool
  | .int _ => .error .int
  | .float _ => .error .float
  | .arr _ => .error .array
  | .obj _ => .error .object

/-- The message for a value that is no path. -/
def NotPath.message (n : NotPath) : Text :=
  ("expected str, bytes or os.PathLike object, not " : Text) ++
    match n with
    | null => ("NoneType" : Text)
    | bool => "bool"
    | int => "int"
    | float => "float"
    | array => "list"
    | object => "dict"

/-- Maps by generated path. -/
structure Atlas (ρ : Type) where
  entries : OrderedMap Text ρ

namespace Atlas

variable {ρ ε : Type}

/-- The atlas without maps. -/
def empty : Atlas ρ := ⟨[]⟩

/-- Builds the map of a path and puts it into the atlas. -/
def register (atlas : Atlas ρ) (path : GeneratedPath) (build : Text → Except ε ρ) :
    Except ε (Atlas ρ) :=
  (build path.key).map fun map => ⟨OrderedMap.insert atlas.entries path.key map⟩

/-- The map of a path. -/
def lookup (atlas : Atlas ρ) (path : GeneratedPath) : Option ρ :=
  OrderedMap.get? atlas.entries path.key

/-- Whether a path has a map. -/
def contains (atlas : Atlas ρ) (path : GeneratedPath) : Bool := (atlas.lookup path).isSome

/-- Whether a value is a path that has a map; a value that is no path has none. -/
def containsValue (atlas : Atlas ρ) (v : Json) : Bool :=
  match GeneratedPath.ofJson false v with
  | .ok path => atlas.contains path
  | .error _ => false

/-- The atlas when all its maps have been removed. -/
def clear (_atlas : Atlas ρ) : Atlas ρ := empty

/-- The paths that have a map, in ascending order. -/
def paths (atlas : Atlas ρ) : List Text := Text.sort (OrderedMap.keys atlas.entries)

/-- The number of paths that have a map. -/
def size (atlas : Atlas ρ) : Nat := atlas.entries.length

end Atlas

end CoverageLift
