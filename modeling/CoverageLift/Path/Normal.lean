import CoverageLift.Text.Split

/-!
# Paths as texts

Slash-separated paths are joined, cut and normalised as texts. Normalising removes empty components
and `.`, and lets `..` cancel the component before it; a path that begins with exactly two slashes
keeps them, because the standard reserves that form, and any other number of leading slashes counts
as one.
-/

namespace CoverageLift.Path

/-- The separator of components. -/
def separator : CodePoint := .char '/'

/-- Whether a path starts at the root. -/
def isAbsolute (path : Text) : Bool := path.head? = some separator

/-- The leading slashes that a path keeps. -/
def root (path : Text) : Text :=
  match path.takeWhile (· = separator) with
  | [] => []
  | [a, b] => [a, b]
  | a :: _ => [a]

/-- The component that stands for the parent directory. -/
def parentComponent : Text := ".."

/-- Adds a component to the components read so far, which are in reverse. -/
def step (rooted : Bool) (read : List Text) (component : Text) : List Text :=
  if component = [] ∨ component = "." then read
  else if component ≠ parentComponent then component :: read
  else
    match read with
    | [] => if rooted then [] else [component]
    | last :: before => if last = parentComponent then component :: read else before

/-- The components of the normal form of a path. -/
def normalComponents (path : Text) : List Text :=
  ((Text.splitOn separator path).foldl (step (isAbsolute path)) []).reverse

/-- The normal form of a path; the empty path is the current directory. -/
def normalise (path : Text) : Text :=
  match root path ++ Text.join [separator] (normalComponents path) with
  | [] => "."
  | normal => normal

/-- A path that continues `base`, unless it is absolute itself. -/
def join (base path : Text) : Text :=
  if isAbsolute path then path
  else if base.isEmpty || base.getLast? = some separator then base ++ path
  else base ++ [separator] ++ path

/-- Everything up to the last slash, without the slash unless nothing else is left. -/
def directory (path : Text) : Text :=
  let head := (path.reverse.dropWhile (· ≠ separator)).reverse
  if head.all (· = separator) then head
  else (head.reverse.dropWhile (· = separator)).reverse

end CoverageLift.Path
