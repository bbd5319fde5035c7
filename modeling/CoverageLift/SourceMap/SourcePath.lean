import CoverageLift.Path.Normal

/-!
# Paths of sources

A source map names its sources relative to its source root, and that relative to the directory of
the generated file. The result is either a URL, kept as it is written, or a normalised path. A
`file://` URL is the path after its scheme.
-/

namespace CoverageLift.SourcePath

/-- Code points that may follow the first letter of a URL scheme. -/
def isSchemePart (c : CodePoint) : Bool :=
  c.isLetter || c.isDigit || c = .char '+' || c = .char '.' || c = .char '-'

/-- Whether a text begins with a URL scheme and `://`. -/
def hasScheme (t : Text) : Bool :=
  match t with
  | first :: rest => first.isLetter && Text.startsWith "://" (rest.dropWhile isSchemePart)
  | [] => false

/-- The scheme of local files. -/
def fileScheme : Text := "file://"

/-- A source below its source root. URLs and absolute paths have no root. -/
def underRoot (root : Option Text) (source : Text) : Text :=
  match root with
  | none => source
  | some root =>
    if root.isEmpty || hasScheme source || Path.isAbsolute source then source
    else if hasScheme root then
      (root.reverse.dropWhile (· = Path.separator)).reverse ++ [Path.separator] ++ source
    else Path.join root source

/-- The path after the scheme of local files, and any other path as it is. -/
def withoutFileScheme (path : Text) : Text := (Text.after? fileScheme path).getD path

/-- The path or URL of a source of the map of the file `generated`. -/
def resolve (generated : Text) (root : Option Text) (source : Text) : Text :=
  let candidate := withoutFileScheme (underRoot root source)
  if hasScheme candidate then candidate
  else if Path.isAbsolute candidate then Path.normalise candidate
  else
    let base := Path.directory generated
    if base.isEmpty then Path.normalise candidate else Path.normalise (Path.join base candidate)

end CoverageLift.SourcePath
