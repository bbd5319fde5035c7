import CoverageLift.Discovery.Comment
import CoverageLift.Notice
import CoverageLift.Text.Percent

/-!
# Finding the map of a generated file

A generated file names its map in a comment: as a data URL that holds it, or as the path of a file
next to it. Without a comment, the map is looked for beside the generated file, under its name with
`.map` added. Maps elsewhere are never fetched. A map that cannot be read or decoded is reported and
counts as absent; some paths and data URLs make the search itself fail.
-/

namespace CoverageLift.Discovery

/-- Why a search fails. -/
inductive SearchError
  /-- The data of a URL have code points outside ASCII. -/
  | notAscii
  /-- The generated path has no last component. -/
  | emptyName (path : FilePath)
  /-- A path cannot be used. -/
  | file (fault : FileFault)
  deriving DecidableEq

/-- The message of an error. -/
def SearchError.message : SearchError → Text
  | notAscii => Base64.DecodeError.notAscii.message
  | emptyName path =>
    ("PosixPath(" : Text) ++ Text.quoted path.toText ++ (") has an empty name" : Text)
  | file fault => fault.message

/-- The outcome of a search: the text of a map, if there is one, and what there is to report. -/
structure Found where
  map : Option Text
  notices : List Notice

/-- Nothing found, nothing to report. -/
def Found.nothing : Found := ⟨none, []⟩

/-- The start of a data URL. -/
def dataScheme : Text := "data:"

/-- What marks the data of a URL as base64. -/
def base64Mark : Text := ";base64"

/-- The text that base64 data stand for. -/
def decodeBase64 (body : Text) : Except SearchError Found :=
  match Base64.decode body with
  | .error .notAscii => .error .notAscii
  | .error error => .ok ⟨none, [.inlineUndecodable (.base64 error)]⟩
  | .ok bytes =>
    match Utf8.decode bytes with
    | .error error => .ok ⟨none, [.inlineUndecodable (.encoding error)]⟩
    | .ok text => .ok ⟨some text, []⟩

/-- The text that a data URL holds, given without its scheme. -/
def decodeData (url : Text) : Except SearchError Found :=
  match Text.cutFirst? (.char ',') url with
  | none => .ok Found.nothing
  | some (header, body) =>
    if Text.endsWith base64Mark header then decodeBase64 body
    else .ok ⟨some (Percent.decode body), []⟩

/-- Which maps are looked for. -/
structure Switches where
  /-- Data URLs. -/
  inline : Bool
  /-- Files that a comment names or that lie beside the generated file. -/
  sibling : Bool
  /-- Maps in the report. -/
  embedded : Bool
  deriving DecidableEq

section
variable {m : Type → Type} [Monad m] (files : Files m)

/-- The text of a map file, if it is a regular file. -/
def mapFileText (path : FilePath) : m (Except SearchError Found) := do
  match ← files.isRegular path with
  | .error fault => return .error (.file fault)
  | .ok false => return .ok Found.nothing
  | .ok true =>
    match ← files.text path with
    | .error fault => return .ok ⟨none, [.mapUnreadable path.toText fault]⟩
    | .ok text => return .ok ⟨some text, []⟩

/-- Follows the URL of a comment in the generated file `generated`. -/
def followUrl (switches : Switches) (generated : FilePath) (url : Text) :
    m (Except SearchError Found) :=
  match Text.after? dataScheme url with
  | some data => pure (if switches.inline then decodeData data else .ok Found.nothing)
  | none =>
    if !switches.sibling || SourcePath.hasScheme url then pure (.ok Found.nothing)
    else mapFileText files (generated.parent.under (FilePath.ofText (Percent.decode url)))

/-- Finds the map of the file `generated` with the given text. -/
def extract (switches : Switches) (text : Text) (generated : FilePath) :
    m (Except SearchError Found) :=
  match MapComment.lastUrl? text with
  | some url => followUrl files switches generated url
  | none =>
    if switches.sibling then
      match generated.withSuffix? ".map" with
      | some path => mapFileText files path
      | none => pure (.error (.emptyName generated))
    else pure (.ok Found.nothing)

/-- Finds the map of a generated file on disk. A file that the system refuses to read has none. -/
def load (switches : Switches) (generated : FilePath) : m (Except SearchError Found) := do
  match ← files.bytes generated with
  | .error (.system fault path) =>
    return .ok ⟨none, [.generatedUnreadable generated.toText (.system fault path)]⟩
  | .error fault => return .error (.file fault)
  | .ok bytes =>
    extract files switches (Text.unifyNewlines (Utf8.decodeLossy bytes)) generated

end

end CoverageLift.Discovery
