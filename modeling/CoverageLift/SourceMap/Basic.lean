import CoverageLift.Json.Parser
import CoverageLift.SourceMap.Document
import CoverageLift.SourceMap.Mappings
import CoverageLift.SourceMap.SourcePath
import CoverageLift.Text.Newline
import CoverageLift.Text.Utf8

/-!
# Source maps

A source map answers where a position of a generated file comes from. It is built from a payload: a
JSON value, the text of one, or bytes. Building checks the document, resolves the paths of the
sources, counts the lines of the contents that are given, and decodes the mappings; what can go wrong
on the way is a malformed map, but for integers that are too long to be read or shown.
-/

namespace CoverageLift

/-- A position of a source: the line from one, the column from zero. -/
structure Position where
  source : Text
  line : Int
  column : Int
  deriving DecidableEq

/-- The map of one generated file. -/
structure SourceMap where
  /-- The paths of the sources; a source without a name is `none`. -/
  sources : List (Option Text)
  /-- The number of lines of the sources whose contents are given. -/
  lastLines : OrderedMap Text Nat
  /-- The segments of every generated line, sorted by generated column. -/
  lines : List (List Mappings.Segment)

/-- What a map is read from. -/
inductive Payload
  /-- A JSON value; a string is the text of a document. -/
  | value (v : Json)
  /-- The bytes of a document. -/
  | bytes (b : Bytes)

/-- What makes a map malformed. -/
inductive MapFault
  | notUtf8 (error : Utf8.DecodeError)
  | notJson (problem : Json.Problem) (line column index : Nat)
  | notObject
  | indexed
  | invalid (issues : List Issue)
  | unsupportedVersion (version : Int)
  | mappings (error : Mappings.DecodeError)
  deriving DecidableEq

/-- Why no map could be built. -/
inductive PayloadError
  | malformed (fault : MapFault)
  /-- An integer literal has too many digits to be read. -/
  | longInteger (digits : Nat)
  /-- The message of a malformed map would show an integer with too many digits. -/
  | unprintable
  deriving DecidableEq

namespace SourceMap

/-- The line that may precede a document so that it cannot be run as a script. -/
def guardLine : Text := ")]\x7d\x27"

/-- The text of a document without its guard line. -/
def withoutGuard (t : Text) : Text :=
  if Text.startsWith guardLine t then
    match Text.cutFirst? (.char '\n') t with
    | some (_, rest) => rest
    | none => []
  else t

/-- The number of lines of a content; white space at its end does not count. -/
def countLines (content : Text) : Nat :=
  (Text.lines (Text.trimEnd CodePoint.isBlank content)).length

/-- The line counts of the sources that have a path and a content; of several contents of one path
the last one counts. -/
def countContents : (sources contents : List (Option Text)) → OrderedMap Text Nat →
    OrderedMap Text Nat
  | source :: sources, content :: contents, counts =>
    countContents sources contents <|
      match source, content with
      | some path, some content => OrderedMap.insert counts path (countLines content)
      | _, _ => counts
  | _, _, counts => counts

/-- The map that a document describes for the file `generated`. -/
def ofDocument (document : SourceMapDocument) (generated : Text) : Except MapFault SourceMap :=
  if document.version ≠ 3 then .error (.unsupportedVersion document.version)
  else
    let sources := document.sources.map fun source =>
      source.map (SourcePath.resolve generated document.sourceRoot)
    match Mappings.decode sources.length document.mappings with
    | .error error => .error (.mappings error)
    | .ok lines =>
      .ok { sources, lines, lastLines := countContents sources (document.contents.getD []) [] }

/-- The map that a parsed document describes. -/
def ofJson (v : Json) (generated : Text) : Except MapFault SourceMap :=
  match v with
  | .obj fields =>
    if OrderedMap.contains fields ("sections" : Text) then .error .indexed
    else
      match SourceMapDocument.ofFields fields with
      | .error issues => .error (.invalid issues)
      | .ok document => ofDocument document generated
  | _ => .error .notObject

/-- Whether the message of a fault would show an integer beyond the length of numerals. -/
def showsLongInteger : MapFault → Bool
  | .unsupportedVersion version => (Text.ofNat version.natAbs).length > Text.maxNumeralLength
  | .mappings ⟨_, .sourceOutOfRange index⟩ =>
    (Text.ofNat index.natAbs).length > Text.maxNumeralLength
  | _ => false

/-- The outcome of building a map, a fault without a message being no malformed map. -/
def outcome (built : Except MapFault SourceMap) : Except PayloadError SourceMap :=
  built.mapError fun fault => if showsLongInteger fault then .unprintable else .malformed fault

/-- The map that the text of a document describes. -/
def ofText (t : Text) (generated : Text) : Except PayloadError SourceMap :=
  match Json.read (withoutGuard t) with
  | .error (.longInteger digits) => .error (.longInteger digits)
  | .error (.malformed problem line column index) =>
    .error (.malformed (.notJson problem line column index))
  | .ok v => outcome (ofJson v generated)

/-- The map of the file `generated` that a payload describes. -/
def ofPayload (payload : Payload) (generated : Text) : Except PayloadError SourceMap :=
  match payload with
  | .value (.str t) => ofText t generated
  | .value v => outcome (ofJson v generated)
  | .bytes b =>
    match Utf8.decode b with
    | .error error => .error (.malformed (.notUtf8 error))
    | .ok t => ofText t generated

/-! ### Questions -/

/-- The segments of a generated line, which is counted from one. -/
def line? (map : SourceMap) (line : Int) : Option (List Mappings.Segment) :=
  if 1 ≤ line then map.lines[(line - 1).toNat]? else none

/-- The position that a segment maps to, unless it has none or its source has no name. -/
def position? (map : SourceMap) (segment : Mappings.Segment) : Option Position := do
  let target ← segment.target
  let source ← (map.sources[target.source]?).join
  return ⟨source, target.line + 1, target.column⟩

/-- The position that a generated line (from one) and column (from zero) come from. -/
def resolve (map : SourceMap) (line column : Int) : Option Position := do
  let segments ← map.line? line
  if column < 0 then none
  else map.position? (← Mappings.segmentAt? segments column.toNat)

/-- The paths of the sources, each one once. -/
def knownSources (map : SourceMap) : List Text := (map.sources.filterMap id).eraseDups

/-- The number of lines of a source, if its content is given. -/
def lastLine (map : SourceMap) (source : Text) : Option Nat :=
  OrderedMap.get? map.lastLines source

end SourceMap

/-! ### Messages -/

/-- The name under which issues of source map documents are counted. -/
def sourceMapDocumentName : Text := "RawSourceMap"

/-- The message of a malformed map. -/
def MapFault.message : MapFault → Text
  | notUtf8 error => ("Source map is not valid UTF-8: " : Text) ++ error.message
  | notJson problem line column index =>
    ("Source map is not valid JSON: " : Text)
      ++ (Json.ReadError.malformed problem line column index).message
  | notObject => "Source map must be a JSON object."
  | indexed => "Indexed source maps (with \x27sections\x27) are not supported."
  | invalid issues => ("Invalid source map: " : Text) ++ issueCount sourceMapDocumentName issues
  | unsupportedVersion version =>
    ("Unsupported source map version: " : Text) ++ Text.ofInt version
  | mappings error => error.message

/-- The message of an error. -/
def PayloadError.message : PayloadError → Text
  | malformed fault => fault.message
  | longInteger digits => Json.longIntegerMessage digits
  | unprintable =>
    "Exceeds the limit (4300 digits) for integer string conversion; use sys.set_int_max_str_digits() to increase the limit"

end CoverageLift
