import CoverageLift.Coverage.Table
import CoverageLift.Files
import CoverageLift.Json.Display
import CoverageLift.SourceMap.Basic
import CoverageLift.Text.Base64

/-!
# Notices

What the library reports while it works, as values. A notice has a level and an origin, and a level
decides which notices are shown.
-/

namespace CoverageLift

/-- How much a notice matters, in ascending order. -/
inductive Level
  | debug
  | info
  | warning
  | error
  | critical
  deriving DecidableEq, Repr

namespace Level

/-- The rank of a level. -/
def rank : Level → Nat
  | debug => 0
  | info => 1
  | warning => 2
  | error => 3
  | critical => 4

/-- The name of a level. -/
def name : Level → Text
  | debug => "DEBUG"
  | info => "INFO"
  | warning => "WARNING"
  | error => "ERROR"
  | critical => "CRITICAL"

/-- All levels. -/
def all : List Level := [debug, info, warning, error, critical]

end Level

/-- Why an inline source map cannot be decoded. -/
inductive InlineFault
  | base64 (error : Base64.DecodeError)
  | encoding (error : Utf8.DecodeError)
  deriving DecidableEq

/-- The message of an error. -/
def Base64.DecodeError.message : Base64.DecodeError → Text
  | notAscii => "string argument should contain only ASCII characters"
  | danglingCharacter count =>
    ("Invalid base64-encoded string: number of data characters (" : Text) ++ Text.ofNat count
      ++ (") cannot be 1 more than a multiple of 4" : Text)
  | incorrectPadding => "Incorrect padding"

/-- The message of a fault. -/
def InlineFault.message : InlineFault → Text
  | base64 error => error.message
  | encoding error => error.message

/-- Something that happened on the way. -/
inductive Notice
  /-- A map was registered, in the place of another one or not. -/
  | registered (path : Text) (replaced : Bool)
  /-- A file was left alone because its map does not list exactly one source. -/
  | bundleKept (path : Text) (sources : Nat)
  /-- Entries of a table could not be lifted or had no valid count. -/
  | entriesDropped (dropped total : Nat) (table : LocationTable) (path : Text)
  /-- Entries of a table got other ids. -/
  | idsRenumbered (table : LocationTable) (path : Text) (ids : List (Text × Text))
  /-- Two hit counts could not be added. -/
  | countsMismatched (kept dropped : Json)
  /-- A destination received nothing. -/
  | destinationEmpty (path : Text)
  /-- A generated file could not be read. -/
  | generatedUnreadable (path : Text) (fault : FileFault)
  /-- An inline source map could not be decoded. -/
  | inlineUndecodable (fault : InlineFault)
  /-- The file of a source map could not be read. -/
  | mapUnreadable (path : Text) (fault : TextFault)
  /-- A source map was malformed. -/
  | mapMalformed (path : Text) (fault : MapFault)

namespace Notice

/-- How much a notice matters. -/
def level : Notice → Level
  | inlineUndecodable _ => .warning
  | mapUnreadable _ _ => .warning
  | mapMalformed _ _ => .warning
  | _ => .debug

/-- The part of the program that a notice names as its origin. -/
def origin : Notice → Text
  | registered _ _ => "remapcov.sourcemap.store"
  | generatedUnreadable _ _ => "remapcov.sourcemap.discovery"
  | inlineUndecodable _ => "remapcov.sourcemap.discovery"
  | mapUnreadable _ _ => "remapcov.sourcemap.discovery"
  | mapMalformed _ _ => "remapcov.sourcemap.discovery"
  | _ => "remapcov.coverage.remapper"

/-- The changed ids as an object. -/
def idsObject (ids : List (Text × Text)) : Json := .obj (ids.map fun (old, new) => (old, .str new))

/-- The text of a notice. -/
def message : Notice → Text
  | registered path replaced =>
    (if replaced then ("Replaced" : Text) else "Registered") ++ (" source map for " : Text) ++ path
  | bundleKept path sources =>
    ("Keeping " : Text) ++ path ++ (" at its generated path; its map lists " : Text)
      ++ Text.ofNat sources ++ (" sources" : Text)
  | entriesDropped dropped total table path =>
    ("Dropped " : Text) ++ Text.ofNat dropped ++ (" of " : Text) ++ Text.ofNat total ++ (" " : Text)
      ++ table.locationsKey ++ (" entries from " : Text) ++ path
  | idsRenumbered table path ids =>
    ("Renumbered " : Text) ++ table.locationsKey ++ (" ids from " : Text) ++ path ++ (": " : Text)
      ++ (idsObject ids).display
  | countsMismatched kept dropped =>
    ("Cannot sum mismatched hit counts " : Text) ++ kept.display ++ (" and " : Text)
      ++ dropped.display ++ ("; keeping the first" : Text)
  | destinationEmpty path =>
    ("No coverage entries of " : Text) ++ path ++ (" survived remapping" : Text)
  | generatedUnreadable path fault =>
    ("Cannot read generated file " : Text) ++ path ++ (": " : Text) ++ fault.message
  | inlineUndecodable fault =>
    ("Ignoring undecodable inline source map: " : Text) ++ fault.message
  | mapUnreadable path fault =>
    ("Failed to read source map " : Text) ++ path ++ (": " : Text) ++ fault.message
  | mapMalformed path fault =>
    ("Ignoring malformed source map for " : Text) ++ path ++ (": " : Text) ++ fault.message

/-- The line of a notice in a log. -/
def line (n : Notice) : Text :=
  n.level.name ++ (" " : Text) ++ n.origin ++ (": " : Text) ++ n.message

end Notice

/-- The notices that matter at least as much as a level. -/
def noticesFrom (level : Level) (notices : List Notice) : List Notice :=
  notices.filter fun n => n.level.rank ≥ level.rank

/-- The messages of the notices that matter at least as much as a warning. -/
def warnings (notices : List Notice) : List Text := (noticesFrom .warning notices).map Notice.message

end CoverageLift
