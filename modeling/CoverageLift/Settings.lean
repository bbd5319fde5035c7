import CoverageLift.Discovery.Extract
import CoverageLift.Json.Lenient
import CoverageLift.Json.Parser
import CoverageLift.Yaml.Value

/-!
# Settings

A settings file is a YAML document: a mapping with the paths of the report and of the output and with
sections for discovery, remapping and logging. Every key may be left out and none may be unknown. An
empty document, or any other value that counts as none, gives the settings that hold by default.

Checking collects the issues of a mapping in the order in which its keys are listed here, and after
them those of its unknown keys in the order of the document. Relative paths are taken from the
directory of the file.
-/

namespace CoverageLift

/-- What a user can choose. -/
structure Settings where
  report : Option FilePath
  output : Option FilePath
  discovery : Discovery.Switches
  /-- Whether ranges must lie in the lines of their source. -/
  enforceBounds : Bool
  /-- The least level of the notices that are shown. -/
  level : Level
  deriving DecidableEq

/-- A letter in upper case, as far as the names of levels need it: the letters of ASCII and the
dotless one whose capital is in ASCII. -/
def CodePoint.capital : CodePoint → CodePoint
  | .char c => .char (if c = 'ı' then 'I' else c.toUpper)
  | other => other

/-- The level with a name, in any case and with white space around it. -/
def Level.ofText? (t : Text) : Option Level :=
  let name := (Text.trim CodePoint.isBlank t).map CodePoint.capital
  Level.all.find? fun level => level.name = name

namespace Settings

/-- The switches of discovery that hold by default. -/
def defaultSwitches : Discovery.Switches := ⟨true, true, true⟩

/-- The settings that hold by default. -/
def default : Settings := ⟨none, none, defaultSwitches, true, .warning⟩

/-! ### Checking a document -/

/-- The pairs of a mapping. -/
abbrev Pairs := List (Yaml.Atom × Yaml.Value)

/-- The value of a key that is a string. -/
def member? (pairs : Pairs) (key : Text) : Option Yaml.Value :=
  pairs.lookup (.scalar (.str key))

/-- The checked value of a key, or the default if the key is left out. -/
def member {α : Type} (pairs : Pairs) (key : Text) (default : α) (check : Yaml.Value → Checked α) :
    Checked α :=
  match member? pairs key with
  | none => .ok default
  | some v => Checked.under key (check v)

/-- The issue of a key that is not among the known ones. -/
def keyIssue? (known : List Text) (key : Yaml.Atom) : Option Issue :=
  match key with
  | .scalar (.str t) => if known.contains t then none else some ⟨[t], .extraForbidden⟩
  | _ => some ⟨[key.display], .invalidKey⟩

/-- All keys of a mapping are known. -/
def onlyKeys (known : List Text) (pairs : Pairs) : Checked Unit :=
  match pairs.filterMap fun pair => keyIssue? known pair.1 with
  | [] => .ok ()
  | issues => .error issues

/-- The keys of a mapping that are strings. -/
def textKeys (pairs : Pairs) : List Text :=
  pairs.filterMap fun pair =>
    match pair.1 with
    | .scalar (.str t) => some t
    | _ => none

/-- A section is a mapping. -/
def inSection {α : Type} (check : Pairs → Checked α) : Yaml.Value → Checked α
  | .mapping pairs => check pairs
  | _ => .error [⟨[], .modelType⟩]

/-- A switch is a truth value or something that stands for one. -/
def switch : Yaml.Value → Checked Bool
  | .atom (.scalar s) => (Lenient.boolOfScalar s).mapError fun kind => [⟨[], kind⟩]
  | _ => .error [⟨[], .boolType⟩]

/-- A path is a string, and null is no path. -/
def path : Yaml.Value → Checked (Option FilePath)
  | .atom (.scalar .null) => .ok none
  | .atom (.scalar (.str t)) => .ok (some (FilePath.ofText t))
  | _ => .error [⟨[], .pathType⟩]

/-- A level is given by its name. -/
def levelOf : Yaml.Value → Checked Level
  | .atom (.scalar (.str t)) =>
    match Level.ofText? t with
    | some level => .ok level
    | none => .error [⟨[], .valueError⟩]
  | _ => .error [⟨[], .stringType⟩]

/-- The section about discovery. -/
def discoveryOf (pairs : Pairs) : Checked Discovery.Switches :=
  let inline := member pairs "inline" defaultSwitches.inline switch
  let sibling := member pairs "sibling" defaultSwitches.sibling switch
  let embedded := member pairs "embedded" defaultSwitches.embedded switch
  let keys := onlyKeys ["inline", "sibling", "embedded"] pairs
  (Checked.keyed (textKeys pairs) (inline.both (sibling.both (embedded.both keys)))).map
    fun (inline, sibling, embedded, _) => { inline, sibling, embedded }

/-- The section about remapping. -/
def remapOf (pairs : Pairs) : Checked Bool :=
  let bounds := member pairs "enforce_line_bounds" default.enforceBounds switch
  let keys := onlyKeys ["enforce_line_bounds"] pairs
  (Checked.keyed (textKeys pairs) (bounds.both keys)).map (·.1)

/-- The section about logging. -/
def loggingOf (pairs : Pairs) : Checked Level :=
  let level := member pairs "level" default.level levelOf
  (Checked.keyed (textKeys pairs) (level.both (onlyKeys ["level"] pairs))).map (·.1)

/-- The settings that the pairs of a document describe. -/
def ofPairs (pairs : Pairs) : Checked Settings :=
  let report := member pairs "report" default.report path
  let output := member pairs "output" default.output path
  let discovery := member pairs "discovery" default.discovery (inSection discoveryOf)
  let bounds := member pairs "remap" default.enforceBounds (inSection remapOf)
  let level := member pairs "logging" default.level (inSection loggingOf)
  let keys := onlyKeys ["report", "output", "discovery", "remap", "logging"] pairs
  let all := report.both (output.both (discovery.both (bounds.both (level.both keys))))
  (Checked.keyed (textKeys pairs) all).map
    fun (report, output, discovery, enforceBounds, level, _) =>
      { report, output, discovery, enforceBounds, level }

/-- What is wrong with a document. -/
inductive DocumentFault
  | notMapping
  | invalid (issues : List Issue)
  deriving DecidableEq

/-- Whether a value counts as no value: null, false, zero and what is empty. -/
def isNothing : Yaml.Value → Bool
  | .atom (.scalar .null) => true
  | .atom (.scalar (.bool b)) => !b
  | .atom (.scalar (.int n)) => n = 0
  | .atom (.scalar (.float x)) => x.isZero
  | .atom (.scalar (.str t)) => t.isEmpty
  | .atom (.timestamp _) => false
  | .sequence items => items.isEmpty
  | .mapping pairs => pairs.isEmpty

/-- The settings that a document describes. -/
def ofDocument (document : Yaml.Value) : Except DocumentFault Settings :=
  if isNothing document then .ok default
  else
    match document with
    | .mapping pairs => (ofPairs pairs).mapError .invalid
    | _ => .error .notMapping

/-! ### Paths -/

/-- A path of the settings, taken from the directory of the file if it is relative. -/
def anchorPath (directory : FilePath) : Option FilePath → Except FileFault (Option FilePath)
  | none => .ok none
  | some p => if p.isAbsolute then .ok (some p) else (FilePath.resolve? directory p).map some

/-- The settings with all paths absolute. -/
def anchor (directory : FilePath) (settings : Settings) : Except FileFault Settings := do
  let report ← anchorPath directory settings.report
  let output ← anchorPath directory settings.output
  return { settings with report, output }

end Settings

/-! ### Settings files -/

/-- Why a settings file is refused. -/
inductive SettingsFault
  | notFound (path : FilePath)
  | malformed
  | document (path : FilePath) (fault : Settings.DocumentFault)
  deriving DecidableEq

/-- Why there are no settings. -/
inductive SettingsError
  /-- The file is refused. -/
  | refused (fault : SettingsFault)
  /-- The file, or a path in it, cannot be used. -/
  | file (fault : FileFault)
  | encoding (error : Utf8.DecodeError)
  /-- A scalar of the file has the form of a value and does not stand for one. -/
  | scalar (error : Yaml.Error)
  deriving DecidableEq

namespace Settings

/-- What an error in the text of a file means for its settings. -/
def ofTextError : Yaml.Error → SettingsError
  | .malformed => .refused .malformed
  | .encoding error => .encoding error
  | error => .scalar error

/-- The document that the contents of a file hold. -/
def documentOf (contents : Except FileFault Bytes) : Except SettingsError Yaml.Value :=
  match contents with
  | .error fault => .error (.file fault)
  | .ok bytes => (Yaml.Excerpt.ofBytes bytes >>= Yaml.read).mapError ofTextError

/-- The settings that the contents of the file at `path` describe, when `directory` is the current
one. -/
def ofContents (directory path : FilePath) (contents : Except FileFault Bytes) :
    Except SettingsError Settings := do
  let document ← documentOf contents
  let settings ← (ofDocument document).mapError fun fault => .refused (.document path fault)
  (anchor (FilePath.resolve directory path).parent settings).mapError .file

/-- The settings of a file. When the file need not be there, the default stands in for it. -/
def load {m : Type → Type} [Monad m] (files : Files m) (path : FilePath) (required : Bool) :
    m (Except SettingsError Settings) := do
  match ← files.doesExist path with
  | .error fault => return .error (.file fault)
  | .ok false => return if required then .error (.refused (.notFound path)) else .ok default
  | .ok true => return ofContents files.directory path (← files.bytes path)

end Settings

/-! ### Messages -/

/-- The name under which issues of settings are counted. -/
def settingsDocumentName : Text := "RemapSettings"

/-- The message of a fault. -/
def SettingsFault.message : SettingsFault → Text
  | notFound path => ("Config file not found: " : Text) ++ path.toText
  | malformed => "Failed to parse config"
  | document _ .notMapping => "Configuration must be a mapping at the top level."
  | document path (.invalid issues) =>
    ("Invalid configuration in " : Text) ++ path.toText ++ (": " : Text)
      ++ issueCount settingsDocumentName issues

/-- The message of an error in a YAML text. -/
def Yaml.Error.message : Yaml.Error → Text
  | malformed => "Failed to parse config"
  | encoding error => error.message
  | escapeOutOfRange => "chr() arg not in range(0x110000)"
  | escapeTooLarge => "Python int too large to convert to C int"
  | emptyNumeral base =>
    ("invalid literal for int() with base " : Text) ++ Text.ofNat base ++ (": " : Text)
      ++ Text.quoted []
  | longInteger digits => Json.longIntegerMessage digits
  | longSexagesimal => "int too large to convert to float"
  | timestamp message => message

/-- The message of an error. -/
def SettingsError.message : SettingsError → Text
  | refused fault => fault.message
  | file fault => fault.message
  | encoding error => error.message
  | scalar error => error.message

end CoverageLift
