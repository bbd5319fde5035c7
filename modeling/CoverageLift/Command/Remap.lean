import CoverageLift.Command.Outcome
import CoverageLift.Json.Printer

/-!
# The command that remaps a report

The command reads the settings and the report, registers maps, remaps the report, writes it, and says
how many files moved. Maps that are named on the command line are registered first; maps are looked
for only for the files that have none by then, so a named map is never replaced by a found one.
-/

namespace CoverageLift.Command

/-! ### Reading -/

/-- How the command stops when there are no settings. -/
def settingsStop : SettingsError → Stop
  | .refused fault => .refused fault.message
  | .file fault => .failed (.file fault)
  | .encoding error => .failed (.encoding error)
  | .scalar error => .failed (.scalar error)

/-- The report that the contents of the file at `path` hold. -/
def reportOf (path : FilePath) (contents : Except FileFault Bytes) : Except Stop Report :=
  match fileText contents with
  | .error (.file (.system fault name)) =>
    .error (.refused (("Failed to read report " : Text) ++ path.toText ++ (": " : Text)
      ++ (FileFault.system fault name).message))
  | .error (.file fault) => .error (.failed (.file fault))
  | .error (.encoding error) => .error (.failed (.encoding error))
  | .ok text =>
    match Json.read text with
    | .error (.longInteger digits) => .error (.failed (.payload (.longInteger digits)))
    | .error error =>
      .error (.refused (("Report " : Text) ++ path.toText ++ (" is not valid JSON: " : Text)
        ++ error.message))
    | .ok (.obj report) => .ok report
    | .ok _ => .error (.refused "Coverage report must be a mapping of file paths.")

/-! ### Maps named on the command line -/

/-- The generated file and the map file of an argument; the last equals sign separates them. -/
def splitMap? (arg : Text) : Option (Text × Text) :=
  match Text.cutLast? (.char '=') arg with
  | some (generated, map) => if generated.isEmpty || map.isEmpty then none else some (generated, map)
  | none => none

/-- The path under which the map of a generated file is registered: the one that the report has, or else
the absolute one. -/
def mapKey (directory : FilePath) (report : Report) (generated : Text) : Except FileFault Text :=
  if OrderedMap.contains report generated then .ok generated
  else (FilePath.resolve? directory (FilePath.ofText generated)).map FilePath.toText

/-- Registers the map that the file `name` holds. -/
def addMap (atlas : Atlas Resolver) (key name : Text) (text : Except TextFault Text) :
    Except Stop (Atlas Resolver) :=
  match text with
  | .error (.file (.system fault path)) =>
    .error (.refused (("Failed to read source map " : Text) ++ name ++ (": " : Text)
      ++ (FileFault.system fault path).message))
  | .error (.file fault) => .error (.failed (.file fault))
  | .error (.encoding error) => .error (.failed (.encoding error))
  | .ok text =>
    match atlas.register (.text key) (Discovery.buildResolver (.value (.str text))) with
    | .error (.malformed fault) =>
      .error (.refused (("Malformed source map " : Text) ++ name ++ (": " : Text) ++ fault.message))
    | .error error => .error (.failed (.payload error))
    | .ok atlas => .ok atlas

/-- The outcome of an attempt to register the map of a path. -/
def addedStage (atlas : Atlas Resolver) (key : Text) :
    Except Stop (Atlas Resolver) → Stage (Atlas Resolver)
  | .error reason => .stop reason
  | .ok added => ⟨[.registered key (atlas.contains (.text key))], .ok added⟩

section
variable {m : Type → Type} [Monad m] (files : Files m)

/-- Registers the map that one argument names. -/
def registerNamed (report : Report) (atlas : Atlas Resolver) (arg : Text) :
    m (Stage (Atlas Resolver)) :=
  match splitMap? arg with
  | none => pure (.stop (.misused (.badMap arg)))
  | some (generated, name) =>
    match mapKey files.directory report generated with
    | .error fault => pure (.stop (.failed (.file fault)))
    | .ok key => do
      return addedStage atlas key (addMap atlas key name (← files.text (FilePath.ofText name)))

/-- Registers the maps that arguments name, one after the other. -/
def registerAllNamed (report : Report) :
    Atlas Resolver → List Text → m (Stage (Atlas Resolver))
  | atlas, [] => pure (.done atlas)
  | atlas, arg :: rest => do
    (← registerNamed files report atlas arg).andThen fun atlas => registerAllNamed report atlas rest

/-- The files of a report that have no map. -/
def withoutMap (atlas : Atlas Resolver) (report : Report) : Report :=
  report.filter fun (path, _) => !atlas.contains (.text path)

/-- Looks for the maps of the files that have none. -/
def discoverMaps (switches : Discovery.Switches) (report : Report) (atlas : Atlas Resolver) :
    m (Stage (Atlas Resolver)) := do
  let found ← Discovery.registerMaps files switches atlas (withoutMap atlas report)
  return {
    notices := found.notices
    result := match found.error with
      | none => .ok found.atlas
      | some (.search error) => .error (.failed (.search error))
      | some (.payload error) => .error (.failed (.payload error)) }

/-- The atlas that a report is remapped with. -/
def prepareAtlas (request : RemapRequest) (settings : Settings) (report : Report) :
    m (Stage (Atlas Resolver)) := do
  (← registerAllNamed files report Atlas.empty request.maps).andThen fun atlas =>
    if request.discover then discoverMaps files settings.discovery report atlas
    else pure (.done atlas)

end

/-! ### Remapping and writing -/

/-- Remaps a report as a part of the command. -/
def remapStage (settings : Settings) (report : Report) (atlas : Atlas Resolver) :
    Stage (Atlas Resolver × Report) :=
  let outcome := remap atlas settings.enforceBounds report
  { notices := outcome.notices
    result := match outcome.error with
      | none => .ok (atlas, outcome.report)
      | some error => .error (.failed (.remap error)) }

mutual

/-- Whether a value holds an integer that is too long to be written. -/
def holdsLongInteger : Json → Bool
  | .int n => (Text.ofNat n.natAbs).length > Text.maxNumeralLength
  | .arr items => anyLongInteger items
  | .obj fields => anyLongMember fields
  | _ => false

/-- Whether an item holds such an integer. -/
def anyLongInteger : List Json → Bool
  | [] => false
  | item :: rest => holdsLongInteger item || anyLongInteger rest

/-- Whether a member holds such an integer. -/
def anyLongMember : List (Text × Json) → Bool
  | [] => false
  | (_, value) :: rest => holdsLongInteger value || anyLongMember rest

end

/-- The text of a report. -/
def reportText (report : Report) : Except Stop Text :=
  if anyLongMember report then .error (.failed (.payload .unprintable))
  else .ok (Json.obj report).indented

/-- The number of files of a report that another one does not have. -/
def movedCount (before after : Report) : Nat :=
  (before.filter fun (path, _) => !OrderedMap.contains after path).length

/-- The line that sums up a run. -/
def summary (before after : Report) (atlas : Atlas Resolver) : Text :=
  ("Remapped " : Text) ++ Text.ofNat (movedCount before after) ++ (" of " : Text)
    ++ Text.ofNat before.length ++ (" file(s) using " : Text) ++ Text.ofNat atlas.size
    ++ (" source map(s)." : Text)

/-- The log of the notices that a level shows. -/
def shownLog (level : Level) (notices : List Notice) : List LogEntry :=
  (noticesFrom level notices).map fun notice => .notice notice true

section
variable {m : Type → Type} [Monad m] (disk : Disk m)

/-- Puts a text into a file or else on standard output. The result is the text for standard output. -/
def deliver (output : Option FilePath) (text : Text) : m (Except Stop Text) :=
  match output with
  | none => pure (.ok (Outcome.endLine text))
  | some path =>
    match Utf8.encode (Outcome.endLine text) with
    | .error error => pure (.error (.failed (.file (.unencodable error))))
    | .ok bytes => do
      return match ← disk.save path bytes with
        | .error fault => .error (.failed (.file fault))
        | .ok () => .ok []

/-- Writes the remapped report and sums the run up. -/
def finish (output : Option FilePath) (before : Report)
    (stage : Stage (Atlas Resolver × Report)) (level : Level) : m Outcome := do
  let log := shownLog level stage.notices
  match stage.result with
  | .error reason => return ⟨[], log, some reason⟩
  | .ok (atlas, after) =>
    match reportText after with
    | .error reason => return ⟨[], log, some reason⟩
    | .ok text =>
      match ← deliver disk output text with
      | .error reason => return ⟨[], log, some reason⟩
      | .ok written => return ⟨written, log ++ [.line (summary before after atlas)], none⟩

/-- Remaps a report that has been read. -/
def remapWith (request : RemapRequest) (settings : Settings) (report : Report) : m Outcome := do
  let prepared ← prepareAtlas disk.toFiles request settings report
  let remapped ← prepared.andThen fun atlas => pure (remapStage settings report atlas)
  finish disk (request.output <|> settings.output) report remapped settings.level

/-- Runs the command. -/
def runRemap (request : RemapRequest) : m Outcome := do
  match ← Settings.load disk.toFiles (FilePath.ofText request.config)
      (request.config ≠ defaultConfig) with
  | .error error => return .stopped (settingsStop error)
  | .ok settings =>
    match request.report <|> settings.report with
    | none => return .stopped (.misused .noReport)
    | some path =>
      match reportOf path (← disk.bytes path) with
      | .error reason => return .stopped reason
      | .ok report => remapWith disk request settings report

end

end CoverageLift.Command
