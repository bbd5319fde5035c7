import CoverageLift.Command.Outcome

/-!
# The command that lists sources

The command prints the sources that the map of a generated file lists, one per line, in ascending
order and without control sequences. The map is read from the file that the user names, or else looked
for. What there is to report on the search is shown without its level and origin.
-/

namespace CoverageLift.Command

/-- The text of the map that the user names. -/
def namedText (path : FilePath) (text : Except TextFault Text) : Stage (Option Text) :=
  match text with
  | .error (.file (.system fault name)) =>
    .stop (.refused (("Failed to read source map " : Text) ++ path.toText ++ (": " : Text)
      ++ (FileFault.system fault name).message))
  | .error (.file fault) => .stop (.failed (.file fault))
  | .error (.encoding error) => .stop (.failed (.encoding error))
  | .ok text => .done (some text)

/-- The text of the map that a search finds. -/
def foundText : Except Discovery.SearchError Discovery.Found → Stage (Option Text)
  | .error error => .stop (.failed (.search error))
  | .ok found => ⟨found.notices, .ok found.map⟩

/-- The sources that the map of a generated file lists. -/
def sourcesOf (generated : FilePath) (text : Option Text) : Except Stop (List Text) :=
  match text with
  | none => .error (.refused (("No source map found for " : Text) ++ generated.toText))
  | some text =>
    match SourceMap.ofPayload (.value (.str text)) generated.toText with
    | .error (.malformed fault) =>
      .error (.refused (("Malformed source map for " : Text) ++ generated.toText ++ (": " : Text)
        ++ fault.message))
    | .error error => .error (.failed (.payload error))
    | .ok map => .ok (Text.sort map.knownSources)

/-- The lines that can be written, up to the first one that has no encoding. -/
def writeLines : List Text → Text × Option Stop
  | [] => ([], none)
  | line :: rest =>
    match Utf8.encode line with
    | .error error => ([], some (.failed (.unwritable error)))
    | .ok _ =>
      let (written, stop) := writeLines rest
      (Outcome.endLine line ++ written, stop)

/-- The outcome of listing the sources that a map has. -/
def listing (generated : FilePath) (stage : Stage (Option Text)) : Outcome :=
  let log := (noticesFrom .warning stage.notices).map fun notice => LogEntry.notice notice false
  match stage.result.bind (sourcesOf generated) with
  | .error reason => ⟨[], log, some reason⟩
  | .ok sources =>
    let (output, stop) := writeLines (sources.map Text.withoutControls)
    ⟨output, log, stop⟩

/-- Runs the command. -/
def runSources {m : Type → Type} [Monad m] (files : Files m) (request : SourcesRequest) :
    m Outcome := do
  match request.map with
  | some path => return listing request.generated (namedText path (← files.text path))
  | none =>
    let switches := { Settings.defaultSwitches with embedded := false }
    return listing request.generated
      (foundText (← Discovery.load files switches request.generated))

end CoverageLift.Command
