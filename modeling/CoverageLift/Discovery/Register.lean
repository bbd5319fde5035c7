import CoverageLift.Coverage.Remap
import CoverageLift.Discovery.Extract

/-!
# Registering the maps of a report

For every file of a report the map is the one embedded in its coverage, if there is a value in that
place, or else what a search for the generated file finds. A malformed map is reported and leaves
the atlas as it was; a search that fails, or a map whose failure has no message, ends the run with
the maps registered so far.
-/

namespace CoverageLift.Discovery

/-- Why registering stops. -/
inductive RegisterError
  | search (error : SearchError)
  | payload (error : PayloadError)
  deriving DecidableEq

/-- The message of an error. -/
def RegisterError.message : RegisterError → Text
  | search error => error.message
  | payload error => error.message

/-- The outcome of registering the maps of a report. -/
structure Registered where
  atlas : Atlas Resolver
  /-- The paths that got a map, in the order of the report. -/
  paths : List Text
  notices : List Notice
  error : Option RegisterError

/-- Builds the resolver of a path from a payload. -/
def buildResolver (payload : Payload) (path : Text) : Except PayloadError Resolver :=
  (SourceMap.ofPayload payload path).map Resolver.ofSourceMap

/-- The map that is embedded in the coverage of a file. -/
def embeddedMap? (switches : Switches) (coverage : Json) : Option Json :=
  if switches.embedded then
    match OrderedMap.get? coverage.fieldsOrEmpty ("inputSourceMap" : Text) with
    | some v => if v.isTruthy then some v else none
    | none => none
  else none

/-- A payload for a file, if there is one, and what there is to report. -/
abbrev Candidate := Option Payload × List Notice

section
variable {m : Type → Type} [Monad m] (files : Files m)

/-- The payload for a file of a report. -/
def candidate (switches : Switches) (path : Text) (coverage : Json) :
    m (Except SearchError Candidate) := do
  match embeddedMap? switches coverage with
  | some v => return .ok (some (.value v), [])
  | none =>
    if switches.inline || switches.sibling then
      match ← load files switches (FilePath.ofText path) with
      | .error error => return .error error
      | .ok found => return .ok (found.map.map fun t => .value (.str t), found.notices)
    else return .ok (none, [])

/-- The outcome with notices and paths of an earlier part in front. -/
def Registered.after (notices : List Notice) (paths : List Text) (r : Registered) : Registered :=
  { r with notices := notices ++ r.notices, paths := paths ++ r.paths }

/-- Registers the maps of a report. -/
def registerMaps (switches : Switches) : Atlas Resolver → Report → m Registered
  | atlas, [] => pure ⟨atlas, [], [], none⟩
  | atlas, (path, coverage) :: rest => do
    match ← candidate files switches path coverage with
    | .error error => return ⟨atlas, [], [], some (.search error)⟩
    | .ok (none, notices) =>
      return Registered.after notices [] (← registerMaps switches atlas rest)
    | .ok (some payload, notices) =>
      match atlas.register (.text path) (buildResolver payload) with
      | .ok registered =>
        let notice := Notice.registered path (atlas.contains (.text path))
        return Registered.after (notices ++ [notice]) [path]
          (← registerMaps switches registered rest)
      | .error (.malformed fault) =>
        return Registered.after (notices ++ [.mapMalformed path fault]) []
          (← registerMaps switches atlas rest)
      | .error error => return ⟨atlas, [], notices, some (.payload error)⟩

end

end CoverageLift.Discovery
