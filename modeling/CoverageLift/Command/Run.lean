import CoverageLift.Command.Remap
import CoverageLift.Command.Sources

/-!
# Running a command

The program takes its arguments and access to a file system, and ends with an outcome.
-/

namespace CoverageLift.Command

/-- How the program is called. -/
def usageLines : List Text := [
  "Usage: remap [REPORT] [-o OUTPUT] [-c CONFIG] [--map GENERATED=MAPFILE]... [--no-discover]",
  "       sources GENERATED [--map MAPFILE]"]

/-- Runs the program with arguments. -/
def run {m : Type → Type} [Monad m] (disk : Disk m) (args : List Text) : m Outcome :=
  match Request.ofArguments args with
  | .error error => pure (.stopped (.misused error))
  | .ok .help => pure ⟨usageLines.flatMap Outcome.endLine, [], none⟩
  | .ok (.remap request) => runRemap disk request
  | .ok (.sources request) => runSources disk.toFiles request

/-- What is wrong with the arguments. -/
def UsageError.message : UsageError → Text
  | noCommand => "Missing command."
  | unknownCommand name => ("No such command " : Text) ++ Text.quoted name
  | unknownOption arg => ("No such option: " : Text) ++ arg
  | missingValue arg => ("Missing value for " : Text) ++ arg
  | unexpectedValue arg => ("No value is allowed in " : Text) ++ arg
  | missingArgument name => ("Missing argument " : Text) ++ name
  | extraArgument arg => ("Unexpected argument " : Text) ++ Text.quoted arg
  | badPath arg => ("No file has the name " : Text) ++ Text.quoted arg
  | badMap value => ("Expected GENERATED=MAPFILE, got " : Text) ++ Text.quoted value
  | noReport => "No report given and none configured."

end CoverageLift.Command
