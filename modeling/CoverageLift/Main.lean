import CoverageLift.Command.Run

/-!
# The program

The outer layer: the file system and the standard streams of the machine. All decisions are made by
`Command.run`.
-/

namespace CoverageLift

/-- The fault that an error of the machine stands for, if it is one of those that commands know. -/
def systemFault? : IO.Error → Option SystemFault
  | .noFileOrDirectory _ _ _ => some .notFound
  | .alreadyExists _ _ _ => some .alreadyExists
  | .inappropriateType _ code _ => some (if code = 21 then .isDirectory else .notDirectory)
  | .invalidArgument _ code _ => if code = 36 then some .nameTooLong else none
  | _ => none

/-- The outcome of an access to a path. Errors that no command knows end the program. -/
def access {α : Type} (path : FilePath) (act : String → IO α) : IO (Except FileFault α) := do
  match nameFault? path.toText with
  | some fault => return .error fault
  | none =>
    try
      return .ok (← act path.toText.toString)
    catch error =>
      match systemFault? error with
      | some fault => return .error (.system fault path.toText)
      | none => throw error

/-- The kind of what a path leads to. A directory can be opened and not be read. -/
def machineKind (path : FilePath) : IO (Except FileFault FileKind) := do
  match ← access path fun name => IO.FS.withFile name .read fun handle => handle.read 1 with
  | .ok _ => return .ok .regular
  | .error (.system .isDirectory _) => return .ok .directory
  | .error fault => return .error fault

/-- The file system of the machine. -/
def machineDisk (directory : FilePath) : Disk IO where
  directory := directory
  kind := machineKind
  bytes path := access path fun name => return (← IO.FS.readBinFile name).toList
  save path contents := do
    match ← access path.parent fun name => IO.FS.createDirAll name with
    | .error fault => return .error fault
    | .ok () => access path fun name => IO.FS.writeBinFile name ⟨contents.toArray⟩

/-- Runs the program and writes its outcome to the standard streams. -/
def runProgram (args : List String) : IO UInt32 := do
  let directory := FilePath.ofText (Text.ofString (← IO.currentDir).toString)
  let outcome ← Command.run (machineDisk directory) (args.map Text.ofString)
  IO.print outcome.output.toString
  IO.eprint outcome.errorOutput.toString
  match outcome.stop with
  | some (.misused error) =>
    for line in Command.usageLines do
      IO.eprintln line.toString
    IO.eprintln error.message.toString
  | some (.failed failure) => IO.eprintln failure.message.toString
  | _ => pure ()
  return UInt32.ofNat outcome.status

end CoverageLift

/-- The program. -/
def main (args : List String) : IO UInt32 := CoverageLift.runProgram args
