import CoverageLift.Path.Components
import CoverageLift.Text.Utf8
import CoverageLift.Text.Newline
import CoverageLift.Text.Quoted

/-!
# Access to files

What the library needs of a file system: the kind of a path and the bytes of a file, in any monad.
Every access can fail, and a failure says which path it is about. Three questions are asked in terms
of the two: whether a path is a regular file, whether it exists, and which text a file holds. A disk
can also be written to.
-/

namespace CoverageLift

/-- Why the file system refuses an operation. -/
inductive SystemFault
  | notFound
  | notDirectory
  | isDirectory
  | alreadyExists
  | nameTooLong
  deriving DecidableEq, Repr

/-- Why a path cannot be used. -/
inductive FileFault
  /-- The file system refuses the operation at this path. -/
  | system (fault : SystemFault) (path : Text)
  /-- The path holds a null character. -/
  | nullCharacter
  /-- The path holds a lone surrogate. -/
  | unencodable (error : Utf8.EncodeError)
  deriving DecidableEq, Repr

/-- The number of a refusal and its description. -/
def SystemFault.description : SystemFault → Nat × Text
  | notFound => (2, "No such file or directory")
  | alreadyExists => (17, "File exists")
  | notDirectory => (20, "Not a directory")
  | isDirectory => (21, "Is a directory")
  | nameTooLong => (36, "File name too long")

/-- The message of a fault. -/
def FileFault.message : FileFault → Text
  | system fault path =>
    let (number, description) := fault.description
    ("[Errno " : Text) ++ Text.ofNat number ++ ("] " : Text) ++ description ++ (": " : Text)
      ++ Text.quoted path
  | nullCharacter => "embedded null byte"
  | unencodable error => error.message

/-! ### Names of files -/

/-- Surrogates that stand for a byte outside ASCII in a file name. -/
def escapesByte (offset : Fin 0x800) : Bool := 0x480 ≤ offset.val && offset.val ≤ 0x4FF

/-- The lone surrogates that keep a text from being a file name. -/
def unencodable? : (start : Nat) → Text → Option Utf8.EncodeError
  | _, [] => none
  | start, .char _ :: rest => unencodable? (start + 1) rest
  | start, .surrogate s :: rest =>
    if escapesByte s then unencodable? (start + 1) rest
    else some ⟨.surrogate s, start, start + 1 + Utf8.surrogateRun rest⟩

/-- What keeps a text from being a file name. -/
def nameFault? (name : Text) : Option FileFault :=
  match unencodable? 0 name with
  | some error => some (.unencodable error)
  | none => if name.contains (.char '\x00') then some .nullCharacter else none

namespace FilePath

/-- Follows components from the ones read so far, which are in reverse. The file system is asked for
every path on the way. -/
def walk : (read components : List Text) → Except FileFault (List Text)
  | read, [] => .ok read.reverse
  | read, c :: rest =>
    let read := Path.step true read c
    match nameFault? (toText ⟨[Path.separator], read.reverse⟩) with
    | some fault => .error fault
    | none => walk read rest

/-- The absolute path without `.` and `..` that `p` names, unless a path on the way has no name. -/
def resolve? (directory p : FilePath) : Except FileFault FilePath :=
  (walk [] (directory.under p).components).map fun components =>
    { root := [Path.separator], components }

end FilePath

/-! ### Access -/

/-- What a path can lead to. -/
inductive FileKind
  | regular
  | directory
  deriving DecidableEq, Repr

/-- Access to a file system in the monad `m`. -/
structure Files (m : Type → Type) where
  /-- The current directory. -/
  directory : FilePath
  /-- What a path leads to. -/
  kind : FilePath → m (Except FileFault FileKind)
  /-- The contents of the file at a path. -/
  bytes : FilePath → m (Except FileFault Bytes)

/-- Access to a file system that can be written to. -/
structure Disk (m : Type → Type) extends Files m where
  /-- Writes a file and makes the directories above it that are missing. -/
  save : FilePath → Bytes → m (Except FileFault Unit)

/-- Whether the outcome of asking for a kind passes the test. A path that leads nowhere, or that no
file can have, fails the test; a name that is too long is a fault. -/
def FileKind.test (wanted : FileKind → Bool) : Except FileFault FileKind → Except FileFault Bool
  | .ok kind => .ok (wanted kind)
  | .error (.system .nameTooLong path) => .error (.system .nameTooLong path)
  | .error _ => .ok false

/-- Why the text of a file cannot be had. -/
inductive TextFault
  | file (fault : FileFault)
  | encoding (error : Utf8.DecodeError)
  deriving DecidableEq, Repr

/-- The message of a fault. -/
def TextFault.message : TextFault → Text
  | file fault => fault.message
  | encoding error => error.message

/-- The text that the contents of a file encode, with uniform line ends. -/
def fileText (contents : Except FileFault Bytes) : Except TextFault Text :=
  match contents with
  | .error fault => .error (.file fault)
  | .ok bytes =>
    match Utf8.decode bytes with
    | .error error => .error (.encoding error)
    | .ok text => .ok (Text.unifyNewlines text)

namespace Files

variable {m : Type → Type} [Monad m] (files : Files m)

/-- Whether a path leads to a regular file. -/
def isRegular (path : FilePath) : m (Except FileFault Bool) := do
  return FileKind.test (· = .regular) (← files.kind path)

/-- Whether a path leads anywhere. -/
def doesExist (path : FilePath) : m (Except FileFault Bool) := do
  return FileKind.test (fun _ => true) (← files.kind path)

/-- The text of a file. -/
def text (path : FilePath) : m (Except TextFault Text) := do
  return fileText (← files.bytes path)

end Files

end CoverageLift
