import CoverageLift.Files
import CoverageLift.OrderedMap

/-!
# File trees

A file tree is a file system as a value: which paths are files, with their contents, and which are
directories. A path is followed component by component; each component before the last must be a
directory, `..` goes up, and a component has at most 255 bytes. There are no links.
-/

namespace CoverageLift

/-- What stands at a place of a file tree. -/
inductive FileNode
  | file (contents : Bytes)
  | directory
  deriving DecidableEq

/-- A file system as a value. A place is the list of components that leads to it from the root. -/
structure FileTree where
  nodes : OrderedMap (List Text) FileNode

namespace FileTree

/-- What stands at a place; the root is a directory. -/
def node? (tree : FileTree) (place : List Text) : Option FileNode :=
  if place.isEmpty then some .directory else OrderedMap.get? tree.nodes place

/-- The tree with a node set. -/
def set (tree : FileTree) (place : List Text) (node : FileNode) : FileTree :=
  ⟨OrderedMap.insert tree.nodes place node⟩

/-- The number of bytes of a code point in a file name, where a lone surrogate stands for one byte. -/
def nameLength : CodePoint → Nat
  | .surrogate _ => 1
  | .char c =>
    let n := c.toNat
    if n < 0x80 then 1 else if n < 0x800 then 2 else if n < 0x10000 then 3 else 4

/-- The number of bytes of a text in a file name. -/
def textLength (t : Text) : Nat := t.foldr (fun point length => nameLength point + length) 0

/-- The greatest number of bytes of a component. -/
def maxComponent : Nat := 255

/-- The greatest number of bytes of a path. -/
def maxPath : Nat := 4095

/-- The place that a directory must be at for a path to go on there. -/
def enter (tree : FileTree) (place : List Text) : Except SystemFault Unit :=
  match tree.node? place with
  | some .directory => .ok ()
  | some (.file _) => .error .notDirectory
  | none => .error .notFound

/-- The place that the components lead to from a place, whether or not anything is there. -/
def follow (tree : FileTree) : (place components : List Text) → Except SystemFault (List Text)
  | place, [] => .ok place
  | place, c :: rest => do
    enter tree place
    if textLength c > maxComponent then throw .nameTooLong
    follow tree (if c = Path.parentComponent then place.dropLast else place ++ [c]) rest

/-- The place that a path leads to from the given directory. -/
def locate (tree : FileTree) (directory path : FilePath) : Except FileFault (List Text) :=
  let name := path.toText
  match nameFault? name with
  | some fault => .error fault
  | none =>
    if textLength name > maxPath then .error (.system .nameTooLong name)
    else
      match tree.follow [] (directory.under path).components with
      | .error fault => .error (.system fault name)
      | .ok place => .ok place

/-- What a path leads to. -/
def node (tree : FileTree) (directory path : FilePath) : Except FileFault FileNode := do
  match tree.node? (← tree.locate directory path) with
  | some node => return node
  | none => throw (.system .notFound path.toText)

/-- The kind of what a path leads to. -/
def kind (tree : FileTree) (directory path : FilePath) : Except FileFault FileKind := do
  match ← tree.node directory path with
  | .file _ => return .regular
  | .directory => return .directory

/-- The contents of the file at a path. -/
def bytes (tree : FileTree) (directory path : FilePath) : Except FileFault Bytes := do
  match ← tree.node directory path with
  | .file contents => return contents
  | .directory => throw (.system .isDirectory path.toText)

/-- The tree as a file system that does not change. -/
def files (tree : FileTree) (directory : FilePath) : Files Id where
  directory := directory
  kind := tree.kind directory
  bytes := tree.bytes directory

/-- Makes a directory in a directory that exists. -/
def makeDirectory (tree : FileTree) (directory path : FilePath) : Except FileFault FileTree := do
  let place ← tree.locate directory path
  match tree.node? place with
  | some _ => throw (.system .alreadyExists path.toText)
  | none => return tree.set place .directory

/-- Makes a directory; one that exists is left as it is. -/
def ensureDirectory (tree : FileTree) (directory path : FilePath) : Except FileFault FileTree :=
  match tree.makeDirectory directory path, tree.kind directory path with
  | .ok tree, _ => .ok tree
  | .error _, .ok .directory => .ok tree
  | .error fault, _ => .error fault

/-- Makes a directory and the directories above it that are missing. The fuel is the number of
directories that may have to be made. -/
def makeDirectories (tree : FileTree) (directory : FilePath) :
    (fuel : Nat) → FilePath → Except FileFault FileTree
  | fuel, path =>
    match tree.ensureDirectory directory path, fuel with
    | .error (.system .notFound _), fuel + 1 => do
      let tree ← tree.makeDirectories directory fuel path.parent
      tree.ensureDirectory directory path
    | outcome, _ => outcome

/-- Writes a file into a directory that exists. -/
def writeFile (tree : FileTree) (directory path : FilePath) (contents : Bytes) :
    Except FileFault FileTree := do
  let place ← tree.locate directory path
  match tree.node? place with
  | some .directory => throw (.system .isDirectory path.toText)
  | _ => return tree.set place (.file contents)

/-- Writes a file and makes the directories above it that are missing. -/
def save (tree : FileTree) (directory path : FilePath) (contents : Bytes) :
    Except FileFault FileTree := do
  let tree ← tree.makeDirectories directory path.components.length path.parent
  tree.writeFile directory path contents

/-- A file tree that is the state of a computation, seen from a directory. -/
def disk (directory : FilePath) : Disk (StateM FileTree) where
  directory := directory
  kind path tree := (tree.kind directory path, tree)
  bytes path tree := (tree.bytes directory path, tree)
  save path contents tree :=
    match tree.save directory path contents with
    | .error fault => (.error fault, tree)
    | .ok written => (.ok (), written)

end FileTree

end CoverageLift
