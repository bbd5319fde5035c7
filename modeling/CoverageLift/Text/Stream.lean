import CoverageLift.Text.Newline
import CoverageLift.Text.Utf8

/-!
# Text that is read in parts

A text file can be read part by part. Its bytes are then taken in **blocks** and decoded block by
block; a sequence that the end of a block breaks off waits for the next block. A block that is not
UTF-8 cannot be read at all, and its error is located from the beginning of the bytes that are decoded
with it. Line ends become `LF`; a `CR` at the end of a block waits too, because `LF` may follow it.

What is read in parts is the text of the whole file, up to the block with an error.
-/

namespace CoverageLift

/-- Whether an error lies in the last bytes only because they end there. What would be a surrogate is
not judged before its third byte. -/
def Utf8.isOpen (bytes : Bytes) (e : Utf8.DecodeError) : Bool :=
  match e.fault, bytes.drop e.start with
  | .unexpectedEnd, _ => true
  | _, [lead, second] => lead = 0xED ∧ 0xA0 ≤ second ∧ second ≤ 0xBF
  | _, _ => false

/-- The text of bytes to which others may follow, and the sequence that their end breaks off. -/
def Utf8.decodeOpen (bytes : Bytes) : Except Utf8.DecodeError (Text × Bytes) :=
  match Utf8.decode bytes with
  | .ok t => .ok (t, [])
  | .error e =>
    if Utf8.isOpen bytes e then
      (Utf8.decode (bytes.take e.start)).map fun t => (t, bytes.drop e.start)
    else .error e

/-- A text file of which a part has been read. -/
structure TextStream where
  /-- The bytes that have not been taken. -/
  bytes : Bytes
  /-- The sequence that the end of the last block broke off. -/
  pending : Bytes
  /-- Whether a `CR` at the end of the last block waits. -/
  heldReturn : Bool
  /-- Text that has been decoded and not been read. -/
  ready : Text
  /-- The number of bytes of the last block. -/
  lastBytes : Nat
  /-- The number of code points that the last block gave. -/
  lastLength : Nat

namespace TextStream

/-- A text file of which nothing has been read. -/
def ofBytes (bytes : Bytes) : TextStream := ⟨bytes, [], false, [], 0, 0⟩

/-- The least number of bytes of a block. -/
def leastBlock : Nat := 8192

/-- The number of bytes to take for a number of code points, at the rate of the last block. -/
def blockSize (s : TextStream) (wanted : Nat) : Nat :=
  if s.lastLength = 0 then max leastBlock wanted
  else max leastBlock (max wanted (s.lastBytes * wanted / s.lastLength))

/-- Decodes bytes to which others may follow unless they are the `last` ones. -/
def decodeBlock (last : Bool) (bytes : Bytes) : Except Utf8.DecodeError (Text × Bytes) :=
  if last then (Utf8.decode bytes).map fun t => (t, []) else Utf8.decodeOpen bytes

/-- Takes a block and decodes it. The mark tells whether the file goes on. -/
def readBlock (s : TextStream) (wanted : Nat) : Except Utf8.DecodeError (Bool × TextStream) := do
  let size := s.blockSize wanted
  let block := s.bytes.take size
  let last := block.isEmpty
  let (text, pending) ← decodeBlock last (s.pending ++ block)
  let waits := s.heldReturn && !last && text.isEmpty
  let text := if s.heldReturn && !waits then .char '\r' :: text else text
  let held := !last && text.getLast? = some (.char '\r')
  let text := Text.unifyNewlines (if held then text.dropLast else text)
  return (!(last && text.isEmpty), {
    bytes := s.bytes.drop size
    pending
    heldReturn := held || waits
    ready := s.ready ++ text
    lastBytes := block.length
    lastLength := text.length })

/-- Reads code points until a number of them has been read or the file ends. Every block but the last
takes a byte, so two more than the number of bytes is enough fuel. -/
def readOn : (fuel : Nat) → (wanted : Nat) → TextStream → Except Utf8.DecodeError (Text × TextStream)
  | 0, _, s => .ok ([], s)
  | fuel + 1, wanted, s => do
    let part := s.ready.take wanted
    let s := { s with ready := s.ready.drop wanted }
    if part.length = wanted then return (part, s)
    let wanted := wanted - part.length
    let (goesOn, s) ← s.readBlock wanted
    if !goesOn then return (part, s)
    let (more, s) ← readOn fuel wanted s
    return (part ++ more, s)

/-- Reads a number of code points, or fewer if the file ends. -/
def read (s : TextStream) (wanted : Nat) : Except Utf8.DecodeError (Text × TextStream) :=
  readOn (s.bytes.length + 3) wanted s

/-- The parts of a file that are read one after the other, and the error that ends them. -/
structure Parts where
  parts : List Text
  error : Option Utf8.DecodeError

/-- The parts with another one in front. -/
def Parts.cons (part : Text) (p : Parts) : Parts := { p with parts := part :: p.parts }

/-- Reads parts of equal length until the file ends. No part but the last is empty, so two more than
the number of bytes is enough fuel. -/
def partsFrom (length : Nat) : (fuel : Nat) → TextStream → Parts
  | 0, _ => ⟨[], none⟩
  | fuel + 1, s =>
    match s.read length with
    | .error e => ⟨[], some e⟩
    | .ok ([], _) => ⟨[], none⟩
    | .ok (part, s) => (partsFrom length fuel s).cons part

/-- The parts of equal length of a file. -/
def partsOf (length : Nat) (bytes : Bytes) : Parts :=
  partsFrom length (bytes.length + 2) (ofBytes bytes)

end TextStream

end CoverageLift
