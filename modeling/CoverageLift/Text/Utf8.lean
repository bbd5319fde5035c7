import CoverageLift.Text.Quoted

/-!
# UTF-8

Each lead byte fixes which bytes may follow it (`trail?`). Decoding cuts the bytes into **pieces**:
a scalar value, or a maximal part that no well-formed sequence has. The strict reader stops at the
first bad piece and says where it lies; the lenient one puts U+FFFD in its place. Text with a lone
surrogate has no encoding.
-/

namespace CoverageLift

/-- The contents of a file. -/
abbrev Bytes := List UInt8

namespace Utf8

/-- Why bytes are not UTF-8. -/
inductive Fault
  /-- No sequence begins with this byte. -/
  | invalidStart
  /-- The sequence is broken off by a byte that may not stand there. -/
  | invalidContinuation
  /-- The bytes end inside a sequence. -/
  | unexpectedEnd
  deriving DecidableEq, Repr

/-- A piece of a byte sequence. -/
inductive Piece
  /-- A well-formed sequence of `length` bytes for the scalar value `c`. -/
  | scalar (c : Char) (length : Nat)
  /-- A part of `length` bytes that begins no well-formed sequence. -/
  | invalid (fault : Fault) (length : Nat)
  deriving DecidableEq, Repr

/-- The number of bytes of a piece. -/
def Piece.length : Piece → Nat
  | .scalar _ n => n
  | .invalid _ n => n

/-- What a lead byte contributes to the scalar value, and the ranges of the bytes that follow it. -/
def trail? (lead : UInt8) : Option (Nat × List (UInt8 × UInt8)) :=
  let n := lead.toNat
  if n < 0x80 then some (n, [])
  else if n < 0xC2 then none
  else if n < 0xE0 then some (n - 0xC0, [(0x80, 0xBF)])
  else if n = 0xE0 then some (0, [(0xA0, 0xBF), (0x80, 0xBF)])
  else if n = 0xED then some (0xD, [(0x80, 0x9F), (0x80, 0xBF)])
  else if n < 0xF0 then some (n - 0xE0, [(0x80, 0xBF), (0x80, 0xBF)])
  else if n = 0xF0 then some (0, [(0x90, 0xBF), (0x80, 0xBF), (0x80, 0xBF)])
  else if n < 0xF4 then some (n - 0xF0, [(0x80, 0xBF), (0x80, 0xBF), (0x80, 0xBF)])
  else if n = 0xF4 then some (4, [(0x80, 0x8F), (0x80, 0xBF), (0x80, 0xBF)])
  else none

/-- Reads the bytes that must follow a lead byte; `value` and `length` tell what came before. -/
def readTrail : (ranges : List (UInt8 × UInt8)) → (value length : Nat) → Bytes → Piece
  | [], value, length, _ => .scalar (Char.ofNat value) length
  | _ :: _, _, length, [] => .invalid .unexpectedEnd length
  | (low, high) :: ranges, value, length, b :: bytes =>
    if low ≤ b ∧ b ≤ high then
      readTrail ranges (value * 64 + (b.toNat - 0x80)) (length + 1) bytes
    else .invalid .invalidContinuation length

/-- The piece that begins with the byte `lead`. -/
def firstPiece (lead : UInt8) (rest : Bytes) : Piece :=
  match trail? lead with
  | none => .invalid .invalidStart 1
  | some (value, ranges) => readTrail ranges value 1 rest

/-- The pieces of a byte sequence after the first `skip` bytes. -/
def piecesAfter : (skip : Nat) → Bytes → List Piece
  | _, [] => []
  | skip + 1, _ :: bytes => piecesAfter skip bytes
  | 0, b :: bytes =>
    let piece := firstPiece b bytes
    piece :: piecesAfter (piece.length - 1) bytes

/-- The pieces of a byte sequence. -/
def pieces (bytes : Bytes) : List Piece := piecesAfter 0 bytes

/-- Bytes that are not UTF-8: the fault and the bytes from `start` to before `stop`. -/
structure DecodeError where
  fault : Fault
  lead : UInt8
  start : Nat
  stop : Nat
  deriving DecidableEq, Repr

/-- Reads pieces up to the first invalid one, which begins at the sum of the lengths before it. -/
def decodePieces (bytes : Bytes) : (start : Nat) → List Piece → Except DecodeError Text
  | _, [] => .ok []
  | start, .scalar c n :: rest => (decodePieces bytes (start + n) rest).map (.char c :: ·)
  | start, .invalid fault n :: _ => .error ⟨fault, bytes.getD start 0, start, start + n⟩

/-- The text that the bytes encode. -/
def decode (bytes : Bytes) : Except DecodeError Text := decodePieces bytes 0 (pieces bytes)

/-- The text that the bytes encode, with U+FFFD for every invalid piece. -/
def decodeLossy (bytes : Bytes) : Text :=
  (pieces bytes).map fun
    | .scalar c _ => .char c
    | .invalid _ _ => .char '\uFFFD'

/-- The bytes that encode the scalar value with number `n`. -/
def encodeScalar (n : Nat) : Bytes :=
  if n < 0x80 then [UInt8.ofNat n]
  else if n < 0x800 then [UInt8.ofNat (0xC0 + n / 64), UInt8.ofNat (0x80 + n % 64)]
  else if n < 0x10000 then
    [UInt8.ofNat (0xE0 + n / 4096), UInt8.ofNat (0x80 + n / 64 % 64), UInt8.ofNat (0x80 + n % 64)]
  else
    [UInt8.ofNat (0xF0 + n / 262144), UInt8.ofNat (0x80 + n / 4096 % 64),
      UInt8.ofNat (0x80 + n / 64 % 64), UInt8.ofNat (0x80 + n % 64)]

/-- Text without an encoding: lone surrogates stand from `start` to before `stop`. -/
structure EncodeError where
  surrogate : CodePoint
  start : Nat
  stop : Nat
  deriving DecidableEq, Repr

/-- The length of the run of lone surrogates at the head of a text. -/
def surrogateRun : Text → Nat
  | .surrogate _ :: rest => surrogateRun rest + 1
  | _ => 0

/-- Encodes a text of which `start` code points have been read. -/
def encodeFrom : (start : Nat) → Text → Except EncodeError Bytes
  | _, [] => .ok []
  | start, .char c :: rest => (encodeFrom (start + 1) rest).map (encodeScalar c.toNat ++ ·)
  | start, .surrogate s :: rest =>
    .error ⟨.surrogate s, start, start + 1 + surrogateRun rest⟩

/-- The bytes that encode a text. -/
def encode (t : Text) : Except EncodeError Bytes := encodeFrom 0 t

/-! ### Messages -/

/-- The message for text that has no encoding. -/
def EncodeError.message (e : Utf8.EncodeError) : Text :=
  if e.stop = e.start + 1 then
    ("\x27utf-8\x27 codec can\x27t encode character " : Text) ++ Text.quoted [e.surrogate]
      ++ (" in position " : Text) ++ Text.ofNat e.start ++ (": surrogates not allowed" : Text)
  else
    ("\x27utf-8\x27 codec can\x27t encode characters in position " : Text) ++ Text.ofNat e.start
      ++ ("-" : Text) ++ Text.ofNat (e.stop - 1) ++ (": surrogates not allowed" : Text)

/-- The description of a fault in the bytes. -/
def Fault.description : Utf8.Fault → Text
  | invalidStart => "invalid start byte"
  | invalidContinuation => "invalid continuation byte"
  | unexpectedEnd => "unexpected end of data"

/-- The message for bytes that are not UTF-8. -/
def DecodeError.message (e : Utf8.DecodeError) : Text :=
  if e.stop = e.start + 1 then
    ("\x27utf-8\x27 codec can\x27t decode byte 0x" : Text) ++ Text.ofHex 2 e.lead.toNat
      ++ (" in position " : Text) ++ Text.ofNat e.start ++ (": " : Text) ++ e.fault.description
  else
    ("\x27utf-8\x27 codec can\x27t decode bytes in position " : Text) ++ Text.ofNat e.start
      ++ ("-" : Text) ++ Text.ofNat (e.stop - 1) ++ (": " : Text) ++ e.fault.description

end Utf8

end CoverageLift
