import CoverageLift.Text.Utf8

/-!
# Percent escapes

In a URL, `%` and two hexadecimal digits stand for a byte. Each run of ASCII characters is read as
bytes and then as UTF-8, with U+FFFD for what is not UTF-8; a `%` without two digits stands for
itself, and code points outside ASCII are kept.
-/

namespace CoverageLift.Percent

/-- The byte that two hexadecimal digits write. -/
def byte? (high low : CodePoint) : Option UInt8 := do
  let h ← high.hexDigit?
  let l ← low.hexDigit?
  return UInt8.ofNat (h * 16 + l)

/-- The bytes of a run of ASCII characters after the first `skip` of them. -/
def bytesAfter : (skip : Nat) → Text → Bytes
  | _, [] => []
  | skip + 1, _ :: rest => bytesAfter skip rest
  | 0, c :: rest =>
    match c, rest with
    | .char '%', high :: low :: _ =>
      match byte? high low with
      | some b => b :: bytesAfter 2 rest
      | none => UInt8.ofNat c.value :: bytesAfter 0 rest
    | _, _ => UInt8.ofNat c.value :: bytesAfter 0 rest

/-- A run of code points that are all in ASCII or all outside it, with its escapes read. -/
def decodeRun (run : Text) : Text :=
  if run.all CodePoint.isAscii then Utf8.decodeLossy (bytesAfter 0 run) else run

/-- The text with its percent escapes read. -/
def decode (t : Text) : Text :=
  (t.splitBy fun a b => a.isAscii == b.isAscii).flatMap decodeRun

/-- The escape of a byte, with upper-case digits. -/
def encodeByte (b : UInt8) : Text :=
  [.char '%', .char (Nat.digitChar (b.toNat / 16)).toUpper,
    .char (Nat.digitChar (b.toNat % 16)).toUpper]

/-- The escapes of all bytes. -/
def encode (bytes : Bytes) : Text := bytes.flatMap encodeByte

end CoverageLift.Percent
