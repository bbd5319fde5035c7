import CoverageLift.Text.Base64
import CoverageLift.Text.Quoted

/-!
# Base64 VLQ

A signed integer of any size is written as base64 digits of five value bits each, least significant
first; the sixth bit says that another digit follows. The lowest value bit is the sign. A segment is
a sequence of such numbers without separators. The writer stands beside the reader.
-/

namespace CoverageLift.Vlq

/-- Why a segment cannot be read. -/
inductive DecodeError
  /-- A character outside the alphabet. -/
  | invalidCharacter (c : CodePoint) (segment : Text)
  /-- The last digit says that another one follows. -/
  | truncated (segment : Text)
  deriving DecidableEq, Repr

/-- The integer whose magnitude stands in all bits but the lowest and whose sign in the lowest. -/
def signed (n : Nat) : Int := if n % 2 = 1 then -((n / 2 : Nat) : Int) else (n / 2 : Nat)

/-- Reads digits; `value` holds the bits of the current number below `shift`. -/
def decodeFrom (segment : Text) : (value shift : Nat) → Text → Except DecodeError (List Int)
  | _, shift, [] => if shift = 0 then .ok [] else .error (.truncated segment)
  | value, shift, c :: rest =>
    match Base64.digit? c with
    | none => .error (.invalidCharacter c segment)
    | some digit =>
      let value := value + (digit % 32) <<< shift
      if 32 ≤ digit then decodeFrom segment value (shift + 5) rest
      else (decodeFrom segment 0 0 rest).map (signed value :: ·)

/-- The numbers of a segment. -/
def decode (segment : Text) : Except DecodeError (List Int) := decodeFrom segment 0 0 segment

/-- The natural number with the sign of an integer in its lowest bit. -/
def unsigned : Int → Nat
  | .ofNat n => 2 * n
  | .negSucc n => 2 * (n + 1) + 1

/-- The digits of a natural number. -/
def encodeNat (n : Nat) : Text :=
  if n < 32 then [Base64.digitChar n] else Base64.digitChar (32 + n % 32) :: encodeNat (n / 32)
termination_by n
decreasing_by omega

/-- The segment of a list of integers. -/
def encode (numbers : List Int) : Text := numbers.flatMap fun n => encodeNat (unsigned n)

/-- The message of an error. -/
def DecodeError.message : DecodeError → Text
  | invalidCharacter c segment =>
    ("Invalid base64 VLQ character " : Text) ++ Text.quoted [c] ++ (" in segment " : Text)
      ++ Text.quoted segment
  | truncated segment =>
    ("Truncated base64 VLQ value in segment " : Text) ++ Text.quoted segment

end CoverageLift.Vlq
