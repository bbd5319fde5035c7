import CoverageLift.Text.CodePoint

/-!
# Numerals

Decimal numerals of naturals and integers, and hexadecimal numerals of a fixed width. Reading takes
any list of digits, leading zeros included.
-/

namespace CoverageLift.Text

/-- The decimal numeral of a natural number. -/
def ofNat (n : Nat) : Text := (Nat.toDigits 10 n).map .char

/-- The decimal numeral of an integer, with a minus sign when it is negative. -/
def ofInt : Int → Text
  | .ofNat n => ofNat n
  | .negSucc n => .char '-' :: ofNat (n + 1)

/-- The lower-case hexadecimal numeral of `n` in `width` digits; higher digits are cut off. -/
def ofHex : (width n : Nat) → Text
  | 0, _ => []
  | width + 1, n => ofHex width (n / 16) ++ [.char (Nat.digitChar (n % 16))]

/-- The number written by digits in the given base, most significant first. -/
def ofDigits (base : Nat) (digits : List Nat) : Nat :=
  digits.foldl (fun n d => n * base + d) 0

/-- The number that a non-empty list of decimal digits writes. -/
def toNat? (t : Text) : Option Nat :=
  match t with
  | [] => none
  | _ :: _ => (t.mapM CodePoint.digit?).map (ofDigits 10)

/-- The number that a non-empty list of hexadecimal digits writes. -/
def hexToNat? (t : Text) : Option Nat :=
  match t with
  | [] => none
  | _ :: _ => (t.mapM CodePoint.hexDigit?).map (ofDigits 16)

/-- The longest numeral that this program converts between text and number, in digits. -/
def maxNumeralLength : Nat := 4300

end CoverageLift.Text
