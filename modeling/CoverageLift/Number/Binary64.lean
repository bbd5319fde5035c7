/-!
# Double precision numbers

A finite number is a sign, a significand and a binary exponent; its magnitude is
`significand * 2 ^ exponent`. Numbers built here are in normal form: the significand is below
`2 ^ 53`, the exponent at least `-1074`, and one of the two bounds is as tight as the value allows.
All arithmetic is exact arithmetic of naturals, rounded once to the nearest number.
-/

namespace CoverageLift

/-- A number of the IEEE 754 format `binary64`. -/
inductive Binary64
  | nan
  | infinite (negative : Bool)
  | finite (negative : Bool) (significand : Nat) (exponent : Int)
  deriving DecidableEq, Inhabited, Repr

namespace Binary64

/-- The least binary exponent. -/
def minExponent : Int := -1074

/-- The greatest binary exponent. -/
def maxExponent : Int := 971

/-- `num / den` rounded to the nearest natural number, a half to the even neighbour. -/
def roundQuotient (num den : Nat) : Nat :=
  let q := num / den
  let r := num % den
  if 2 * r < den then q else if 2 * r > den then q + 1 else q + q % 2

/-- The fraction `num / den * 2 ^ (-e)` as numerator and denominator. -/
def scaleDown (num den : Nat) (e : Int) : Nat × Nat :=
  if 0 ≤ e then (num, den * Nat.pow 2 e.toNat) else (num * Nat.pow 2 (-e).toNat, den)

/-- The greatest `k` with `2 ^ k ≤ num / den`, for positive `num` and `den`. -/
def binaryExponent (num den : Nat) : Int :=
  let k : Int := (Nat.log2 num : Int) - (Nat.log2 den : Int)
  let (n, d) := scaleDown num den k
  if d ≤ n then k else k - 1

/-- The number nearest to `num / den`, a tie going to the even significand. -/
def ofQuotient (negative : Bool) (num den : Nat) : Binary64 :=
  if num = 0 then finite negative 0 minExponent
  else
    let e := max (binaryExponent num den - 52) minExponent
    let (n, d) := scaleDown num den e
    let m := roundQuotient n d
    let (m, e) := if m = Nat.pow 2 53 then (Nat.pow 2 52, e + 1) else (m, e)
    if e > maxExponent then infinite negative else finite negative m e

/-- The number nearest to `digits * 10 ^ exponent`. Exponents beyond the range of the format decide
the result without the power being computed. -/
def ofDecimal (negative : Bool) (digits : Nat) (exponent : Int) : Binary64 :=
  let size : Int := exponent + (Nat.toDigits 10 digits).length
  if digits = 0 ∨ size < -330 then finite negative 0 minExponent
  else if size > 310 then infinite negative
  else if 0 ≤ exponent then ofQuotient negative (digits * Nat.pow 10 exponent.toNat) 1
  else ofQuotient negative digits (Nat.pow 10 (-exponent).toNat)

/-! ### Arithmetic

The exact result of an operation is rounded once.
-/

/-- The number nearest to `significand * 2 ^ exponent`. -/
def ofScaled (negative : Bool) (significand : Nat) (exponent : Int) : Binary64 :=
  let (num, den) := scaleDown significand 1 (-exponent)
  ofQuotient negative num den

/-- The number nearest to a natural number. -/
def ofNat (n : Nat) : Binary64 := ofQuotient false n 1

/-- The number with the other sign. -/
def neg : Binary64 → Binary64
  | nan => nan
  | infinite negative => infinite (!negative)
  | finite negative m e => finite (!negative) m e

/-- A magnitude with its sign. -/
def signed (negative : Bool) (n : Nat) : Int := if negative then -(n : Int) else n

/-- The number nearest to a sum. A sum of zero is negative only if both numbers are. -/
def add : Binary64 → Binary64 → Binary64
  | finite s m e, finite t n f =>
    let least := min e f
    let sum := signed s (m * Nat.pow 2 (e - least).toNat) + signed t (n * Nat.pow 2 (f - least).toNat)
    if sum = 0 then finite (s && t) 0 minExponent else ofScaled (sum < 0) sum.natAbs least
  | infinite s, infinite t => if s = t then infinite s else nan
  | infinite s, finite _ _ _ => infinite s
  | finite _ _ _, infinite t => infinite t
  | _, _ => nan

/-- The number nearest to a product. -/
def mul : Binary64 → Binary64 → Binary64
  | finite s m e, finite t n f => ofScaled (s != t) (m * n) (e + f)
  | infinite s, infinite t => infinite (s != t)
  | infinite s, finite t n _ => if n = 0 then nan else infinite (s != t)
  | finite s m _, infinite t => if m = 0 then nan else infinite (s != t)
  | _, _ => nan

/-! ### Questions -/

/-- Whether the number is finite. -/
def isFinite : Binary64 → Bool
  | finite _ _ _ => true
  | _ => false

/-- The number `0.0` or `-0.0`. -/
def isZero : Binary64 → Bool
  | finite _ m _ => m == 0
  | _ => false

/-- The integer that a finite number without a fraction equals. -/
def toInt? : Binary64 → Option Int
  | finite negative m e =>
    let magnitude : Option Nat :=
      if 0 ≤ e then some (m * Nat.pow 2 e.toNat)
      else if m % Nat.pow 2 (-e).toNat = 0 then some (m / Nat.pow 2 (-e).toNat)
      else none
    magnitude.map fun n => if negative then -(n : Int) else n
  | _ => none

end Binary64

end CoverageLift
