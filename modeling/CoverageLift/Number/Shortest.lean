import CoverageLift.Number.Binary64
import CoverageLift.Text.Digits

/-!
# The shortest decimal of a number

Of the decimals that round to a given double precision number, the text shows the one with the
fewest digits, and of those the nearest one; a tie goes to the even digit. For a grid of decimals
with a fixed number of digits it is enough to look at the two neighbours of the value.
-/

namespace CoverageLift.Binary64

/-- A positive value and the reals that round to it, as multiples of a common unit `1 / den`: the
value is `value / den`, and a real rounds to it when it lies between `low / den` and `high / den`,
the ends included if `closed`. -/
structure Rounding where
  value : Nat
  low : Nat
  high : Nat
  den : Nat
  closed : Bool

/-- The rounding interval of `m * 2 ^ e`. Below a power of two the neighbour is half as far. -/
def rounding (m : Nat) (e : Int) : Rounding :=
  let below := if m = Nat.pow 2 52 ∧ e > minExponent then 1 else 2
  let scale := Nat.pow 2 (e - 2).toNat
  { value := 4 * m * scale
    low := (4 * m - below) * scale
    high := (4 * m + 2) * scale
    den := Nat.pow 2 (2 - e).toNat
    closed := m % 2 = 0 }

/-- Whether the decimal `digits * 10 ^ place` rounds to the value. -/
def Rounding.covers (r : Rounding) (digits : Nat) (place : Int) : Bool :=
  let x := digits * r.den * Nat.pow 10 place.toNat
  let unit := Nat.pow 10 (-place).toNat
  if r.closed then r.low * unit ≤ x && x ≤ r.high * unit
  else r.low * unit < x && x < r.high * unit

/-- The decimal of the grid `10 ^ place` that rounds to the value and is nearest to it. -/
def Rounding.onGrid? (r : Rounding) (place : Int) : Option Nat :=
  let num := r.value * Nat.pow 10 (-place).toNat
  let den := r.den * Nat.pow 10 place.toNat
  let lower := num / den
  let rest := num % den
  match r.covers lower place, r.covers (lower + 1) place with
  | true, true =>
    some (if 2 * rest < den then lower
      else if 2 * rest > den then lower + 1
      else lower + lower % 2)
  | true, false => some lower
  | false, true => some (lower + 1)
  | false, false => none

/-- The least `k` with `num / den < 10 ^ k`, searched from the given place upwards. -/
def decimalExponentFrom (num den : Nat) : (fuel : Nat) → Int → Int
  | 0, k => k
  | fuel + 1, k =>
    if num * Nat.pow 10 (-k).toNat < den * Nat.pow 10 k.toNat then k
    else decimalExponentFrom num den fuel (k + 1)

/-- The least `k` with `num / den < 10 ^ k`. A binary digit is worth between `3 / 10` and `31 / 100`
of a decimal digit, which gives the place where the search begins. -/
def decimalExponent (num den : Nat) : Int :=
  let b := binaryExponent num den
  decimalExponentFrom num den 20 ((if 0 ≤ b then b * 30 / 100 else b * 31 / 100) - 1)

/-- Looks on finer and finer grids, beginning with `count` digits. -/
def Rounding.search (r : Rounding) (size : Int) : (fuel count : Nat) → Nat × Int
  | 0, count =>
    (r.value * Nat.pow 10 (count - size).toNat / (r.den * Nat.pow 10 (size - count).toNat),
      size - count)
  | fuel + 1, count =>
    match r.onGrid? (size - count) with
    | some digits => (digits, size - count)
    | none => r.search size fuel (count + 1)

/-- The decimal without its trailing zeros. -/
def dropZeros : (fuel : Nat) → Nat × Int → Nat × Int
  | 0, d => d
  | fuel + 1, (digits, place) =>
    if digits ≠ 0 ∧ digits % 10 = 0 then dropZeros fuel (digits / 10, place + 1)
    else (digits, place)

/-- The shortest decimal `digits * 10 ^ place` that rounds to the positive number `m * 2 ^ e`. -/
def shortest (m : Nat) (e : Int) : Nat × Int :=
  let r := rounding m e
  dropZeros 20 (r.search (decimalExponent r.value r.den) 17 1)

/-- The text of a number that is not finite. -/
structure Names where
  nan : Text
  infinity : Text

/-- Digits with a decimal point after the first `point` of them, zeros filling the gaps. -/
def positional (digits : Text) (point : Int) : Text :=
  let zero : CodePoint := .char '0'
  if point ≤ 0 then
    ("0." : Text) ++ List.replicate (-point).toNat zero ++ digits
  else if point.toNat < digits.length then
    digits.take point.toNat ++ [.char '.'] ++ digits.drop point.toNat
  else
    digits ++ List.replicate (point.toNat - digits.length) zero ++ (".0" : Text)

/-- Digits with a point after the first one and a power of ten with a sign and two digits at least. -/
def exponential (digits : Text) (exponent : Int) : Text :=
  let mantissa :=
    match digits with
    | first :: second :: rest => first :: .char '.' :: second :: rest
    | short => short
  let size := Text.ofNat exponent.natAbs
  let padded := if size.length < 2 then .char '0' :: size else size
  mantissa ++ [.char 'e', .char (if exponent < 0 then '-' else '+')] ++ padded

/-- The text of a number: its shortest decimal, positional from `0.0001` to below `10 ^ 16` and with
a power of ten beyond. -/
def toText (names : Names) : Binary64 → Text
  | nan => names.nan
  | infinite negative => (if negative then [.char '-'] else []) ++ names.infinity
  | finite negative m e =>
    let sign : Text := if negative then [.char '-'] else []
    if m = 0 then sign ++ ("0.0" : Text)
    else
      let (n, place) := shortest m e
      let digits := Text.ofNat n
      let point := place + digits.length
      sign ++ (if -4 < point ∧ point ≤ 16 then positional digits point
        else exponential digits (point - 1))

end CoverageLift.Binary64
