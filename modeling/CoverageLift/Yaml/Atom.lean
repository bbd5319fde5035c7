import CoverageLift.Json.Display
import CoverageLift.Text.Split
import CoverageLift.Yaml.Node
import CoverageLift.Yaml.Timestamp

/-!
# Scalars of a YAML document

A quoted scalar is a string. A plain scalar is what its form says: null, a truth value, an integer in
one of five notations, a floating point number, a timestamp, or else a string. Two scalars are the same
key when they are equal as values: numbers and truth values are compared as numbers, and times with
offsets as instants.
-/

namespace CoverageLift.Yaml

/-- A scalar of a document. -/
inductive Atom
  | scalar (s : Scalar)
  | timestamp (t : Timestamp)
  deriving DecidableEq

/-! ### Plain scalars -/

/-- The words for truth values. -/
def truthWords : List (Text × Bool) :=
  [("yes", true), ("Yes", true), ("YES", true), ("no", false), ("No", false), ("NO", false),
    ("true", true), ("True", true), ("TRUE", true), ("false", false), ("False", false),
    ("FALSE", false), ("on", true), ("On", true), ("ON", true), ("off", false), ("Off", false),
    ("OFF", false)]

/-- The words for null. -/
def nullWords : List Text := ["", "~", "null", "Null", "NULL"]

/-- A numeral without its sign, and whether the sign is a minus. -/
def splitSign (t : Text) : Bool × Text :=
  match t with
  | .char '-' :: rest => (true, rest)
  | .char '+' :: rest => (false, rest)
  | _ => (false, t)

/-- A text without its underscores. -/
def withoutUnderscores (t : Text) : Text := t.filter (· ≠ .char '_')

/-- Digits of a base and underscores. -/
def isDigitOf (base : Nat) (c : CodePoint) : Bool :=
  c = .char '_' || (c.hexDigit?.any fun d => d < base)

/-- The number that digits of a base write, underscores apart. There must be a digit. -/
def numeralOf (base : Nat) (t : Text) : Except Error Nat :=
  match (withoutUnderscores t).filterMap CodePoint.hexDigit? with
  | [] => .error (.emptyNumeral base)
  | digits =>
    if base = 10 ∧ digits.length > Text.maxNumeralLength then .error (.longInteger digits.length)
    else .ok (Text.ofDigits base digits)

/-- One or two digits below sixty after a colon. -/
def isSexagesimalPart (t : Text) : Bool :=
  match t with
  | [d] => d.isDigit
  | [t, d] => t.digit?.any (· < 6) && d.isDigit
  | _ => false

/-- The parts of a numeral in base sixty: a decimal numeral and parts after colons. -/
def sexagesimal? (firstDigit : CodePoint → Bool) (t : Text) : Option (List Text) :=
  match Text.splitOn (.char ':') t with
  | first :: part :: parts =>
    if first.head?.any firstDigit && first.all (isDigitOf 10) && (part :: parts).all isSexagesimalPart
    then some (first :: part :: parts) else none
  | _ => none

/-- The number that parts in base sixty write. -/
def sexagesimalOf (parts : List Text) : Except Error Nat := do
  let digits ← parts.mapM (numeralOf 10)
  return Text.ofDigits 60 digits

/-- Whether a digit is not zero. -/
def isPositiveDigit (c : CodePoint) : Bool := c.digit?.any (0 < ·)

/-- The magnitude of an integer: binary, hexadecimal, octal, decimal or in base sixty. -/
def integer? (t : Text) : Option (Except Error Nat) :=
  match t with
  | .char '0' :: .char 'b' :: digits =>
    if !digits.isEmpty && digits.all (isDigitOf 2) then some (numeralOf 2 digits) else none
  | .char '0' :: .char 'x' :: digits =>
    if !digits.isEmpty && digits.all (isDigitOf 16) then some (numeralOf 16 digits) else none
  | .char '0' :: digits =>
    if digits.all (isDigitOf 8) then some (numeralOf 8 t) else none
  | first :: rest =>
    if isPositiveDigit first && rest.all (isDigitOf 10) then some (numeralOf 10 t)
    else (sexagesimal? isPositiveDigit t).map sexagesimalOf
  | [] => none

/-- Digits and underscores at the head of a text, and what follows them. -/
def digitRun (t : Text) : Text × Text :=
  (t.takeWhile (isDigitOf 10), t.dropWhile (isDigitOf 10))

/-- The exponent of a decimal: a letter, a sign and digits, or nothing. -/
def exponent? (t : Text) : Option Int :=
  match t with
  | [] => some 0
  | .char e :: .char sign :: digits =>
    if (e = 'e' ∨ e = 'E') ∧ !digits.isEmpty ∧ digits.all CodePoint.isDigit then
      let n : Int := Text.ofDigits 10 (digits.filterMap CodePoint.digit?)
      if sign = '+' then some n else if sign = '-' then some (-n) else none
    else none
  | _ => none

/-- The number `whole.fraction * 10 ^ exponent`. -/
def decimalOf (negative : Bool) (whole fraction : Text) (exponent : Int) : Binary64 :=
  let fraction := withoutUnderscores fraction
  let digits := (withoutUnderscores whole ++ fraction).filterMap CodePoint.digit?
  Binary64.ofDecimal negative (Text.ofDigits 10 digits) (exponent - fraction.length)

/-- The sum of parts in base sixty, the least one first and `base` its weight. Every step is rounded,
and a weight must be a finite number. -/
def sexagesimalSum (base : Nat) (sum : Binary64) : List Binary64 → Except Error Binary64
  | [] => .ok sum
  | part :: parts =>
    let weight := Binary64.ofNat base
    if weight.isFinite then sexagesimalSum (base * 60) (sum.add (part.mul weight)) parts
    else .error .longSexagesimal

/-- The number that parts in base sixty write, of which the last one has a fraction. -/
def sexagesimalFloat (negative : Bool) (parts : List Text) (fraction : Text) :
    Except Error Binary64 := do
  let weighed := match parts.reverse with
    | [] => []
    | last :: others => decimalOf false last fraction 0 :: others.map (decimalOf false · [] 0)
  let sum ← sexagesimalSum 1 (Binary64.ofNat 0) weighed
  return if negative then sum.neg else sum

/-- A number in base sixty with a decimal fraction. -/
def sexagesimalFloat? (negative : Bool) (t : Text) : Option (Except Error Binary64) := do
  let (whole, fraction) ← Text.cutFirst? (.char '.') t
  let parts ← sexagesimal? CodePoint.isDigit whole
  if fraction.all (isDigitOf 10) then some (sexagesimalFloat negative parts fraction) else none

/-- The names of the numbers that are not finite, after their point. -/
def infinityWords : List Text := [".inf", ".Inf", ".INF"]

/-- The names of the number that is none. -/
def nanWords : List Text := [".nan", ".NaN", ".NAN"]

/-- A floating point number. It has a point, and an exponent with a sign or none. -/
def float? (t : Text) : Option (Except Error Binary64) :=
  let (negative, body) := splitSign t
  if nanWords.contains t then some (.ok .nan)
  else if infinityWords.contains body then some (.ok (.infinite negative))
  else
    let (whole, rest) := digitRun body
    match whole, rest with
    | [], .char '.' :: rest =>
      let (fraction, rest) := digitRun rest
      if body = t && fraction.head?.any CodePoint.isDigit then
        (exponent? rest).map fun exponent => .ok (decimalOf negative [] fraction exponent)
      else none
    | first :: _, .char '.' :: rest =>
      let (fraction, rest) := digitRun rest
      if first.isDigit then
        (exponent? rest).map fun exponent => .ok (decimalOf negative whole fraction exponent)
      else none
    | _, _ => sexagesimalFloat? negative body

/-- The value of a plain scalar. -/
def plainAtom (t : Text) : Except Error Atom :=
  let (negative, body) := splitSign t
  if nullWords.contains t then .ok (.scalar .null)
  else
    match truthWords.lookup t, float? t, integer? body with
    | some b, _, _ => .ok (.scalar (.bool b))
    | none, some x, _ => x.map fun x => .scalar (.float x)
    | none, none, some n => n.map fun n => .scalar (.int (if negative then -(n : Int) else n))
    | none, none, none =>
      if t = Text.ofString "=" ∨ t = Text.ofString "<<" then .error .malformed
      else
        match Timestamp.parse? t with
        | some time => time.check.map .timestamp
        | none => .ok (.scalar (.str t))

/-- The value of a scalar. -/
def atomOf (t : Text) (plain : Bool) : Except Error Atom :=
  if plain then plainAtom t else .ok (.scalar (.str t))

/-- The value of a key, for which an equals sign is a string. -/
def keyAtom (t : Text) (plain : Bool) : Except Error Atom :=
  if t = Text.ofString "=" then .ok (.scalar (.str t)) else atomOf t plain

/-! ### Keys -/

/-- The integer that a scalar is compared as. -/
def comparedInt? : Atom → Option Int
  | .scalar (.bool b) => some (if b then 1 else 0)
  | .scalar (.int n) => some n
  | .scalar (.float x) => x.toInt?
  | _ => none

/-- Whether two keys are the same. The number that is none is the same as itself. -/
def sameKey (a b : Atom) : Bool :=
  match a, b with
  | .timestamp s, .timestamp t => s.same t
  | _, _ =>
    match comparedInt? a, comparedInt? b with
    | some m, some n => m = n
    | _, _ => a = b

/-- The words for an integer that is too long to be shown. -/
def unprintableInteger : Text := "<unprintable int object>"

/-- The text of a key in the location of an issue. -/
def Atom.display : Atom → Text
  | .scalar (.str t) => t
  | .scalar (.bool b) => if b then "1" else "0"
  | .scalar .null => Json.display .null
  | .scalar (.int n) =>
    let t := Json.display (.int n)
    if (Text.ofNat n.natAbs).length > Text.maxNumeralLength then unprintableInteger else t
  | .scalar (.float x) => Json.display (.float x)
  | .timestamp t => t.display

end CoverageLift.Yaml
