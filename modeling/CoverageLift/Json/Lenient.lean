import CoverageLift.Json.Basic
import CoverageLift.Text.Blank
import CoverageLift.Text.Digits
import CoverageLift.Text.Split
import CoverageLift.Validation

/-!
# Lenient conversions

Coordinates and switches may be written in more than one way. An integer is an integer, a truth
value, a whole number of moderate size, or a numeral in a string; a switch is a truth value, zero,
one, or one of a few words. A conversion that fails says which rule it broke.
-/

namespace CoverageLift.Lenient

/-- The bound of signed integers of 64 bits. -/
def wordBound : Int := Nat.pow 2 63

/-- Whether an integer has a signed representation in 64 bits. -/
def fitsWord (n : Int) : Bool := -wordBound ≤ n && n < wordBound

/-- The integer that a floating point number equals. -/
def intOfFloat (x : Binary64) : Except IssueKind Int :=
  match x with
  | .finite _ _ _ =>
    match x.toInt? with
    | none => .error .intFromFloat
    | some n => if -wordBound < n ∧ n < wordBound then .ok n else .error .intParsingSize
  | _ => .error .finiteNumber

/-! ### Numerals

A numeral is a sign, digits with single underscores between them, and perhaps a fraction of zeros.
Leading zeros are taken off first, together with all underscores among them, and what is left may
begin with a minus sign of its own if there was none in front. No more than `Text.maxNumeralLength`
digits may be left. A sign is not counted with them, nor is anything that was taken off.
-/

/-- Takes off the zeros and underscores that follow a zero. Of nothing but those the last one is
left, and in front of a fraction too. -/
def afterZeros? (last : CodePoint) : Text → Option Text
  | [] => some [last]
  | c :: rest =>
    if c = .char '0' ∨ c = .char '_' then afterZeros? c rest
    else if c = .char '.' then some (last :: c :: rest)
    else if c.isDigit ∨ c = .char '-' then some (c :: rest)
    else none

/-- Takes off leading zeros. A text that begins neither with a digit nor with a minus sign is no
numeral. -/
def withoutZeros? (t : Text) : Option Text :=
  match t with
  | [] => none
  | c :: rest =>
    if c = .char '0' then afterZeros? c rest
    else if c.isDigit ∨ c = .char '-' then some t
    else none

/-- Takes off a fraction of zeros. -/
def withoutFraction (t : Text) : Text :=
  match Text.cutFirst? (.char '.') t with
  | some (whole, fraction) =>
    if !fraction.isEmpty && fraction.all (· = .char '0') then whole else t
  | none => t

/-- Takes out underscores. None may stand at an end or beside another one. -/
def withoutUnderscores? (t : Text) : Option Text :=
  let groups := Text.splitOn (.char '_') t
  if groups.all fun group => !group.isEmpty then some groups.flatten else none

/-- The number of digits without a leading zero that are not too many. A sign is no digit, so it has
no part in the limit. -/
def plainNumber? (t : Text) : Option Nat :=
  if t.length > Text.maxNumeralLength ∨ (t.head? = some (.char '0') ∧ t.length > 1) then none
  else Text.toNat? t

/-- The integer of digits without a leading zero, with or without a minus sign. -/
def plainInteger? (t : Text) : Option Int :=
  match t with
  | .char '-' :: digits => (plainNumber? digits).map fun n => -(n : Int)
  | _ => (plainNumber? t).map Int.ofNat

/-- Takes off a plus sign, which no minus sign may follow. -/
def withoutPlus? (t : Text) : Option Text :=
  match t with
  | .char '+' :: .char '-' :: _ => none
  | .char '+' :: rest => some rest
  | _ => some t

/-- The integer that a numeral writes. -/
def numeral? (t : Text) : Option Int := do
  let plain := fun (minus t : Text) => do
    let digits ← withoutUnderscores? (withoutFraction (← withoutZeros? t))
    plainInteger? (minus ++ digits)
  match ← withoutPlus? t with
  | .char '-' :: rest => plain [.char '-'] rest
  | rest => plain [] rest

/-- Whether a text begins with too many digits, perhaps behind a minus sign, which is not counted
with them. A leading zero begins no such run. -/
def beginsTooLong (t : Text) : Bool :=
  let digits := match t with
    | .char '-' :: rest => rest
    | _ => t
  digits.head? ≠ some (.char '0')
    && (digits.takeWhile CodePoint.isDigit).length > Text.maxNumeralLength

/-- The integer that a text writes. White space around it is ignored. -/
def intOfText (t : Text) : Except IssueKind Int :=
  if t.hasSurrogate then .error .stringUnicode
  else if beginsTooLong t then .error .intParsingSize
  else
    match numeral? (Text.trim CodePoint.isWhite t) with
    | some n => .ok n
    | none => .error .intParsing

/-- The integer that a scalar stands for. -/
def intOfScalar : Scalar → Except IssueKind Int
  | .null => .error .intType
  | .bool b => .ok (if b then 1 else 0)
  | .int n => .ok n
  | .float x => intOfFloat x
  | .str t => intOfText t

/-- The integer that a value stands for. -/
def int (v : Json) : Except IssueKind Int :=
  match v.scalar with
  | .ok s => intOfScalar s
  | .error _ => .error .intType

/-- The words for "off" and for "on". -/
def switchWords : List (Text × Bool) :=
  [("0", false), ("off", false), ("f", false), ("false", false), ("n", false), ("no", false),
    ("1", true), ("on", true), ("t", true), ("true", true), ("y", true), ("yes", true)]

/-- A letter of ASCII in lower case. -/
def lower : CodePoint → CodePoint
  | .char c => .char c.toLower
  | other => other

/-- The truth value that zero and one stand for. -/
def boolOfInt? (n : Int) : Option Bool :=
  if n = 0 then some false else if n = 1 then some true else none

/-- The truth value that a scalar stands for. -/
def boolOfScalar : Scalar → Except IssueKind Bool
  | .null => .error .boolType
  | .bool b => .ok b
  | .int n =>
    match boolOfInt? n with
    | some b => .ok b
    | none => if fitsWord n then .error .boolParsing else .error .boolType
  | .float x =>
    match intOfFloat x with
    | .error _ => .error .boolType
    | .ok n =>
      match boolOfInt? n with
      | some b => .ok b
      | none => .error .boolParsing
  | .str t =>
    match switchWords.find? fun word => word.1 = t.map lower with
    | some (_, b) => .ok b
    | none => .error (if t.hasSurrogate then .stringUnicode else .boolParsing)

/-- The truth value that a value stands for. -/
def bool (v : Json) : Except IssueKind Bool :=
  match v.scalar with
  | .ok s => boolOfScalar s
  | .error _ => .error .boolType

/-- The text of a string. -/
def text (v : Json) : Except IssueKind Text :=
  match v with
  | .str t => .ok t
  | _ => .error .stringType

/-- The items of an array. -/
def list (v : Json) : Except IssueKind (List Json) :=
  match v with
  | .arr items => .ok items
  | _ => .error .listType

/-- A value that may be null, converted when it is not. -/
def optional {α : Type} (convert : Json → Except IssueKind α) (v : Json) :
    Except IssueKind (Option α) :=
  match v with
  | .null => .ok none
  | _ => (convert v).map some

end CoverageLift.Lenient
