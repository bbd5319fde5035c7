import CoverageLift.Json.Basic
import CoverageLift.Text.Digits
import CoverageLift.Text.Split

/-!
# Reading JSON

The reader takes a whole text. It accepts the grammar of RFC 8259 and the names of the numbers that
are not finite; a repeated key keeps its first place and gets its last value. A refusal says what
was expected and where: the index of a code point, and the line and column that it stands in.
Integer literals beyond `Text.maxNumeralLength` digits are refused for their length.
-/

namespace CoverageLift.Json

/-- What is wrong with a text that is not JSON. -/
inductive Problem
  | expectingValue
  | expectingName
  | expectingColon
  | expectingComma
  | extraData
  | unterminatedString
  | controlCharacter
  | invalidEscape
  | invalidUnicodeEscape
  | byteOrderMark
  deriving DecidableEq, Repr

/-- Why a text could not be read. -/
inductive ReadError
  /-- The text is not JSON; the place is given by line and column from one and by index from zero. -/
  | malformed (problem : Problem) (line column index : Nat)
  /-- An integer literal has too many digits. -/
  | longInteger (digits : Nat)
  deriving DecidableEq, Repr

/-- A fault at an index, before its line and column are known. -/
inductive Fault
  | at (problem : Problem) (index : Nat)
  | longInteger (digits : Nat)
  deriving DecidableEq, Repr

/-- A place in a text: the number of code points before it and the text from it on. -/
structure Cursor where
  index : Nat
  rest : Text

/-- White space between tokens. -/
def isSpace (c : CodePoint) : Bool :=
  c = .char ' ' || c = .char '\t' || c = .char '\n' || c = .char '\r'

/-- The cursor `n` code points further on. -/
def Cursor.advance (c : Cursor) (n : Nat) : Cursor := ⟨c.index + n, c.rest.drop n⟩

/-- The next place that is not white space. -/
def Cursor.skipSpace (c : Cursor) : Cursor := c.advance (c.rest.takeWhile isSpace).length

/-! ### Strings -/

/-- The number that four hexadecimal digits at the head of a text write. -/
def hexUnit? (t : Text) : Option Nat :=
  let head := t.take 4
  if head.length < 4 then none else Text.hexToNat? head

/-- The code point of the UTF-16 code unit `n`. -/
def unitPoint (n : Nat) : CodePoint := (CodePoint.ofNat? n).getD (.char '\x00')

/-- The code point that an escape stands for and the number of code points after its backslash. The
argument is the text after the backslash, which stands at `index`. Two escapes for the halves of a
surrogate pair are read together. -/
def readEscape (start index : Nat) (rest : Text) : Except Fault (CodePoint × Nat) :=
  match rest with
  | [] => .error (.at .unterminatedString start)
  | .char '\x22' :: _ => .ok (.char '\x22', 1)
  | .char '\\' :: _ => .ok (.char '\\', 1)
  | .char '/' :: _ => .ok (.char '/', 1)
  | .char 'b' :: _ => .ok (.char '\x08', 1)
  | .char 'f' :: _ => .ok (.char '\x0c', 1)
  | .char 'n' :: _ => .ok (.char '\n', 1)
  | .char 'r' :: _ => .ok (.char '\r', 1)
  | .char 't' :: _ => .ok (.char '\t', 1)
  | .char 'u' :: more =>
    match hexUnit? more with
    | none => .error (.at .invalidUnicodeEscape (index + 1))
    | some high =>
      if (more.drop 4).isEmpty then .error (.at .invalidUnicodeEscape (index + 1))
      else if 0xD800 ≤ high ∧ high < 0xDC00 then
        match more.drop 4 with
        | .char '\\' :: .char 'u' :: second =>
          if (second.drop 4).isEmpty then .ok (unitPoint high, 5)
          else
            match hexUnit? second with
            | none => .error (.at .invalidUnicodeEscape (index + 7))
            | some low =>
              if 0xDC00 ≤ low ∧ low < 0xE000 then
                .ok (unitPoint (0x10000 + (high - 0xD800) * 0x400 + (low - 0xDC00)), 11)
              else .ok (unitPoint high, 5)
        | _ => .ok (unitPoint high, 5)
      else .ok (unitPoint high, 5)
  | _ => .error (.at .invalidEscape index)

/-- Reads a string up to its closing quote. `start` is the index of the opening quote, `skip` counts
code points that belong to an escape already read, and `read` holds the string so far in reverse. -/
def readString (start : Nat) :
    (index skip : Nat) → (read rest : Text) → Except Fault (Text × Cursor)
  | _, _, _, [] => .error (.at .unterminatedString start)
  | index, skip + 1, read, _ :: rest => readString start (index + 1) skip read rest
  | index, 0, read, c :: rest =>
    if c = .char '\x22' then .ok (read.reverse, ⟨index + 1, rest⟩)
    else if c = .char '\\' then
      match readEscape start index rest with
      | .error fault => .error fault
      | .ok (point, used) => readString start (index + 1) used (point :: read) rest
    else if c.value < 0x20 then .error (.at .controlCharacter index)
    else readString start (index + 1) 0 (c :: read) rest

/-! ### Numbers -/

/-- The digits of an integer part: a zero, or digits that do not begin with one. -/
def integerPart (t : Text) : Text :=
  match t with
  | .char '0' :: _ => [.char '0']
  | _ => t.takeWhile CodePoint.isDigit

/-- The digits after a decimal point, if there is a fraction. -/
def fractionPart (t : Text) : Option Text :=
  match t with
  | .char '.' :: rest =>
    match rest.takeWhile CodePoint.isDigit with
    | [] => none
    | digits => some digits
  | _ => none

/-- The sign and digits of a power of ten and the length of its text, if there is one. -/
def exponentPart (t : Text) : Option (Bool × Text × Nat) :=
  match t with
  | .char e :: rest =>
    if e = 'e' ∨ e = 'E' then
      let (negative, digits, used) :=
        match rest with
        | .char '-' :: more => (true, more.takeWhile CodePoint.isDigit, 2)
        | .char '+' :: more => (false, more.takeWhile CodePoint.isDigit, 2)
        | _ => (false, rest.takeWhile CodePoint.isDigit, 1)
      if digits.isEmpty then none else some (negative, digits, used + digits.length)
    else none
  | _ => none

/-- The number that digits write, zero for none. -/
def digitsValue (digits : Text) : Nat := Text.ofDigits 10 (digits.filterMap CodePoint.digit?)

/-- Reads a number; `none` if there is none at the cursor. -/
def readNumber (c : Cursor) : Except Fault (Option (Json × Cursor)) :=
  let (negative, body) : Bool × Text :=
    match c.rest with
    | .char '-' :: rest => (true, rest)
    | rest => (false, rest)
  let signLength := if negative then 1 else 0
  let whole := integerPart body
  if whole.isEmpty then .ok none
  else
    let tail := body.drop whole.length
    let fraction := fractionPart tail
    let fractionLength := match fraction with
      | some digits => digits.length + 1
      | none => 0
    let exponent := exponentPart (tail.drop fractionLength)
    match fraction, exponent with
    | none, none =>
      if whole.length > Text.maxNumeralLength then .error (.longInteger whole.length)
      else
        let n : Int := digitsValue whole
        .ok (some (.int (if negative then -n else n), c.advance (signLength + whole.length)))
    | _, _ =>
      let decimals := fraction.getD []
      let (power, powerLength) : Int × Nat :=
        match exponent with
        | some (true, digits, used) => (-(digitsValue digits : Int), used)
        | some (false, digits, used) => (digitsValue digits, used)
        | none => (0, 0)
      let value :=
        Binary64.ofDecimal negative (digitsValue (whole ++ decimals)) (power - decimals.length)
      .ok (some (.float value,
        c.advance (signLength + whole.length + fractionLength + powerLength)))

/-! ### Values -/

/-- The values that are written by a name. -/
def names : List (Text × Json) :=
  [("null", .null), ("true", .bool true), ("false", .bool false), ("NaN", .float .nan),
    ("Infinity", .float (.infinite false)), ("-Infinity", .float (.infinite true))]

/-- Reads a value that is no container. -/
def readSimple (c : Cursor) : Except Fault (Json × Cursor) :=
  match c.rest with
  | .char '\x22' :: rest =>
    (readString c.index (c.index + 1) 0 [] rest).map fun (t, after) => (.str t, after)
  | _ =>
    match names.find? fun name => Text.startsWith name.1 c.rest with
    | some (name, value) => .ok (value, c.advance name.length)
    | none =>
      match readNumber c with
      | .error fault => .error fault
      | .ok (some result) => .ok result
      | .ok none => .error (.at .expectingValue c.index)

mutual

/-- Reads the value at the cursor. Every step that uses up fuel passes a bracket, a comma or a
value, so twice the length of the text is enough. -/
def readValue : (fuel : Nat) → Cursor → Except Fault (Json × Cursor)
  | 0, c => .error (.at .expectingValue c.index)
  | fuel + 1, c =>
    match c.rest with
    | .char '\x7b' :: _ =>
      let c := (c.advance 1).skipSpace
      match c.rest with
      | .char '\x7d' :: _ => .ok (.obj [], c.advance 1)
      | _ => readMembers fuel [] c
    | .char '[' :: _ =>
      let c := (c.advance 1).skipSpace
      match c.rest with
      | .char ']' :: _ => .ok (.arr [], c.advance 1)
      | _ => readItems fuel [] c
    | _ => readSimple c

/-- Reads the items of an array from the cursor on; `read` holds the earlier ones in reverse. -/
def readItems : (fuel : Nat) → (read : List Json) → Cursor → Except Fault (Json × Cursor)
  | 0, _, c => .error (.at .expectingValue c.index)
  | fuel + 1, read, c =>
    match readValue fuel c with
    | .error fault => .error fault
    | .ok (item, c) =>
      let c := c.skipSpace
      match c.rest with
      | .char ']' :: _ => .ok (.arr (item :: read).reverse, c.advance 1)
      | .char ',' :: _ => readItems fuel (item :: read) (c.advance 1).skipSpace
      | _ => .error (.at .expectingComma c.index)

/-- Reads the members of an object from the cursor on. -/
def readMembers : (fuel : Nat) → (read : OrderedMap Text Json) → Cursor →
    Except Fault (Json × Cursor)
  | 0, _, c => .error (.at .expectingValue c.index)
  | fuel + 1, read, c =>
    match c.rest with
    | .char '\x22' :: rest =>
      match readString c.index (c.index + 1) 0 [] rest with
      | .error fault => .error fault
      | .ok (key, c) =>
        let c := c.skipSpace
        match c.rest with
        | .char ':' :: _ =>
          match readValue fuel (c.advance 1).skipSpace with
          | .error fault => .error fault
          | .ok (value, c) =>
            let read := OrderedMap.insert read key value
            let c := c.skipSpace
            match c.rest with
            | .char '\x7d' :: _ => .ok (.obj read, c.advance 1)
            | .char ',' :: _ => readMembers fuel read (c.advance 1).skipSpace
            | _ => .error (.at .expectingComma c.index)
        | _ => .error (.at .expectingColon c.index)
    | _ => .error (.at .expectingName c.index)

end

/-- Reads a text that holds one value and white space around it. -/
def readText (t : Text) : Except Fault Json :=
  match t with
  | .char '\uFEFF' :: _ => .error (.at .byteOrderMark 0)
  | _ =>
    match readValue (2 * t.length + 2) (Cursor.skipSpace ⟨0, t⟩) with
    | .error fault => .error fault
    | .ok (value, c) =>
      let c := c.skipSpace
      if c.rest.isEmpty then .ok value else .error (.at .extraData c.index)

/-- The line and the column of an index, both from one. -/
def lineColumn (t : Text) (index : Nat) : Nat × Nat :=
  let before := t.take index
  (Text.count (.char '\n') before + 1,
    (before.reverse.takeWhile fun c => c ≠ .char '\n').length + 1)

/-- The value that a text writes. -/
def read (t : Text) : Except ReadError Json :=
  match readText t with
  | .ok value => .ok value
  | .error (.longInteger digits) => .error (.longInteger digits)
  | .error (.at problem index) =>
    let (line, column) := lineColumn t index
    .error (.malformed problem line column index)

/-! ### Messages -/

/-- What was expected. -/
def Problem.message : Problem → Text
  | expectingValue => "Expecting value"
  | expectingName => "Expecting property name enclosed in double quotes"
  | expectingColon => "Expecting \x27:\x27 delimiter"
  | expectingComma => "Expecting \x27,\x27 delimiter"
  | extraData => "Extra data"
  | unterminatedString => "Unterminated string starting at"
  | controlCharacter => "Invalid control character at"
  | invalidEscape => "Invalid \\escape"
  | invalidUnicodeEscape => "Invalid \\uXXXX escape"
  | byteOrderMark => "Unexpected UTF-8 BOM (decode using utf-8-sig)"

/-- The message for an integer literal with too many digits. -/
def longIntegerMessage (digits : Nat) : Text :=
  ("Exceeds the limit (4300 digits) for integer string conversion: value has " : Text)
    ++ Text.ofNat digits
    ++ (" digits; use sys.set_int_max_str_digits() to increase the limit" : Text)

/-- The message for a text that could not be read. -/
def ReadError.message : ReadError → Text
  | malformed problem line column index =>
    problem.message ++ (": line " : Text) ++ Text.ofNat line ++ (" column " : Text)
      ++ Text.ofNat column ++ (" (char " : Text) ++ Text.ofNat index ++ (")" : Text)
  | longInteger digits => longIntegerMessage digits

end CoverageLift.Json
