import CoverageLift.Text.Split
import CoverageLift.Text.Utf8

/-!
# Places in a YAML text

A cursor is a place in a text with its line and column, both from zero. Line breaks are `LF`, `CR`,
`CR LF`, next line and the line and paragraph separators; reading one gives `LF`, but for the two
separators, which are kept. A byte order mark takes no column.

A text may go on where it cannot be read. Looking at a code point there fails with the error that is
met, and so does moving to a place that has no code point to look at. Where the text ends, looking
gives `none`.
-/

namespace CoverageLift.Yaml

/-- Why a text cannot be read as YAML. -/
inductive Error
  /-- The text breaks the rules of the format or uses an anchor, alias, tag or merge key. -/
  | malformed
  /-- The bytes of the text cannot be decoded. -/
  | encoding (error : Utf8.DecodeError)
  /-- An escape names a number beyond the last code point. -/
  | escapeOutOfRange
  /-- An escape names a number beyond 31 bits. -/
  | escapeTooLarge
  /-- A numeral of the base has no digits. -/
  | emptyNumeral (base : Nat)
  /-- A decimal numeral has too many digits. -/
  | longInteger (digits : Nat)
  /-- A number in base sixty has more parts than a floating point number has room for. -/
  | longSexagesimal
  /-- A timestamp has a part that no calendar or clock has. -/
  | timestamp (message : Text)
  deriving DecidableEq

/-- A place in a text. -/
structure Cursor where
  index : Nat
  line : Nat
  column : Nat
  rest : Text
  /-- The error that is met behind the rest, if the text goes on there. -/
  behind : Option Error

/-- Code points that end a line. -/
def isBreak (c : CodePoint) : Bool :=
  c = .char '\n' || c = .char '\r' || c = .char '\x85' || c = .char '\u2028' || c = .char '\u2029'

/-- Blanks and line breaks. -/
def isGap (c : CodePoint) : Bool := c = .char ' ' || c = .char '\t' || isBreak c

/-- Whether the next code point is a blank, a line break or the end. -/
def gapOrEnd : Option CodePoint → Bool
  | none => true
  | some c => isGap c

/-- Whether the next code point is a line break or the end. -/
def breakOrEnd : Option CodePoint → Bool
  | none => true
  | some c => isBreak c

/-- Whether the next code point is a space, a line break or the end. -/
def spaceOrEnd (next : Option CodePoint) : Bool := next = some (.char ' ') || breakOrEnd next

namespace Cursor

/-- The place of the first code point. -/
def start (t : Text) (behind : Option Error) : Cursor := ⟨0, 0, 0, t, behind⟩

/-! ### Looking -/

/-- Fails if fewer than `n` code points can be looked at and the text goes on behind them. -/
def demand (c : Cursor) (n : Nat) : Except Error Unit :=
  match c.behind with
  | none => .ok ()
  | some error => if n ≠ 0 ∧ (c.rest.drop (n - 1)).isEmpty then .error error else .ok ()

/-- The code point `n` places further on. -/
def peekAt (c : Cursor) (n : Nat) : Except Error (Option CodePoint) := do
  c.demand (n + 1)
  return c.rest[n]?

/-- The code point at the place. -/
def peek (c : Cursor) : Except Error (Option CodePoint) := c.peekAt 0

/-- Whether the code point at the place is the character. -/
def at? (c : Cursor) (x : Char) : Except Error Bool :=
  return (← c.peek) = some (.char x)

/-- Whether the code point at the place is of a class. -/
def atClass (c : Cursor) (inClass : CodePoint → Bool) : Except Error Bool :=
  return (← c.peek).any inClass

/-- The next `n` code points, or fewer at the end. -/
def ahead (c : Cursor) (n : Nat) : Except Error Text := do
  c.demand n
  return c.rest.take n

/-- The code points of the class at the place. The one that follows them has been looked at. -/
def span (c : Cursor) (inClass : CodePoint → Bool) : Except Error Text := do
  let run := c.rest.takeWhile inClass
  c.demand (run.length + 1)
  return run

/-- Whether one of the marks of a document stands at the place, set off by a gap. -/
def atMark (c : Cursor) (marks : List Text) : Except Error Bool := do
  if marks.contains (← c.ahead 3) then return gapOrEnd (← c.peekAt 3)
  else return false

/-- The marks of a document. -/
def marks : List Text := ["---", "..."]

/-! ### Moving -/

/-- The next place. -/
def step (c : Cursor) : Cursor :=
  match c.rest with
  | [] => c
  | x :: more =>
    if isBreak x && !(x = .char '\r' && more.head? = some (.char '\n')) then
      { c with index := c.index + 1, line := c.line + 1, column := 0, rest := more }
    else if x = .char '\uFEFF' then { c with index := c.index + 1, rest := more }
    else { c with index := c.index + 1, column := c.column + 1, rest := more }

/-- The place `n` steps further on. -/
def steps : (n : Nat) → Cursor → Cursor
  | 0, c => c
  | n + 1, c => steps n c.step

/-- Moves on by `n` code points. -/
def forward (c : Cursor) (n : Nat) : Except Error Cursor := do
  c.demand (n + 1)
  return c.steps n

/-- Moves on by a code point. -/
def next (c : Cursor) : Except Error Cursor := c.forward 1

/-- Moves past the code points of the class. -/
def skip (c : Cursor) (inClass : CodePoint → Bool) : Except Error Cursor :=
  return c.steps (← c.span inClass).length

/-- Moves past spaces. -/
def skipSpaces (c : Cursor) : Except Error Cursor := c.skip (· = .char ' ')

/-- Moves to the end of the line, if a comment begins here. -/
def skipComment (c : Cursor) : Except Error Cursor := do
  if ← c.at? '#' then c.skip (!isBreak ·) else return c

/-- Moves past a byte order mark at the beginning of the text. -/
def skipByteOrderMark (c : Cursor) : Except Error Cursor := do
  if c.index ≠ 0 then return c
  else if ← c.at? '\uFEFF' then c.next
  else return c

/-- A line break at the place: what it reads as and the place after it. Two code points are looked at
to tell `CR LF` from other breaks. -/
def lineBreak? (c : Cursor) : Except Error (Option (CodePoint × Cursor)) := do
  match ← c.peek with
  | none => return none
  | some x =>
    if x = .char '\u2028' ∨ x = .char '\u2029' then return some (x, ← c.next)
    else if !isBreak x then return none
    else if (← c.ahead 2) = Text.ofString "\r\n" then return some (.char '\n', ← c.forward 2)
    else return some (.char '\n', ← c.next)

/-- Moves past a line break, if there is one. -/
def skipBreak (c : Cursor) : Except Error Cursor := do
  match ← c.lineBreak? with
  | some (_, c) => return c
  | none => return c

end Cursor

end CoverageLift.Yaml
