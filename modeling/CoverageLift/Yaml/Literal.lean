import CoverageLift.Text.Digits
import CoverageLift.Yaml.Cursor

/-!
# Scalars of a YAML text

Scalars are written plain, between single or double quotes, or as a block. Line breaks inside are
folded: a single one becomes a space and of several all but the first are kept. In a plain scalar a
colon ends the scalar when a gap follows and a comment begins after a gap; within brackets, the
characters that structure them end it too. The functions return the text and the place after it. What
has been read of a scalar is kept in reverse. Fuel is spent once per code point at most, so two more
than the length of the rest is always enough, and what is left of it is enough for the parts inside.
No code point is looked at before it matters, because the text may go on where it cannot be read.
-/

namespace CoverageLift.Yaml

/-- The text of line breaks between two lines: a lone `LF` folds into a space. -/
def foldBreaks (first : CodePoint) (others : Text) : Text :=
  (if first ≠ .char '\n' then [first] else if others.isEmpty then [.char ' '] else []) ++ others

/-! ### Plain scalars -/

/-- Characters that structure a collection between brackets. -/
def isFlowMark (c : CodePoint) : Bool :=
  c = .char ',' || c = .char '[' || c = .char ']' || c = .char '\x7b' || c = .char '\x7d'

/-- Whether a plain scalar ends before the code point `x` at the place. -/
def endsPlain (flow : Bool) (c : Cursor) (x : CodePoint) : Except Error Bool := do
  if isGap x then return true
  else if x = .char ':' then
    let next ← c.peekAt 1
    return gapOrEnd next || (flow && next.any isFlowMark)
  else return flow && (isFlowMark x || x = .char '?')

/-- Reads up to the next gap or the end of the plain scalar; the mark tells whether anything is
there. -/
def plainWord (flow : Bool) :
    (fuel : Nat) → Cursor → (read : Text) → (found : Bool) →
      Except Error (Text × Cursor × Bool)
  | 0, c, read, found => .ok (read, c, found)
  | fuel + 1, c, read, found => do
    match ← c.peek with
    | none => return (read, c, found)
    | some x =>
      if ← endsPlain flow c x then return (read, c, found)
      else plainWord flow fuel c.step (x :: read) true

/-- Further line breaks, in reverse, and the spaces between them; `none` when a mark of a document
follows. -/
def plainBreaks : (fuel : Nat) → Cursor → (read : Text) → Except Error (Option Text × Cursor)
  | 0, c, read => .ok (some read, c)
  | fuel + 1, c, read => do
    if ← c.at? ' ' then plainBreaks fuel (← c.next) read
    else
      match ← c.lineBreak? with
      | none => return (some read, c)
      | some (x, c) =>
        if ← c.atMark Cursor.marks then return (none, c) else plainBreaks fuel c (x :: read)

/-- What separates two parts of a plain scalar. The text is empty when the scalar ends here; the
mark tells whether a line ended. -/
def plainSpaces (fuel : Nat) (c : Cursor) : Except Error (Text × Cursor × Bool) := do
  let spaces ← c.span (· = .char ' ')
  let c ← c.skipSpaces
  match ← c.lineBreak? with
  | none => return (spaces, c, false)
  | some (x, c) =>
    if ← c.atMark Cursor.marks then return ([], c, true)
    else
      match ← plainBreaks fuel c [] with
      | (none, c) => return ([], c, true)
      | (some others, c) => return (foldBreaks x others.reverse, c, true)

/-- Reads the parts of a plain scalar. `spaces` separates the parts read from the next one. The mark
of the result tells whether a line ended after the last part. -/
def plainParts (flow : Bool) (indent : Int) :
    (fuel : Nat) → Cursor → (read spaces : Text) → (ended : Bool) →
      Except Error (Text × Cursor × Bool)
  | 0, c, read, _, ended => .ok (read, c, ended)
  | fuel + 1, c, read, spaces, ended => do
    if ← c.at? '#' then return (read, c, ended)
    else
      match ← plainWord flow fuel c (spaces.reverseAux read) false with
      | (_, _, false) => return (read, c, ended)
      | (read, c, true) =>
        let (spaces, c, ended) ← plainSpaces fuel c
        if spaces.isEmpty then return (read, c, ended)
        else if ← c.at? '#' then return (read, c, ended)
        else if !flow && (c.column : Int) < indent then return (read, c, ended)
        else plainParts flow indent fuel c read spaces ended

/-- Reads a plain scalar whose further lines are indented by at least `indent`. -/
def readPlain (fuel : Nat) (flow : Bool) (indent : Int) (c : Cursor) :
    Except Error (Text × Cursor × Bool) := do
  let (read, c, ended) ← plainParts flow indent fuel c [] [] false
  return (read.reverse, c, ended)

/-! ### Quoted scalars -/

/-- The code points that escapes of one character stand for. -/
def escapes : List (Char × Nat) :=
  [('0', 0x00), ('a', 0x07), ('b', 0x08), ('t', 0x09), ('\t', 0x09), ('n', 0x0A), ('v', 0x0B),
    ('f', 0x0C), ('r', 0x0D), ('e', 0x1B), (' ', 0x20), ('\x22', 0x22), ('\\', 0x5C), ('/', 0x2F),
    ('N', 0x85), ('_', 0xA0), ('L', 0x2028), ('P', 0x2029)]

/-- The number of hexadecimal digits that an escape takes. -/
def escapeWidth? (c : Char) : Option Nat :=
  if c = 'x' then some 2 else if c = 'u' then some 4 else if c = 'U' then some 8 else none

/-- The code point with a number that an escape names. -/
def escapedPoint (n : Nat) : Except Error CodePoint :=
  match CodePoint.ofNat? n with
  | some x => .ok x
  | none => if n < Nat.pow 2 31 then .error .escapeOutOfRange else .error .escapeTooLarge

/-- Blanks. -/
def isBlank (c : CodePoint) : Bool := c = .char ' ' || c = .char '\t'

/-- Line breaks, in reverse, and blanks after the first break of a quoted scalar. -/
def quotedBreaks : (fuel : Nat) → Cursor → (read : Text) → Except Error (Text × Cursor)
  | 0, c, read => .ok (read, c)
  | fuel + 1, c, read => do
    if ← c.atMark Cursor.marks then throw .malformed
    else
      let c ← c.skip isBlank
      match ← c.lineBreak? with
      | none => return (read, c)
      | some (x, c) => quotedBreaks fuel c (x :: read)

/-- What separates two parts of a quoted scalar. The text may not end there. -/
def quotedSpaces (fuel : Nat) (c : Cursor) : Except Error (Text × Cursor) := do
  let spaces ← c.span isBlank
  let c ← c.skip isBlank
  if (← c.peek).isNone then throw .malformed
  else
    match ← c.lineBreak? with
    | none => return (spaces, c)
    | some (x, c) => do
      let (others, c) ← quotedBreaks fuel c []
      return (foldBreaks x others.reverse, c)

/-- The code point that an escape names by a number of hexadecimal digits. -/
def escapedNumber (width : Nat) (c : Cursor) : Except Error CodePoint := do
  let digits := (c.rest.take width).takeWhile fun x => x.hexDigit?.isSome
  if digits.length < width then
    c.demand (digits.length + 1)
    throw .malformed
  else escapedPoint (Text.ofDigits 16 (digits.filterMap CodePoint.hexDigit?))

/-- An escape after its backslash: what it stands for, in reverse, and the place after it. -/
def quotedEscape (fuel : Nat) (c : Cursor) : Except Error (Text × Cursor) := do
  match ← c.peek with
  | some (.char x) =>
    match escapes.lookup x, escapeWidth? x with
    | some n, _ => return ([← escapedPoint n], ← c.next)
    | none, some width =>
      let c ← c.next
      return ([← escapedNumber width c], ← c.forward width)
    | none, none =>
      match ← c.lineBreak? with
      | some (_, c) => quotedBreaks fuel c []
      | none => throw .malformed
  | _ => throw .malformed

/-- A part of a quoted scalar up to a gap or the closing quote. -/
def quotedPart (double : Bool) :
    (fuel : Nat) → Cursor → (read : Text) → Except Error (Text × Cursor)
  | 0, c, read => .ok (read, c)
  | fuel + 1, c, read => do
    match ← c.peek with
    | none => return (read, c)
    | some x =>
      if isGap x then return (read, c)
      else if double && x = .char '\\' then
        let (escaped, c) ← quotedEscape fuel (← c.next)
        quotedPart double fuel c (escaped ++ read)
      else if double && x = .char '\x22' then return (read, c)
      else if !double && x = .char '\x27' then
        if (← c.peekAt 1) = some x then quotedPart double fuel (← c.forward 2) (x :: read)
        else return (read, c)
      else quotedPart double fuel (← c.next) (x :: read)

/-- The parts of a quoted scalar up to its closing quote. -/
def quotedParts (double : Bool) :
    (fuel : Nat) → Cursor → (read : Text) → Except Error (Text × Cursor)
  | 0, _, _ => .error .malformed
  | fuel + 1, c, read => do
    if ← c.at? (if double then '\x22' else '\x27') then return (read, ← c.next)
    else
      let (spaces, c) ← quotedSpaces fuel c
      let (read, c) ← quotedPart double fuel c (spaces.reverseAux read)
      quotedParts double fuel c read

/-- Reads a quoted scalar from its opening quote on. -/
def readQuoted (fuel : Nat) (double : Bool) (c : Cursor) : Except Error (Text × Cursor) := do
  let (read, c) ← quotedPart double fuel (← c.next) []
  let (read, c) ← quotedParts double fuel c read
  return (read.reverse, c)

/-! ### Block scalars -/

/-- What happens to the line breaks at the end of a block. -/
inductive Chomping
  | strip
  | clip
  | keep
  deriving DecidableEq

/-- A sign of a block header. -/
def chomping? (c : Cursor) : Except Error (Option Chomping) := do
  if ← c.at? '+' then return some .keep
  else if ← c.at? '-' then return some .strip
  else return none

/-- A digit of a block header; zero is refused. -/
def increment? (c : Cursor) : Except Error (Option Nat) := do
  match (← c.peek).bind CodePoint.digit? with
  | none => return none
  | some 0 => throw .malformed
  | some n => return some n

/-- Moves past a code point if something has been found there. -/
def past {α : Type} (found : Option α) (c : Cursor) : Except Error Cursor :=
  if found.isSome then c.next else .ok c

/-- The end of a line that holds nothing more than spaces and a comment. -/
def restOfLine (c : Cursor) : Except Error Cursor := do
  let c ← (← c.skipSpaces).skipComment
  if !breakOrEnd (← c.peek) then throw .malformed
  else c.skipBreak

/-- The header of a block after its mark: chomping and indentation in either order, and a comment. -/
def blockHeader (c : Cursor) : Except Error (Chomping × Option Nat × Cursor) := do
  let first ← chomping? c
  let c ← past first c
  let increment ← increment? c
  let c ← past increment c
  let second ← if first.isNone && increment.isSome then chomping? c else pure none
  let c ← past second c
  if !spaceOrEnd (← c.peek) then throw .malformed
  else return ((first.or second).getD .clip, increment, ← restOfLine c)

/-- Leading empty lines, in reverse, with the greatest column that spaces reach. -/
def blockIndentation :
    (fuel : Nat) → Cursor → (read : Text) → (deepest : Nat) → Except Error (Text × Nat × Cursor)
  | 0, c, read, deepest => .ok (read, deepest, c)
  | fuel + 1, c, read, deepest => do
    if ← c.at? ' ' then
      let c ← c.next
      blockIndentation fuel c read (max deepest c.column)
    else
      match ← c.lineBreak? with
      | some (x, c) => blockIndentation fuel c (x :: read) deepest
      | none => return (read, deepest, c)

/-- The place after at most as many spaces as lead to the column. -/
def skipIndent : (fuel : Nat) → (indent : Nat) → Cursor → Except Error Cursor
  | 0, _, c => .ok c
  | fuel + 1, indent, c => do
    if c.column < indent then
      if ← c.at? ' ' then skipIndent fuel indent (← c.next) else return c
    else return c

/-- Line breaks before the next line of a block, in reverse, and the place where that line begins. -/
def blockBreaks (indent : Nat) :
    (fuel : Nat) → Cursor → (read : Text) → Except Error (Text × Cursor)
  | 0, c, read => .ok (read, c)
  | fuel + 1, c, read => do
    let c ← skipIndent indent indent c
    match ← c.lineBreak? with
    | some (x, c) => blockBreaks indent fuel c (x :: read)
    | none => return (read, c)

/-- Whether a line of a block begins at the place. -/
def atBlockLine (indent : Nat) (c : Cursor) : Except Error Bool := do
  if c.column = indent then return (← c.peek).isSome else return false

/-- Whether the break between two lines of a block folds, of which the second one begins at the
place. -/
def foldsInto (folded : Bool) (lineEnd : Text) (indented : Bool) (c : Cursor) :
    Except Error Bool := do
  if folded && lineEnd = [.char '\n'] && !indented then return !(← c.atClass isBlank)
  else return false

/-- The lines of a block. `breaks` are the empty lines before the next line, in reverse. The result
holds the text, the break of the last line and the empty lines after it, all in reverse. -/
def blockLines (folded : Bool) (indent : Nat) :
    (fuel : Nat) → Cursor → (read breaks : Text) → Except Error (Text × Text × Text × Cursor)
  | 0, c, read, breaks => .ok (read, [], breaks, c)
  | fuel + 1, c, read, breaks => do
    if ← atBlockLine indent c then
      let indented ← c.atClass isBlank
      let read := (← c.span (!isBreak ·)).reverseAux (breaks ++ read)
      let c ← c.skip (!isBreak ·)
      let (lineEnd, c) : Text × Cursor := match ← c.lineBreak? with
        | some (x, c) => ([x], c)
        | none => ([], c)
      let (breaks, c) ← blockBreaks indent fuel c []
      if ← atBlockLine indent c then
        let joint : Text := if ← foldsInto folded lineEnd indented c then
            if breaks.isEmpty then [.char ' '] else []
          else lineEnd
        blockLines folded indent fuel c (joint ++ read) breaks
      else return (read, lineEnd, breaks, c)
    else return (read, [], breaks, c)

/-- Reads a block scalar from its mark on; `indent` is the indentation around it. -/
def readBlock (fuel : Nat) (folded : Bool) (indent : Int) (c : Cursor) :
    Except Error (Text × Cursor) := do
  let (chomping, increment, c) ← blockHeader (← c.next)
  let least := (max (indent + 1) 1).toNat
  let (breaks, indent, c) : Text × Nat × Cursor ← match increment with
    | none => do
      let (breaks, deepest, c) ← blockIndentation fuel c [] 0
      pure (breaks, max least deepest, c)
    | some n => do
      let indent := least + n - 1
      let (breaks, c) ← blockBreaks indent fuel c []
      pure (breaks, indent, c)
  let (read, lineEnd, breaks, c) ← blockLines folded indent fuel c [] breaks
  let read := if chomping = .strip then read else lineEnd ++ read
  return ((if chomping = .keep then breaks ++ read else read).reverse, c)

end CoverageLift.Yaml
