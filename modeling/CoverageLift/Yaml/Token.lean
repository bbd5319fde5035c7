import CoverageLift.Yaml.Excerpt
import CoverageLift.Yaml.Label
import CoverageLift.Yaml.Literal

/-!
# Tokens of a YAML text

A YAML text is a sequence of tokens: scalars, the marks of documents and of collections, and the
beginnings and ends of block collections, which follow from the indentation.

A key of a mapping is only recognised at the colon behind it. Wherever one may begin, the place is
remembered as a **possible key**: at most one per level of brackets, on one line and within 1024 code
points. When the colon comes, the key token is put in front of the tokens read since.

Tokens are read one by one, and no token can be had before it is known whether a key token comes in
front of it. Where reading fails, the tokens that could be had by then are followed by the error.
-/

namespace CoverageLift.Yaml

/-- A token. -/
inductive Token
  /-- A directive; the version is that of a version directive. -/
  | directive (version : Option (Nat × Nat))
  | documentStart
  | documentEnd
  | blockSequenceStart
  | blockMappingStart
  | blockEnd
  | flowSequenceStart
  | flowSequenceEnd
  | flowMappingStart
  | flowMappingEnd
  | blockEntry
  | flowEntry
  | key
  | value
  | scalar (text : Text) (plain : Bool)
  /-- An anchor, an alias or a tag, which no document may have. -/
  | label
  /-- No more tokens can be had. -/
  | failure (error : Error)
  deriving DecidableEq

/-- A place where a key may begin. -/
structure PossibleKey where
  /-- The number of tokens before the key. -/
  tokenNumber : Nat
  /-- Whether only a key can begin here. -/
  required : Bool
  index : Nat
  line : Nat
  column : Nat

/-- A text that has been read up to a cursor. -/
structure Scanner where
  cursor : Cursor
  /-- The tokens so far in reverse. -/
  tokens : List Token
  /-- The number of tokens so far. -/
  count : Nat
  /-- How many brackets are open. -/
  flowLevel : Nat
  /-- The column of the innermost block collection, `-1` outside all of them. -/
  indent : Int
  /-- The columns of the block collections around it. -/
  indents : List Int
  /-- Whether a key may begin here. -/
  keyAllowed : Bool
  /-- The possible keys by level of brackets. -/
  possibleKeys : List (Nat × PossibleKey)

namespace Scanner

/-- The scanner at the beginning of a text. -/
def start (t : Excerpt) : Scanner where
  cursor := Cursor.start t.text t.error
  tokens := []
  count := 0
  flowLevel := 0
  indent := -1
  indents := []
  keyAllowed := true
  possibleKeys := []

/-- Adds a token. -/
def push (s : Scanner) (token : Token) : Scanner :=
  { s with tokens := token :: s.tokens, count := s.count + 1 }

/-- Moves on by `n` code points and adds a token. -/
def take (s : Scanner) (n : Nat) (token : Token) : Except Error Scanner := do
  return { s.push token with cursor := ← s.cursor.forward n }

/-- Puts a token in front of all tokens but the first `number`. -/
def insertAt (s : Scanner) (number : Nat) (token : Token) : Scanner :=
  let later := s.count - number
  { s with
    tokens := s.tokens.take later ++ token :: s.tokens.drop later
    count := s.count + 1 }

/-! ### Possible keys -/

/-- Forgets a possible key, unless only a key can stand there. -/
def forgetKey (s : Scanner) : Except Error Scanner :=
  match s.possibleKeys.find? fun entry => entry.1 = s.flowLevel with
  | some (_, key) =>
    if key.required then .error .malformed
    else .ok { s with possibleKeys := s.possibleKeys.filter fun entry => entry.1 ≠ s.flowLevel }
  | none => .ok s

/-- Remembers that a key may begin here. -/
def rememberKey (s : Scanner) : Except Error Scanner :=
  if s.keyAllowed then do
    let required := s.flowLevel = 0 && s.indent = s.cursor.column
    let s ← s.forgetKey
    let c := s.cursor
    let key : PossibleKey := ⟨s.count, required, c.index, c.line, c.column⟩
    return { s with possibleKeys := (s.flowLevel, key) :: s.possibleKeys }
  else .ok s

/-- The greatest number of code points of a key. -/
def maxKeyLength : Nat := 1024

/-- Whether a possible key lies too far back. -/
def isStale (c : Cursor) (key : PossibleKey) : Bool :=
  key.line ≠ c.line || c.index - key.index > maxKeyLength

/-- Forgets the possible keys that lie too far back. -/
def dropStaleKeys (s : Scanner) : Except Error Scanner :=
  if s.possibleKeys.any fun entry => isStale s.cursor entry.2 && entry.2.required then
    .error .malformed
  else .ok { s with possibleKeys := s.possibleKeys.filter fun entry => !isStale s.cursor entry.2 }

/-! ### Indentation -/

/-- Closes the block collections that lie deeper than the column. -/
def unwind (column : Int) : (indents : List Int) → Scanner → Scanner
  | [], s => s
  | outer :: indents, s =>
    if s.indent > column then
      unwind column indents { s.push .blockEnd with indent := outer, indents := indents }
    else s

/-- Closes the block collections that lie deeper than the column, outside brackets. -/
def unwindTo (s : Scanner) (column : Int) : Scanner :=
  if s.flowLevel = 0 then unwind column s.indents s else s

/-- Opens a block collection at the column if it lies deeper than the current one. -/
def indentTo (s : Scanner) (column : Int) : Option Scanner :=
  if s.indent < column then some { s with indent := column, indents := s.indent :: s.indents }
  else none

/-- Opens a block collection at the cursor, if it lies deeper than the current one. -/
def openBlock (s : Scanner) (token : Token) : Scanner :=
  match s.indentTo s.cursor.column with
  | some s => s.push token
  | none => s

/-! ### Tokens -/

/-- Moves to the next token, past blanks, comments and line breaks. -/
def toNextToken : (fuel : Nat) → Scanner → Except Error Scanner
  | 0, s => .ok s
  | fuel + 1, s => do
    let c ← (← s.cursor.skipSpaces).skipComment
    match ← c.lineBreak? with
    | some (_, c) =>
      toNextToken fuel { s with cursor := c, keyAllowed := s.keyAllowed || s.flowLevel = 0 }
    | none => return { s with cursor := c }

/-- A number of a version directive. -/
def versionNumber (c : Cursor) : Except Error (Nat × Cursor) := do
  let digits ← c.span CodePoint.isDigit
  if digits.isEmpty then throw .malformed
  else if digits.length > Text.maxNumeralLength then throw (.longInteger digits.length)
  else return (Text.ofDigits 10 (digits.filterMap CodePoint.digit?), ← c.skip CodePoint.isDigit)

/-- The version of a version directive. -/
def version (c : Cursor) : Except Error ((Nat × Nat) × Cursor) := do
  let (major, c) ← versionNumber (← c.skipSpaces)
  if !(← c.at? '.') then throw .malformed
  let (minor, c) ← versionNumber (← c.next)
  if !spaceOrEnd (← c.peek) then throw .malformed
  return ((major, minor), c)

/-- A directive from its percent sign on. Only version directives have a meaning; the others are
skipped. -/
def readDirective (c : Cursor) : Except Error (Token × Cursor) := do
  let c ← c.next
  let name ← c.span isNamePart
  let c ← c.skip isNamePart
  if name.isEmpty then throw .malformed
  if !spaceOrEnd (← c.peek) then throw .malformed
  if name = Text.ofString "TAG" then throw .malformed
  if name = Text.ofString "YAML" then
    let (version, c) ← version c
    return (.directive (some version), ← restOfLine c)
  else
    let c ← c.skip (!isBreak ·)
    return (.directive none, ← restOfLine c)

/-- Closes all block collections before a mark or a directive at the beginning of a line. -/
def endBlocks (s : Scanner) : Except Error Scanner := do
  let s ← (s.unwindTo (-1)).forgetKey
  return { s with keyAllowed := false }

/-- A directive. -/
def fetchDirective (s : Scanner) : Except Error Scanner := do
  let s ← s.endBlocks
  let (token, c) ← readDirective s.cursor
  return { s.push token with cursor := c }

/-- The mark of a document. -/
def fetchMark (s : Scanner) (token : Token) : Except Error Scanner := do
  (← s.endBlocks).take 3 token

/-- An opening bracket. -/
def fetchOpening (s : Scanner) (token : Token) : Except Error Scanner := do
  let s ← (← s.rememberKey).take 1 token
  return { s with flowLevel := s.flowLevel + 1, keyAllowed := true }

/-- A closing bracket. One that closes nothing is left to be refused as a token. -/
def fetchClosing (s : Scanner) (token : Token) : Except Error Scanner := do
  let s ← (← s.forgetKey).take 1 token
  return { s with flowLevel := s.flowLevel - 1, keyAllowed := false }

/-- A comma between brackets. -/
def fetchFlowEntry (s : Scanner) : Except Error Scanner := do
  ({ ← s.forgetKey with keyAllowed := true }).take 1 .flowEntry

/-- The dash of a sequence. -/
def fetchBlockEntry (s : Scanner) : Except Error Scanner := do
  if s.flowLevel = 0 && !s.keyAllowed then throw .malformed
  let s := if s.flowLevel = 0 then s.openBlock .blockSequenceStart else s
  ({ ← s.forgetKey with keyAllowed := true }).take 1 .blockEntry

/-- The question mark of a key. -/
def fetchKey (s : Scanner) : Except Error Scanner := do
  if s.flowLevel = 0 && !s.keyAllowed then throw .malformed
  let s := if s.flowLevel = 0 then s.openBlock .blockMappingStart else s
  ({ ← s.forgetKey with keyAllowed := s.flowLevel = 0 }).take 1 .key

/-- The colon of a value: the possible key of this level becomes a key. -/
def fetchValue (s : Scanner) : Except Error Scanner := do
  match s.possibleKeys.find? fun entry => entry.1 = s.flowLevel with
  | some (_, key) =>
    let s := { s with possibleKeys := s.possibleKeys.filter fun entry => entry.1 ≠ s.flowLevel }
    let s := s.insertAt key.tokenNumber .key
    let s := if s.flowLevel = 0 then
        match s.indentTo key.column with
        | some s => s.insertAt key.tokenNumber .blockMappingStart
        | none => s
      else s
    ({ s with keyAllowed := false }).take 1 .value
  | none =>
    if s.flowLevel = 0 && !s.keyAllowed then throw .malformed
    let s := if s.flowLevel = 0 then s.openBlock .blockMappingStart else s
    ({ ← s.forgetKey with keyAllowed := s.flowLevel = 0 }).take 1 .value

/-- A block scalar. -/
def fetchBlockScalar (fuel : Nat) (s : Scanner) (folded : Bool) : Except Error Scanner := do
  let s ← s.forgetKey
  let (text, c) ← readBlock fuel folded s.indent s.cursor
  return { s.push (.scalar text false) with cursor := c, keyAllowed := true }

/-- A quoted scalar. -/
def fetchQuoted (fuel : Nat) (s : Scanner) (double : Bool) : Except Error Scanner := do
  let s ← s.rememberKey
  let (text, c) ← readQuoted fuel double s.cursor
  return { s.push (.scalar text false) with cursor := c, keyAllowed := false }

/-- A plain scalar. -/
def fetchPlain (fuel : Nat) (s : Scanner) : Except Error Scanner := do
  let s ← s.rememberKey
  let (text, c, ended) ← readPlain fuel (s.flowLevel ≠ 0) (s.indent + 1) s.cursor
  return { s.push (.scalar text true) with cursor := c, keyAllowed := ended }

/-- An anchor, an alias or a tag. -/
def fetchLabel (fuel : Nat) (s : Scanner) (tag : Bool) : Except Error Scanner := do
  let s ← s.rememberKey
  let c ← if tag then skipTag fuel s.cursor else skipName s.cursor
  return { s.push .label with cursor := c, keyAllowed := false }

/-- Characters that begin neither a plain scalar nor any other token. -/
def strayMarks : Text := "|>%@\x60"

/-- Reads a plain scalar, unless none begins with the character `x` at the cursor. The code point after
`x` is looked at before `x` is refused. -/
def fetchOther (fuel : Nat) (s : Scanner) (x : Char) : Except Error Scanner := do
  if isGap (.char x) || strayMarks.contains (.char x) then
    s.cursor.demand 2
    throw .malformed
  else s.fetchPlain fuel

/-- Whether a gap or the end follows the code point at the cursor. -/
def gapFollows (s : Scanner) : Except Error Bool := return gapOrEnd (← s.cursor.peekAt 1)

/-- Whether a line begins with the mark of a document at the cursor. -/
def startsLine (s : Scanner) (mark : Text) : Except Error Bool :=
  if s.cursor.column = 0 then s.cursor.atMark [mark] else .ok false

/-- Reads the token that begins with the character `x` at the cursor. -/
def fetch (fuel : Nat) (s : Scanner) (x : Char) : Except Error Scanner := do
  let inFlow := s.flowLevel ≠ 0
  if x = '%' ∧ s.cursor.column = 0 then s.fetchDirective
  else if x = '[' then s.fetchOpening .flowSequenceStart
  else if x = '\x7b' then s.fetchOpening .flowMappingStart
  else if x = ']' then s.fetchClosing .flowSequenceEnd
  else if x = '\x7d' then s.fetchClosing .flowMappingEnd
  else if x = ',' then s.fetchFlowEntry
  else if x = '-' then
    if ← s.startsLine "---" then s.fetchMark .documentStart
    else if ← s.gapFollows then s.fetchBlockEntry
    else s.fetchPlain fuel
  else if x = '.' then
    if ← s.startsLine "..." then s.fetchMark .documentEnd else s.fetchPlain fuel
  else if x = '?' then
    if inFlow then s.fetchKey
    else if ← s.gapFollows then s.fetchKey
    else s.fetchPlain fuel
  else if x = ':' then
    if inFlow then s.fetchValue
    else if ← s.gapFollows then s.fetchValue
    else s.fetchPlain fuel
  else if x = '|' ∧ ¬inFlow then s.fetchBlockScalar fuel false
  else if x = '>' ∧ ¬inFlow then s.fetchBlockScalar fuel true
  else if x = '\x27' then s.fetchQuoted fuel false
  else if x = '\x22' then s.fetchQuoted fuel true
  else if x = '*' ∨ x = '&' then s.fetchLabel fuel false
  else if x = '!' then s.fetchLabel fuel true
  else s.fetchOther fuel x

/-- Closes everything at the end of a text. -/
def finish (s : Scanner) : Except Error Scanner := (s.unwindTo (-1)).forgetKey

/-! ### Reading on -/

/-- Reads on to the next token and reads it. At the end of the text there is none. -/
def advance (fuel : Nat) (s : Scanner) : Except Error (Scanner × Bool) := do
  let s ← toNextToken fuel { s with cursor := ← s.cursor.skipByteOrderMark }
  let s ← s.dropStaleKeys
  let s := s.unwindTo s.cursor.column
  match ← s.cursor.peek with
  | none => return (← s.finish, true)
  | some (.surrogate _) => throw .malformed
  | some (.char x) => return (← (← s.fetch fuel x).dropStaleKeys, false)

/-- The number of tokens that can be had: those in front of the first possible key. -/
def available (s : Scanner) : Nat :=
  s.possibleKeys.foldl (fun n entry => min n entry.2.tokenNumber) s.count

/-- The tokens that can be had, and the error behind them. -/
def failed (s : Scanner) (error : Error) : List Token :=
  s.tokens.reverse.take s.available ++ [.failure error]

/-- Reads tokens up to the end of the text. Every token but the ends of blocks takes a code point, so
two more than the length of the text is enough fuel, and what is left of it is enough for the next
token. -/
def run : (fuel : Nat) → Scanner → List Token
  | 0, s => s.failed .malformed
  | fuel + 1, s =>
    match s.advance (fuel + 1) with
    | .error error => s.failed error
    | .ok (s, true) => s.tokens.reverse
    | .ok (s, false) => run fuel s

end Scanner

/-- The tokens of a text. -/
def tokens (t : Excerpt) : List Token := (Scanner.start t).run (t.text.length + 2)

end CoverageLift.Yaml
