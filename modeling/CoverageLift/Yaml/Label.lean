import CoverageLift.Yaml.Cursor

/-!
# Anchors, aliases and tags

No document may have an anchor, an alias or a tag. They are read all the same, as **labels**: what is
wrong with a label or what is met behind it is found before the label itself is refused.
-/

namespace CoverageLift.Yaml

/-- What the names of directives, anchors, aliases and handles are made of. -/
def isNamePart (x : CodePoint) : Bool :=
  x.isLetter || x.isDigit || x = .char '-' || x = .char '_'

/-- Characters that may follow the name of an anchor or an alias besides gaps. -/
def nameEnds : Text := "?:,]\x7d%@\x60"

/-- Characters of the addresses in tags besides those of names. -/
def addressMarks : Text := ";/?:@&=+$,.!~*\x27()[]%"

/-- Moves past an anchor or an alias from its first character on. -/
def skipName (c : Cursor) : Except Error Cursor := do
  let c ← c.next
  let name ← c.span isNamePart
  let c ← c.skip isNamePart
  if name.isEmpty then throw .malformed
  match ← c.peek with
  | none => return c
  | some x => if isGap x || nameEnds.contains x then return c else throw .malformed

/-- Moves past two hexadecimal digits. -/
def skipHexPair (c : Cursor) : Except Error Cursor := do
  let isHex := fun x : CodePoint => x.hexDigit?.isSome
  if !(← c.atClass isHex) then throw .malformed
  if !((← c.peekAt 1).any isHex) then throw .malformed
  c.forward 2

/-- Moves past the rest of an address, in which two hexadecimal digits follow a percent sign. -/
def skipAddressRest : (fuel : Nat) → Cursor → Except Error Cursor
  | 0, c => .ok c
  | fuel + 1, c => do
    let c ← c.skip fun x => (isNamePart x || addressMarks.contains x) && x ≠ .char '%'
    if ← c.at? '%' then skipAddressRest fuel (← skipHexPair (← c.next)) else return c

/-- Moves past an address, which is not empty. -/
def skipAddress (fuel : Nat) (c : Cursor) : Except Error Cursor := do
  let behind ← skipAddressRest fuel c
  if behind.index = c.index then throw .malformed else return behind

/-- Moves past the handle of a tag: an exclamation mark, or a name between two of them. -/
def skipHandle (c : Cursor) : Except Error Cursor := do
  let word ← (← c.next).span fun x => !(x = .char ' ' || isBreak x || x = .char '!')
  if (← c.peekAt (word.length + 1)) = some (.char '!') then
    let c ← (← c.next).skip isNamePart
    if ← c.at? '!' then c.next else throw .malformed
  else c.next

/-- Moves past a tag from its exclamation mark on. -/
def skipTag (fuel : Nat) (c : Cursor) : Except Error Cursor := do
  let second ← c.peekAt 1
  let c ← if second = some (.char '<') then do
      let c ← skipAddress fuel (← c.forward 2)
      if ← c.at? '>' then c.next else throw .malformed
    else if gapOrEnd second then c.next
    else skipAddress fuel (← skipHandle c)
  if spaceOrEnd (← c.peek) then return c else throw .malformed

end CoverageLift.Yaml
