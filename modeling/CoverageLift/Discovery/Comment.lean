import CoverageLift.Text.Blank
import CoverageLift.Text.Split

/-!
# Map comments

The end of a generated file may hold a comment with the URL of its source map. The comment fills the
rest of its line, begins with `//` or `/*` and one of the marks `#` and `@`, and has its URL after
`sourceMappingURL=`. A URL in a line comment has no quotes and one in a block comment no asterisk;
none has white space. Of several comments the last one counts.

Two comments never overlap: the URL of a comment has no white space, and a second comment would have
to begin in it and have white space after its mark.
-/

namespace CoverageLift.MapComment

/-- Blanks within a line. -/
def isGap (c : CodePoint) : Bool := c = .char ' ' || c = .char '\t'

/-- Code points of a URL in a line comment. -/
def isLineUrlPart (c : CodePoint) : Bool :=
  !c.isBlank && c ≠ .char '\x27' && c ≠ .char '\x22' && c ≠ .char '\x60'

/-- Code points of a URL in a block comment. -/
def isBlockUrlPart (c : CodePoint) : Bool := !c.isBlank && c ≠ .char '*'

/-- Whether a text has only gaps up to the end of its first line. -/
def endsLine (t : Text) : Bool :=
  match t.dropWhile isGap with
  | [] => true
  | c :: _ => c = .char '\n'

/-- What follows the mark, the gap and the name in front of a URL. -/
def afterName? (t : Text) : Option Text :=
  match t with
  | mark :: gap :: rest =>
    if (mark = .char '#' ∨ mark = .char '@') ∧ isGap gap then
      Text.after? "sourceMappingURL=" (rest.dropWhile isGap)
    else none
  | _ => none

/-- A URL at the head of a text and what follows it, if the URL is not empty. -/
def takeUrl? (isPart : CodePoint → Bool) (t : Text) : Option (Text × Text) :=
  match t.takeWhile isPart with
  | [] => none
  | url => some (url, t.dropWhile isPart)

/-- The URL of a line comment that begins after its slashes. -/
def lineUrl? (t : Text) : Option Text := do
  let (url, rest) ← takeUrl? isLineUrlPart (← afterName? t)
  if endsLine rest then some url else none

/-- The URL of a block comment that begins after its opening. -/
def blockUrl? (t : Text) : Option Text := do
  let (url, rest) ← takeUrl? isBlockUrlPart (← afterName? t)
  let behind ← Text.after? "*/" (rest.dropWhile isGap)
  if endsLine behind then some url else none

/-- The URL of a comment at the head of a text. -/
def urlAt? (t : Text) : Option Text :=
  match t with
  | .char '/' :: .char '/' :: rest => lineUrl? rest
  | .char '/' :: .char '*' :: rest => blockUrl? rest
  | _ => none

/-- The URL of the last comment of a text, or the given one if there is none. -/
def lastUrlFrom (found : Option Text) : Text → Option Text
  | [] => found
  | c :: rest => lastUrlFrom ((urlAt? (c :: rest)).or found) rest

/-- The URL of the last comment of a text. -/
def lastUrl? (t : Text) : Option Text := lastUrlFrom none t

end CoverageLift.MapComment
