import CoverageLift.Text.Stream
import CoverageLift.Yaml.Cursor

/-!
# Excerpts of a YAML file

A file is read as far as its tokens are asked for, in parts of equal length. A part may be unreadable,
because its bytes are no text or because it holds a code point that is not allowed. That does no harm
as long as nobody asks for it, so a file is given by what comes before, its **excerpt**, together with
the error that is met behind it.

The first two parts are read before anything else.
-/

namespace CoverageLift.Yaml

/-- Whether a text may hold the code point. -/
def isAllowed (c : CodePoint) : Bool :=
  let n := c.value
  n == 0x09 || n == 0x0A || n == 0x0D || (0x20 ≤ n && n ≤ 0x7E) || n == 0x85
    || (0xA0 ≤ n && n ≤ 0xD7FF) || (0xE000 ≤ n && n ≤ 0xFFFD) || 0x10000 ≤ n

/-- What can be read of a file. -/
structure Excerpt where
  text : Text
  /-- The error that is met behind the text, if the file goes on. -/
  error : Option Error

namespace Excerpt

/-- The number of code points of a part. -/
def partLength : Nat := 4096

/-- The excerpt with text in front. -/
def after (text : Text) (e : Excerpt) : Excerpt := { e with text := text ++ e.text }

/-- The excerpt that parts give, up to the first one that is not allowed. -/
def ofParts (error : Option Error) : List Text → Excerpt
  | [] => ⟨[], error⟩
  | part :: rest =>
    if part.all isAllowed then (ofParts error rest).after part else ⟨[], some .malformed⟩

/-- The excerpt of a file. There is none if one of the first two parts cannot be read. -/
def ofBytes (bytes : Bytes) : Except Error Excerpt := do
  let read := TextStream.partsOf partLength bytes
  let opening := read.parts.take 2
  if opening.length < 2 then
    if let some e := read.error then throw (.encoding e)
  if opening.all fun part => part.all isAllowed then
    return ofParts (read.error.map .encoding) read.parts
  else throw .malformed

end Excerpt

end CoverageLift.Yaml
