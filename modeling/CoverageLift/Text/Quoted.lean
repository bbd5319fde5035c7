import CoverageLift.Text.Printable
import CoverageLift.Text.Digits

/-!
# Quoted text

Messages show a text between quotes. Single quotes are the default; double quotes stand around a
text that holds a single quote and no double quote. The enclosing quote and the backslash are
escaped, line ends and tabs have letters, and every other code point that is not printable is
written by its hexadecimal number in two, four or eight digits.
-/

namespace CoverageLift.Text

/-- The quote that encloses a text: single, unless the text holds only the single one. -/
def enclosingQuote (t : Text) : Char :=
  if t.contains (.char '\x27') && !t.contains (.char '\x22') then '\x22' else '\x27'

/-- One code point of a quoted text. -/
def escape (quote : Char) (c : CodePoint) : Text :=
  if c = .char quote || c = .char '\\' then [.char '\\', c]
  else if c = .char '\n' then "\\n"
  else if c = .char '\r' then "\\r"
  else if c = .char '\t' then "\\t"
  else if c.isPrintable then [c]
  else if c.value < 0x100 then ("\\x" : Text) ++ ofHex 2 c.value
  else if c.value < 0x10000 then ("\\u" : Text) ++ ofHex 4 c.value
  else ("\\U" : Text) ++ ofHex 8 c.value

/-- The text between quotes. -/
def quoted (t : Text) : Text :=
  let quote := enclosingQuote t
  .char quote :: t.flatMap (escape quote) ++ [.char quote]

end CoverageLift.Text
