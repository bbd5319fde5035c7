import CoverageLift.Text.CodePoint

/-!
# White space

Two classes of white space occur in the formats of this library. `isWhite` is the Unicode property
`White_Space`; `isBlank` adds the four information separators `U+001C` to `U+001F`, which end lines
of record-oriented files. Trimming takes the class as an argument.
-/

namespace CoverageLift

namespace CodePoint

/-- The Unicode property `White_Space`. -/
def isWhite (c : CodePoint) : Bool :=
  let n := c.value
  (9 ≤ n && n ≤ 13) || n == 0x20 || n == 0x85 || n == 0xA0 || n == 0x1680
    || (0x2000 ≤ n && n ≤ 0x200A) || n == 0x2028 || n == 0x2029 || n == 0x202F
    || n == 0x205F || n == 0x3000

/-- White space together with the information separators. -/
def isBlank (c : CodePoint) : Bool :=
  c.isWhite || (0x1C ≤ c.value && c.value ≤ 0x1F)

end CodePoint

namespace Text

/-- The text without the code points of the class at its end. -/
def trimEnd (inClass : CodePoint → Bool) (t : Text) : Text :=
  (t.reverse.dropWhile inClass).reverse

/-- The text without the code points of the class at either end. -/
def trim (inClass : CodePoint → Bool) (t : Text) : Text :=
  trimEnd inClass (t.dropWhile inClass)

end Text

end CoverageLift
