import CoverageLift.Text.CodePoint

/-!
# Line ends

Text files end their lines with `LF`, `CR LF` or `CR`; reading makes all three `LF`. Texts that are not
read from a file keep their line ends, and a `CR` by itself ends no line of them.
-/

namespace CoverageLift.Text

/-- The text with `LF` for every line end; `afterReturn` tells that a `CR` has just been read. -/
def unifyAfter : (afterReturn : Bool) → Text → Text
  | _, [] => []
  | afterReturn, c :: rest =>
    if c = .char '\r' then .char '\n' :: unifyAfter true rest
    else if afterReturn && c = .char '\n' then unifyAfter false rest
    else c :: unifyAfter false rest

/-- The text with `LF` for every line end. -/
def unifyNewlines (t : Text) : Text := unifyAfter false t

/-- The lines of a text, `line` being what comes before the text on its first line, backwards. -/
def linesFrom : (line t : Text) → List Text
  | line, [] => [line.reverse]
  | line, c :: rest =>
    if c = .char '\n' then line.reverse :: linesFrom [] rest
    else if c = .char '\r' ∧ rest.head? = some (.char '\n') then linesFrom line rest
    else linesFrom (c :: line) rest

/-- The lines of a text, without the `LF` or `CR LF` at their ends. -/
def lines (t : Text) : List Text := linesFrom [] t

end CoverageLift.Text
