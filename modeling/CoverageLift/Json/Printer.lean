import CoverageLift.Json.Basic
import CoverageLift.Number.Shortest

/-!
# Writing JSON

The printer writes ASCII only: other code points become `\u` escapes, those beyond the basic
multilingual plane as a surrogate pair. The layout is either compact or one member per line with
an indentation of two spaces per level. Numbers that are not finite are written by name.
-/

namespace CoverageLift.Json

/-- One code unit of UTF-16 as an escape. -/
def escapeUnit (n : Nat) : Text := ("\\u" : Text) ++ Text.ofHex 4 n

/-- One code point of a string. -/
def escape (c : CodePoint) : Text :=
  if c = .char '\x22' then "\\\x22"
  else if c = .char '\\' then "\\\\"
  else if c = .char '\n' then "\\n"
  else if c = .char '\r' then "\\r"
  else if c = .char '\t' then "\\t"
  else if c.value = 0x08 then "\\b"
  else if c.value = 0x0C then "\\f"
  else if 0x20 ≤ c.value ∧ c.value < 0x7F then [c]
  else if c.value < 0x10000 then escapeUnit c.value
  else
    let n := c.value - 0x10000
    escapeUnit (0xD800 + n / 0x400) ++ escapeUnit (0xDC00 + n % 0x400)

/-- A string between double quotes. -/
def quote (t : Text) : Text := .char '\x22' :: t.flatMap escape ++ [.char '\x22']

/-- The names of the numbers that are not finite. -/
def numberNames : Binary64.Names := ⟨"NaN", "Infinity"⟩

/-- Where line breaks and blanks stand. -/
structure Layout where
  /-- What separates neighbouring members at a given depth. -/
  between : Nat → Text
  /-- What stands after the opening bracket of members at a given depth. -/
  opening : Nat → Text
  /-- What stands before the closing bracket of a container at a given depth. -/
  closing : Nat → Text
  /-- What separates a key from its value. -/
  afterKey : Text

/-- No blanks at all. -/
def Layout.compact : Layout := ⟨fun _ => ",", fun _ => [], fun _ => [], ":"⟩

/-- A line break and the indentation of a depth. -/
def lineBreak (depth : Nat) : Text := .char '\n' :: List.replicate (2 * depth) (.char ' ')

/-- One member per line, indented by two spaces per level. -/
def Layout.indented : Layout := ⟨fun d => .char ',' :: lineBreak d, lineBreak, lineBreak, ": "⟩

mutual

/-- The text of a value that stands at the given depth. -/
def render (layout : Layout) (depth : Nat) : Json → Text
  | null => "null"
  | bool b => if b then "true" else "false"
  | int n => Text.ofInt n
  | float x => x.toText numberNames
  | str t => quote t
  | arr [] => "[]"
  | arr (item :: items) =>
    [.char '['] ++ layout.opening (depth + 1) ++ render layout (depth + 1) item
      ++ renderItems layout (depth + 1) items ++ layout.closing depth ++ [.char ']']
  | obj [] => "\x7b\x7d"
  | obj (field :: fields) =>
    [.char '\x7b'] ++ layout.opening (depth + 1) ++ renderField layout (depth + 1) field
      ++ renderFields layout (depth + 1) fields ++ layout.closing depth ++ [.char '\x7d']

/-- The text of the items after the first one. -/
def renderItems (layout : Layout) (depth : Nat) : List Json → Text
  | [] => []
  | item :: items => layout.between depth ++ render layout depth item ++ renderItems layout depth items

/-- The text of the members after the first one. -/
def renderFields (layout : Layout) (depth : Nat) : List (Text × Json) → Text
  | [] => []
  | field :: fields =>
    layout.between depth ++ renderField layout depth field ++ renderFields layout depth fields

/-- The text of a member. -/
def renderField (layout : Layout) (depth : Nat) : Text × Json → Text
  | (key, value) => quote key ++ layout.afterKey ++ render layout depth value

end

/-- A value on one line. -/
def compact (v : Json) : Text := render .compact 0 v

/-- A value with one member per line. -/
def indented (v : Json) : Text := render .indented 0 v

end CoverageLift.Json
