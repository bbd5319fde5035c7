import CoverageLift.Json.Basic
import CoverageLift.Number.Shortest
import CoverageLift.Text.Quoted

/-!
# Values in messages

Log messages show a value on one line with quoted strings, a blank after each comma and colon, and
capitalised names for the truth values and for the missing value.
-/

namespace CoverageLift.Json

/-- The names of the numbers that are not finite. -/
def displayNames : Binary64.Names := ⟨"nan", "inf"⟩

mutual

/-- The text of a value in a message. -/
def display : Json → Text
  | null => "None"
  | bool b => if b then "True" else "False"
  | int n => Text.ofInt n
  | float x => x.toText displayNames
  | str t => Text.quoted t
  | arr [] => "[]"
  | arr (item :: items) => [.char '['] ++ display item ++ displayItems items ++ [.char ']']
  | obj [] => "\x7b\x7d"
  | obj (field :: fields) =>
    [.char '\x7b'] ++ displayField field ++ displayFields fields ++ [.char '\x7d']

/-- The text of the items after the first one. -/
def displayItems : List Json → Text
  | [] => []
  | item :: items => (", " : Text) ++ display item ++ displayItems items

/-- The text of the members after the first one. -/
def displayFields : List (Text × Json) → Text
  | [] => []
  | field :: fields => (", " : Text) ++ displayField field ++ displayFields fields

/-- The text of a member. -/
def displayField : Text × Json → Text
  | (key, value) => Text.quoted key ++ (": " : Text) ++ display value

end

end CoverageLift.Json
