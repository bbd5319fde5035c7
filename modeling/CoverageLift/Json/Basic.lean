import CoverageLift.Number.Binary64
import CoverageLift.OrderedMap
import CoverageLift.Text.CodePoint

/-!
# JSON values

Integers and floating point numbers are different kinds of values, and objects keep the order of
their members. Coverage reports and source maps arrive as such values.
-/

namespace CoverageLift

/-- A JSON value. -/
inductive Json
  | null
  | bool (b : Bool)
  | int (n : Int)
  | float (x : Binary64)
  | str (t : Text)
  | arr (items : List Json)
  | obj (fields : List (Text × Json))
  deriving Inhabited

namespace Json

/-- The members of an object. -/
def object? : Json → Option (OrderedMap Text Json)
  | obj fields => some fields
  | _ => none

/-- The members of an object, and none for any other value. -/
def fieldsOrEmpty : Json → OrderedMap Text Json
  | obj fields => fields
  | _ => []

/-- The text of a string value. -/
def text? : Json → Option Text
  | str t => some t
  | _ => none

/-- The integer that a value counts as where a coordinate is wanted: truth values are `1` and `0`,
and no other kind of value is a coordinate. -/
def coordinate? : Json → Option Int
  | int n => some n
  | bool b => some (if b then 1 else 0)
  | _ => none

/-- Whether a value is a value at all: not null, false, zero or empty. -/
def isTruthy : Json → Bool
  | null => false
  | bool b => b
  | int n => n ≠ 0
  | float x => !x.isZero
  | str t => !t.isEmpty
  | arr items => !items.isEmpty
  | obj fields => !fields.isEmpty

/-! ### Finite numbers -/

mutual

/-- The value with null for all numbers that are not finite. -/
def finite : Json → Json
  | float (.finite negative significand exponent) => float (.finite negative significand exponent)
  | float _ => null
  | arr items => arr (finiteItems items)
  | obj fields => obj (finiteFields fields)
  | v => v

/-- The items with null for all numbers that are not finite. -/
def finiteItems : List Json → List Json
  | [] => []
  | item :: items => finite item :: finiteItems items

/-- The members with null for all numbers that are not finite. -/
def finiteFields : List (Text × Json) → List (Text × Json)
  | [] => []
  | field :: fields => finiteField field :: finiteFields fields

/-- The member with null for all numbers that are not finite. -/
def finiteField : Text × Json → Text × Json
  | (key, v) => (key, finite v)

end

end Json

/-- The kinds of JSON values that a value is compared by, when arrays and objects are excluded. -/
inductive Scalar
  | null
  | bool (b : Bool)
  | int (n : Int)
  | float (x : Binary64)
  | str (t : Text)
  deriving DecidableEq, Inhabited

/-- The two kinds of JSON values that have members. -/
inductive Container
  | array
  | object
  deriving DecidableEq, Inhabited, Repr

/-- A JSON value as a scalar, or else the kind of container it is. -/
def Json.scalar : Json → Except Container Scalar
  | null => .ok .null
  | bool b => .ok (.bool b)
  | int n => .ok (.int n)
  | float x => .ok (.float x)
  | str t => .ok (.str t)
  | arr _ => .error .array
  | obj _ => .error .object

end CoverageLift
