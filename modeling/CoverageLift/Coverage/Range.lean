import CoverageLift.Json.Lenient
import CoverageLift.Text.Utf8

/-!
# Ranges

A point is a line and a column with whatever members came along; a range is a start, an end that may
be missing, and a skip mark. Reading a range is forgiving: the start decides, a malformed end counts
as missing, and a skip mark that is no truth value counts as absent.

Writing is not: it goes through the other members of the points in their order, and it stops where a
value has too many levels or an object has a key without an encoding.
-/

namespace CoverageLift

/-! ### What can be written -/

/-- Why a range cannot be written. -/
inductive WriteError
  /-- A member of a point has too many levels. -/
  | tooDeep
  /-- A key of an object in a member of a point has no encoding. -/
  | unencodable (error : Utf8.EncodeError)
  deriving DecidableEq, Repr

/-- The message of an error. -/
def WriteError.message : WriteError → Text
  | tooDeep => "Maximum serialization depth exceeded"
  | unencodable error => error.message

namespace Json

/-- The greatest number of levels of a value that is written as a part of a checked object. -/
def maxLevels : Nat := 254

mutual

/-- Goes through a value as writing it does, when there is room for `room` levels. Every value takes
one, and the keys of an object must have an encoding; the texts among the values need none. -/
def checkWritable : (room : Nat) → Json → Except WriteError Unit
  | 0, _ => .error .tooDeep
  | room + 1, arr items => checkItems room items
  | room + 1, obj fields => checkFields room fields
  | _ + 1, _ => .ok ()

/-- Goes through items. -/
def checkItems (room : Nat) : List Json → Except WriteError Unit
  | [] => .ok ()
  | item :: items => do
    checkWritable room item
    checkItems room items

/-- Goes through members. -/
def checkFields (room : Nat) : List (Text × Json) → Except WriteError Unit
  | [] => .ok ()
  | field :: fields => do
    checkField room field
    checkFields room fields

/-- Goes through a member, its key first. -/
def checkField (room : Nat) : Text × Json → Except WriteError Unit
  | (key, v) => do
    let _ ← (Utf8.encode key).mapError WriteError.unencodable
    checkWritable room v

end

end Json

/-! ### Points -/

/-- A line from one and a column from zero, with the other members of its object. -/
structure Point where
  line : Int
  column : Int
  extras : OrderedMap Text Json

namespace Point

/-- Whether the numbers are those of a position. -/
def isLegal (p : Point) : Bool := 1 ≤ p.line && 0 ≤ p.column

/-- The members that every point has. -/
def ownKeys : List Text := ["line", "column"]

/-- The point that a value describes. -/
def ofJson? (v : Json) : Option Point :=
  match v with
  | .obj fields =>
    if (OrderedMap.keys fields).any Text.hasSurrogate then none
    else
      match OrderedMap.get? fields ("line" : Text), OrderedMap.get? fields ("column" : Text) with
      | some line, some column =>
        match Lenient.int line, Lenient.int column with
        | .ok line, .ok column =>
          some { line, column, extras := fields.filter fun field => !ownKeys.contains field.1 }
        | _, _ => none
      | _, _ => none
  | _ => none

/-- Whether a member is worth writing. -/
def isPresent (field : Text × Json) : Bool :=
  match field.2 with
  | .null => false
  | _ => true

/-- The object of a point; other members that are null are left out, and numbers in them that are not
finite become null. -/
def toJson (p : Point) : Json :=
  .obj (("line", .int p.line) :: ("column", .int p.column)
    :: Json.finiteFields (p.extras.filter isPresent))

/-- Goes through the other members of a point as writing them does. Their own keys have been checked
when the point was read. -/
def checkWritable (p : Point) : Except WriteError Unit :=
  (p.extras.filter isPresent).forM fun field => field.2.checkWritable Json.maxLevels

/-- The point with a line and a column and no other members. -/
def plain (line column : Int) : Point := ⟨line, column, []⟩

end Point

/-! ### Ranges -/

/-- A start and an end, the end missing when it was not well formed. -/
structure Range where
  start : Point
  stop : Option Point
  skip : Option Bool

/-- The numbers of a range, by which regions are compared. -/
structure RangeKey where
  startLine : Int
  startColumn : Int
  stopLine : Int
  stopColumn : Int
  deriving DecidableEq, Repr

namespace Range

/-- The points of a range. -/
def points (r : Range) : List Point := r.start :: r.stop.toList

/-- Whether the points of a range have no other members. -/
def IsPlain (r : Range) : Prop := ∀ p ∈ r.points, p.extras = []

theorem isPlain_plain (startLine startColumn stopLine stopColumn : Int) (skip : Option Bool) :
    (Range.mk (.plain startLine startColumn) (some (.plain stopLine stopColumn)) skip).IsPlain := by
  intro p hp
  simp only [points, Option.toList_some, List.mem_cons, List.not_mem_nil, or_false] at hp
  rcases hp with rfl | rfl <;> rfl

/-- The end of a range, for which the start stands in when it is missing. -/
def stopOrStart (r : Range) : Point := r.stop.getD r.start

/-- The numbers of a range. -/
def key (r : Range) : RangeKey :=
  ⟨r.start.line, r.start.column, r.stopOrStart.line, r.stopOrStart.column⟩

/-- The greater of the two lines. -/
def lastLine (r : Range) : Int := max r.start.line r.stopOrStart.line

/-- The skip mark of an object, if it is a truth value. -/
def skipOf (fields : OrderedMap Text Json) : Option Bool :=
  match OrderedMap.get? fields ("skip" : Text) with
  | some (.bool b) => some b
  | _ => none

/-- The range that a value describes. -/
def ofJson? (v : Json) : Option Range :=
  match v with
  | .obj fields =>
    match (OrderedMap.get? fields ("start" : Text)).bind Point.ofJson? with
    | none => none
    | some start =>
      some {
        start
        stop := (OrderedMap.get? fields ("end" : Text)).bind Point.ofJson?
        skip := skipOf fields }
  | _ => none

/-- The object of a range, without the members that are missing. -/
def toJson (r : Range) : Json :=
  let stop : List (Text × Json) :=
    match r.stop with
    | some p => [("end", p.toJson)]
    | none => []
  let skip : List (Text × Json) :=
    match r.skip with
    | some b => [("skip", .bool b)]
    | none => []
  .obj (("start", r.start.toJson) :: (stop ++ skip))

/-- The object of a range, unless something in its points cannot be written. -/
def write (r : Range) : Except WriteError Json := do
  r.points.forM Point.checkWritable
  return r.toJson

end Range

end CoverageLift
