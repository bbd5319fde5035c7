import CoverageLift.Json.Basic

/-!
# Tables of a coverage entry

The coverage of a file has three tables of locations, each with a table of hit counts for the same
ids: statements, functions and branches. A hit count is an integer, and for branches a list with one
integer per alternative. Anything else that stands in the place of a table counts as an empty one.
-/

namespace CoverageLift

/-- The three tables of locations. -/
inductive LocationTable
  | statements
  | functions
  | branches
  deriving DecidableEq, Repr

namespace LocationTable

/-- All tables in the order in which they are written. -/
def all : List LocationTable := [statements, functions, branches]

/-- The member that holds the locations. -/
def locationsKey : LocationTable → Text
  | statements => "statementMap"
  | functions => "fnMap"
  | branches => "branchMap"

/-- The member that holds the hit counts. -/
def countsKey : LocationTable → Text
  | statements => "s"
  | functions => "f"
  | branches => "b"

end LocationTable

/-- One value for each table. -/
structure PerTable (α : Type) where
  statements : α
  functions : α
  branches : α

namespace PerTable

variable {α : Type}

/-- The value of a table. -/
def get (p : PerTable α) : LocationTable → α
  | .statements => p.statements
  | .functions => p.functions
  | .branches => p.branches

/-- The values of a function on tables. -/
def ofFunction (f : LocationTable → α) : PerTable α :=
  ⟨f .statements, f .functions, f .branches⟩

/-- The values of a function that can fail, asked in the order of the tables. -/
def ofFunctionM {ε : Type} (f : LocationTable → Except ε α) : Except ε (PerTable α) := do
  let statements ← f .statements
  let functions ← f .functions
  let branches ← f .branches
  return { statements, functions, branches }

end PerTable

/-- The table that a member of a coverage entry holds. -/
def tableAt (entry : OrderedMap Text Json) (key : Text) : OrderedMap Text Json :=
  match OrderedMap.get? entry key with
  | some v => v.fieldsOrEmpty
  | none => []

/-- Whether a value is a number of hits. -/
def isHits : Json → Bool
  | .int _ => true
  | _ => false

/-- Whether a value is a list of numbers of hits. -/
def isHitList : Json → Bool
  | .arr items => items.all isHits
  | _ => false

/-- Whether a value is a hit count for a table. -/
def LocationTable.validCount : LocationTable → Json → Bool
  | branches => isHitList
  | _ => isHits

/-- The number of hits that a value is, zero for anything else. -/
def hits : Json → Int
  | .int n => n
  | _ => 0

/-- Two hit counts of the same shape added up. -/
def addCounts? (left right : Json) : Option Json :=
  match left, right with
  | .int a, .int b => some (.int (a + b))
  | .arr as, .arr bs =>
    if as.all isHits ∧ bs.all isHits ∧ as.length = bs.length then
      some (.arr (List.zipWith (fun a b => .int (hits a + hits b)) as bs))
    else none
  | _, _ => none

end CoverageLift
