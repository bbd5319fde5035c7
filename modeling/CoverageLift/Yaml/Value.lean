import CoverageLift.Yaml.Atom

/-!
# Values of a YAML document

A document is a scalar, a sequence or a mapping. Keys of mappings are scalars, and of several values of
one key the last one counts. A document with a scalar that stands for no value is refused.
-/

namespace CoverageLift.Yaml

/-- A value of a document. -/
inductive Value
  | atom (a : Atom)
  | sequence (items : List Value)
  | mapping (pairs : List (Atom × Value))
  deriving Inhabited

/-! ### Mappings -/

/-- Sets the value of a key, which keeps the place and the form of its first occurrence. -/
def setPair : (pairs : List (Atom × Value)) → Atom → Value → List (Atom × Value)
  | [], key, value => [(key, value)]
  | (k, v) :: rest, key, value =>
    if sameKey k key then (k, value) :: rest else (k, v) :: setPair rest key value

/-- Keys of mappings are scalars. -/
def keyOf : Node → Except Error Atom
  | .scalar text plain => keyAtom text plain
  | _ => .error .malformed

/-! ### Faults

Scalars that stand for no value, and keys that are no keys, are found level by level: all that a
collection holds itself comes before what the collections in it hold.
-/

/-- The error of an outcome. -/
def errorOf? {α : Type} : Except Error α → Option Error
  | .error error => some error
  | .ok _ => none

/-- The fault of a node that is a scalar. -/
def scalarFault? : Node → Option Error
  | .scalar text plain => errorOf? (atomOf text plain)
  | _ => none

/-- The first fault of a pair: of its key, or else of its value if that is a scalar. -/
def pairFault? (pair : Node × Node) : Option Error :=
  (errorOf? (keyOf pair.1)).or (scalarFault? pair.2)

/-- Whether a key is the mark of a merge. -/
def isMergeKey : Node → Bool
  | .scalar text plain => plain && text = Text.ofString "<<"
  | _ => false

/-- The first fault of a mapping itself. Merging is looked for before anything else. -/
def mappingFault? (pairs : List (Node × Node)) : Option Error :=
  if pairs.any fun pair => isMergeKey pair.1 then some .malformed else pairs.findSome? pairFault?

/-- The first fault of every level, of two parts that stand side by side. -/
def sideBySide : List (Option Error) → List (Option Error) → List (Option Error)
  | [], faults => faults
  | faults, [] => faults
  | first :: firsts, second :: seconds => first.or second :: sideBySide firsts seconds

mutual

/-- The first faults of a collection by level, its own in front. -/
def faultsOf : Node → List (Option Error)
  | .scalar _ _ => []
  | .sequence items => items.findSome? scalarFault? :: faultsOfNodes items
  | .mapping pairs => mappingFault? pairs :: faultsOfPairs pairs

/-- The first faults of items by level. -/
def faultsOfNodes : List Node → List (Option Error)
  | [] => []
  | node :: rest => sideBySide (faultsOf node) (faultsOfNodes rest)

/-- The first faults of the values of pairs by level. -/
def faultsOfPairs : List (Node × Node) → List (Option Error)
  | [] => []
  | pair :: rest => sideBySide (faultsOfPair pair) (faultsOfPairs rest)

/-- The first faults of the value of a pair by level. -/
def faultsOfPair : Node × Node → List (Option Error)
  | (_, value) => faultsOf value

end

/-- The first fault of a document. -/
def firstFault? (node : Node) : Option Error := (scalarFault? node).or ((faultsOf node).findSome? id)

/-! ### Documents -/

mutual

/-- The value of a node. -/
def Value.ofNode : Node → Except Error Value
  | .scalar text plain => (atomOf text plain).map .atom
  | .sequence items => (Value.ofNodes items).map .sequence
  | .mapping pairs => (Value.ofPairs [] pairs).map .mapping

/-- The values of nodes. -/
def Value.ofNodes : List Node → Except Error (List Value)
  | [] => .ok []
  | node :: rest => do
    let value ← Value.ofNode node
    return value :: (← Value.ofNodes rest)

/-- The pairs read so far together with those of nodes. -/
def Value.ofPairs (read : List (Atom × Value)) : List (Node × Node) →
    Except Error (List (Atom × Value))
  | [] => .ok read
  | pair :: rest => do
    let (key, value) ← Value.ofPair pair
    Value.ofPairs (setPair read key value) rest

/-- The key and the value of a pair of nodes. -/
def Value.ofPair : Node × Node → Except Error (Atom × Value)
  | (key, value) => do
    let key ← keyOf key
    return (key, ← Value.ofNode value)

end

/-- The value of a text; a text without a document is null. -/
def read (t : Excerpt) : Except Error Value := do
  match ← Node.ofExcerpt t with
  | none => return .atom (.scalar .null)
  | some node =>
    match firstFault? node with
    | some error => throw error
    | none => Value.ofNode node

end CoverageLift.Yaml
