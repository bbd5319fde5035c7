import CoverageLift.Coverage.Range
import CoverageLift.Coverage.Table
import CoverageLift.Resolver

/-!
# Entries of the tables

An entry of a table is moved to its source by lifting the ranges in it. What identifies it there is
the lifted region: two entries with the same identity stand for the same piece of source. How a
range is lifted is a parameter (`RangeMap`), so that ranges can be refused for other reasons than
the resolver's. What is lifted to is written into the entry without a check (`atRange`), so a table
is only moved in a way that makes one unnecessary (`PlainRangeMap`).

An entry that is already in a destination gets its identity from the same regions. A branch is also
compared by its type, and a type that is an array or object cannot be compared.
-/

namespace CoverageLift

/-- What a location stands for in its source. -/
inductive Identity
  | statement (region : RangeKey)
  | function (declaration body : RangeKey)
  | branch (type : Scalar) (alternatives : List RangeKey)
  /-- A location without a region is only itself. -/
  | opaqueEntry (id : Text)
  deriving DecidableEq

/-- A lifted location with its identity. -/
structure LiftedLocation where
  location : Json
  identity : Identity

/-- A way to lift ranges, which may refuse a range and may fail. -/
abbrev RangeMap := Range → Except ResolverFailure (Option Range)

/-- Whether all ranges that come out have plain points. Writing those cannot fail. -/
def RangeMap.IsPlain (remap : RangeMap) : Prop :=
  ∀ location range, remap location = .ok (some range) → range.IsPlain

/-- A way to lift ranges to plain ones. -/
abbrev PlainRangeMap := {remap : RangeMap // remap.IsPlain}

/-- Lifts a range, if there is one. -/
def RangeMap.apply? (remap : RangeMap) : Option Range → Except ResolverFailure (Option Range)
  | none => .ok none
  | some r => remap r

/-- The object `raw` with another start and end; every other member stays. The points are not
checked before they are written, since those of a `PlainRangeMap` always pass. -/
def atRange (raw : Json) (range : Range) : Json :=
  .obj (OrderedMap.insert
    (OrderedMap.insert raw.fieldsOrEmpty ("start" : Text) range.start.toJson)
    ("end" : Text) range.stopOrStart.toJson)

/-- A member that is neither absent nor null. -/
def present? (fields : OrderedMap Text Json) (key : Text) : Option Json :=
  match OrderedMap.get? fields key with
  | none => none
  | some .null => none
  | some v => some v

/-- Whether a member is absent, null or converts. -/
def converts {α : Type} (fields : OrderedMap Text Json) (key : Text)
    (convert : Json → Except IssueKind α) : Bool :=
  match present? fields key with
  | none => true
  | some v => (convert v).isOk

/-- Whether all keys are texts without lone surrogates. -/
def hasPlainKeys (fields : OrderedMap Text Json) : Bool :=
  !(OrderedMap.keys fields).any Text.hasSurrogate

/-- Sets a member that is there already. -/
def replace (fields : OrderedMap Text Json) (key : Text) (v : Json) : OrderedMap Text Json :=
  if OrderedMap.contains fields key then OrderedMap.insert fields key v else fields

/-! ### Statements -/

/-- Lifts a statement, which is a range. -/
def liftStatement (remap : RangeMap) (raw : Json) :
    Except ResolverFailure (Option LiftedLocation) := do
  match ← remap.apply? (Range.ofJson? raw) with
  | none => return none
  | some range => return some ⟨atRange raw range, .statement range.key⟩

/-! ### Functions -/

/-- Whether the members of a function have the types that they must have. -/
def isFunction (fields : OrderedMap Text Json) : Bool :=
  hasPlainKeys fields && converts fields "name" Lenient.text && converts fields "line" Lenient.int
    && converts fields "skip" Lenient.bool

/-- The object of a function with its lifted ranges. -/
def functionObject (fields : OrderedMap Text Json) (declaration body : Range) : Json :=
  let fields :=
    match present? fields "decl" with
    | some decl => OrderedMap.insert fields ("decl" : Text) (atRange decl declaration)
    | none => fields
  let loc := (OrderedMap.get? fields ("loc" : Text)).getD .null
  let fields := OrderedMap.insert fields ("loc" : Text) (atRange loc body)
  .obj (replace fields "line" (.int declaration.start.line))

/-- Lifts a function. The range of its declaration decides, or that of its body when it has no
declaration; a body that cannot be lifted takes the place of the declaration. -/
def liftFunction (remap : RangeMap) (raw : Json) :
    Except ResolverFailure (Option LiftedLocation) := do
  match raw with
  | .obj fields =>
    if !isFunction fields then return none
    let decl := present? fields "decl"
    let loc := (present? fields "loc").bind Range.ofJson?
    let declared := match decl with
      | some v => Range.ofJson? v
      | none => loc
    match ← remap.apply? declared with
    | none => return none
    | some declaration =>
      let body ← if decl.isSome then remap.apply? loc else pure none
      let body := body.getD declaration
      return some ⟨functionObject fields declaration body, .function declaration.key body.key⟩
  | _ => return none

/-! ### Branches -/

/-- The alternatives of a branch, none when the member is missing. -/
def alternatives? (fields : OrderedMap Text Json) : Option (List Json) :=
  match OrderedMap.get? fields ("locations" : Text) with
  | none => some []
  | some (.arr items) => some items
  | some _ => none

/-- Whether the members of a branch, its alternatives apart, have the types that they must have. -/
def isBranch (fields : OrderedMap Text Json) : Bool :=
  hasPlainKeys fields && converts fields "type" Lenient.text && converts fields "line" Lenient.int
    && converts fields "skip" Lenient.bool

/-- The type of a branch as a value to compare. -/
def branchType (fields : OrderedMap Text Json) : Scalar :=
  match (OrderedMap.get? fields ("type" : Text)).bind Json.text? with
  | some t => .str t
  | none => .null

/-- The object of a branch with the lifted ranges of its alternatives and of the whole. -/
def branchObject (fields : OrderedMap Text Json) (alternatives : List (Json × Range))
    (whole : Range) : Json :=
  let fields := OrderedMap.insert fields ("locations" : Text)
    (.arr (alternatives.map fun (raw, range) => atRange raw range))
  let loc := (OrderedMap.get? fields ("loc" : Text)).getD .null
  let fields := replace fields "loc" (atRange loc whole)
  .obj (replace fields "line" (.int whole.start.line))

/-- Lifts a branch. Its anchor is the first alternative that can be lifted, or else the range of the
whole; alternatives that cannot be lifted take the place of the anchor. -/
def liftBranch (remap : RangeMap) (raw : Json) :
    Except ResolverFailure (Option LiftedLocation) := do
  match raw with
  | .obj fields =>
    match alternatives? fields with
    | none => return none
    | some rawAlternatives =>
      if !isBranch fields then return none
      let lifted ← rawAlternatives.mapM fun v => remap.apply? (Range.ofJson? v)
      let loc ← remap.apply? ((present? fields "loc").bind Range.ofJson?)
      match (lifted.findSome? id).or loc with
      | none => return none
      | some anchor =>
        let resolved := lifted.map (·.getD anchor)
        return some
          ⟨branchObject fields (rawAlternatives.zip resolved) (loc.getD anchor),
            .branch (branchType fields) (resolved.map Range.key)⟩
  | _ => return none

/-- Lifts an entry of a table. -/
def LocationTable.liftEntry : LocationTable → RangeMap → Json →
    Except ResolverFailure (Option LiftedLocation)
  | statements => liftStatement
  | functions => liftFunction
  | branches => liftBranch

/-! ### Entries of a destination -/

/-- The regions of alternatives, if all of them are ranges. -/
def regions? (items : List Json) : Option (List RangeKey) :=
  items.mapM fun v => (Range.ofJson? v).map Range.key

/-- The identity of an entry with alternatives. -/
def branchIdentity (id : Text) (fields : OrderedMap Text Json) (items : List Json) :
    Except Container Identity :=
  match regions? items with
  | none => .ok (.opaqueEntry id)
  | some keys =>
    (((OrderedMap.get? fields ("type" : Text)).getD .null).scalar).map fun type => .branch type keys

/-- The identity of an entry without alternatives: that of a function if it has a body. -/
def functionIdentity (id : Text) (fields : OrderedMap Text Json) : Identity :=
  match (OrderedMap.get? fields ("loc" : Text)).bind Range.ofJson? with
  | none => .opaqueEntry id
  | some loc =>
    let decl := ((OrderedMap.get? fields ("decl" : Text)).bind Range.ofJson?).getD loc
    .function decl.key loc.key

/-- The identity of an entry that is already expressed in positions of its source. -/
def identityInPlace (id : Text) (raw : Json) : Except Container Identity :=
  match Range.ofJson? raw with
  | some range => .ok (.statement range.key)
  | none =>
    match raw with
    | .obj fields =>
      match OrderedMap.get? fields ("locations" : Text) with
      | some (.arr items) => branchIdentity id fields items
      | _ => .ok (functionIdentity id fields)
    | _ => .ok (.opaqueEntry id)

end CoverageLift
