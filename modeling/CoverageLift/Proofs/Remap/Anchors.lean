import CoverageLift.Proofs.Remap.Lifting

/-!
# Anchors of branches

A way to lift ranges that never fails is a function (`RangeMap.ofFunction`). With it a value is lifted
when it is a range and the range is lifted, and a branch is lifted when it has an **anchor**: the
first of its alternatives that is lifted, or else the whole (`IsAnchor`).

An alternative that is lifted stands at its own range and every other one at the anchor
(`AnchoredAt`). So what an alternative that is lifted becomes has nothing to do with the others
(`liftBranch_ofFunction`).
-/

namespace CoverageLift

/-- A function as a way to lift ranges, which never fails. -/
def RangeMap.ofFunction (lift : Range → Option Range) : RangeMap := fun range => .ok (lift range)

/-- The range that a value is lifted to, if it is a range that is lifted. -/
def liftedRange? (lift : Range → Option Range) (v : Json) : Option Range :=
  (Range.ofJson? v).bind lift

/-- The range that the whole of a branch is lifted to. -/
def liftedLoc? (lift : Range → Option Range) (fields : OrderedMap Text Json) : Option Range :=
  (OrderedMap.get? fields ("loc" : Text)).bind (liftedRange? lift)

/-- An object whose members have the types that those of a branch must have, with its
alternatives. -/
structure IsBranchWith (raw : Json) (fields : OrderedMap Text Json) (items : List Json) : Prop where
  object : raw = .obj fields
  members : isBranch fields = true
  alternatives : alternatives? fields = some items

/-- The range that stands in for what cannot be lifted: the first alternative that is lifted, or the
whole if none is. -/
def IsAnchor (lift : Range → Option Range) (fields : OrderedMap Text Json) (items : List Json)
    (anchor : Range) : Prop :=
  (∃ before item behind, items = before ++ item :: behind ∧
    liftedRange? lift item = some anchor ∧ ∀ other ∈ before, liftedRange? lift other = none) ∨
  (∀ item ∈ items, liftedRange? lift item = none) ∧ liftedLoc? lift fields = some anchor

/-- What a branch becomes whose anchor is known: each alternative and the whole stand at their own
range, or at the anchor if they have none, and the line is that where the whole begins. -/
structure AnchoredAt (lift : Range → Option Range) (fields : OrderedMap Text Json)
    (items : List Json) (anchor : Range) (kept : OrderedMap Text Json) : Prop where
  locations : ∃ placed : List Json,
    OrderedMap.get? kept ("locations" : Text) = some (.arr placed) ∧
    placed.length = items.length ∧ ∀ (i : Nat) (item : Json), items[i]? = some item →
      placed[i]? = some (atRange item ((liftedRange? lift item).getD anchor))
  loc : OrderedMap.get? kept ("loc" : Text) = (OrderedMap.get? fields ("loc" : Text)).map
    fun loc => atRange loc ((liftedRange? lift loc).getD anchor)
  line : OrderedMap.get? kept ("line" : Text) = (OrderedMap.get? fields ("line" : Text)).map
    fun _ => .int ((liftedLoc? lift fields).getD anchor).start.line
  others : ∀ key : Text, key ≠ "locations" → key ≠ "loc" → key ≠ "line" →
    OrderedMap.get? kept key = OrderedMap.get? fields key

/-- The anchor of a branch, if it has one. -/
def anchor? (lift : Range → Option Range) (fields : OrderedMap Text Json) (items : List Json) :
    Option Range :=
  (items.findSome? (liftedRange? lift)).or (liftedLoc? lift fields)

/-- A branch with a known anchor, lifted. -/
def anchored (lift : Range → Option Range) (fields : OrderedMap Text Json) (items : List Json)
    (anchor : Range) : LiftedLocation where
  location := branchObject fields
    (items.map fun item => (item, (liftedRange? lift item).getD anchor))
    ((liftedLoc? lift fields).getD anchor)
  identity := .branch (branchType fields)
    (items.map fun item => ((liftedRange? lift item).getD anchor).key)

variable {lift : Range → Option Range} {raw : Json} {fields : OrderedMap Text Json}
  {items : List Json} {anchor : Range}

/-! ### Lifting by a function -/

@[simp] theorem RangeMap.ofFunction_range? (location : Option Range) :
    RangeMap.apply? (RangeMap.ofFunction lift) location = .ok (location.bind lift) := by
  cases location <;> rfl

/-- A member that is null is no range. -/
theorem bind_ofJson?_present? (key : Text) :
    (present? fields key).bind Range.ofJson? =
      (OrderedMap.get? fields key).bind Range.ofJson? := by
  rw [present?]
  split
  · next h => rw [h]
  · next h => rw [h]; rfl
  · next h => rw [h]

theorem anchor?_eq_some_iff :
    anchor? lift fields items = some anchor ↔ IsAnchor lift fields items anchor := by
  rw [anchor?, Option.or_eq_some_iff, List.findSome?_eq_some_iff, List.findSome?_eq_none_iff,
    IsAnchor]

/-- A branch has an anchor when something of it is lifted. -/
theorem isSome_anchor?_iff :
    (anchor? lift fields items).isSome = true ↔
      (∃ item ∈ items, (liftedRange? lift item).isSome = true) ∨
        (liftedLoc? lift fields).isSome = true := by
  rw [anchor?, Option.isSome_or, Bool.or_eq_true, List.findSome?_isSome_iff]

theorem IsBranchWith.unique {fields' : OrderedMap Text Json} {items' : List Json}
    (h : IsBranchWith raw fields items) (h' : IsBranchWith raw fields' items') :
    fields' = fields ∧ items' = items := by
  obtain rfl := Json.obj.inj (h.object.symm.trans h'.object)
  exact ⟨rfl, Option.some.inj (h'.alternatives.symm.trans h.alternatives)⟩

/-- Nothing else is lifted. -/
theorem liftBranch_of_not_isBranchWith (h : ¬ ∃ fields items, IsBranchWith raw fields items) :
    liftBranch (RangeMap.ofFunction lift) raw = .ok none := by
  cases raw with
  | obj fields =>
    rw [liftBranch]
    split
    · rfl
    · next items hitems =>
      split
      · rfl
      · next hbranch =>
        exact absurd ⟨fields, items, rfl, by simpa using hbranch, hitems⟩ h
  | _ => rfl

/-- A branch that has an anchor is lifted, and what cannot be lifted takes the place of the
anchor. -/
theorem liftBranch_of_isBranchWith (h : IsBranchWith raw fields items) :
    liftBranch (RangeMap.ofFunction lift) raw =
      .ok ((anchor? lift fields items).map (anchored lift fields items)) := by
  obtain ⟨rfl, hmembers, halternatives⟩ := h
  have hitems : items.mapM (fun v => RangeMap.apply? (RangeMap.ofFunction lift) (Range.ofJson? v)) =
      .ok (items.map (liftedRange? lift)) := by
    simp only [RangeMap.ofFunction_range?]
    exact List.mapM_pure
  have hloc : RangeMap.apply? (RangeMap.ofFunction lift) ((present? fields "loc").bind Range.ofJson?) =
      .ok (liftedLoc? lift fields) := by
    rw [bind_ofJson?_present?, RangeMap.ofFunction_range?, Option.bind_assoc]
    rfl
  have hfirst : (items.map (liftedRange? lift)).findSome? id =
      items.findSome? (liftedRange? lift) := by
    rw [List.findSome?_map, Function.id_comp]
  simp only [liftBranch, halternatives, hmembers, hitems, hloc, Bool.not_true, Bool.false_eq_true,
    if_false]
  refine bind_eq_ok_iff.2 ⟨_, rfl, bind_eq_ok_iff.2 ⟨_, rfl, ?_⟩⟩
  rw [hfirst, anchor?]
  cases (items.findSome? (liftedRange? lift)).or (liftedLoc? lift fields) with
  | none => rfl
  | some anchor =>
    have hzip : items.zip (items.map fun item => (liftedRange? lift item).getD anchor) =
        items.map fun item => (item, (liftedRange? lift item).getD anchor) := by
      simpa using List.zip_map' (l := items) (f := id)
    dsimp only
    rw [Option.map_some, anchored, ← hzip, List.map_map, List.map_map]
    rfl

/-- What the object of a branch has in it. -/
theorem anchoredAt_anchored :
    AnchoredAt lift fields items anchor
      (anchored lift fields items anchor).location.fieldsOrEmpty := by
  rw [anchored]
  refine ⟨?_, ?_, ?_, ?_⟩
  · rw [get?_branchObject, if_neg (by decide), if_neg (by decide), if_pos rfl]
    refine ⟨_, rfl, by simp, fun i item hitem => ?_⟩
    simp [hitem]
  · rw [get?_branchObject, if_neg (by decide), if_pos rfl, liftedLoc?]
    cases OrderedMap.get? fields ("loc" : Text) <;> rfl
  · rw [get?_branchObject, if_pos rfl]
  · intro key hlocations hloc hline
    rw [get?_branchObject, if_neg hline.symm, if_neg hloc.symm, if_neg hlocations.symm]

/-- **How a branch is lifted**, by a way to lift ranges that never fails. It is kept exactly when it
is an object with the members of a branch and an alternative or the whole is lifted. Then the
alternatives keep their number and order, and each of them stands at its own range, or at the anchor
if it has none; so does the whole, and the line is that where the whole begins. An alternative that
is lifted stands at its own range whatever the other alternatives are. -/
theorem liftBranch_ofFunction (lift : Range → Option Range) (raw : Json) :
    ∃ answer, liftBranch (RangeMap.ofFunction lift) raw = .ok answer ∧
      (answer.isSome = true ↔ ∃ fields items, IsBranchWith raw fields items ∧
        ((∃ item ∈ items, (liftedRange? lift item).isSome = true) ∨
          (liftedLoc? lift fields).isSome = true)) ∧
      (∀ m, answer = some m → ∃ fields items anchor kept, IsBranchWith raw fields items ∧
        IsAnchor lift fields items anchor ∧ m.location = .obj kept ∧
        AnchoredAt lift fields items anchor kept) ∧
      ∀ fields before item behind range, IsBranchWith raw fields (before ++ item :: behind) →
        liftedRange? lift item = some range → ∃ m kept, ∃ placed : List Json, answer = some m ∧
          m.location = .obj kept ∧
          OrderedMap.get? kept ("locations" : Text) = some (.arr placed) ∧
          placed[before.length]? = some (atRange item range) := by
  by_cases h : ∃ fields items, IsBranchWith raw fields items
  · obtain ⟨fields, items, h⟩ := h
    refine ⟨_, liftBranch_of_isBranchWith h, ?_, ?_, ?_⟩
    · rw [Option.isSome_map, isSome_anchor?_iff]
      refine ⟨fun hsome => ⟨fields, items, h, hsome⟩, ?_⟩
      rintro ⟨other, others, hother, hsome⟩
      obtain ⟨rfl, rfl⟩ := h.unique hother
      exact hsome
    · intro m hm
      obtain ⟨anchor, hanchor, rfl⟩ := Option.map_eq_some_iff.1 hm
      exact ⟨fields, items, anchor, _, h, anchor?_eq_some_iff.1 hanchor, rfl, anchoredAt_anchored⟩
    · intro other before item behind range hother hitem
      obtain ⟨rfl, rfl⟩ := h.unique hother
      have hsome : (anchor? lift other (before ++ item :: behind)).isSome = true :=
        isSome_anchor?_iff.2 (.inl ⟨item, by simp, by simp [hitem]⟩)
      obtain ⟨anchor, hanchor⟩ := Option.isSome_iff_exists.1 hsome
      have hanchored := @anchoredAt_anchored lift other (before ++ item :: behind) anchor
      obtain ⟨placed, hplaced, -, hat⟩ := hanchored.locations
      refine ⟨_, _, placed, by rw [hanchor]; rfl, rfl, hplaced, ?_⟩
      rw [hat before.length item (by simp), hitem]
      rfl
  · refine ⟨none, liftBranch_of_not_isBranchWith h, ?_, fun _ hm => (nomatch hm), ?_⟩
    · exact ⟨fun hsome => (nomatch hsome), fun ⟨fields, items, hbranch, _⟩ =>
        absurd ⟨fields, items, hbranch⟩ h⟩
    · exact fun fields before item behind _ hbranch _ => absurd ⟨fields, _, hbranch⟩ h

/-- An empty alternative in front of one that is lifted, a whole that is null, and a line. -/
example :
    let point : Json := .obj [("line", .int 4), ("column", .int 0)]
    let range : Json := .obj [("start", point), ("end", point)]
    let lift := fun (r : Range) => some { r with start := Point.plain 7 2, stop := none }
    (liftBranch (RangeMap.ofFunction lift) (.obj [("loc", .null),
        ("locations", .arr [.obj [], range]), ("line", .int 4)])).map (·.map (·.location)) =
      let lifted : Json := .obj [("line", .int 7), ("column", .int 2)]
      let placed : Json := .obj [("start", lifted), ("end", lifted)]
      .ok (some (.obj [("loc", placed), ("locations", .arr [placed, placed]),
        ("line", .int 7)])) := by
  rfl

end CoverageLift
