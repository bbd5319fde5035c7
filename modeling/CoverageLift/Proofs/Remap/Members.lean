import CoverageLift.Proofs.Remap.Lifting

/-!
# Members that survive lifting

A lifted entry is written over the one that it comes from. Its object has all keys of the old one,
in their order; the members that hold ranges and lines are given new values, those of them that are
written in any case come behind the others when they were missing, and nothing else changes
(`KeepsMembers`). The same holds of every range in the entry, whether it was lifted itself or stands
where another one was lifted to: a mark or a note on it stays (`KeepsRange`).
-/

namespace CoverageLift

/-- A member that is there and not null. -/
def IsGiven (fields : OrderedMap Text Json) (key : Text) (v : Json) : Prop :=
  OrderedMap.get? fields key = some v ∧ v ≠ .null

/-- What an object `kept` has of the members of another one in which the members `changed` were
given values. -/
structure KeepsMembers (changed written : List Text) (fields kept : OrderedMap Text Json) :
    Prop where
  /-- all keys stay in their order, and those of `written` that were missing come behind them -/
  keys : OrderedMap.keys kept =
    OrderedMap.keys fields ++ written.filter fun key => key ∉ OrderedMap.keys fields
  /-- all other members have the values that they had -/
  others : ∀ key ∉ changed, OrderedMap.get? kept key = OrderedMap.get? fields key

/-- A value that is an object with another start and end than `raw`, and otherwise with the members
of `raw`; these are none if `raw` is no object. -/
def KeepsRange (raw v : Json) : Prop :=
  ∃ kept, v = .obj kept ∧ KeepsMembers ["start", "end"] ["start", "end"] raw.fieldsOrEmpty kept

/-- What a function keeps: its members, and those of its declaration and its body. -/
structure KeepsFunction (fields kept : OrderedMap Text Json) : Prop where
  members : KeepsMembers ["decl", "loc", "line"] ["loc"] fields kept
  /-- a declaration is rewritten unless it is null -/
  decl : ∀ decl, OrderedMap.get? fields ("decl" : Text) = some decl →
    ∃ v, OrderedMap.get? kept ("decl" : Text) = some v ∧
      (decl = .null → v = .null) ∧ (decl ≠ .null → KeepsRange decl v)
  loc : ∃ v, OrderedMap.get? kept ("loc" : Text) = some v ∧
    KeepsRange ((OrderedMap.get? fields ("loc" : Text)).getD .null) v

/-- What a branch keeps: its members, those of its alternatives one by one, and those of the
whole. -/
structure KeepsBranch (fields kept : OrderedMap Text Json) : Prop where
  members : KeepsMembers ["locations", "loc", "line"] ["locations"] fields kept
  locations : ∃ items placed,
    (OrderedMap.get? fields ("locations" : Text)).getD (.arr []) = .arr items ∧
    OrderedMap.get? kept ("locations" : Text) = some (.arr placed) ∧
    List.Forall₂ KeepsRange items placed
  loc : ∀ loc, OrderedMap.get? fields ("loc" : Text) = some loc →
    ∃ v, OrderedMap.get? kept ("loc" : Text) = some v ∧ KeepsRange loc v

/-- What an entry of a table keeps when it is lifted: it is an object and stays one. -/
def LocationTable.Keeps : LocationTable → Json → Json → Prop
  | statements, raw, v => ∃ fields kept, raw = .obj fields ∧ v = .obj kept ∧
      KeepsMembers ["start", "end"] ["start", "end"] fields kept
  | functions, raw, v =>
    ∃ fields kept, raw = .obj fields ∧ v = .obj kept ∧ KeepsFunction fields kept
  | branches, raw, v => ∃ fields kept, raw = .obj fields ∧ v = .obj kept ∧ KeepsBranch fields kept

/-! ### Keys -/

/-- The keys after a value has been set. -/
theorem keys_insert (fields : OrderedMap Text Json) (key : Text) (v : Json) :
    OrderedMap.keys (OrderedMap.insert fields key v) =
      OrderedMap.keys fields ++ [key].filter fun key => key ∉ OrderedMap.keys fields := by
  by_cases h : key ∈ OrderedMap.keys fields
  · rw [OrderedMap.keys_insert_of_mem h, List.filter_cons_of_neg (by simpa using h),
      List.filter_nil, List.append_nil]
  · rw [OrderedMap.keys_insert_of_not_mem h, List.filter_cons_of_pos (by simpa using h),
      List.filter_nil]

/-- Setting a member that is there already adds no key. -/
theorem keys_replace (fields : OrderedMap Text Json) (key : Text) (v : Json) :
    OrderedMap.keys (replace fields key v) = OrderedMap.keys fields := by
  rw [replace]
  split
  · next h => exact OrderedMap.keys_insert_of_mem ((OrderedMap.contains_iff _ _).1 h) v
  · rfl

/-- The keys after two values have been set. -/
theorem keys_insert_insert {key other : Text} (hne : other ≠ key) (fields : OrderedMap Text Json)
    (v w : Json) :
    OrderedMap.keys (OrderedMap.insert (OrderedMap.insert fields key v) other w) =
      OrderedMap.keys fields ++ [key, other].filter fun key => key ∉ OrderedMap.keys fields := by
  rw [keys_insert, keys_insert, List.append_assoc]
  -- the first key is not the second one, so it has no part in whether that is missing
  by_cases h : key ∈ OrderedMap.keys fields <;> simp [h, hne, List.filter_cons]

/-! ### Members that are given -/

theorem present?_eq_some_iff {fields : OrderedMap Text Json} {key : Text} {v : Json} :
    present? fields key = some v ↔ IsGiven fields key v := by
  rw [IsGiven]
  cases hget : OrderedMap.get? fields key with
  | none => simp [present?, hget]
  | some old =>
    cases old with
    | null =>
      simp only [present?, hget]
      refine iff_of_false (fun heq => ?_) fun hgiven => hgiven.2 (Option.some.inj hgiven.1).symm
      cases heq
    | _ =>
      simp only [present?, hget]
      refine ⟨fun heq => ⟨heq, ?_⟩, And.left⟩
      rintro rfl
      cases heq

theorem present?_eq_none_iff {fields : OrderedMap Text Json} {key : Text} :
    present? fields key = none ↔ ∀ v, ¬ IsGiven fields key v := by
  rw [Option.eq_none_iff_forall_ne_some]
  exact forall_congr' fun v => not_congr present?_eq_some_iff

/-! ### Objects of ranges and entries -/

/-- An object at another range keeps all but its start and end. -/
theorem keepsRange_atRange (raw : Json) (range : Range) : KeepsRange raw (atRange raw range) := by
  refine ⟨_, rfl, keys_insert_insert (by decide) _ _ _, fun key hkey => ?_⟩
  simp only [List.mem_cons, List.not_mem_nil, or_false, not_or] at hkey
  rw [OrderedMap.get?_insert, if_neg (Ne.symm hkey.2), OrderedMap.get?_insert,
    if_neg (Ne.symm hkey.1)]

/-- The keys of a function: only its body is added, when it had none. -/
theorem keys_functionObject (fields : OrderedMap Text Json) (declaration body : Range) :
    OrderedMap.keys (functionObject fields declaration body).fieldsOrEmpty =
      OrderedMap.keys fields ++ (["loc"] : List Text).filter fun key =>
        key ∉ OrderedMap.keys fields := by
  rw [functionObject, Json.fieldsOrEmpty]
  cases hdecl : present? fields "decl" with
  | none => rw [keys_replace, keys_insert]
  | some decl =>
    have hmem : ("decl" : Text) ∈ OrderedMap.keys fields :=
      (OrderedMap.contains_iff _ _).1
        (Option.isSome_iff_exists.2 ⟨_, (present?_eq_some_iff.1 hdecl).1⟩)
    rw [keys_replace, keys_insert, OrderedMap.keys_insert_of_mem hmem]

/-- The keys of a branch: only its alternatives are added, when it had none. -/
theorem keys_branchObject (fields : OrderedMap Text Json) (alternatives : List (Json × Range))
    (whole : Range) :
    OrderedMap.keys (branchObject fields alternatives whole).fieldsOrEmpty =
      OrderedMap.keys fields ++ (["locations"] : List Text).filter fun key =>
        key ∉ OrderedMap.keys fields := by
  rw [branchObject, Json.fieldsOrEmpty, keys_replace, keys_replace, keys_insert]

/-- Alternatives keep their members one by one, whether a range is their own or borrowed. -/
theorem forall₂_keepsRange {items : List Json} :
    ∀ {ranges : List Range}, ranges.length = items.length →
      List.Forall₂ KeepsRange items
        ((items.zip ranges).map fun (raw, range) => atRange raw range) := by
  induction items with
  | nil => exact fun _ => .nil
  | cons item items ih =>
    intro ranges hlength
    cases ranges with
    | nil => cases hlength
    | cons range ranges =>
      exact .cons (keepsRange_atRange item range) (ih (Nat.succ.inj hlength))

theorem keepsFunction_functionObject (fields : OrderedMap Text Json) (declaration body : Range) :
    KeepsFunction fields (functionObject fields declaration body).fieldsOrEmpty := by
  refine ⟨⟨keys_functionObject _ _ _, fun key hkey => ?_⟩, fun decl hdecl => ?_, ?_⟩
  · simp only [List.mem_cons, List.not_mem_nil, or_false, not_or] at hkey
    obtain ⟨hdecl, hloc, hline⟩ := hkey
    rw [get?_functionObject, if_neg (Ne.symm hline), if_neg (Ne.symm hloc), if_neg (Ne.symm hdecl)]
  · rw [get?_functionObject, if_neg (by decide), if_neg (by decide), if_pos rfl, hdecl]
    cases hpresent : present? fields "decl" with
    | none =>
      have hnot : ¬ IsGiven fields "decl" decl := present?_eq_none_iff.1 hpresent decl
      exact ⟨decl, rfl, id, fun hne => absurd ⟨hdecl, hne⟩ hnot⟩
    | some v =>
      obtain ⟨hget, hne⟩ := present?_eq_some_iff.1 hpresent
      obtain rfl := Option.some.inj (hget.symm.trans hdecl)
      exact ⟨_, rfl, fun hnull => absurd hnull hne, fun _ => keepsRange_atRange v declaration⟩
  · rw [get?_functionObject, if_neg (by decide), if_pos rfl]
    exact ⟨_, rfl, keepsRange_atRange _ body⟩

theorem keepsBranch_branchObject {fields : OrderedMap Text Json} {items : List Json}
    {ranges : List Range} (hitems : alternatives? fields = some items)
    (hlength : ranges.length = items.length) (whole : Range) :
    KeepsBranch fields (branchObject fields (items.zip ranges) whole).fieldsOrEmpty := by
  have hlocations : OrderedMap.get? (branchObject fields (items.zip ranges) whole).fieldsOrEmpty
      ("locations" : Text) =
        some (.arr ((items.zip ranges).map fun (raw, range) => atRange raw range)) := by
    rw [get?_branchObject, if_neg (by decide), if_neg (by decide), if_pos rfl]
  refine ⟨⟨keys_branchObject _ _ _, fun key hkey => ?_⟩,
    ⟨items, _, ?_, hlocations, forall₂_keepsRange hlength⟩, fun loc hloc => ?_⟩
  · simp only [List.mem_cons, List.not_mem_nil, or_false, not_or] at hkey
    obtain ⟨hlocations, hloc, hline⟩ := hkey
    rw [get?_branchObject, if_neg (Ne.symm hline), if_neg (Ne.symm hloc),
      if_neg (Ne.symm hlocations)]
  · rw [alternatives?] at hitems
    split at hitems
    · next h => rw [h, ← Option.some.inj hitems, Option.getD_none]
    · next h => rw [h, ← Option.some.inj hitems, Option.getD_some]
    · cases hitems
  · rw [get?_branchObject, if_neg (by decide), if_pos rfl, hloc]
    exact ⟨_, rfl, keepsRange_atRange loc whole⟩

/-! ### Entries -/

section Entries

variable {remap : RangeMap} {raw : Json} {m : LiftedLocation}

theorem keeps_liftStatement (h : liftStatement remap raw = .ok (some m)) :
    LocationTable.statements.Keeps raw m.location := by
  obtain ⟨range, hrange, rfl⟩ := exists_of_liftStatement h
  obtain ⟨kept, hkept, hmembers⟩ := keepsRange_atRange raw range
  cases raw with
  | obj fields => exact ⟨fields, kept, rfl, hkept, hmembers⟩
  | _ => cases hrange

theorem keeps_liftFunction (h : liftFunction remap raw = .ok (some m)) :
    LocationTable.functions.Keeps raw m.location := by
  obtain ⟨fields, declaration, body, rfl, -, -, -, rfl⟩ := exists_of_liftFunction h
  exact ⟨fields, _, rfl, rfl, keepsFunction_functionObject fields declaration _⟩

theorem keeps_liftBranch (h : liftBranch remap raw = .ok (some m)) :
    LocationTable.branches.Keeps raw m.location := by
  obtain ⟨fields, items, lifted, loc, anchor, rfl, hitems, -, hlifted, -, -, rfl⟩ :=
    exists_of_liftBranch h
  have hlength : (lifted.map (·.getD anchor)).length = items.length := by
    rw [List.length_map, (mapM_eq_ok_iff.1 hlifted).length_eq]
  exact ⟨fields, _, rfl, rfl, keepsBranch_branchObject hitems hlength _⟩

/-- **Members survive**: an entry that is lifted, by whatever way to lift ranges, keeps all its keys
in their order. Other values than before have only the start and the end of a statement, the
declaration, the body and the line of a function, and the alternatives, the whole and the line of a
branch; within those that are ranges, only the start and the end. The only keys that come to it are
the start and the end of a range, the body of a function and the alternatives of a branch. -/
theorem keeps_of_liftEntry {table : LocationTable}
    (h : table.liftEntry remap raw = .ok (some m)) : table.Keeps raw m.location := by
  cases table with
  | statements => exact keeps_liftStatement h
  | functions => exact keeps_liftFunction h
  | branches => exact keeps_liftBranch h

end Entries

/-- A branch with a note, a whole that is null and two alternatives: one that is no range, with a
mark that is no truth value and an end, and one that is lifted, with a mark and a member that is
null. -/
theorem keeps_of_liftEntry_of_borrowed_range :
    let remap : RangeMap := fun range =>
      .ok (if range.start.line = 4 then some ⟨.plain 7 2, none, none⟩ else none)
    let start : Json := .obj [("line", .str "4"), ("column", .int 0)]
    let raw : Json := .obj [("note", .str "n"), ("loc", .null),
      ("locations", .arr [.obj [("skip", .str "yes"), ("end", .int 3)],
        .obj [("skip", .int 1), ("start", start), ("x", .null)]]),
      ("line", .null), ("z", .arr [])]
    ∃ m, liftBranch remap raw = .ok (some m) ∧ LocationTable.branches.Keeps raw m.location ∧
      OrderedMap.keys m.location.fieldsOrEmpty = ["note", "loc", "locations", "line", "z"] := by
  intro remap start raw
  have hlifted : LocationTable.branches.liftEntry remap raw = .ok (some _) := rfl
  exact ⟨_, hlifted, keeps_of_liftEntry hlifted, rfl⟩

end CoverageLift
