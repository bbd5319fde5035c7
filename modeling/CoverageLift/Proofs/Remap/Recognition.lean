import CoverageLift.Proofs.Remap.Ranges

/-!
# Entries that come back

A destination that was built can be remapped again. Its entries then stand in the seed, where their
identities are told from what was written. A range that was lifted is read back with the numbers
that it was written with, and an entry is told by the same ranges that it was lifted with. So **a
lifted entry comes back with its own identity** (`identityInPlace_of_liftEntry`), unless it was
given members that make it look like something else: a start, or a function's alternatives.

A branch is told by its type and its alternatives alone (`branchOf?`), whatever else it was given.
-/

namespace CoverageLift

/-! ### Ranges -/

/-- Points whose other members have keys without lone surrogates, as all points have that were
read. -/
def Point.HasPlainKeys (p : Point) : Prop :=
  ∀ key ∈ OrderedMap.keys p.extras, Text.hasSurrogate key = false

/-- Ranges between such points. -/
def Range.HasPlainKeys (r : Range) : Prop :=
  r.start.HasPlainKeys ∧ r.stopOrStart.HasPlainKeys

theorem Point.hasPlainKeys_of_extras {p : Point} (h : p.extras = []) : p.HasPlainKeys := by
  rw [HasPlainKeys, h]
  exact fun _ hkey => absurd hkey List.not_mem_nil

theorem Range.Legal.hasPlainKeys {lastLine : Option Int} {r : Range} (h : r.Legal lastLine) :
    r.HasPlainKeys :=
  ⟨Point.hasPlainKeys_of_extras h.start_extras, Point.hasPlainKeys_of_extras h.stop_extras⟩

theorem Json.keys_finiteFields (fields : OrderedMap Text Json) :
    OrderedMap.keys (Json.finiteFields fields) = OrderedMap.keys fields := by
  induction fields with
  | nil => rfl
  | cons field fields ih =>
    obtain ⟨key, v⟩ := field
    rw [Json.finiteFields, Json.finiteField]
    exact congrArg (List.cons key) ih

/-- A point is read back with its numbers and with the members that are written. -/
theorem Point.ofJson?_toJson {p : Point} (h : p.HasPlainKeys) :
    Point.ofJson? p.toJson = some ⟨p.line, p.column,
      (Json.finiteFields (p.extras.filter Point.isPresent)).filter fun field =>
        !Point.ownKeys.contains field.1⟩ := by
  let extras := Json.finiteFields (p.extras.filter Point.isPresent)
  let fields : OrderedMap Text Json :=
    ("line", .int p.line) :: ("column", .int p.column) :: extras
  have hplain : (OrderedMap.keys fields).any Text.hasSurrogate = false := by
    refine List.any_eq_false.2 fun key hkey => Bool.not_eq_true _ ▸ ?_
    rcases List.mem_cons.1 hkey with rfl | hkey
    · rfl
    rcases List.mem_cons.1 hkey with rfl | hkey
    · rfl
    · have hextras : key ∈ OrderedMap.keys extras := hkey
      rw [Json.keys_finiteFields] at hextras
      obtain ⟨field, hfield, rfl⟩ := List.mem_map.1 hextras
      exact h _ (List.mem_map_of_mem (List.mem_of_mem_filter hfield))
  have hline : OrderedMap.get? fields ("line" : Text) = some (.int p.line) := rfl
  have hcolumn : OrderedMap.get? fields ("column" : Text) = some (.int p.column) := rfl
  have hread : Point.ofJson? p.toJson = Point.ofJson? (.obj fields) := rfl
  rw [hread, Point.ofJson?]
  simp only [hplain, hline, hcolumn, Bool.false_eq_true, if_false]
  rfl

theorem Point.exists_ofJson?_toJson {p : Point} (h : p.HasPlainKeys) :
    ∃ p', Point.ofJson? p.toJson = some p' ∧ p'.line = p.line ∧ p'.column = p.column :=
  ⟨_, Point.ofJson?_toJson h, rfl, rfl⟩

/-- A range that is written is read back with its numbers. -/
theorem exists_ofJson?_atRange {r : Range} (h : r.HasPlainKeys) (raw : Json) :
    ∃ range, Range.ofJson? (atRange raw r) = some range ∧ range.key = r.key := by
  have hne : ("end" : Text) ≠ "start" := by decide
  let fields := OrderedMap.insert (OrderedMap.insert raw.fieldsOrEmpty ("start" : Text)
    r.start.toJson) "end" r.stopOrStart.toJson
  have hstart : OrderedMap.get? fields ("start" : Text) = some r.start.toJson := by
    rw [OrderedMap.get?_insert, if_neg hne, OrderedMap.get?_insert, if_pos rfl]
  have hstop : OrderedMap.get? fields ("end" : Text) = some r.stopOrStart.toJson := by
    rw [OrderedMap.get?_insert, if_pos rfl]
  obtain ⟨start, hreadstart, hstartLine, hstartColumn⟩ := Point.exists_ofJson?_toJson h.1
  obtain ⟨stop, hreadstop, hstopLine, hstopColumn⟩ := Point.exists_ofJson?_toJson h.2
  refine ⟨⟨start, some stop, Range.skipOf fields⟩, ?_, ?_⟩
  · rw [atRange, Range.ofJson?, hstart, hstop, Option.bind_some, Option.bind_some, hreadstart,
      hreadstop]
  · simp only [Range.key, Range.stopOrStart, Option.getD_some, hstartLine, hstartColumn, hstopLine,
      hstopColumn]

/-- Alternatives that are written at ranges are read back with the numbers of the ranges. -/
theorem regions?_atRange {alternatives : List (Json × Range)}
    (h : ∀ alternative ∈ alternatives, alternative.2.HasPlainKeys) :
    regions? (alternatives.map fun (raw, range) => atRange raw range) =
      some (alternatives.map fun alternative => alternative.2.key) := by
  induction alternatives with
  | nil => rfl
  | cons alternative alternatives ih =>
    obtain ⟨halternative, h⟩ := List.forall_mem_cons.1 h
    obtain ⟨range, hrange, hkey⟩ := exists_ofJson?_atRange halternative alternative.1
    have ih := ih h
    rw [regions?] at ih
    rw [regions?, List.map_cons, List.mapM_cons, ih]
    simp [hrange, hkey]

/-- There is one region for each alternative. -/
theorem length_of_regions? {items : List Json} :
    ∀ {keys : List RangeKey}, regions? items = some keys → keys.length = items.length := by
  induction items with
  | nil =>
    intro keys h
    obtain rfl := Option.some.inj h
    rfl
  | cons item items ih =>
    intro keys h
    rw [regions?, List.mapM_cons] at h
    obtain ⟨key, -, h⟩ := Option.bind_eq_some_iff.1 h
    obtain ⟨rest, hrest, h⟩ := Option.bind_eq_some_iff.1 h
    obtain rfl := Option.some.inj h
    exact congrArg (· + 1) (ih hrest)

/-! ### Entries that stand in a seed -/

/-- Whether an entry has no members that make it look like something else when it was lifted: a
function or a branch has no start, and a function no alternatives. -/
def LocationTable.IsPlain : LocationTable → Json → Prop
  | statements, _ => True
  | functions, v => ("start" : Text) ∉ OrderedMap.keys v.fieldsOrEmpty ∧
      ("locations" : Text) ∉ OrderedMap.keys v.fieldsOrEmpty
  | branches, v => ("start" : Text) ∉ OrderedMap.keys v.fieldsOrEmpty

instance (table : LocationTable) (v : Json) : Decidable (table.IsPlain v) :=
  match table with
  | .statements => inferInstanceAs (Decidable True)
  | .functions => inferInstanceAs (Decidable (_ ∧ _))
  | .branches => inferInstanceAs (Decidable (¬ _))

/-- The identity of a branch by its type and its alternatives. -/
def branchOf? (location : Json) : Option Identity :=
  match OrderedMap.get? location.fieldsOrEmpty ("locations" : Text) with
  | some (.arr items) => (regions? items).map (.branch (branchType location.fieldsOrEmpty))
  | _ => none

/-- A branch that is told has alternatives, one for each range of its identity. -/
theorem exists_of_branchOf?_eq_some {location : Json} {identity : Identity}
    (h : branchOf? location = some identity) :
    ∃ items keys, OrderedMap.get? location.fieldsOrEmpty ("locations" : Text) = some (.arr items) ∧
      keys.length = items.length ∧
      identity = .branch (branchType location.fieldsOrEmpty) keys := by
  rw [branchOf?] at h
  split at h
  · next items hitems =>
    obtain ⟨keys, hkeys, rfl⟩ := Option.map_eq_some_iff.1 h
    exact ⟨items, keys, hitems, length_of_regions? hkeys, rfl⟩
  · cases h

/-- An object without a start is no range, and its alternatives decide what it is told by. -/
theorem identityInPlace_of_start {fields : OrderedMap Text Json}
    (h : OrderedMap.get? fields ("start" : Text) = none) (id : Text) :
    identityInPlace id (.obj fields) =
      match OrderedMap.get? fields ("locations" : Text) with
      | some (.arr items) => branchIdentity id fields items
      | _ => .ok (functionIdentity id fields) := by
  have hrange : Range.ofJson? (.obj fields) = none := by
    rw [Range.ofJson?, h]
    rfl
  rcases hlocations : OrderedMap.get? fields ("locations" : Text) with _ | locations
  · simp only [identityInPlace, hrange, hlocations]
  · cases locations <;> simp only [identityInPlace, hrange, hlocations]

/-- A function that was written is told by its declaration and its body. -/
theorem functionIdentity_functionObject {fields : OrderedMap Text Json} {declaration body : Range}
    (hdeclaration : declaration.HasPlainKeys) (hbody : body.HasPlainKeys)
    (hnone : present? fields "decl" = none → body = declaration) (id : Text) :
    functionIdentity id (functionObject fields declaration body).fieldsOrEmpty =
      .function declaration.key body.key := by
  have hget := get?_functionObject fields declaration body
  have hloc :
      OrderedMap.get? (functionObject fields declaration body).fieldsOrEmpty ("loc" : Text) =
      some (atRange ((OrderedMap.get? fields ("loc" : Text)).getD .null) body) :=
    hget "loc"
  have hdecl : OrderedMap.get? (functionObject fields declaration body).fieldsOrEmpty
      ("decl" : Text) = ((present? fields "decl").map fun decl => atRange decl declaration).or
        (OrderedMap.get? fields ("decl" : Text)) :=
    hget "decl"
  obtain ⟨loc, hreadloc, hkeyloc⟩ := exists_ofJson?_atRange hbody
    ((OrderedMap.get? fields ("loc" : Text)).getD .null)
  simp only [functionIdentity, hloc, Option.bind_some, hreadloc, hdecl]
  rcases hpresent : present? fields "decl" with _ | decl
  · -- without a declaration the body is read for both
    have hread : (OrderedMap.get? fields ("decl" : Text)).bind Range.ofJson? = none := by
      rw [present?] at hpresent
      split at hpresent
      · next hget => rw [hget, Option.bind_none]
      · next hget => rw [hget]; rfl
      · cases hpresent
    simp [hread, hkeyloc, hnone hpresent]
  · obtain ⟨decl', hreaddecl, hkeydecl⟩ := exists_ofJson?_atRange hdeclaration decl
    simp [hreaddecl, hkeydecl, hkeyloc]

/-- The type of a branch is a text or null, and it is compared as such. -/
theorem scalar_type_of_isBranch {fields : OrderedMap Text Json} (h : isBranch fields = true) :
    ((OrderedMap.get? fields ("type" : Text)).getD .null).scalar = .ok (branchType fields) := by
  simp only [isBranch, Bool.and_eq_true, converts, present?] at h
  obtain ⟨⟨⟨-, htype⟩, -⟩, -⟩ := h
  rw [branchType]
  rcases htext : OrderedMap.get? fields ("type" : Text) with _ | type
  · rfl
  · rw [htext] at htype
    cases type with
    | str t => rfl
    | null => rfl
    | _ => cases htype

section Entries

variable {remap : RangeMap} {raw : Json} {m : LiftedLocation}
  (hplain : ∀ location range, remap location = .ok (some range) → range.HasPlainKeys)

include hplain

/-- A lifted statement comes back with its identity. -/
theorem identityInPlace_of_liftStatement (h : liftStatement remap raw = .ok (some m)) (id : Text) :
    identityInPlace id m.location = .ok m.identity := by
  obtain ⟨range, hrange, rfl⟩ := exists_of_liftStatement h
  obtain ⟨range', hread, hkey⟩ :=
    exists_ofJson?_atRange (holds_of_remapped hplain hrange) raw
  simp only [identityInPlace, hread, hkey]

/-- A lifted function comes back with its identity. -/
theorem identityInPlace_of_liftFunction (h : liftFunction remap raw = .ok (some m))
    (hraw : LocationTable.functions.IsPlain raw) (id : Text) :
    identityInPlace id m.location = .ok m.identity := by
  obtain ⟨fields, declaration, body, rfl, hdeclaration, hbody, hnone, rfl⟩ :=
    exists_holds_of_liftFunction hplain h
  obtain ⟨written, hwritten⟩ : ∃ written, functionObject fields declaration body = .obj written :=
    ⟨_, rfl⟩
  have hget := get?_functionObject fields declaration body
  have htold := functionIdentity_functionObject hdeclaration hbody hnone id
  dsimp only
  rw [hwritten] at hget htold ⊢
  -- members that were not there and are not written are not there
  have hother : ∀ key : Text, key ∉ (["line", "loc", "decl"] : List Text) →
      key ∉ OrderedMap.keys fields → OrderedMap.get? written key = none := by
    intro key hkey hnot
    simp only [List.mem_cons, List.not_mem_nil, or_false, not_or] at hkey
    obtain ⟨hline, hloc, hdecl⟩ := hkey
    refine (hget key).trans ?_
    rw [if_neg (Ne.symm hline), if_neg (Ne.symm hloc), if_neg (Ne.symm hdecl),
      OrderedMap.get?_eq_none_iff.2 hnot]
  rw [identityInPlace_of_start (hother "start" (by decide) hraw.1),
    hother "locations" (by decide) hraw.2]
  exact congrArg Except.ok htold

/-- The members of a lifted branch by which it is told: its type as it was, and as many alternatives
as there were, which are read back with the numbers of its identity. -/
theorem exists_members_of_liftBranch (h : liftBranch remap raw = .ok (some m)) :
    ∃ fields alternatives written items keys, raw = .obj fields ∧
      alternatives? fields = some alternatives ∧ isBranch fields = true ∧
      m = ⟨.obj written, .branch (branchType fields) keys⟩ ∧
      OrderedMap.get? written ("locations" : Text) = some (.arr items) ∧
      regions? items = some keys ∧ keys.length = alternatives.length ∧
      ∀ key : Text, key ∉ (["line", "loc", "locations"] : List Text) →
        OrderedMap.get? written key = OrderedMap.get? fields key := by
  obtain ⟨fields, alternatives, ranges, whole, hraw, halternatives, hbranch, hlength, hranges, -,
    rfl⟩ := exists_holds_of_liftBranch hplain h
  have hget := get?_branchObject fields (alternatives.zip ranges) whole
  have hkeys : (alternatives.zip ranges).map (fun alternative => alternative.2.key) =
      ranges.map Range.key :=
    List.map_map.symm.trans
      (congrArg (List.map Range.key) (List.map_snd_zip (Nat.le_of_eq hlength)))
  refine ⟨fields, alternatives, _, _, ranges.map Range.key, hraw, halternatives, hbranch, rfl,
    hget "locations", ?_, ?_, fun key hkey => ?_⟩
  · rw [← hkeys]
    exact regions?_atRange fun alternative hmem => hranges _ (List.of_mem_zip hmem).2
  · rw [List.length_map, hlength]
  · simp only [List.mem_cons, List.not_mem_nil, or_false, not_or] at hkey
    obtain ⟨hline, hloc, hlocations⟩ := hkey
    refine (hget key).trans ?_
    rw [if_neg (Ne.symm hline), if_neg (Ne.symm hloc), if_neg (Ne.symm hlocations)]

/-- A lifted branch is told by its type and its alternatives. -/
theorem branchOf?_of_liftBranch (h : liftBranch remap raw = .ok (some m)) :
    branchOf? m.location = some m.identity := by
  obtain ⟨fields, -, written, items, keys, -, -, -, rfl, hlocations, hkeys, -, hget⟩ :=
    exists_members_of_liftBranch hplain h
  have htype : branchType written = branchType fields := by
    rw [branchType, hget "type" (by decide), branchType]
  simp only [branchOf?, Json.fieldsOrEmpty, hlocations, hkeys, htype, Option.map_some]

/-- A lifted branch comes back with its identity. -/
theorem identityInPlace_of_liftBranch (h : liftBranch remap raw = .ok (some m))
    (hraw : LocationTable.branches.IsPlain raw) (id : Text) :
    identityInPlace id m.location = .ok m.identity := by
  obtain ⟨fields, -, written, items, keys, rfl, -, hbranch, rfl, hlocations, hkeys, -, hget⟩ :=
    exists_members_of_liftBranch hplain h
  have hstart : OrderedMap.get? written ("start" : Text) = none :=
    (hget "start" (by decide)).trans (OrderedMap.get?_eq_none_iff.2 hraw)
  rw [identityInPlace_of_start hstart, hlocations]
  simp only [branchIdentity, hkeys, hget "type" (by decide), scalar_type_of_isBranch hbranch]
  rfl

/-- **Recognition**: a lifted entry comes back with its identity. -/
theorem identityInPlace_of_liftEntry {table : LocationTable}
    (h : table.liftEntry remap raw = .ok (some m)) (hraw : table.IsPlain raw) (id : Text) :
    identityInPlace id m.location = .ok m.identity := by
  cases table with
  | statements => exact identityInPlace_of_liftStatement hplain h id
  | functions => exact identityInPlace_of_liftFunction hplain h hraw id
  | branches => exact identityInPlace_of_liftBranch hplain h hraw id

end Entries

end CoverageLift
