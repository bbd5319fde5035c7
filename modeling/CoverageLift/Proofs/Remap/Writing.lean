import CoverageLift.Proofs.Remap.Recognition
import CoverageLift.Proofs.Text.Encodings

/-!
# Ranges that are written and read again

A value can be written as a part of a range when it has no more levels than there is room for and
no key in it holds a lone surrogate (`Json.FitsIn`). A range can be written when this is so of the
other members of its points (`Range.write_eq_ok_iff`), and so when its points have none
(`Range.write_of_isPlain`).

What is written has lost the members that are null and the numbers in them that are not finite
(`Point.kept`), so reading it gives the range with its points reduced to what they keep
(`Range.ofJson?_toJson`), and that has the same numbers. **Writing what was read gives the same
value again, unless a member is itself a number that is not finite** (`write_of_ofJson?`): such a
member is written as null, and the next time it is left out.
-/

namespace CoverageLift

/-! ### Values that can be written -/

namespace Json

mutual

/-- The number of levels of a value: one, and those of its deepest part. -/
def levels : Json → Nat
  | arr items => levelsOfItems items + 1
  | obj fields => levelsOfFields fields + 1
  | _ => 1

/-- The greatest number of levels of an item. -/
def levelsOfItems : List Json → Nat
  | [] => 0
  | item :: items => max (levels item) (levelsOfItems items)

/-- The greatest number of levels of the value of a member. -/
def levelsOfFields : List (Text × Json) → Nat
  | [] => 0
  | field :: fields => max (levelsOfField field) (levelsOfFields fields)

/-- The number of levels of the value of a member. -/
def levelsOfField : Text × Json → Nat
  | (_, v) => levels v

end

mutual

/-- The keys of the objects in a value. -/
def allKeys : Json → List Text
  | arr items => allKeysOfItems items
  | obj fields => allKeysOfFields fields
  | _ => []

/-- The keys of the objects in items. -/
def allKeysOfItems : List Json → List Text
  | [] => []
  | item :: items => allKeys item ++ allKeysOfItems items

/-- The keys of members and of the objects in their values. -/
def allKeysOfFields : List (Text × Json) → List Text
  | [] => []
  | field :: fields => allKeysOfField field ++ allKeysOfFields fields

/-- The key of a member and those of the objects in its value. -/
def allKeysOfField : Text × Json → List Text
  | (key, v) => key :: allKeys v

end

/-- A value that can be written when there is room for `room` levels: it has no more of them, and
no key in it holds a lone surrogate. -/
@[mk_iff]
structure FitsIn (room : Nat) (v : Json) : Prop where
  levels_le : v.levels ≤ room
  plainKeys : ∀ key ∈ v.allKeys, key.hasSurrogate = false

theorem levels_pos (v : Json) : 0 < v.levels := by
  cases v <;> simp [levels]

theorem checkField_eq_ok_iff {room : Nat} {key : Text} {v : Json} :
    checkField room (key, v) = .ok () ↔
      key.hasSurrogate = false ∧ checkWritable room v = .ok () := by
  rw [checkField, bind_eq_ok_iff, ← Utf8.exists_encodeFrom_iff 0, ← exists_and_right]
  simp only [mapError_eq_ok_iff, Utf8.encode]

mutual

/-- Writing a value fails for its levels or its keys. -/
theorem checkWritable_eq_ok_iff (room : Nat) (v : Json) :
    checkWritable room v = .ok () ↔ v.FitsIn room := by
  rw [fitsIn_iff]
  cases room with
  | zero =>
    refine iff_of_false ?_ fun h => Nat.not_lt.2 h.1 v.levels_pos
    rw [checkWritable]
    rintro ⟨⟩
  | succ room =>
    cases v with
    | arr items =>
      rw [checkWritable, levels, allKeys, Nat.add_le_add_iff_right, checkItems_eq_ok_iff]
    | obj fields =>
      rw [checkWritable, levels, allKeys, Nat.add_le_add_iff_right, checkFields_eq_ok_iff]
    | _ => exact iff_of_true rfl ⟨Nat.le_add_left 1 room, nofun⟩

theorem checkItems_eq_ok_iff (room : Nat) (items : List Json) :
    checkItems room items = .ok () ↔
      levelsOfItems items ≤ room ∧ ∀ key ∈ allKeysOfItems items, key.hasSurrogate = false := by
  cases items with
  | nil => exact iff_of_true rfl ⟨Nat.zero_le _, nofun⟩
  | cons item items =>
    rw [checkItems, bind_unit_eq_ok_iff, checkWritable_eq_ok_iff, checkItems_eq_ok_iff, fitsIn_iff,
      levelsOfItems, allKeysOfItems, Nat.max_le, List.forall_mem_append, and_and_and_comm]

theorem checkFields_eq_ok_iff (room : Nat) (fields : List (Text × Json)) :
    checkFields room fields = .ok () ↔
      levelsOfFields fields ≤ room ∧
        ∀ key ∈ allKeysOfFields fields, key.hasSurrogate = false := by
  cases fields with
  | nil => exact iff_of_true rfl ⟨Nat.zero_le _, nofun⟩
  | cons field fields =>
    obtain ⟨key, v⟩ := field
    rw [checkFields, bind_unit_eq_ok_iff, checkField_eq_ok_iff, checkWritable_eq_ok_iff,
      checkFields_eq_ok_iff, fitsIn_iff, levelsOfFields, levelsOfField, allKeysOfFields,
      allKeysOfField, Nat.max_le, List.forall_mem_append, List.forall_mem_cons,
      @and_left_comm (key.hasSurrogate = false), and_and_and_comm]

end

/-! ### Values without numbers that are not finite -/

mutual

/-- Null is written where a number can be. -/
theorem checkWritable_finite (room : Nat) (v : Json) :
    checkWritable room (finite v) = checkWritable room v := by
  cases room with
  | zero => rw [checkWritable, checkWritable]
  | succ room =>
    cases v with
    | float x => cases x with
      | _ => rfl
    | arr items => rw [finite, checkWritable, checkWritable, checkItems_finiteItems]
    | obj fields => rw [finite, checkWritable, checkWritable, checkFields_finiteFields]
    | _ => rfl

theorem checkItems_finiteItems (room : Nat) (items : List Json) :
    checkItems room (finiteItems items) = checkItems room items := by
  cases items with
  | nil => rfl
  | cons item items =>
    rw [finiteItems, checkItems, checkItems, checkWritable_finite, checkItems_finiteItems]

theorem checkFields_finiteFields (room : Nat) (fields : List (Text × Json)) :
    checkFields room (finiteFields fields) = checkFields room fields := by
  cases fields with
  | nil => rfl
  | cons field fields =>
    obtain ⟨key, v⟩ := field
    rw [finiteFields, finiteField, checkFields, checkFields, checkField, checkField,
      checkWritable_finite, checkFields_finiteFields]

end

theorem fitsIn_finite_iff {room : Nat} {v : Json} : (finite v).FitsIn room ↔ v.FitsIn room := by
  rw [← checkWritable_eq_ok_iff, ← checkWritable_eq_ok_iff, checkWritable_finite]

mutual

/-- No number that is not finite is left. -/
theorem finite_finite (v : Json) : finite (finite v) = finite v := by
  cases v with
  | float x => cases x with
    | _ => rfl
  | arr items => rw [finite, finite, finiteItems_finiteItems]
  | obj fields => rw [finite, finite, finiteFields_finiteFields]
  | _ => rfl

theorem finiteItems_finiteItems (items : List Json) :
    finiteItems (finiteItems items) = finiteItems items := by
  cases items with
  | nil => rfl
  | cons item items => rw [finiteItems, finiteItems, finite_finite, finiteItems_finiteItems]

theorem finiteFields_finiteFields (fields : List (Text × Json)) :
    finiteFields (finiteFields fields) = finiteFields fields := by
  cases fields with
  | nil => rfl
  | cons field fields =>
    obtain ⟨key, v⟩ := field
    rw [finiteFields, finiteField, finiteFields, finiteField, finite_finite,
      finiteFields_finiteFields]

end

theorem finite_eq_null_iff {v : Json} :
    finite v = .null ↔ v = .null ∨ ∃ x, v = .float x ∧ x.isFinite = false := by
  constructor
  · intro h
    cases v with
    | null => exact .inl rfl
    | float x => cases x with
      | finite _ _ _ => cases h
      | _ => exact .inr ⟨_, rfl, rfl⟩
    | _ => cases h
  · rintro (rfl | ⟨x, rfl, hx⟩)
    · rfl
    · cases x with
      | finite _ _ _ => cases hx
      | _ => rfl

theorem mem_finiteFields_iff {fields : OrderedMap Text Json} {field : Text × Json} :
    field ∈ finiteFields fields ↔ ∃ raw ∈ fields, field = (raw.1, finite raw.2) := by
  induction fields with
  | nil => simp [finiteFields]
  | cons first fields ih =>
    obtain ⟨key, v⟩ := first
    rw [finiteFields, finiteField, List.mem_cons, ih, List.exists_mem_cons_iff]

theorem finiteFields_eq_self {fields : OrderedMap Text Json}
    (h : ∀ field ∈ fields, finite field.2 = field.2) : finiteFields fields = fields := by
  induction fields with
  | nil => rfl
  | cons field fields ih =>
    obtain ⟨hfield, hfields⟩ := List.forall_mem_cons.1 h
    rw [finiteFields, ih hfields, finiteField, hfield]

end Json

/-! ### Points -/

namespace Point

variable {p : Point} {v : Json}

/-- What is kept of a point that is written. -/
def kept (p : Point) : Point := { p with extras := Json.finiteFields (p.extras.filter isPresent) }

/-- A point as it is read: its other members have keys without lone surrogates, and none of them is
one of the members that every point has. -/
structure IsRead (p : Point) : Prop where
  plain : p.HasPlainKeys
  foreign : ∀ field ∈ p.extras, field.1 ∉ ownKeys

/-- All other members of the point can be written. -/
def IsWritable (p : Point) : Prop := ∀ field ∈ p.extras, field.2.FitsIn Json.maxLevels

/-- No other member of the point is itself a number that is not finite. -/
def IsFinite (p : Point) : Prop := ∀ field ∈ p.extras, ∀ x, field.2 = .float x → x.isFinite = true

theorem isPresent_iff {field : Text × Json} : isPresent field = true ↔ field.2 ≠ .null := by
  obtain ⟨key, v⟩ := field
  cases v with
  | null => exact iff_of_false Bool.false_ne_true fun h => h rfl
  | _ => exact iff_of_true rfl (nomatch ·)

theorem mem_kept_iff {field : Text × Json} :
    field ∈ p.kept.extras ↔
      ∃ raw ∈ p.extras, raw.2 ≠ .null ∧ field = (raw.1, Json.finite raw.2) := by
  rw [kept, Json.mem_finiteFields_iff]
  simp only [List.mem_filter, isPresent_iff, and_assoc]

theorem isRead_of_ofJson? (h : ofJson? v = some p) : p.IsRead := by
  cases v with
  | obj fields =>
    rw [ofJson?] at h
    split at h
    · cases h
    · next hplain =>
      split at h
      · split at h
        · obtain rfl := Option.some.inj h
          refine ⟨fun key hkey => ?_, fun field hfield => ?_⟩
          · obtain ⟨field, hfield, rfl⟩ := List.mem_map.1 hkey
            exact Bool.of_not_eq_true fun hsurrogate => hplain (List.any_eq_true.2
              ⟨_, List.mem_map_of_mem (List.mem_of_mem_filter hfield), hsurrogate⟩)
          · simpa using (List.mem_filter.1 hfield).2
        · cases h
      · cases h
  | _ => cases h

theorem checkWritable_eq_ok_iff : p.checkWritable = .ok () ↔ p.IsWritable := by
  simp only [checkWritable, forM_eq_ok_iff, Json.checkWritable_eq_ok_iff]
  refine ⟨fun h field hfield => ?_, fun h field hfield => h field (List.mem_of_mem_filter hfield)⟩
  by_cases hpresent : isPresent field = true
  · exact h field (List.mem_filter.2 ⟨hfield, hpresent⟩)
  · -- a member that is null is not written, and it could be
    rw [isPresent_iff, ne_eq, not_not] at hpresent
    rw [hpresent]
    exact (Json.checkWritable_eq_ok_iff _ _).1 rfl

theorem IsWritable.kept (h : p.IsWritable) : p.kept.IsWritable := by
  intro field hfield
  obtain ⟨raw, hraw, -, rfl⟩ := mem_kept_iff.1 hfield
  exact Json.fitsIn_finite_iff.2 (h raw hraw)

/-- A point that was read is read back as what is kept of it. -/
theorem IsRead.ofJson?_toJson (h : p.IsRead) : ofJson? p.toJson = some p.kept := by
  have hforeign : ∀ field ∈ p.kept.extras, (!ownKeys.contains field.1) = true := by
    intro field hfield
    obtain ⟨raw, hraw, -, rfl⟩ := mem_kept_iff.1 hfield
    simpa using h.foreign raw hraw
  rw [Point.ofJson?_toJson h.plain]
  exact congrArg (fun extras => some (Point.mk p.line p.column extras))
    (List.filter_eq_self.2 hforeign)

/-- What is kept of a point is written like the point when no member has become null. -/
theorem toJson_kept_eq_iff :
    p.kept.toJson = p.toJson ↔ ∀ field ∈ p.kept.extras, field.2 ≠ .null := by
  have hfinite : Json.finiteFields (p.kept.extras.filter isPresent) =
      p.kept.extras.filter isPresent := by
    refine Json.finiteFields_eq_self fun field hfield => ?_
    obtain ⟨raw, -, -, rfl⟩ := mem_kept_iff.1 (List.mem_of_mem_filter hfield)
    exact Json.finite_finite raw.2
  calc p.kept.toJson = p.toJson
    _ ↔ p.kept.extras.filter isPresent = p.kept.extras := by
      rw [toJson, hfinite]
      simp [toJson, kept]
    _ ↔ ∀ field ∈ p.kept.extras, field.2 ≠ .null := by
      rw [List.filter_eq_self]
      simp only [isPresent_iff]

/-- The members that become null are the numbers that are not finite. -/
theorem toJson_kept_iff : p.kept.toJson = p.toJson ↔ p.IsFinite := by
  rw [toJson_kept_eq_iff]
  constructor
  · intro h field hfield x hx
    have hsome : field.2 ≠ .null := by
      rw [hx]
      rintro ⟨⟩
    have hkept := h _ (mem_kept_iff.2 ⟨field, hfield, hsome, rfl⟩)
    exact Bool.of_not_eq_false fun hnot => hkept (Json.finite_eq_null_iff.2 (.inr ⟨x, hx, hnot⟩))
  · intro h field hfield hnull
    obtain ⟨raw, hraw, hsome, rfl⟩ := mem_kept_iff.1 hfield
    obtain hnone | ⟨x, hx, hnot⟩ := Json.finite_eq_null_iff.1 hnull
    · exact hsome hnone
    · exact Bool.false_ne_true (hnot.symm.trans (h raw hraw x hx))

end Point

/-! ### Ranges -/

namespace Range

variable {r : Range} {v j : Json}

/-- What is kept of a range that is written. -/
def kept (r : Range) : Range := ⟨r.start.kept, r.stop.map Point.kept, r.skip⟩

theorem isRead_of_ofJson? (h : ofJson? v = some r) : ∀ p ∈ r.points, p.IsRead := by
  cases v with
  | obj fields =>
    rw [ofJson?] at h
    split at h
    · cases h
    · next start hstart =>
      obtain rfl := Option.some.inj h
      refine List.forall_mem_cons.2 ⟨?_, fun p hp => ?_⟩
      · obtain ⟨w, -, hw⟩ := Option.bind_eq_some_iff.1 hstart
        exact Point.isRead_of_ofJson? hw
      · obtain ⟨w, -, hw⟩ := Option.bind_eq_some_iff.1 (Option.mem_toList.1 hp)
        exact Point.isRead_of_ofJson? hw
  | _ => cases h

/-- A range is written unless a member of its points cannot be. -/
theorem write_eq_ok_iff : r.write = .ok j ↔ (∀ p ∈ r.points, p.IsWritable) ∧ r.toJson = j := by
  have hcheck : r.points.forM Point.checkWritable = .ok () ↔ ∀ p ∈ r.points, p.IsWritable := by
    simp only [forM_eq_ok_iff, Point.checkWritable_eq_ok_iff]
  rw [write, bind_unit_eq_ok_iff, hcheck]
  exact and_congr_right fun _ => ⟨Except.ok.inj, congrArg _⟩

/-- Plain points are always written. -/
theorem write_of_isPlain (h : r.IsPlain) : r.write = .ok r.toJson := by
  refine write_eq_ok_iff.2 ⟨fun p hp field hfield => ?_, rfl⟩
  rw [h p hp] at hfield
  exact absurd hfield List.not_mem_nil

/-- So what a table is moved to can be written. -/
theorem write_of_plainRangeMap {remap : PlainRangeMap} {location : Range}
    (h : remap.1 location = .ok (some r)) : r.write = .ok r.toJson :=
  write_of_isPlain (remap.2 location r h)

/-- The members of a range that is written. -/
theorem exists_fields_toJson (r : Range) :
    ∃ fields, r.toJson = .obj fields ∧
      OrderedMap.get? fields ("start" : Text) = some r.start.toJson ∧
      OrderedMap.get? fields ("end" : Text) = r.stop.map Point.toJson ∧ skipOf fields = r.skip := by
  refine ⟨_, rfl, rfl, ?_, ?_⟩
  · cases r.stop with
    | none => cases r.skip <;> rfl
    | some stop => rfl
  · rw [skipOf]
    cases r.stop <;> cases r.skip <;> rfl

/-- A range that was read is read back as what is kept of it. -/
theorem ofJson?_toJson (h : ∀ p ∈ r.points, p.IsRead) : ofJson? r.toJson = some r.kept := by
  obtain ⟨hstart, hstop⟩ := List.forall_mem_cons.1 h
  obtain ⟨fields, hfields, hgetstart, hgetstop, hskip⟩ := exists_fields_toJson r
  have hreadstop : (r.stop.map Point.toJson).bind Point.ofJson? = r.stop.map Point.kept := by
    cases hp : r.stop with
    | none => rfl
    | some stop => exact (hstop stop (Option.mem_toList.2 hp)).ofJson?_toJson
  rw [hfields, ofJson?, hgetstart, hgetstop, hskip, Option.bind_some,
    hstart.ofJson?_toJson, hreadstop]
  rfl

/-- What is kept of a range is written like the range exactly when nothing of its points becomes
null. -/
theorem toJson_kept_iff : r.kept.toJson = r.toJson ↔ ∀ p ∈ r.points, p.IsFinite := by
  obtain ⟨start, stop, skip⟩ := r
  rw [points, List.forall_mem_cons, ← Point.toJson_kept_iff]
  cases stop with
  | none => simp [kept, toJson]
  | some stop =>
    rw [Option.toList_some, List.forall_mem_singleton, ← Point.toJson_kept_iff]
    simp [kept, toJson]

/-- **Writing what was read.** A range that was read can be written exactly when no other member of
its points has too many levels or a key in it with a lone surrogate. What is written is read as a
range with the same numbers and marks, and that range can be written too, as the same value exactly
when no member of a point is a number that is not finite. -/
theorem write_of_ofJson? (h : ofJson? v = some r) :
    ((∃ j, r.write = .ok j) ↔ ∀ p ∈ r.points, p.IsWritable) ∧
      ∀ j, r.write = .ok j → ∃ r' j', ofJson? j = some r' ∧ r'.write = .ok j' ∧
        (j' = j ↔ ∀ p ∈ r.points, p.IsFinite) ∧
        r'.key = r.key ∧ r'.lastLine = r.lastLine ∧ r'.start.isLegal = r.start.isLegal ∧
        r'.stop.isSome = r.stop.isSome ∧ r'.skip = r.skip := by
  have hread := isRead_of_ofJson? h
  refine ⟨⟨fun ⟨j, hj⟩ => (write_eq_ok_iff.1 hj).1, fun hwritable => ?_⟩, fun j hj => ?_⟩
  · exact ⟨_, write_eq_ok_iff.2 ⟨hwritable, rfl⟩⟩
  · obtain ⟨hwritable, rfl⟩ := write_eq_ok_iff.1 hj
    have hkept : ∀ p ∈ r.kept.points, p.IsWritable := by
      rw [points, List.forall_mem_cons] at hwritable ⊢
      refine ⟨hwritable.1.kept, fun p hp => ?_⟩
      obtain ⟨stop, hstop, rfl⟩ := Option.map_eq_some_iff.1 (Option.mem_toList.1 hp)
      exact (hwritable.2 stop (Option.mem_toList.2 hstop)).kept
    have hstop : r.kept.stopOrStart = r.stopOrStart.kept := by
      rw [stopOrStart, stopOrStart, kept, Option.getD_map]
    refine ⟨r.kept, r.kept.toJson, ofJson?_toJson hread, write_eq_ok_iff.2 ⟨hkept, rfl⟩,
      toJson_kept_iff, ?_, ?_, rfl, Option.isSome_map, rfl⟩
    · rw [key, hstop]
      rfl
    · rw [lastLine, hstop]
      rfl

/-- A range that is spelled in another way than it is written: a truth value and a numeral as
numbers, an end without a column, a skip mark that is a number, and members that are null. -/
def looseRange : Json :=
  .obj [("skip", .int 1), ("end", .obj [("line", .int 2)]),
    ("start", .obj [("column", .str "07"), ("x", .null), ("y", .arr [.obj [("z", .null)]]),
      ("line", .bool true)])]

/-- It is written with numbers, and from then on it stays as it is. -/
theorem write_of_ofJson?_looseRange :
    ∃ r, ofJson? looseRange = some r ∧ ∃ j, r.write = .ok j ∧
      ∃ r', ofJson? j = some r' ∧ r'.write = .ok j ∧ r'.key = ⟨1, 7, 1, 7⟩ ∧ r'.lastLine = 1 ∧
        r'.start.isLegal = true ∧ r'.stop.isSome = false ∧ r'.skip = none := by
  let r : Range := ⟨⟨1, 7, [("x", .null), ("y", .arr [.obj [("z", .null)]])]⟩, none, none⟩
  have hread : ofJson? looseRange = some r := rfl
  have hwritable : ∀ p ∈ r.points, p.IsWritable :=
    List.forall_mem_singleton.2 (Point.checkWritable_eq_ok_iff.1 rfl)
  have hfinite : ∀ p ∈ r.points, p.IsFinite := List.forall_mem_singleton.2 <|
    List.forall_mem_cons.2 ⟨nofun, List.forall_mem_singleton.2 nofun⟩
  obtain ⟨hwrite, hagain⟩ := write_of_ofJson? hread
  obtain ⟨j, hj⟩ := hwrite.2 hwritable
  obtain ⟨r', j', hread', hj', hsame, hkey, hlast, hlegal, hstop, hskip⟩ := hagain j hj
  rw [hsame.2 hfinite] at hj'
  exact ⟨r, hread, j, hj, r', hread', hj', hkey, hlast, hlegal, hstop, hskip⟩

/-- Arrays in arrays, with one level more than the number. -/
def nested : Nat → Json
  | 0 => .arr []
  | n + 1 => .arr [nested n]

theorem checkWritable_nested (room : Nat) : (nested room).checkWritable room = .error .tooDeep := by
  induction room with
  | zero => rfl
  | succ room ih => rw [nested, Json.checkWritable, Json.checkItems, ih]; rfl

/-- A range whose start has one other member. -/
def withMember (v : Json) : Json :=
  .obj [("start", .obj [("line", .int 1), ("column", .int 0), ("x", v)])]

theorem ofJson?_withMember {v : Json} :
    ofJson? (withMember v) = some ⟨⟨1, 0, [("x", v)]⟩, none, none⟩ := rfl

/-- Not everything that was read stays as it is: a member with too many levels cannot be written,
nor can one with a lone surrogate for a key, and an infinite one is not there any more when the
range is written for the second time. -/
theorem write_of_withMember :
    (∃ r, ofJson? (withMember (nested Json.maxLevels)) = some r ∧ r.write = .error .tooDeep) ∧
      (∃ r, ofJson? (withMember (.obj [([.surrogate 0], .int 1)])) = some r ∧
        r.write = .error (.unencodable ⟨.surrogate 0, 0, 1⟩)) ∧
      ∃ r j r' j', ofJson? (withMember (.float (.infinite false))) = some r ∧ r.write = .ok j ∧
        ofJson? j = some r' ∧ r'.write = .ok j' ∧ j' ≠ j := by
  refine ⟨⟨_, ofJson?_withMember, ?_⟩, ⟨_, ofJson?_withMember, rfl⟩,
    _, _, _, _, ofJson?_withMember, rfl, rfl, rfl, ?_⟩
  · have hdeep : Point.checkWritable ⟨1, 0, [("x", nested Json.maxLevels)]⟩ = .error .tooDeep := by
      change (nested Json.maxLevels).checkWritable Json.maxLevels >>= _ = _
      rw [checkWritable_nested]
      rfl
    rw [write, points, List.forM, hdeep]
    rfl
  · rintro ⟨⟩

end Range

end CoverageLift
