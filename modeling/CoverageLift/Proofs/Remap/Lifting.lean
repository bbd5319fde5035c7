import CoverageLift.Coverage.Remap
import CoverageLift.Proofs.Success

/-!
# What lifted entries are made of

An entry that was lifted is taken apart here, once: which of its ranges were lifted, what stands in
for those that were not, and what was made of them.
-/

namespace CoverageLift

/-! ### Entries -/

section Entries

variable {remap : RangeMap} {raw : Json} {m : LiftedLocation}

/-- A lifted statement is made of its range. -/
theorem exists_of_liftStatement (h : liftStatement remap raw = .ok (some m)) :
    ∃ range, remap.apply? (Range.ofJson? raw) = .ok (some range) ∧
      m = ⟨atRange raw range, .statement range.key⟩ := by
  rw [liftStatement] at h
  obtain ⟨_ | range, hrange, h⟩ := bind_eq_ok_iff.1 h
  · cases h
  · exact ⟨range, hrange, (Option.some.inj (Except.ok.inj h)).symm⟩

/-- The range that decides about a function: that of its declaration, or that of its body when it
has no declaration. -/
def declaredRange? (fields : OrderedMap Text Json) : Option Range :=
  match present? fields "decl" with
  | some decl => Range.ofJson? decl
  | none => (present? fields "loc").bind Range.ofJson?

/-- A lifted function is made of its declaration and its body, for which the declaration stands in
when the body cannot be lifted or has been taken for the declaration. -/
theorem exists_of_liftFunction (h : liftFunction remap raw = .ok (some m)) :
    ∃ fields declaration body, raw = .obj fields ∧ isFunction fields = true ∧
      remap.apply? (declaredRange? fields) = .ok (some declaration) ∧
      (if (present? fields "decl").isSome then
        remap.apply? ((present? fields "loc").bind Range.ofJson?) else .ok none) = .ok body ∧
      m = ⟨functionObject fields declaration (body.getD declaration),
        .function declaration.key (body.getD declaration).key⟩ := by
  cases raw with
  | obj fields =>
    rw [liftFunction] at h
    split at h
    · cases h
    · next hfunction =>
      obtain ⟨_ | declaration, hdeclaration, h⟩ := bind_eq_ok_iff.1 h
      · cases h
      · have hfunction : isFunction fields = true := by simpa using hfunction
        have hbody : ∃ body, (if (present? fields "decl").isSome then
              remap.apply? ((present? fields "loc").bind Range.ofJson?) else .ok none) = .ok body ∧
            m = ⟨functionObject fields declaration (body.getD declaration),
              .function declaration.key (body.getD declaration).key⟩ := by
          dsimp only at h
          split at h
          · next hdecl =>
            obtain ⟨body, hbody, h⟩ := bind_eq_ok_iff.1 h
            exact ⟨body, (if_pos hdecl).trans hbody, (Option.some.inj (Except.ok.inj h)).symm⟩
          · next hdecl =>
            exact ⟨none, if_neg hdecl, (Option.some.inj (Except.ok.inj h)).symm⟩
        obtain ⟨body, hbody, hm⟩ := hbody
        exact ⟨fields, declaration, body, rfl, hfunction, hdeclaration, hbody, hm⟩
  | _ => cases h

/-- A lifted branch is made of its alternatives and the whole; the anchor stands in for those that
cannot be lifted. -/
theorem exists_of_liftBranch (h : liftBranch remap raw = .ok (some m)) :
    ∃ fields items lifted loc anchor, raw = .obj fields ∧ alternatives? fields = some items ∧
      isBranch fields = true ∧
      items.mapM (fun v => remap.apply? (Range.ofJson? v)) = .ok lifted ∧
      remap.apply? ((present? fields "loc").bind Range.ofJson?) = .ok loc ∧
      (lifted.findSome? id).or loc = some anchor ∧
      m = ⟨branchObject fields (items.zip (lifted.map (·.getD anchor))) (loc.getD anchor),
        .branch (branchType fields) ((lifted.map (·.getD anchor)).map Range.key)⟩ := by
  cases raw with
  | obj fields =>
    rw [liftBranch] at h
    split at h
    · cases h
    · next items hitems =>
      split at h
      · cases h
      · next hbranch =>
        obtain ⟨lifted, hlifted, h⟩ := bind_eq_ok_iff.1 h
        obtain ⟨loc, hloc, h⟩ := bind_eq_ok_iff.1 h
        split at h
        · cases h
        · next anchor hanchor =>
          exact ⟨fields, items, lifted, loc, anchor, rfl, hitems, by simpa using hbranch, hlifted,
            hloc, hanchor, (Option.some.inj (Except.ok.inj h)).symm⟩
  | _ => cases h

end Entries

/-! ### The members of lifted entries -/

/-- The value at a key after a member has been set that was there already. -/
theorem get?_replace (fields : OrderedMap Text Json) (key other : Text) (v : Json) :
    OrderedMap.get? (replace fields key v) other =
      if key = other then (OrderedMap.get? fields key).map fun _ => v
      else OrderedMap.get? fields other := by
  rw [replace, OrderedMap.contains]
  rcases hget : OrderedMap.get? fields key with _ | old
  · simp only [Option.isSome_none, Bool.false_eq_true, if_false, Option.map_none]
    split
    · next heq => rw [← heq, hget]
    · rfl
  · simp only [Option.isSome_some, if_true, Option.map_some, OrderedMap.get?_insert]

/-- The members of a lifted function. -/
theorem get?_functionObject (fields : OrderedMap Text Json) (declaration body : Range)
    (key : Text) :
    OrderedMap.get? (functionObject fields declaration body).fieldsOrEmpty key =
      if "line" = key then
        (OrderedMap.get? fields ("line" : Text)).map fun _ => .int declaration.start.line
      else if "loc" = key then
        some (atRange ((OrderedMap.get? fields ("loc" : Text)).getD .null) body)
      else if "decl" = key then
        ((present? fields "decl").map fun decl => atRange decl declaration).or
          (OrderedMap.get? fields ("decl" : Text))
      else OrderedMap.get? fields key := by
  have hline : ("loc" : Text) ≠ "line" ∧ ("decl" : Text) ≠ "line" := by decide
  have hloc : ("decl" : Text) ≠ "loc" := by decide
  rw [functionObject, Json.fieldsOrEmpty]
  cases present? fields "decl" with
  | none =>
    simp only [get?_replace, OrderedMap.get?_insert, if_neg hline.1, Option.map_none,
      Option.none_or]
    by_cases hdecl : ("decl" : Text) = key
    · subst hdecl
      simp only [if_true]
    · simp only [hdecl, if_false]
  | some decl =>
    simp only [get?_replace, OrderedMap.get?_insert, if_neg hline.1, if_neg hline.2, if_neg hloc,
      Option.map_some, Option.some_or]

/-- The members of a lifted branch. -/
theorem get?_branchObject (fields : OrderedMap Text Json) (alternatives : List (Json × Range))
    (whole : Range) (key : Text) :
    OrderedMap.get? (branchObject fields alternatives whole).fieldsOrEmpty key =
      if "line" = key then
        (OrderedMap.get? fields ("line" : Text)).map fun _ => .int whole.start.line
      else if "loc" = key then
        (OrderedMap.get? fields ("loc" : Text)).map fun loc => atRange loc whole
      else if "locations" = key then
        some (.arr (alternatives.map fun (raw, range) => atRange raw range))
      else OrderedMap.get? fields key := by
  have hline : ("locations" : Text) ≠ "line" ∧ ("loc" : Text) ≠ "line" := by decide
  have hloc : ("locations" : Text) ≠ "loc" := by decide
  rw [branchObject, Json.fieldsOrEmpty]
  simp only [get?_replace, OrderedMap.get?_insert, if_neg hline.1, if_neg hline.2, if_neg hloc]
  split
  · rfl
  · split
    · cases OrderedMap.get? fields ("loc" : Text) <;> rfl
    · rfl

end CoverageLift
