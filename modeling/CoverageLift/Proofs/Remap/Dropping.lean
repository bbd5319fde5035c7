import CoverageLift.Proofs.Arena.Dropping
import CoverageLift.Proofs.Remap.Turns

/-!
# Dropping a location

A location that cannot be lifted is dropped, but its id stays listed. Whether that changes ids of
other entries is decided by the turns of its table alone, and there by what `Harmless` says about the
steps with the entry. It need not be harmless: a renumbered entry gives up its number, which the next
renumbered entry then gets, and an entry that others were folded into leaves them without an owner.
-/

namespace CoverageLift

/-- The contributions to a table, around one of them. -/
theorem callsOf_append_cons (table : LocationTable) (before after : List (PerTable Contribution))
    (c : PerTable Contribution) :
    callsOf table 0 (before ++ c :: after) =
      callsOf table 0 before ++
        (c.get table, before.length) :: callsOf table (before.length + 1) after := by
  simp [callsOf, List.zipIdx_append]

/-- What a contributor brings without one entry of a table. -/
def PerTable.dropEntry (per : PerTable Contribution) (table : LocationTable) (id : Text) :
    PerTable Contribution :=
  PerTable.ofFunction fun other => if other = table then (per.get table).drop id else per.get other

theorem PerTable.get_dropEntry (per : PerTable Contribution) (table : LocationTable) (id : Text) :
    (per.dropEntry table id).get table = (per.get table).drop id := by
  rw [dropEntry, get_ofFunction, if_pos rfl]

theorem PerTable.get_dropEntry_of_ne (per : PerTable Contribution) {table other : LocationTable}
    (id : Text) (hne : other ≠ table) : (per.dropEntry table id).get other = per.get other := by
  rw [dropEntry, get_ofFunction, if_neg hne]

section Dropping

variable {destination : Text} {enforceBounds : Bool} {seed : Option (OrderedMap Text Json)}
  {before after : List Contributor} {c : Contributor} {table : LocationTable} {id : Text}
  {raw : Json} {brought : List (PerTable Contribution)}

/-- What is brought when a location is replaced by one that cannot be lifted. -/
theorem contributions_setLocation
    (hkeys : (OrderedMap.keys (tableAt c.fields table.locationsKey)).Nodup)
    (hid : id ∈ OrderedMap.keys (tableAt c.fields table.locationsKey))
    (hraw : table.liftEntry (c.rangeMap destination enforceBounds) raw = .ok none)
    (hbrought : contributions destination enforceBounds seed (before ++ c :: after) = .ok brought) :
    ∃ pre per post, brought = pre ++ per :: post ∧ pre.length = before.length + 1 ∧
      c.contribution destination enforceBounds table = .ok (per.get table) ∧
      contributions destination enforceBounds seed (before ++ c.setLocation table id raw :: after) =
        .ok (pre ++ per.dropEntry table id :: post) := by
  obtain ⟨first, rest, hfirst, hrest, rfl⟩ := contributions_eq_ok_iff.1 hbrought
  obtain ⟨bs, per, as, rfl, hbefore, hc, hafter⟩ := exists_of_forall₂_append_cons hrest
  refine ⟨first :: bs, per, as, rfl, congrArg (· + 1) hbefore.length_eq.symm, hc table, ?_⟩
  refine contributions_eq_ok_iff.2
    ⟨first, _, hfirst, List.rel_append hbefore (.cons (fun other => ?_) hafter), rfl⟩
  by_cases hother : other = table
  · obtain rfl := hother
    rw [PerTable.get_dropEntry]
    exact Contributor.contribution_setLocation hkeys hid hraw (hc other)
  · rw [PerTable.get_dropEntry_of_ne _ _ hother, Contributor.contribution_setLocation_of_ne hother]
    exact hc other

/-- **Dropping a location**: when one location of a contributor is replaced by one that cannot be
lifted, every other entry of every contributor keeps its new id exactly when the entry is harmless.
The ids of the other tables never change. -/
theorem newIds_setLocation_iff
    (hkeys : (OrderedMap.keys (tableAt c.fields table.locationsKey)).Nodup)
    (hid : id ∈ OrderedMap.keys (tableAt c.fields table.locationsKey))
    (hraw : table.liftEntry (c.rangeMap destination enforceBounds) raw = .ok none)
    (hbrought : contributions destination enforceBounds seed (before ++ c :: after) = .ok brought) :
    ∃ brought', contributions destination enforceBounds seed
        (before ++ c.setLocation table id raw :: after) = .ok brought' ∧
      (∀ other, other ≠ table → newIds 0 (takeTurns other 0 Arena.empty brought') =
        newIds 0 (takeTurns other 0 Arena.empty brought)) ∧
      (newIds 0 (takeTurns table 0 Arena.empty brought') =
          (newIds 0 (takeTurns table 0 Arena.empty brought)).filter
            (fun r => ¬ (r.1 = before.length + 1 ∧ r.2.1 = id)) ↔
        Harmless (stepsOf (callsOf table 0 brought)) (before.length + 1) id) := by
  obtain ⟨pre, per, post, rfl, hlength, hc, hbrought'⟩ :=
    contributions_setLocation hkeys hid hraw hbrought
  obtain ⟨hlisted, hentries⟩ := Contributor.contribution_eq_ok_iff.1 hc
  have hsublist := keys_keptEntries_sublist hentries
  refine ⟨_, hbrought', fun other hother => ?_, ?_⟩
  · have hcalls : callsOf other 0 (pre ++ per.dropEntry table id :: post) =
        callsOf other 0 (pre ++ per :: post) := by
      rw [callsOf_append_cons, callsOf_append_cons, PerTable.get_dropEntry_of_ne _ _ hother]
    rw [newIds_takeTurns, newIds_takeTurns, hcalls]
  · have hnumbers := nodup_callsOf table (pre ++ per :: post)
    rw [newIds_takeTurns, newIds_takeTurns, callsOf_append_cons, callsOf_append_cons,
      PerTable.get_dropEntry, ← hlength]
    rw [callsOf_append_cons] at hnumbers
    refine records_drop_iff hnumbers (hkeys.sublist hsublist) ?_ id
    rw [hlisted]
    exact hsublist.subset

end Dropping

/-- A copy of one source with statements on some lines. -/
def copyWith (path : Text) (statements : List (Text × Int)) : Contributor :=
  ⟨path, statementsOn statements, .copyOf "a.ts"⟩

/-- Dropping a statement of the first of two copies. -/
theorem newIds_setLocation_first_copy :
    ∃ brought brought',
      contributions "a.ts" true none
          ([] ++ copyWith "a.js" [("0", 1), ("1", 2)] :: [copyWith "b.js" [("0", 3), ("1", 4)]]) =
        .ok brought ∧
      contributions "a.ts" true none
          ([] ++ (copyWith "a.js" [("0", 1), ("1", 2)]).setLocation .statements "0" (onLine 0) ::
            [copyWith "b.js" [("0", 3), ("1", 4)]]) = .ok brought' ∧
      (newIds 0 (takeTurns .statements 0 Arena.empty brought') =
          (newIds 0 (takeTurns .statements 0 Arena.empty brought)).filter
            (fun r => ¬ (r.1 = 1 ∧ r.2.1 = ("0" : Text))) ↔
        Harmless (stepsOf (callsOf .statements 0 brought)) 1 "0") := by
  obtain ⟨brought, hbrought⟩ : ∃ brought, contributions "a.ts" true none
      ([] ++ copyWith "a.js" [("0", 1), ("1", 2)] :: [copyWith "b.js" [("0", 3), ("1", 4)]]) =
        .ok brought := ⟨_, rfl⟩
  have hkeys : (OrderedMap.keys (tableAt (copyWith "a.js" [("0", 1), ("1", 2)]).fields
      LocationTable.statements.locationsKey)).Nodup := by decide
  have hid : ("0" : Text) ∈ OrderedMap.keys (tableAt (copyWith "a.js" [("0", 1), ("1", 2)]).fields
      LocationTable.statements.locationsKey) := by decide
  have hraw : LocationTable.statements.liftEntry
      ((copyWith "a.js" [("0", 1), ("1", 2)]).rangeMap "a.ts" true) (onLine 0) = .ok none := rfl
  obtain ⟨brought', hbrought', -, hiff⟩ := newIds_setLocation_iff hkeys hid hraw hbrought
  exact ⟨brought, brought', hbrought, hbrought', hiff⟩

/-- A statement of the second copy that was renumbered gives up its number when it is dropped, and
the next one gets it. -/
theorem renumbered_statement_moves_up :
    ¬ ∀ (destination : Text) (enforceBounds : Bool) (seed : Option (OrderedMap Text Json))
      (before after : List Contributor) (c : Contributor) (table : LocationTable) (id : Text)
      (raw : Json) (brought brought' : List (PerTable Contribution)),
      (OrderedMap.keys (tableAt c.fields table.locationsKey)).Nodup →
      id ∈ OrderedMap.keys (tableAt c.fields table.locationsKey) →
      table.liftEntry (c.rangeMap destination enforceBounds) raw = .ok none →
      contributions destination enforceBounds seed (before ++ c :: after) = .ok brought →
      contributions destination enforceBounds seed
        (before ++ c.setLocation table id raw :: after) = .ok brought' →
      newIds 0 (takeTurns table 0 Arena.empty brought') =
        (newIds 0 (takeTurns table 0 Arena.empty brought)).filter
          (fun r => ¬ (r.1 = before.length + 1 ∧ r.2.1 = id)) := by
  intro h
  have heq := h "a.ts" true none [copyWith "a.js" [("0", 1), ("1", 2)]] []
    (copyWith "b.js" [("0", 3), ("1", 4)]) .statements "0" (onLine 0) _ _ (by decide) (by decide)
    rfl rfl rfl
  revert heq
  decide

end CoverageLift
