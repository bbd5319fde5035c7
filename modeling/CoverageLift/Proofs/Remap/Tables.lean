import CoverageLift.Proofs.Arena.Origin
import CoverageLift.Proofs.Remap.Writes

/-!
# The tables of a destination

Locations and counts of a destination are filled by different loops, yet its two halves are always
**aligned**: they have the same ids in the same order, whatever the files hold. The ids are those
that the entries got in their turns, in the order in which they were given first, and the entry
that got an id first is the one whose location stands there.
-/

namespace CoverageLift

variable {atlas : Atlas Resolver} {enforceBounds : Bool} {report : Report} {destination : Text}
  {table : LocationTable} {brought : List (PerTable Contribution)} {id : Text}

/-! ### Ids and locations of a table -/

/-- The ids of a table are the new ids of the entries, in the order in which they were given first.
-/
theorem keys_locations_tableOf (table : LocationTable) (brought : List (PerTable Contribution)) :
    OrderedMap.keys (tableOf table brought).locations =
      ((newIds 0 (takeTurns table 0 Arena.empty brought)).map fun r => r.2.2).eraseDups := by
  rw [newIds_takeTurns, List.map_map]
  exact Arena.keys_locations_afterTurns _

/-- The entry that got an id first: the number of its contributor, the seed being number zero, and
the id that it had there. -/
def originOf (table : LocationTable) (brought : List (PerTable Contribution)) (id : Text) :
    Option (Nat × Text) :=
  ((newIds 0 (takeTurns table 0 Arena.empty brought)).find? fun r => r.2.2 = id).map
    fun r => (r.1, r.2.1)

/-- The turn with a number is that of the contribution in this place. -/
theorem getElem?_of_mem_callsOf {call : Contribution × Nat} (h : call ∈ callsOf table 0 brought) :
    ∃ per, brought[call.2]? = some per ∧ per.get table = call.1 := by
  have hget := List.mk_mem_zipIdx_iff_getElem?.1 h
  rw [List.getElem?_map] at hget
  exact Option.map_eq_some_iff.1 hget

/-- The location under an id is that of the entry that got the id first. -/
theorem exists_originOf {location : Json}
    (h : OrderedMap.get? (tableOf table brought).locations id = some location) :
    ∃ number per old entry, originOf table brought id = some (number, old) ∧
      brought[number]? = some per ∧ (old, entry) ∈ (per.get table).entries ∧
        entry.location = location := by
  rw [tableOf, Arena.get?_locations_afterTurns] at h
  obtain ⟨s, hs, rfl⟩ := Option.map_eq_some_iff.1 h
  obtain ⟨call, hcall, hnumber, hitem⟩ := exists_call_of_mem_steps (List.mem_of_find?_eq_some hs)
  obtain ⟨per, hper, heq⟩ := getElem?_of_mem_callsOf hcall
  refine ⟨s.number, per, s.item.1, s.item.2, ?_, hnumber ▸ hper, heq ▸ hitem, rfl⟩
  have hfirst : (newIds 0 (takeTurns table 0 Arena.empty brought)).find? (fun r => r.2.2 = id) =
      some s.record := by
    rw [newIds_takeTurns, List.find?_map]
    exact congrArg (Option.map Step.record) hs
  rw [originOf, hfirst]
  rfl

/-! ### Tables that are written -/

/-- **Alignment**: coverage that is written at a destination has all three tables, and in each of
them the counts have the ids of the locations, in the same order. Those are the ids that the
entries got. -/
theorem keys_counts_eq_of_written {fields : OrderedMap Text Json}
    (h : (destination, some fields) ∈ writesOf atlas enforceBounds report) :
    OrderedMap.get? (remap atlas enforceBounds report).report destination = some (.obj fields) ∧
      ∃ brought, contributions destination enforceBounds
          (seedAt (stayingOf atlas report) destination)
          (contributorsTo atlas destination report) = .ok brought ∧
        ∀ table : LocationTable, ∃ locations counts,
          OrderedMap.get? fields table.locationsKey = some (.obj locations) ∧
          OrderedMap.get? fields table.countsKey = some (.obj counts) ∧
          OrderedMap.keys counts = OrderedMap.keys locations ∧
          OrderedMap.keys locations =
            ((newIds 0 (takeTurns table 0 Arena.empty brought)).map fun r => r.2.2).eraseDups := by
  obtain ⟨-, brought, hbrought, hcoverage⟩ := mem_writesOf h
  refine ⟨get?_remap_of_mem h, brought, hbrought, fun table => ?_⟩
  obtain rfl := eq_destinationObject_of_coverageOf hcoverage.symm
  obtain ⟨hlocations, hcounts⟩ := get?_destinationObject _ destination
    (fun table => tableOf table brought) table
  exact ⟨_, _, hlocations, hcounts, keys_counts_tableOf table brought,
    keys_locations_tableOf table brought⟩

/-- The tables of a source with a statement that has no count, a count of the wrong type, a count of
no statement, and tables that are no objects. -/
theorem keys_counts_eq_of_malformed_tables :
    let atlas : Atlas Resolver := ⟨[("a.js", .copyOf "a.ts")]⟩
    let report : Report := [
      ("a.js", .obj [
        ("statementMap", .obj [("0", onLine 1), ("1", onLine 2), ("5", onLine 4)]),
        ("s", .obj [("7", .int 1), ("5", .int 3), ("1", .str "2"), ("0", .int 4)]),
        ("fnMap", .int 3),
        ("b", .arr [])]),
      ("a.ts", .obj [
        ("statementMap", .obj [("0", onLine 2), ("5", onLine 3)]),
        ("s", .obj [("9", .int 1), ("5", .str "none")])])]
    ∃ fields, (("a.ts" : Text), some fields) ∈ writesOf atlas true report ∧
      ∀ table : LocationTable, ∃ locations counts,
        OrderedMap.get? fields table.locationsKey = some (.obj locations) ∧
        OrderedMap.get? fields table.countsKey = some (.obj counts) ∧
        OrderedMap.keys counts = OrderedMap.keys locations := by
  intro atlas report
  have hwritten : (("a.ts" : Text), some _) ∈ writesOf atlas true report := List.mem_cons_self
  obtain ⟨-, brought, -, htables⟩ := keys_counts_eq_of_written hwritten
  refine ⟨_, hwritten, fun table => ?_⟩
  obtain ⟨locations, counts, hlocations, hcounts, hkeys, -⟩ := htables table
  exact ⟨locations, counts, hlocations, hcounts, hkeys⟩

end CoverageLift
