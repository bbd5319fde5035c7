import CoverageLift.Proofs.Arena.Rows
import CoverageLift.Proofs.Remap.Writes

/-!
# The rows of a destination

A destination has, in each of its tables, the rows that its seed and its contributors make of each
other. The seed comes first, so its entries are rows as they stand, and a file that is the only
contributor to a destination without a seed has all its entries as rows, under its own ids.
-/

namespace CoverageLift

variable {atlas : Atlas Resolver} {enforceBounds : Bool} {report : Report} {destination : Text}
  {table : LocationTable} {brought : List (PerTable Contribution)}

/-- The coverage that a report has at a path, with nothing in it where there is none. -/
def coverageAt (report : Report) (path : Text) : OrderedMap Text Json :=
  (seedAt report path).getD []

/-- The rows of a table, apart from their ids. -/
theorem exists_shows_tableOf (table : LocationTable) (brought : List (PerTable Contribution)) :
    ∃ rows, (tableOf table brought).Shows rows ∧
      OrderedMap.values rows =
        (brought.map fun per => OrderedMap.values (per.get table).entries).foldl absorb [] := by
  obtain ⟨rows, hshows, hvalues⟩ := Arena.exists_shows_afterTurns (nodup_callsOf table brought)
  refine ⟨rows, hshows, hvalues.trans ?_⟩
  have hfst := congrArg (List.map fun c : Contribution => OrderedMap.values c.entries)
    (map_fst_callsOf table 0 brought)
  rw [List.map_map, List.map_map] at hfst
  exact congrArg (List.foldl absorb []) hfst

/-- No two rows have one id. -/
theorem Arena.Shows.nodup_keys_tableOf {rows : OrderedMap Text Entry}
    (h : (tableOf table brought).Shows rows) : (OrderedMap.keys rows).Nodup := by
  rw [← h.keys_locations]
  exact (Arena.history_afterTurns (nodup_callsOf table brought)).tidy.nodup

/-- A table of coverage that has these rows. -/
structure HasRows (fields : OrderedMap Text Json) (table : LocationTable)
    (rows : OrderedMap Text Entry) : Prop where
  nodup : (OrderedMap.keys rows).Nodup
  locations : tableAt fields table.locationsKey = rows.map fun row => (row.1, row.2.location)
  counts : tableAt fields table.countsKey = rows.map fun row => (row.1, row.2.count)

/-- The count of a row is found under its id. -/
theorem HasRows.get?_counts {fields : OrderedMap Text Json} {rows : OrderedMap Text Entry}
    (h : HasRows fields table rows) {row : Text × Entry} (hrow : row ∈ rows) :
    OrderedMap.get? (tableAt fields table.countsKey) row.1 = some row.2.count := by
  rw [h.counts, OrderedMap.get?_map Entry.count, OrderedMap.get?_eq_some_of_mem h.nodup hrow]
  rfl

/-- The tables of a destination have the rows that its contributions make. -/
theorem hasRows_remap (herror : (remap atlas enforceBounds report).error = none)
    (hne : contributorsTo atlas destination report ≠ [])
    (hbrought : contributions destination enforceBounds
      (seedAt (stayingOf atlas report) destination) (contributorsTo atlas destination report) =
        .ok brought) {rows : OrderedMap Text Entry} (hrows : (tableOf table brought).Shows rows) :
    HasRows (coverageAt (remap atlas enforceBounds report).report destination) table rows := by
  obtain ⟨hlocations, hcounts⟩ := tableAt_remap herror hne hbrought table
  exact ⟨hrows.nodup_keys_tableOf, hlocations.trans hrows.locations, hcounts.trans hrows.counts⟩

/-- What contributors bring to a destination, one for each. -/
abbrev Brings (destination : Text) (enforceBounds : Bool) :
    List Contributor → List (PerTable Contribution) → Prop :=
  List.Forall₂ fun c per => ∀ table, c.contribution destination enforceBounds table =
    .ok (per.get table)

/-- Remapping that succeeds has what every contributor brings. -/
theorem exists_brings (herror : (remap atlas enforceBounds report).error = none)
    (destination : Text) :
    ∃ rest, Brings destination enforceBounds (contributorsTo atlas destination report) rest := by
  by_cases hnone : contributorsTo atlas destination report = []
  · exact ⟨[], hnone ▸ .nil⟩
  · obtain ⟨brought, hbrought⟩ := error_remap_eq_none_iff.1 herror destination hnone
    obtain ⟨-, rest, -, hrest, -⟩ := contributions_eq_ok_iff.1 hbrought
    exact ⟨rest, hrest⟩

/-- Without a seed all contributions are those of the contributors. -/
theorem contributions_of_unseeded (hunseeded : seedAt (stayingOf atlas report) destination = none)
    {rest : List (PerTable Contribution)}
    (hrest : Brings destination enforceBounds (contributorsTo atlas destination report) rest) :
    contributions destination enforceBounds (seedAt (stayingOf atlas report) destination)
        (contributorsTo atlas destination report) =
      .ok (PerTable.ofFunction (fun _ => ⟨[], []⟩) :: rest) :=
  contributions_eq_ok_iff.2 ⟨_, rest, by rw [hunseeded]; rfl, hrest, rfl⟩

/-- The rows at a path that has no coverage of its own are what the contributors bring. -/
theorem exists_rows_of_unseeded (herror : (remap atlas enforceBounds report).error = none)
    (hunseeded : seedAt (stayingOf atlas report) destination = none)
    {rest : List (PerTable Contribution)}
    (hrest : Brings destination enforceBounds (contributorsTo atlas destination report) rest)
    (table : LocationTable) :
    ∃ rows, HasRows (coverageAt (remap atlas enforceBounds report).report destination) table rows ∧
      OrderedMap.values rows =
        (rest.map fun per => OrderedMap.values (per.get table).entries).foldl absorb [] := by
  by_cases hnone : contributorsTo atlas destination report = []
  · -- nothing moves there, so there is no coverage at all
    rw [hnone] at hrest
    obtain rfl := List.forall₂_nil_left_iff.1 hrest
    have hcoverage : coverageAt (remap atlas enforceBounds report).report destination = [] := by
      rw [coverageAt, seedAt, get?_remap_of_no_contributors hnone, ← seedAt, hunseeded]
      rfl
    rw [hcoverage]
    exact ⟨[], ⟨List.nodup_nil, rfl, rfl⟩, rfl⟩
  · obtain ⟨rows, hshows, hvalues⟩ := exists_shows_tableOf table _
    refine ⟨rows, hasRows_remap herror hnone (contributions_of_unseeded hunseeded hrest) hshows, ?_⟩
    rw [hvalues, List.map_cons, List.foldl_cons, PerTable.get_ofFunction]
    rfl

end CoverageLift
