import CoverageLift.Proofs.Remap.Rows

/-!
# A file that moves alone

A file may be the only contributor to a destination that has no coverage of its own. Then nothing of
what happens between contributors shows: no entry is renumbered, and none is folded, not even where
several entries come from the same place. **Each entry becomes what it becomes on its own**
(`remap_of_isAlone`): it is left out, or it keeps its id, its place and its count and has its lifted
location. So an entry never depends on the other entries of its file.
-/

namespace CoverageLift

/-- The location and the count of an id in a table of a file. -/
def entryAt (fields : OrderedMap Text Json) (table : LocationTable) (id : Text) :
    Option Json × Option Json :=
  (OrderedMap.get? (tableAt fields table.locationsKey) id,
    OrderedMap.get? (tableAt fields table.countsKey) id)

namespace Contributor

variable {c c' : Contributor} {destination : Text} {enforceBounds : Bool} {table : LocationTable}

/-- What a location becomes on its own: it is lifted and has its count, unless the count is missing
or not valid or the location cannot be lifted. -/
def alone? (c : Contributor) (destination : Text) (enforceBounds : Bool) (table : LocationTable)
    (id : Text) (raw : Json) : Option (Json × Json) :=
  match OrderedMap.get? (tableAt c.fields table.countsKey) id,
    table.liftEntry (c.rangeMap destination enforceBounds) raw with
  | some count, .ok (some lifted) =>
    if table.validCount count then some (lifted.location, count) else none
  | _, _ => none

/-- The locations and counts of a table, each as it becomes on its own. -/
def tableAlone (c : Contributor) (destination : Text) (enforceBounds : Bool)
    (table : LocationTable) : OrderedMap Text (Json × Json) :=
  (tableAt c.fields table.locationsKey).filterMap fun location =>
    (c.alone? destination enforceBounds table location.1 location.2).map (Prod.mk location.1)

/-- The file is the only one that moves to the destination, which has no coverage of its own. -/
structure IsAlone (c : Contributor) (atlas : Atlas Resolver) (destination : Text)
    (report : Report) : Prop where
  unseeded : seedAt (stayingOf atlas report) destination = none
  sole : contributorsTo atlas destination report = [c]
  /-- no id has two locations -/
  nodup : ∀ table : LocationTable, (OrderedMap.keys (tableAt c.fields table.locationsKey)).Nodup

/-! ### The entries of the file -/

/-- A location makes an entry when it becomes something on its own. -/
theorem map_keptEntry {id : Text} {raw : Json} {mapped : Option Entry}
    (h : keptEntry table (c.rangeMap destination enforceBounds) (tableAt c.fields table.countsKey)
      id raw = .ok mapped) :
    mapped.map (fun entry => (entry.location, entry.count)) =
      c.alone? destination enforceBounds table id raw := by
  rw [keptEntry] at h
  rw [alone?]
  split at h
  · next hcount =>
    obtain rfl := Except.ok.inj h
    rw [hcount]
    rfl
  · next count hcount =>
    rw [hcount]
    split at h
    · next hvalid =>
      obtain ⟨lifted, hlifted, rfl⟩ := map_eq_ok_iff.1 h
      rw [hlifted]
      cases lifted with
      | none => rfl
      | some m => exact (if_pos hvalid).symm
    · next hvalid =>
      obtain rfl := Except.ok.inj h
      rcases table.liftEntry (c.rangeMap destination enforceBounds) raw with failure | _ | lifted
      · rfl
      · rfl
      · exact (if_neg hvalid).symm

/-- The entries of a table are its locations and counts as they become on their own. -/
theorem map_contribution {contribution : Contribution}
    (h : c.contribution destination enforceBounds table = .ok contribution) :
    contribution.entries.map (fun item => (item.1, item.2.location, item.2.count)) =
      c.tableAlone destination enforceBounds table := by
  have hlocations : ∀ (locations : OrderedMap Text Json) {entries : OrderedMap Text Entry},
      keptEntries table (c.rangeMap destination enforceBounds) (tableAt c.fields table.countsKey)
          locations = .ok entries →
        entries.map (fun item => (item.1, item.2.location, item.2.count)) =
          locations.filterMap fun location =>
            (c.alone? destination enforceBounds table location.1 location.2).map
              (Prod.mk location.1) := by
    intro locations
    induction locations with
    | nil =>
      intro entries h
      obtain rfl := Except.ok.inj h
      rfl
    | cons location locations ih =>
      intro entries h
      obtain ⟨mapped, others, hmapped, hothers, rfl⟩ := keptEntries_cons_eq_ok_iff.1 h
      rw [List.map_append, ih hothers, List.filterMap_cons, ← map_keptEntry hmapped]
      cases mapped <;> rfl
  exact hlocations _ (contribution_eq_ok_iff.1 h).2

/-- What an id has on its own depends on its entry and on the resolver. -/
theorem get?_tableAlone_congr (hresolver : c'.resolver = c.resolver)
    (hnodup : (OrderedMap.keys (tableAt c.fields table.locationsKey)).Nodup)
    (hnodup' : (OrderedMap.keys (tableAt c'.fields table.locationsKey)).Nodup) {id : Text}
    (hentry : entryAt c'.fields table id = entryAt c.fields table id) :
    OrderedMap.get? (c'.tableAlone destination enforceBounds table) id =
      OrderedMap.get? (c.tableAlone destination enforceBounds table) id := by
  obtain ⟨hlocation, hcount⟩ := Prod.mk.inj hentry
  have halone : c'.alone? destination enforceBounds table id =
      c.alone? destination enforceBounds table id := by
    funext raw
    rw [alone?, alone?, rangeMap, rangeMap, hresolver, hcount]
  rw [tableAlone, tableAlone, OrderedMap.get?_filterMap _ hnodup', OrderedMap.get?_filterMap _ hnodup,
    hlocation, halone]

end Contributor

/-! ### The destination -/

variable {atlas : Atlas Resolver} {enforceBounds : Bool} {report : Report} {destination : Text}
  {c : Contributor}

namespace Contributor.IsAlone

/-- The contributions to the destination: nothing from the seed, and then those of the file. -/
theorem exists_contributions (h : c.IsAlone atlas destination report)
    (herror : (remap atlas enforceBounds report).error = none) :
    ∃ per : PerTable Contribution, contributions destination enforceBounds
        (seedAt (stayingOf atlas report) destination) (contributorsTo atlas destination report) =
          .ok [PerTable.ofFunction fun _ => ⟨[], []⟩, per] ∧
      ∀ table, c.contribution destination enforceBounds table = .ok (per.get table) := by
  obtain ⟨rest, hrest⟩ := exists_brings herror destination
  have hbrought := contributions_of_unseeded h.unseeded hrest
  rw [h.sole] at hrest
  obtain ⟨per, others, hper, hothers, rfl⟩ := List.forall₂_cons_left_iff.1 hrest
  obtain rfl := List.forall₂_nil_left_iff.1 hothers
  exact ⟨per, hbrought, hper⟩

/-- The rows of the destination are the entries of the file. -/
theorem shows_tableOf (h : c.IsAlone atlas destination report) {table : LocationTable}
    {per : PerTable Contribution}
    (hper : c.contribution destination enforceBounds table = .ok (per.get table)) :
    (tableOf table [PerTable.ofFunction fun _ => ⟨[], []⟩, per]).Shows (per.get table).entries := by
  have hkeys : (OrderedMap.keys (per.get table).entries).Nodup :=
    (h.nodup table).sublist (keys_keptEntries_sublist (Contributor.contribution_eq_ok_iff.1 hper).2)
  have hcalls : callsOf table 0 [PerTable.ofFunction fun _ => ⟨[], []⟩, per] =
      [(⟨[], []⟩, 0), (per.get table, 1)] := by
    rw [callsOf, List.map_cons, PerTable.get_ofFunction]
    rfl
  rw [tableOf, hcalls]
  exact Arena.shows_merge_empty 1 hkeys

/-- The tables of the destination are those of the file, each location and count as it becomes on its
own. -/
theorem tableAt_remap (h : c.IsAlone atlas destination report)
    (herror : (remap atlas enforceBounds report).error = none) (table : LocationTable) :
    tableAt (coverageAt (remap atlas enforceBounds report).report destination)
        table.locationsKey =
        (c.tableAlone destination enforceBounds table).map (fun row => (row.1, row.2.1)) ∧
      tableAt (coverageAt (remap atlas enforceBounds report).report destination)
        table.countsKey =
        (c.tableAlone destination enforceBounds table).map fun row => (row.1, row.2.2) := by
  have hne : contributorsTo atlas destination report ≠ [] := by simp [h.sole]
  obtain ⟨per, hbrought, hper⟩ := h.exists_contributions herror
  obtain ⟨-, hlocations, hcounts⟩ :=
    hasRows_remap herror hne hbrought (h.shows_tableOf (hper table))
  rw [hlocations, hcounts, ← Contributor.map_contribution (hper table), List.map_map, List.map_map]
  exact ⟨rfl, rfl⟩

/-- What an id has in a table of the destination is what it has on its own. -/
theorem entryAt_remap (h : c.IsAlone atlas destination report)
    (herror : (remap atlas enforceBounds report).error = none) (table : LocationTable) (id : Text) :
    entryAt (coverageAt (remap atlas enforceBounds report).report destination) table id =
      ((OrderedMap.get? (c.tableAlone destination enforceBounds table) id).map (·.1),
        (OrderedMap.get? (c.tableAlone destination enforceBounds table) id).map (·.2)) := by
  obtain ⟨hlocations, hcounts⟩ := h.tableAt_remap herror table
  rw [entryAt, hlocations, hcounts, OrderedMap.get?_map, OrderedMap.get?_map]

/-- The destination is left out when nothing is left in any table of the file. -/
theorem get?_remap_eq_none_iff (h : c.IsAlone atlas destination report)
    (herror : (remap atlas enforceBounds report).error = none) :
    OrderedMap.get? (remap atlas enforceBounds report).report destination = none ↔
      ∀ table, c.tableAlone destination enforceBounds table = [] := by
  have hne : contributorsTo atlas destination report ≠ [] := by simp [h.sole]
  obtain ⟨per, hbrought, hper⟩ := h.exists_contributions herror
  have hempty : ∀ table,
      (tableOf table [PerTable.ofFunction fun _ => ⟨[], []⟩, per]).locations.isEmpty = true ↔
        c.tableAlone destination enforceBounds table = [] := by
    intro table
    rw [(h.shows_tableOf (hper table)).locations, List.isEmpty_iff,
      List.map_eq_nil_iff, ← Contributor.map_contribution (hper table), List.map_eq_nil_iff]
  rw [get?_remap_of_contributors herror hne hbrought, Option.map_eq_none_iff, h.unseeded, coverageOf]
  simp [List.all_eq_true, hempty, LocationTable.mem_all]

end Contributor.IsAlone

/-- **A file that moves alone** is remapped entry by entry: its destination has, in each table, the
locations and counts of the file as they become on their own, under their own ids and in their order,
and it is left out when there are none. What an id has there depends on the location and the count
of this id alone. -/
theorem remap_of_isAlone (h : c.IsAlone atlas destination report)
    (herror : (remap atlas enforceBounds report).error = none) :
    (OrderedMap.get? (remap atlas enforceBounds report).report destination = none ↔
        ∀ table, c.tableAlone destination enforceBounds table = []) ∧
      (∀ table : LocationTable,
        tableAt (coverageAt (remap atlas enforceBounds report).report destination)
            table.locationsKey =
          (c.tableAlone destination enforceBounds table).map (fun row => (row.1, row.2.1)) ∧
        tableAt (coverageAt (remap atlas enforceBounds report).report destination)
            table.countsKey =
          (c.tableAlone destination enforceBounds table).map fun row => (row.1, row.2.2)) ∧
      ∀ (report' : Report) (c' : Contributor), c'.IsAlone atlas destination report' →
        (remap atlas enforceBounds report').error = none → c'.resolver = c.resolver →
        ∀ (table : LocationTable) (id : Text),
          entryAt c'.fields table id = entryAt c.fields table id →
          entryAt (coverageAt (remap atlas enforceBounds report').report destination) table id =
            entryAt (coverageAt (remap atlas enforceBounds report).report destination) table id := by
  refine ⟨h.get?_remap_eq_none_iff herror, h.tableAt_remap herror, ?_⟩
  intro report' c' h' herror' hresolver table id hentry
  rw [h.entryAt_remap herror, h'.entryAt_remap herror',
    Contributor.get?_tableAlone_congr hresolver (h.nodup table) (h'.nodup table) hentry]

/-- Statements of which two come from the same line, one from a line that is none, and one has a
count that is none. -/
theorem remap_of_isAlone_of_copies :
    let atlas : Atlas Resolver := ⟨[("a.js", .copyOf "a.ts")]⟩
    let report : Report := [("a.js", .obj [
      ("statementMap", .obj [("3", onLine 2), ("0", onLine 2), ("1", onLine 0), ("x", onLine 5)]),
      ("s", .obj [("x", .bool true), ("0", .int 4), ("1", .int 1), ("3", .int 7)])])]
    let coverage := coverageAt (remap atlas true report).report "a.ts"
    (remap atlas true report).error = none ∧
      OrderedMap.keys (tableAt coverage "statementMap") = ["3", "0"] ∧
      tableAt coverage "s" = ([("3", .int 7), ("0", .int 4)] : OrderedMap Text Json) := by
  intro atlas report coverage
  have herror : (remap atlas true report).error = none := rfl
  have halone : Contributor.IsAlone ⟨"a.js", _, .copyOf "a.ts"⟩ atlas "a.ts" report :=
    ⟨rfl, rfl, fun table => by cases table <;> decide⟩
  obtain ⟨-, htables, -⟩ := remap_of_isAlone halone herror
  obtain ⟨hlocations, hcounts⟩ := htables .statements
  exact ⟨herror, (congrArg OrderedMap.keys hlocations).trans rfl, hcounts.trans rfl⟩

end CoverageLift
