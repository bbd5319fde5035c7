import CoverageLift.Proofs.Arena.Precedence
import CoverageLift.Proofs.Remap.Rows

/-!
# Coverage that is there already

A destination may have coverage of its own, its **seed**, when other files move to it. The locations of
the seed that have a count are the first entries of its tables, under their ids and as they stand,
and the files that move only add to their counts or behind them (`KeepsTable`). The other members of
the seed stay as they are, apart from the path and the map of a generated file.
-/

namespace CoverageLift

/-! ### The entries of a seed -/

/-- Some of the locations has a count and this identity. -/
def Counts (counts locations : OrderedMap Text Json) (identity : Identity) : Prop :=
  ∃ location ∈ locations, OrderedMap.contains counts location.1 = true ∧
    identityInPlace location.1 location.2 = .ok identity

section CountedEntries

variable {counts locations before behind : OrderedMap Text Json} {entries : OrderedMap Text Entry}
  {id : Text} {raw count : Json} {identity : Identity}

/-- The entries of a seed are its locations that have a count. -/
theorem map_location_countedEntries :
    ∀ {entries : OrderedMap Text Entry}, countedEntries counts locations = .ok entries →
      (entries.map fun entry => (entry.1, entry.2.location)) =
        locations.filter fun location => OrderedMap.contains counts location.1 := by
  induction locations with
  | nil =>
    intro entries h
    obtain rfl := Except.ok.inj h
    rfl
  | cons location locations ih =>
    intro entries h
    obtain ⟨id, raw⟩ := location
    rcases hcount : OrderedMap.get? counts id with _ | count
    · rw [countedEntries_cons_of_none hcount] at h
      rw [List.filter_cons_of_neg (by simp [OrderedMap.contains, hcount])]
      exact ih h
    · rw [countedEntries_cons_of_some hcount, bind_eq_ok_iff] at h
      obtain ⟨identity, -, h⟩ := h
      obtain ⟨others, hothers, rfl⟩ := map_eq_ok_iff.1 h
      rw [List.filter_cons_of_pos (by simp [OrderedMap.contains, hcount])]
      exact congrArg (List.cons (id, raw)) (ih hothers)

/-- The ids of the entries are ids of the locations, in the same order. -/
theorem keys_countedEntries_sublist (h : countedEntries counts locations = .ok entries) :
    (OrderedMap.keys entries).Sublist (OrderedMap.keys locations) := by
  have hkeys : OrderedMap.keys entries =
      OrderedMap.keys (entries.map fun entry => (entry.1, entry.2.location)) := by
    rw [OrderedMap.keys, OrderedMap.keys, List.map_map]
    rfl
  rw [hkeys, map_location_countedEntries h]
  exact List.filter_sublist.map _

/-- A location of a seed that has a count makes an entry, between those of the locations before it and
behind it. -/
theorem exists_of_countedEntries_append_cons (hcount : OrderedMap.get? counts id = some count) :
    ∀ {entries : OrderedMap Text Entry},
      countedEntries counts (before ++ (id, raw) :: behind) = .ok entries →
        ∃ first identity rest, countedEntries counts before = .ok first ∧
          identityInPlace id raw = .ok identity ∧
          entries = first ++ (id, ⟨raw, identity, count⟩) :: rest := by
  induction before with
  | nil =>
    intro entries h
    rw [List.nil_append, countedEntries_cons_of_some hcount, bind_eq_ok_iff] at h
    obtain ⟨identity, hidentity, h⟩ := h
    obtain ⟨rest, -, rfl⟩ := map_eq_ok_iff.1 h
    exact ⟨[], identity, rest, rfl, hidentity, rfl⟩
  | cons location before ih =>
    intro entries h
    obtain ⟨id', raw'⟩ := location
    rw [List.cons_append] at h
    rcases hcount' : OrderedMap.get? counts id' with _ | count'
    · rw [countedEntries_cons_of_none hcount'] at h ⊢
      exact ih h
    · rw [countedEntries_cons_of_some hcount', bind_eq_ok_iff] at h
      obtain ⟨identity', hidentity', h⟩ := h
      obtain ⟨others, hothers, rfl⟩ := map_eq_ok_iff.1 h
      obtain ⟨first, identity, rest, hfirst, hidentity, rfl⟩ := ih hothers
      refine ⟨(id', ⟨raw', identity', count'⟩) :: first, identity, rest, ?_, hidentity, rfl⟩
      rw [countedEntries_cons_of_some hcount', hidentity', hfirst]
      rfl

/-- The entries of a seed have the identities of its locations that have a count. -/
theorem mem_identities_iff (h : countedEntries counts locations = .ok entries) :
    identity ∈ (OrderedMap.values entries).map (·.identity) ↔ Counts counts locations identity := by
  rw [OrderedMap.values, List.map_map, List.mem_map]
  constructor
  · rintro ⟨entry, hentry, rfl⟩
    obtain ⟨hcount, hlocation, hidentity⟩ := exists_location_of_mem_countedEntries h hentry
    exact ⟨_, hlocation, Option.isSome_iff_exists.2 ⟨_, hcount⟩, hidentity⟩
  · rintro ⟨⟨id, raw⟩, hlocation, hcounted, hidentity⟩
    obtain ⟨count, hcount⟩ := Option.isSome_iff_exists.1 hcounted
    obtain ⟨before, behind, rfl⟩ := List.append_of_mem hlocation
    obtain ⟨first, identity', rest, -, hidentity', rfl⟩ :=
      exists_of_countedEntries_append_cons hcount h
    obtain rfl := Except.ok.inj (hidentity.symm.trans hidentity')
    exact ⟨_, List.mem_append_right _ List.mem_cons_self, rfl⟩

end CountedEntries

/-! ### The members of a destination -/

/-- A member that no destination writes is that of the coverage it is built on. -/
theorem get?_destinationObject_of_ne (base : OrderedMap Text Json) (destination : Text)
    (arenas : LocationTable → Arena) {key : Text} (hmap : key ≠ "inputSourceMap")
    (hpath : key ≠ "path")
    (htables : ∀ table : LocationTable, key ≠ table.locationsKey ∧ key ≠ table.countsKey) :
    OrderedMap.get? (destinationObject base destination arenas) key = OrderedMap.get? base key := by
  have hlocations (table : LocationTable) : table.locationsKey ≠ key := (htables table).1.symm
  have hcounts (table : LocationTable) : table.countsKey ≠ key := (htables table).2.symm
  simp only [destinationObject, LocationTable.all, List.foldl_cons, List.foldl_nil,
    OrderedMap.get?_insert, OrderedMap.get?_erase, hlocations, hcounts, Ne.symm hmap, Ne.symm hpath,
    if_false]

/-- A destination has no map of a generated file, and it has its own path. -/
theorem get?_destinationObject_path (base : OrderedMap Text Json) (destination : Text)
    (arenas : LocationTable → Arena) :
    OrderedMap.get? (destinationObject base destination arenas) ("inputSourceMap" : Text) = none ∧
      OrderedMap.get? (destinationObject base destination arenas) ("path" : Text) =
        some (.str destination) := by
  have hlocations (table : LocationTable) : table.locationsKey ≠ ("inputSourceMap" : Text) ∧
      table.locationsKey ≠ ("path" : Text) := by cases table <;> decide
  have hcounts (table : LocationTable) : table.countsKey ≠ ("inputSourceMap" : Text) ∧
      table.countsKey ≠ ("path" : Text) := by cases table <;> decide
  have hne : ("path" : Text) ≠ ("inputSourceMap" : Text) := by decide
  constructor
  · simp only [destinationObject, LocationTable.all, List.foldl_cons, List.foldl_nil,
      OrderedMap.get?_insert, OrderedMap.get?_erase, hlocations, hcounts, hne, if_false, if_true]
  · simp only [destinationObject, LocationTable.all, List.foldl_cons, List.foldl_nil,
      OrderedMap.get?_insert, hlocations, hcounts, if_false, if_true]

/-! ### A destination with a seed -/

/-- Files move to a destination that has coverage of its own, which does not move. -/
structure IsSeeded (atlas : Atlas Resolver) (report : Report) (destination : Text)
    (fields : OrderedMap Text Json) : Prop where
  seed : seedAt (stayingOf atlas report) destination = some fields
  contributed : contributorsTo atlas destination report ≠ []
  /-- no id has two locations -/
  nodup : ∀ table : LocationTable, (OrderedMap.keys (tableAt fields table.locationsKey)).Nodup

/-- What has become of a table of a seed to which entries were brought. -/
structure KeepsTable (fields coverage : OrderedMap Text Json) (table : LocationTable)
    (brought : List Entry) : Prop where
  /-- the locations that have a count come first, under their ids and as they were -/
  locations : ∃ added, tableAt coverage table.locationsKey =
    ((tableAt fields table.locationsKey).filter fun location =>
      OrderedMap.contains (tableAt fields table.countsKey) location.1) ++ added
  /-- the first of them with an identity has its count raised by the entries of that identity, and
  all others have the counts that they had -/
  counts : ∀ before id raw behind count,
    tableAt fields table.locationsKey = before ++ (id, raw) :: behind →
    OrderedMap.get? (tableAt fields table.countsKey) id = some count →
      ∃ identity, identityInPlace id raw = .ok identity ∧
        (Counts (tableAt fields table.countsKey) before identity →
          OrderedMap.get? (tableAt coverage table.countsKey) id = some count) ∧
        (¬ Counts (tableAt fields table.countsKey) before identity →
          OrderedMap.get? (tableAt coverage table.countsKey) id =
            some (raised count (countsOf brought identity)))

section Seeded

variable {atlas : Atlas Resolver} {enforceBounds : Bool} {report : Report} {destination : Text}
  {fields coverage : OrderedMap Text Json} {table : LocationTable}

/-- A table that has the entries of the seed as its first rows keeps them. -/
theorem keepsTable_of_hasRows {entries added : OrderedMap Text Entry} {brought : List Entry}
    (hentries : countedEntries (tableAt fields table.countsKey) (tableAt fields table.locationsKey) =
      .ok entries)
    (hrows : HasRows coverage table (feed entries brought ++ added)) :
    KeepsTable fields coverage table brought where
  locations := by
    refine ⟨added.map fun row => (row.1, row.2.location), ?_⟩
    rw [hrows.locations, List.map_append, map_location_feed, map_location_countedEntries hentries]
  counts before id raw behind count hlocations hcount := by
    rw [hlocations] at hentries
    obtain ⟨first, identity, rest, hfirst, hidentity, rfl⟩ :=
      exists_of_countedEntries_append_cons hcount hentries
    have hget := hrows.get?_counts
      (List.mem_append_left _ (mem_feed_append_cons first id ⟨raw, identity, count⟩ rest brought))
    refine ⟨identity, hidentity, fun hbefore => ?_, fun hbefore => ?_⟩
    · rwa [if_pos ((mem_identities_iff hfirst).2 hbefore)] at hget
    · rwa [if_neg (mt (mem_identities_iff hfirst).1 hbefore)] at hget

/-- The rows of a table of a destination with a seed. -/
theorem IsSeeded.exists_rows (h : IsSeeded atlas report destination fields)
    {first : PerTable Contribution} (hfirst : seedContribution (some fields) = .ok first)
    (rest : List (PerTable Contribution)) (table : LocationTable) :
    ∃ added, (tableOf table (first :: rest)).Shows
      (feed (first.get table).entries
        (rest.flatMap fun per => OrderedMap.values (per.get table).entries) ++ added) := by
  obtain ⟨-, hentries⟩ := seedContribution_some_eq_ok_iff.1 hfirst table
  have hkeys := (h.nodup table).sublist (keys_countedEntries_sublist hentries)
  have hnumbers := nodup_callsOf table (first :: rest)
  rw [callsOf_cons] at hnumbers
  obtain ⟨added, hshows⟩ := Arena.exists_shows_afterTurns_cons hkeys _ hnumbers
  rw [flatMap_callsOf fun c => OrderedMap.values c.entries] at hshows
  exact ⟨added, hshows⟩

/-- **Coverage that is there already is kept.** Where files move to a destination that has coverage of
its own and remapping succeeds, the locations of the seed that have a count stay as they are, under
their ids and before all others. The count of the first one with an identity is raised by the entries
with this identity that the files bring, as far as the counts can be added, and all others keep their
counts. All other members keep their values, apart from the map of a generated file, which is taken
out, and the path, which is that of the destination. -/
theorem remap_of_isSeeded (h : IsSeeded atlas report destination fields)
    (herror : (remap atlas enforceBounds report).error = none) :
    ∃ coverage rest,
      OrderedMap.get? (remap atlas enforceBounds report).report destination =
          some (.obj coverage) ∧
        Brings destination enforceBounds (contributorsTo atlas destination report) rest ∧
        (∀ table, KeepsTable fields coverage table
          (rest.flatMap fun per => OrderedMap.values (per.get table).entries)) ∧
        (∀ key : Text, key ≠ "inputSourceMap" → key ≠ "path" →
          (∀ table : LocationTable, key ≠ table.locationsKey ∧ key ≠ table.countsKey) →
            OrderedMap.get? coverage key = OrderedMap.get? fields key) ∧
        OrderedMap.get? coverage ("inputSourceMap" : Text) = none ∧
        OrderedMap.get? coverage ("path" : Text) = some (.str destination) := by
  obtain ⟨brought, hbrought⟩ := error_remap_eq_none_iff.1 herror destination h.contributed
  have hget := get?_remap_of_contributors herror h.contributed hbrought
  have hrows := fun table rows => @hasRows_remap _ _ _ _ table _ herror h.contributed hbrought rows
  rw [h.seed, coverageOf_some] at hget
  rw [h.seed] at hbrought
  obtain ⟨first, rest, hfirst, hrest, rfl⟩ := contributions_eq_ok_iff.1 hbrought
  refine ⟨_, rest, hget, hrest, fun table => ?_, fun key hmap hpath htables =>
    get?_destinationObject_of_ne _ _ _ hmap hpath htables, get?_destinationObject_path _ _ _⟩
  obtain ⟨added, hshows⟩ := h.exists_rows hfirst rest table
  obtain ⟨-, hentries⟩ := seedContribution_some_eq_ok_iff.1 hfirst table
  have hcoverage := hrows table _ hshows
  rw [coverageAt, seedAt, hget] at hcoverage
  exact keepsTable_of_hasRows hentries hcoverage

/-- Two copies of a file with a seed in which two statements are on one line, one is on no line and one
has no count. The copies bring another statement on the first line each, one of them under the id of
the statement that is on no line, and a statement that is new. -/
theorem remap_of_isSeeded_of_two_copies :
    let atlas : Atlas Resolver := ⟨[("a.js", .copyOf "a.ts"), ("b.js", .copyOf "a.ts")]⟩
    let fields : OrderedMap Text Json :=
      [("statementMap", .obj [("0", onLine 1), ("1", onLine 1), ("x", .null), ("y", onLine 2)]),
        ("s", .obj [("0", .int 1), ("1", .int 5), ("x", .str "?")]), ("hash", .str "h"),
        ("inputSourceMap", .obj []), ("path", .str "a.js")]
    let report : Report := [("a.js", .obj (statementsOn [("0", 1), ("1", 3)])),
      ("a.ts", .obj fields), ("b.js", .obj (statementsOn [("x", 1)]))]
    IsSeeded atlas report "a.ts" fields ∧ (remap atlas true report).error = none ∧
      ∃ coverage, OrderedMap.get? (remap atlas true report).report "a.ts" = some (.obj coverage) ∧
        OrderedMap.keys (tableAt coverage "statementMap") = ["0", "1", "x", "2"] ∧
        ((tableAt coverage "s").map fun count => hits count.2) = [3, 5, 0, 1] ∧
        OrderedMap.get? coverage ("hash" : Text) = some (.str "h") ∧
        OrderedMap.get? coverage ("path" : Text) = some (.str "a.ts") := by
  intro atlas fields report
  have hseeded : IsSeeded atlas report "a.ts" fields :=
    ⟨rfl, nofun, fun table => by cases table <;> decide⟩
  have herror : (remap atlas true report).error = none := rfl
  obtain ⟨coverage, rest, hget, -, -, hkept, -, hpath⟩ := remap_of_isSeeded hseeded herror
  have hcoverage : coverageAt (remap atlas true report).report "a.ts" = coverage := by
    rw [coverageAt, seedAt, hget]
    rfl
  have hhash := hkept "hash" (by decide) (by decide) (fun table => by cases table <;> decide)
  refine ⟨hseeded, herror, coverage, hget, ?_, ?_, hhash, hpath⟩
  · rw [← hcoverage]
    decide +kernel
  · rw [← hcoverage]
    decide +kernel

end Seeded

end CoverageLift
