import CoverageLift.Proofs.Remap.Effect
import CoverageLift.Proofs.Remap.Recognition
import CoverageLift.Proofs.Remap.Rows

/-!
# Files that arrive later

Files that move to one destination may be remapped at once, or the last of them may arrive when the
others have been remapped. Then the others come back as the seed of the destination: the entries have
the identities that they had, they come before those of the last file, and an entry of the last file
is added to the same entry as before. Only the ids may differ, because a seed lists the ids that were
left and not all that its files had listed. So **the destination ends with the same locations and
counts** (`pairsOf_remapLater`), and even in the same order.
-/

namespace CoverageLift

/-! ### Rows that come back -/

/-- The locations of a table with their counts, without the ids. -/
def pairsOf (fields : OrderedMap Text Json) (table : LocationTable) : List (Json × Option Json) :=
  (tableAt fields table.locationsKey).map fun location =>
    (location.2, OrderedMap.get? (tableAt fields table.countsKey) location.1)

/-- A table is its rows, apart from their ids. -/
theorem HasRows.pairsOf_eq {fields : OrderedMap Text Json} {table : LocationTable}
    {rows : OrderedMap Text Entry} (h : HasRows fields table rows) :
    pairsOf fields table =
      (OrderedMap.values rows).map fun row => (row.location, some row.count) := by
  rw [pairsOf, h.locations, OrderedMap.values, List.map_map, List.map_map]
  exact List.map_congr_left fun row hrow =>
    congrArg (Prod.mk row.2.location) (h.get?_counts hrow)

/-- Rows whose identities are told from their locations are read back as they are. -/
theorem HasRows.countedEntries_eq {fields : OrderedMap Text Json} {table : LocationTable}
    {rows : OrderedMap Text Entry} (h : HasRows fields table rows)
    (htold : ∀ row ∈ rows, identityInPlace row.1 row.2.location = .ok row.2.identity) :
    countedEntries (tableAt fields table.countsKey) (tableAt fields table.locationsKey) =
      .ok rows := by
  have hpart : ∀ part : OrderedMap Text Entry, (∀ row ∈ part, row ∈ rows) →
      countedEntries (tableAt fields table.countsKey)
        (part.map fun row => (row.1, row.2.location)) = .ok part := by
    intro part
    induction part with
    | nil => exact fun _ => rfl
    | cons row part ih =>
      intro hsub
      obtain ⟨hrow, hsub⟩ := List.forall_mem_cons.1 hsub
      rw [List.map_cons, countedEntries_cons_of_some (h.get?_counts hrow), ih hsub, htold row hrow]
      rfl
  rw [h.locations]
  exact hpart rows fun _ hrow => hrow

/-- A seed whose rows are told from their locations brings its rows. -/
theorem exists_seedContribution_of_rows {seed : Option (OrderedMap Text Json)}
    {rows : LocationTable → OrderedMap Text Entry}
    (hrows : ∀ table, HasRows (seed.getD []) table (rows table))
    (htold : ∀ table, ∀ row ∈ rows table,
      identityInPlace row.1 row.2.location = .ok row.2.identity) :
    ∃ first, seedContribution seed = .ok first ∧ ∀ table, (first.get table).entries = rows table := by
  cases seed with
  | none =>
    refine ⟨_, rfl, fun table => ?_⟩
    rw [PerTable.get_ofFunction, List.map_eq_nil_iff.1 (hrows table).locations.symm]
  | some fields =>
    refine ⟨PerTable.ofFunction fun table =>
      ⟨OrderedMap.keys (tableAt fields table.locationsKey), rows table⟩, ?_, fun table => ?_⟩
    · refine seedContribution_some_eq_ok_iff.2 fun table => ?_
      rw [PerTable.get_ofFunction]
      exact ⟨rfl, (hrows table).countedEntries_eq (htold table)⟩
    · rw [PerTable.get_ofFunction]

/-! ### Files after remapping -/

section Files

variable {atlas : Atlas Resolver} {enforceBounds : Bool} {report : Report} {destination : Text}
  {file : Text × Json}

/-- A file after some writes was there before or was written. -/
theorem mem_of_mem_applyWrites {ws : Writes} :
    ∀ {report : Report}, file ∈ applyWrites report ws →
      file ∈ report ∨ file.1 ∈ OrderedMap.keys ws := by
  induction ws with
  | nil => exact fun h => .inl h
  | cons w ws ih =>
    intro report h
    rw [applyWrites_cons] at h
    rcases ih h with h | h
    · obtain ⟨path, coverage⟩ := w
      cases coverage with
      | none => exact .inl (List.mem_of_mem_filter h)
      | some fields =>
        rcases OrderedMap.mem_of_mem_insert h with rfl | h
        · exact .inr List.mem_cons_self
        · exact .inl h
    · exact .inr (List.mem_cons_of_mem _ h)

/-- A file after remapping is one that stayed, or it is a destination. -/
theorem mem_of_mem_remap (h : file ∈ (remap atlas enforceBounds report).report) :
    file ∈ stayingOf atlas report ∨ file.1 ∈ destinationsOf atlas report := by
  rw [report_remap] at h
  refine (mem_of_mem_applyWrites h).imp_right fun hmem => ?_
  rw [← keys_pendingOf]
  exact prefix_keys_writes.subset hmem

/-- A file that moves has a map that names its destination as the only source. -/
theorem onlySource?_of_destinationOf? (h : destinationOf? atlas file = some destination) :
    (atlas.lookup (.text file.1)).bind Resolver.onlySource? = some destination := by
  rw [destinationOf?] at h
  split at h
  · exact h
  · cases h

/-- A contributor stands among the others where its file stands in the report. -/
theorem contributorsTo_append_cons {c : Contributor}
    (hc : contributorTo? atlas destination file = some c) (before behind : Report) :
    contributorsTo atlas destination (before ++ file :: behind) =
      contributorsTo atlas destination before ++ c :: contributorsTo atlas destination behind := by
  rw [contributorsTo, List.filterMap_append, List.filterMap_cons_some hc]
  rfl

section Moves

variable (hmoves : destinationOf? atlas file = some destination) (before behind : Report)

include hmoves

/-- The file does not stay. -/
theorem stayingOf_append_cons :
    stayingOf atlas (before ++ file :: behind) = stayingOf atlas (before ++ behind) := by
  simp only [stayingOf_eq_filter, List.filter_append, List.filter_cons, hmoves]
  rfl

/-- The file contributes to no other destination. -/
theorem contributorsTo_append_cons_of_ne {other : Text} (hne : other ≠ destination) :
    contributorsTo atlas other (before ++ file :: behind) =
      contributorsTo atlas other (before ++ behind) := by
  have hnone : contributorTo? atlas other file = none := by
    rw [← Option.not_isSome_iff_eq_none, isSome_contributorTo?_iff, hmoves]
    exact fun heq => hne (Option.some.inj heq).symm
  rw [contributorsTo, List.filterMap_append, List.filterMap_cons_none hnone,
    ← List.filterMap_append, contributorsTo]

end Moves

/-- After remapping no file moves to a path that no destination moves on to. -/
theorem destinationOf?_ne_of_mem_remap (h : ∀ other ∈ destinationsOf atlas report,
      (atlas.lookup (.text other)).bind Resolver.onlySource? ≠ some destination)
    (hfile : file ∈ (remap atlas enforceBounds report).report) :
    destinationOf? atlas file ≠ some destination := by
  intro hmoves
  rcases mem_of_mem_remap hfile with hstays | hwritten
  · rw [stayingOf_eq_filter, List.mem_filter, hmoves] at hstays
    cases hstays.2
  · exact h _ hwritten (onlySource?_of_destinationOf? hmoves)

theorem contributorsTo_remap_eq_nil (h : ∀ other ∈ destinationsOf atlas report,
      (atlas.lookup (.text other)).bind Resolver.onlySource? ≠ some destination) :
    contributorsTo atlas destination (remap atlas enforceBounds report).report = [] := by
  refine List.filterMap_eq_nil_iff.2 fun file hfile => ?_
  rw [← Option.not_isSome_iff_eq_none, isSome_contributorTo?_iff]
  exact destinationOf?_ne_of_mem_remap h hfile

/-- At a path without a map everything stays. -/
theorem seedAt_stayingOf_of_unmapped (h : atlas.lookup (.text destination) = none)
    (report : Report) : seedAt (stayingOf atlas report) destination = seedAt report destination := by
  rw [seedAt, seedAt, stayingOf_eq_filter, OrderedMap.get?_filter]
  rintro file - rfl
  rw [Option.isNone_iff_eq_none, Option.eq_none_iff_forall_ne_some]
  intro other hmoves
  have honly := onlySource?_of_destinationOf? hmoves
  rw [h] at honly
  cases honly

/-- Rows that a contributor with plain entries brings are told from their locations. -/
theorem identityInPlace_of_mem_contribution {c : Contributor} {table : LocationTable}
    {contribution : Contribution}
    (hc : c.contribution destination enforceBounds table = .ok contribution)
    (hplain : ∀ location ∈ tableAt c.fields table.locationsKey, table.IsPlain location.2)
    {item : Text × Entry} (hitem : item ∈ contribution.entries) (id : Text) :
    identityInPlace id item.2.location = .ok item.2.identity := by
  obtain ⟨-, hentries⟩ := Contributor.contribution_eq_ok_iff.1 hc
  obtain ⟨-, -, raw, hraw, hlifted⟩ := exists_location_of_mem_keptEntries hentries hitem
  exact identityInPlace_of_liftEntry
    (fun _ _ hrange => (legal_of_boundedMap hrange).hasPlainKeys) hlifted (hplain _ hraw) id

end Files

/-! ### A file that arrives -/

/-- A file that moves to a destination, as the last one in the report that does, where the
destination is not in the report and has no map. -/
structure Arrival (atlas : Atlas Resolver) (before : Report) (file : Text × Json) (behind : Report)
    (destination : Text) : Prop where
  moves : destinationOf? atlas file = some destination
  last : contributorsTo atlas destination behind = []
  /-- no other file has the path of the file -/
  new : file.1 ∉ OrderedMap.keys (before ++ behind)
  absent : destination ∉ OrderedMap.keys (before ++ behind)
  unmapped : atlas.lookup (.text destination) = none
  /-- what is built elsewhere does not move on to the destination -/
  settled : ∀ other ∈ destinationsOf atlas (before ++ behind),
    (atlas.lookup (.text other)).bind Resolver.onlySource? ≠ some destination
  /-- the entries of the other files that move to the destination are plain -/
  plain : ∀ c ∈ contributorsTo atlas destination before, ∀ table : LocationTable,
    ∀ location ∈ tableAt c.fields table.locationsKey, table.IsPlain location.2

/-- Remapping of a file that arrives when a report has been remapped. -/
def remapLater (atlas : Atlas Resolver) (enforceBounds : Bool) (report : Report)
    (file : Text × Json) : Remapped :=
  remap atlas enforceBounds
    (OrderedMap.insert (remap atlas enforceBounds report).report file.1 file.2)

namespace Arrival

variable {atlas : Atlas Resolver} {enforceBounds : Bool} {before behind : Report}
  {destination other : Text} {file : Text × Json} {c : Contributor}
  {rows : LocationTable → OrderedMap Text Entry} {per : PerTable Contribution}

/-! #### The file at once with the others -/

theorem exists_contributor (h : Arrival atlas before file behind destination) :
    ∃ c, contributorTo? atlas destination file = some c :=
  Option.isSome_iff_exists.1 (isSome_contributorTo?_iff.2 h.moves)

theorem contributorsTo_others (h : Arrival atlas before file behind destination) :
    contributorsTo atlas destination (before ++ behind) =
      contributorsTo atlas destination before := by
  rw [contributorsTo, List.filterMap_append, ← contributorsTo, ← contributorsTo, h.last,
    List.append_nil]

/-- The file is the last contributor to its destination. -/
theorem contributorsTo_all (h : Arrival atlas before file behind destination)
    (hc : contributorTo? atlas destination file = some c) :
    contributorsTo atlas destination (before ++ file :: behind) =
      contributorsTo atlas destination (before ++ behind) ++ [c] := by
  rw [contributorsTo_append_cons hc, h.last, h.contributorsTo_others]

/-- The destination has no coverage of its own. -/
theorem unseeded (h : Arrival atlas before file behind destination) :
    seedAt (stayingOf atlas (before ++ behind)) destination = none := by
  rw [seedAt_stayingOf_of_unmapped h.unmapped, seedAt, OrderedMap.get?_eq_none_iff.2 h.absent]
  rfl

/-- All files can be remapped at once when the others can be and the file brings what it has. -/
theorem error_all_iff (h : Arrival atlas before file behind destination)
    (hc : contributorTo? atlas destination file = some c) :
    (remap atlas enforceBounds (before ++ file :: behind)).error = none ↔
      (remap atlas enforceBounds (before ++ behind)).error = none ∧
        ∃ per : PerTable Contribution, ∀ table,
          c.contribution destination enforceBounds table = .ok (per.get table) := by
  simp only [error_remap_eq_none_iff, exists_contributions_iff, stayingOf_append_cons h.moves]
  constructor
  · intro hall
    have hdestination := hall destination (by simp [h.contributorsTo_all hc])
    rw [h.contributorsTo_all hc, List.forall_mem_append] at hdestination
    obtain ⟨hseed, hothers, hlast⟩ := hdestination
    refine ⟨fun other hne => ?_, hlast c List.mem_cons_self⟩
    by_cases heq : other = destination
    · exact heq ▸ ⟨hseed, hothers⟩
    · rw [← contributorsTo_append_cons_of_ne h.moves _ _ heq] at hne ⊢
      exact hall other hne
  · rintro ⟨hothers, hlast⟩ other hne
    by_cases heq : other = destination
    · subst heq
      rw [h.contributorsTo_all hc, List.forall_mem_append, List.forall_mem_singleton]
      by_cases hnone : contributorsTo atlas other (before ++ behind) = []
      · rw [hnone, h.unseeded]
        exact ⟨⟨_, rfl⟩, List.forall_mem_nil _, hlast⟩
      · obtain ⟨hseed, hbrought⟩ := hothers other hnone
        exact ⟨hseed, hbrought, hlast⟩
    · rw [contributorsTo_append_cons_of_ne h.moves _ _ heq] at hne ⊢
      exact hothers other hne

/-- The pairs of the destination when all files are remapped at once. -/
theorem pairsOf_all (h : Arrival atlas before file behind destination)
    (hc : contributorTo? atlas destination file = some c)
    (herror : (remap atlas enforceBounds (before ++ file :: behind)).error = none)
    {rest : List (PerTable Contribution)}
    (hrest : Brings destination enforceBounds
      (contributorsTo atlas destination (before ++ behind)) rest)
    (hper : ∀ table, c.contribution destination enforceBounds table = .ok (per.get table))
    (table : LocationTable) :
    pairsOf (coverageAt (remap atlas enforceBounds (before ++ file :: behind)).report destination)
        table =
      (absorb ((rest.map fun per => OrderedMap.values (per.get table).entries).foldl absorb [])
        (OrderedMap.values (per.get table).entries)).map fun row => (row.location, some row.count) := by
  have hunseeded := h.unseeded
  rw [← stayingOf_append_cons h.moves] at hunseeded
  have hall : Brings destination enforceBounds
      (contributorsTo atlas destination (before ++ file :: behind)) (rest ++ [per]) := by
    rw [h.contributorsTo_all hc]
    exact List.rel_append hrest (.cons hper .nil)
  obtain ⟨rows, hrows, hvalues⟩ := exists_rows_of_unseeded herror hunseeded hall table
  rw [hrows.pairsOf_eq, hvalues, List.map_append, List.foldl_append]
  rfl

/-! #### The file after the others -/

/-- What the other files left at the destination: the rows that they make of each other, which are
told from their locations. -/
theorem exists_rows (h : Arrival atlas before file behind destination)
    (herror : (remap atlas enforceBounds (before ++ behind)).error = none) :
    ∃ rest, ∃ rows : LocationTable → OrderedMap Text Entry,
      Brings destination enforceBounds (contributorsTo atlas destination (before ++ behind)) rest ∧
      (∀ table, HasRows
        (coverageAt (remap atlas enforceBounds (before ++ behind)).report destination) table
          (rows table)) ∧
      (∀ table, OrderedMap.values (rows table) =
        (rest.map fun per => OrderedMap.values (per.get table).entries).foldl absorb []) ∧
      ∀ table, ∀ row ∈ rows table, identityInPlace row.1 row.2.location = .ok row.2.identity := by
  obtain ⟨rest, hrest⟩ := exists_brings herror destination
  choose rows hrows hvalues using exists_rows_of_unseeded herror h.unseeded hrest
  refine ⟨rest, rows, hrest, hrows, hvalues, fun table row hrow => ?_⟩
  -- hits that are added change neither the location nor the identity
  have htold : ∀ entry ∈ OrderedMap.values (rows table),
      ∀ id, identityInPlace id entry.location = .ok entry.identity := by
    rw [hvalues]
    refine forall_foldl_absorb (fun hrow _ _ => hrow) (List.forall_mem_map.2 fun per hper => ?_)
    obtain ⟨c, hc, hcontribution⟩ := exists_left_of_mem hrest hper
    rw [h.contributorsTo_others] at hc
    exact List.forall_mem_map.2 fun item hitem =>
      identityInPlace_of_mem_contribution (hcontribution table) (h.plain c hc table) hitem
  exact htold row.2 (List.mem_map_of_mem hrow) row.1

/-- The file comes behind what the others left. -/
theorem remapLater_eq (h : Arrival atlas before file behind destination) :
    remapLater atlas enforceBounds (before ++ behind) file = remap atlas enforceBounds
      ((remap atlas enforceBounds (before ++ behind)).report ++ [file]) := by
  rw [remapLater, OrderedMap.insert_of_not_mem]
  intro hmem
  obtain ⟨left, hleft, heq⟩ := List.mem_map.1 hmem
  rcases mem_of_mem_remap hleft with hstays | hwritten
  · exact h.new (heq ▸ List.mem_map_of_mem (List.mem_of_mem_filter hstays))
  · exact h.settled _ hwritten (heq ▸ onlySource?_of_destinationOf? h.moves)

/-- What is left at the destination is its seed, and the file is the only contributor. -/
theorem contributions_later (h : Arrival atlas before file behind destination)
    (enforceBounds : Bool) (hc : contributorTo? atlas destination file = some c) :
    seedAt (stayingOf atlas ((remap atlas enforceBounds (before ++ behind)).report ++ [file]))
        destination = seedAt (remap atlas enforceBounds (before ++ behind)).report destination ∧
      contributorsTo atlas destination
        ((remap atlas enforceBounds (before ++ behind)).report ++ [file]) = [c] := by
  constructor
  · rw [stayingOf_append_cons h.moves, List.append_nil, seedAt_stayingOf_of_unmapped h.unmapped]
  · rw [contributorsTo_append_cons hc, contributorsTo_remap_eq_nil h.settled]
    rfl

/-- The file can be remapped later when it brings what it has, unless something else fails. -/
theorem error_later (h : Arrival atlas before file behind destination)
    (hc : contributorTo? atlas destination file = some c)
    (herror : (remap atlas enforceBounds (before ++ behind)).error = none)
    (hper : ∀ table, c.contribution destination enforceBounds table = .ok (per.get table))
    (hquiet : ∀ other ∈ destinationsOf atlas (before ++ behind),
      (atlas.lookup (.text other)).bind Resolver.onlySource? = none) :
    (remapLater atlas enforceBounds (before ++ behind) file).error = none := by
  obtain ⟨-, rows, -, hrows, -, htold⟩ := h.exists_rows herror
  obtain ⟨first, hfirst, -⟩ := exists_seedContribution_of_rows hrows htold
  obtain ⟨hseed, hsole⟩ := h.contributions_later enforceBounds hc
  rw [h.remapLater_eq, error_remap_eq_none_iff]
  intro other hne
  rw [exists_contributions_iff]
  by_cases heq : other = destination
  · subst heq
    rw [hseed, hsole]
    exact ⟨⟨first, hfirst⟩, List.forall_mem_singleton.2 ⟨per, hper⟩⟩
  · rw [contributorsTo_append_cons_of_ne h.moves _ _ heq, List.append_nil,
      contributorsTo_remap_eq_nil fun d hd => by simp [hquiet d hd]] at hne
    exact absurd rfl hne

/-- The file brings what it has when it can be remapped later. -/
theorem exists_contribution (h : Arrival atlas before file behind destination)
    (hc : contributorTo? atlas destination file = some c)
    (herror : (remapLater atlas enforceBounds (before ++ behind) file).error = none) :
    ∃ per : PerTable Contribution, ∀ table,
      c.contribution destination enforceBounds table = .ok (per.get table) := by
  obtain ⟨-, hsole⟩ := h.contributions_later enforceBounds hc
  rw [h.remapLater_eq, error_remap_eq_none_iff] at herror
  obtain ⟨-, hall⟩ := exists_contributions_iff.1 (herror destination (by simp [hsole]))
  exact hall c (by simp [hsole])

/-- The pairs of the destination when the file arrives after the others: it takes its turn after a
seed with their rows. -/
theorem pairsOf_later (h : Arrival atlas before file behind destination)
    (hc : contributorTo? atlas destination file = some c)
    (herror : (remapLater atlas enforceBounds (before ++ behind) file).error = none)
    (hrows : ∀ table, HasRows
      (coverageAt (remap atlas enforceBounds (before ++ behind)).report destination) table (rows table))
    (htold : ∀ table, ∀ row ∈ rows table,
      identityInPlace row.1 row.2.location = .ok row.2.identity)
    (hper : ∀ table, c.contribution destination enforceBounds table = .ok (per.get table))
    (table : LocationTable) :
    pairsOf (coverageAt (remapLater atlas enforceBounds (before ++ behind) file).report destination)
        table =
      (absorb (OrderedMap.values (rows table)) (OrderedMap.values (per.get table).entries)).map
        fun row => (row.location, some row.count) := by
  rw [h.remapLater_eq] at herror ⊢
  obtain ⟨hseed, hsole⟩ := h.contributions_later enforceBounds hc
  obtain ⟨first, hfirst, hentries⟩ := exists_seedContribution_of_rows hrows htold
  have hbrought : contributions destination enforceBounds
      (seedAt (stayingOf atlas ((remap atlas enforceBounds (before ++ behind)).report ++ [file]))
        destination)
      (contributorsTo atlas destination
        ((remap atlas enforceBounds (before ++ behind)).report ++ [file])) = .ok [first, per] := by
    rw [hseed, hsole]
    exact contributions_eq_ok_iff.2 ⟨first, [per], hfirst, .cons hper .nil, rfl⟩
  obtain ⟨later, hshows, hvalues⟩ := exists_shows_tableOf table [first, per]
  rw [(hasRows_remap herror (by simp [hsole]) hbrought hshows).pairsOf_eq, hvalues, List.map_cons,
    List.map_cons, List.map_nil, List.foldl_cons, List.foldl_cons, List.foldl_nil, absorb_nil,
    hentries]

end Arrival

/-- **Files that arrive later**: the last file that moves to a destination may as well arrive when the
others have been remapped. All files can be remapped at once when the others can be and then the file
can be, and then the destination has, in each table, the same locations with the same counts. Where
all can be remapped at once the others can be as well, and so can the file after them, unless what
they built elsewhere moves on. -/
theorem pairsOf_remapLater {atlas : Atlas Resolver} {enforceBounds : Bool} {before behind : Report}
    {destination : Text} {file : Text × Json} (h : Arrival atlas before file behind destination) :
    ((remap atlas enforceBounds (before ++ file :: behind)).error = none →
      (remap atlas enforceBounds (before ++ behind)).error = none ∧
        ((∀ other ∈ destinationsOf atlas (before ++ behind),
            (atlas.lookup (.text other)).bind Resolver.onlySource? = none) →
          (remapLater atlas enforceBounds (before ++ behind) file).error = none)) ∧
    ((remap atlas enforceBounds (before ++ behind)).error = none →
      (remapLater atlas enforceBounds (before ++ behind) file).error = none →
        (remap atlas enforceBounds (before ++ file :: behind)).error = none ∧
        ∀ table,
          pairsOf (coverageAt
              (remapLater atlas enforceBounds (before ++ behind) file).report destination) table =
            pairsOf (coverageAt
              (remap atlas enforceBounds (before ++ file :: behind)).report destination) table) := by
  obtain ⟨c, hc⟩ := h.exists_contributor
  constructor
  · intro hall
    obtain ⟨hothers, per, hper⟩ := (h.error_all_iff hc).1 hall
    exact ⟨hothers, h.error_later hc hothers hper⟩
  · intro hothers hlater
    obtain ⟨rest, rows, hrest, hrows, hvalues, htold⟩ := h.exists_rows hothers
    obtain ⟨per, hper⟩ := h.exists_contribution hc hlater
    have hall := (h.error_all_iff hc).2 ⟨hothers, per, hper⟩
    refine ⟨hall, fun table => ?_⟩
    rw [h.pairsOf_later hc hlater hrows htold hper, h.pairsOf_all hc hall hrest hper, hvalues]

/-- A statement that arrives later keeps its id, because the id that the other file had listed was of a
statement that comes from no line. -/
theorem pairsOf_remapLater_of_listed_id :
    let atlas : Atlas Resolver := ⟨[("a.js", .copyOf "a.ts"), ("b.js", .copyOf "a.ts")]⟩
    let before : Report := [("a.js", .obj (statementsOn [("0", 0), ("1", 1)]))]
    let file : Text × Json := ("b.js", .obj (statementsOn [("0", 2), ("1", 1)]))
    let behind : Report := [("read.me", .null)]
    let all := coverageAt (remap atlas true (before ++ file :: behind)).report "a.ts"
    let later := coverageAt (remapLater atlas true (before ++ behind) file).report "a.ts"
    (remapLater atlas true (before ++ behind) file).error = none ∧
      OrderedMap.keys (tableAt all "statementMap") = ["1", "2"] ∧
      OrderedMap.keys (tableAt later "statementMap") = ["1", "0"] ∧
      pairsOf later .statements = pairsOf all .statements := by
  intro atlas before file behind all later
  have harrival : Arrival atlas before file behind "a.ts" :=
    ⟨rfl, rfl, by decide, by decide, rfl, by decide,
      List.forall_mem_singleton.2 fun table => by cases table <;> decide⟩
  have hall : (remap atlas true (before ++ file :: behind)).error = none := rfl
  obtain ⟨hothers, hlater⟩ := (pairsOf_remapLater harrival).1 hall
  have hlater := hlater (by decide)
  obtain ⟨-, hpairs⟩ := (pairsOf_remapLater harrival).2 hothers hlater
  exact ⟨hlater, by decide +kernel, by decide +kernel, hpairs .statements⟩

end CoverageLift
