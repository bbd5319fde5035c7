import CoverageLift.Coverage.Remap
import CoverageLift.Proofs.Success

/-!
# What contributors bring

A contributor brings those entries of its tables that have a valid count and can be lifted, under the
ids that it lists and in their order. Replacing a location by one that cannot be lifted takes its
entry away and leaves everything else as it is, the ids that are listed and the other tables included.
-/

namespace CoverageLift

theorem LocationTable.mem_all (table : LocationTable) : table ∈ all := by
  cases table <;> decide

theorem PerTable.get_ofFunction {α : Type} (f : LocationTable → α) (table : LocationTable) :
    (PerTable.ofFunction f).get table = f table := by
  cases table <;> rfl

theorem PerTable.ofFunctionM_eq_ok_iff {ε α : Type} {f : LocationTable → Except ε α}
    {p : PerTable α} : PerTable.ofFunctionM f = .ok p ↔ ∀ table, f table = .ok (p.get table) := by
  rw [PerTable.ofFunctionM, bind_eq_ok_iff]
  constructor
  · rintro ⟨statements, hstatements, h⟩
    obtain ⟨functions, hfunctions, h⟩ := bind_eq_ok_iff.1 h
    obtain ⟨branches, hbranches, h⟩ := bind_eq_ok_iff.1 h
    obtain rfl := Except.ok.inj h
    rintro (_ | _ | _)
    · exact hstatements
    · exact hfunctions
    · exact hbranches
  · intro h
    refine ⟨_, h .statements, bind_eq_ok_iff.2 ⟨_, h .functions, bind_eq_ok_iff.2 ⟨_, h .branches, ?_⟩⟩⟩
    rfl

/-! ### The entries of a table -/

/-- The entry that a location makes, if it has a valid count and can be lifted. -/
def keptEntry (table : LocationTable) (remap : PlainRangeMap) (counts : OrderedMap Text Json)
    (id : Text) (raw : Json) : Except ResolverFailure (Option Entry) :=
  match OrderedMap.get? counts id with
  | none => .ok none
  | some count =>
    if table.validCount count then
      (table.liftEntry remap raw).map fun lifted =>
        lifted.map fun m => ⟨m.location, m.identity, count⟩
    else .ok none

section KeptEntries

variable {table : LocationTable} {remap : PlainRangeMap} {counts locations : OrderedMap Text Json}
  {entries : OrderedMap Text Entry} {id : Text} {raw : Json}

theorem keptEntries_cons_eq_ok_iff :
    keptEntries table remap counts ((id, raw) :: locations) = .ok entries ↔
      ∃ mapped others, keptEntry table remap counts id raw = .ok mapped ∧
        keptEntries table remap counts locations = .ok others ∧
          entries = (mapped.map (Prod.mk id)).toList ++ others := by
  have hcons : keptEntries table remap counts ((id, raw) :: locations) =
      keptEntry table remap counts id raw >>= fun mapped =>
        keptEntries table remap counts locations >>= fun others =>
          .ok ((mapped.map (Prod.mk id)).toList ++ others) := by
    rw [keptEntries, keptEntry]
    rcases OrderedMap.get? counts id with _ | count
    · rfl
    · by_cases hvalid : table.validCount count = true
      · simp only [if_pos hvalid]
        rcases table.liftEntry remap raw with failure | lifted
        · rfl
        · cases lifted with
          | none => rfl
          | some m => rfl
      · simp only [if_neg hvalid]
        rfl
  rw [hcons, bind_eq_ok_iff]
  refine exists_congr fun mapped => ?_
  rw [bind_eq_ok_iff, ← exists_and_left]
  refine exists_congr fun others => and_congr_right fun _ => and_congr_right fun _ => ?_
  exact ⟨fun h => (Except.ok.inj h).symm, fun h => congrArg _ h.symm⟩

/-- The ids of the entries are ids of the locations, in the same order. -/
theorem keys_keptEntries_sublist :
    ∀ {entries : OrderedMap Text Entry}, keptEntries table remap counts locations = .ok entries →
      (OrderedMap.keys entries).Sublist (OrderedMap.keys locations) := by
  induction locations with
  | nil =>
    intro entries h
    obtain rfl := Except.ok.inj h
    exact .slnil
  | cons location locations ih =>
    intro entries h
    obtain ⟨mapped, others, -, hothers, rfl⟩ := keptEntries_cons_eq_ok_iff.1 h
    cases mapped with
    | none => exact (ih hothers).cons _
    | some entry => exact (ih hothers).cons_cons _

/-- An entry has a valid count of its id, and it is what its location was lifted to. -/
theorem exists_location_of_mem_keptEntries {item : Text × Entry} :
    ∀ {entries : OrderedMap Text Entry}, keptEntries table remap counts locations = .ok entries →
      item ∈ entries →
        OrderedMap.get? counts item.1 = some item.2.count ∧ table.validCount item.2.count = true ∧
          ∃ raw, (item.1, raw) ∈ locations ∧
            table.liftEntry remap raw = .ok (some ⟨item.2.location, item.2.identity⟩) := by
  induction locations with
  | nil =>
    intro entries h hitem
    obtain rfl := Except.ok.inj h
    exact absurd hitem List.not_mem_nil
  | cons location locations ih =>
    intro entries h hitem
    obtain ⟨id, raw⟩ := location
    obtain ⟨mapped, others, hmapped, hothers, rfl⟩ := keptEntries_cons_eq_ok_iff.1 h
    rcases List.mem_append.1 hitem with hitem | hitem
    · obtain ⟨entry, rfl, rfl⟩ := Option.map_eq_some_iff.1 (Option.mem_toList.1 hitem)
      rw [keptEntry] at hmapped
      split at hmapped
      · cases hmapped
      · next count hcount =>
        split at hmapped
        · next hvalid =>
          obtain ⟨lifted, hlifted, hmap⟩ := map_eq_ok_iff.1 hmapped
          obtain ⟨m, rfl, rfl⟩ := Option.map_eq_some_iff.1 hmap
          exact ⟨hcount, hvalid, raw, List.mem_cons_self, hlifted⟩
        · cases hmapped
    · obtain ⟨hcount, hvalid, raw', hraw', hlifted⟩ := ih hothers hitem
      exact ⟨hcount, hvalid, raw', List.mem_cons_of_mem _ hraw', hlifted⟩

/-- A location that cannot be lifted makes no entry. -/
theorem keptEntry_of_unliftable (hraw : table.liftEntry remap raw = .ok none) :
    keptEntry table remap counts id raw = .ok none := by
  rw [keptEntry]
  split
  · rfl
  · rw [hraw]
    split <;> rfl

/-- Putting a location that cannot be lifted in the place of another one. -/
theorem keptEntries_insert (hraw : table.liftEntry remap raw = .ok none) :
    ∀ {entries : OrderedMap Text Entry}, (OrderedMap.keys locations).Nodup →
      id ∈ OrderedMap.keys locations → keptEntries table remap counts locations = .ok entries →
        keptEntries table remap counts (OrderedMap.insert locations id raw) =
          .ok (OrderedMap.erase entries id) := by
  induction locations with
  | nil => exact fun _ hid _ => absurd hid List.not_mem_nil
  | cons location locations ih =>
    intro entries hnodup hid h
    obtain ⟨id', raw'⟩ := location
    obtain ⟨mapped, others, hmapped, hothers, rfl⟩ := keptEntries_cons_eq_ok_iff.1 h
    obtain ⟨hnot, hnodup⟩ := List.nodup_cons.1 hnodup
    rw [OrderedMap.insert]
    split
    · next heq =>
      obtain rfl := heq
      refine keptEntries_cons_eq_ok_iff.2 ⟨none, others, keptEntry_of_unliftable hraw, hothers, ?_⟩
      have hnot' : id' ∉ OrderedMap.keys others :=
        fun hmem => hnot ((keys_keptEntries_sublist hothers).subset hmem)
      cases mapped with
      | none => exact OrderedMap.erase_eq_self hnot'
      | some entry => exact @OrderedMap.erase_append_cons _ _ _ [] _ _ _ List.not_mem_nil hnot'
    · next hne =>
      have hid : id ∈ OrderedMap.keys locations :=
        (List.mem_cons.1 hid).resolve_left fun heq => hne heq.symm
      refine keptEntries_cons_eq_ok_iff.2 ⟨mapped, _, hmapped, ih hnodup hid hothers, ?_⟩
      cases mapped with
      | none => rfl
      | some entry => exact List.filter_cons_of_pos (decide_eq_true hne)

end KeptEntries

/-! ### The entries of a seed -/

section CountedEntries

variable {counts locations : OrderedMap Text Json} {id : Text} {raw : Json}

/-- A location without a count makes no entry. -/
theorem countedEntries_cons_of_none (h : OrderedMap.get? counts id = none) :
    countedEntries counts ((id, raw) :: locations) = countedEntries counts locations := by
  simp only [countedEntries, h]

/-- A location with a count makes an entry when it has an identity. -/
theorem countedEntries_cons_of_some {count : Json} (h : OrderedMap.get? counts id = some count) :
    countedEntries counts ((id, raw) :: locations) =
      identityInPlace id raw >>= fun identity =>
        (countedEntries counts locations).map fun entries => (id, ⟨raw, identity, count⟩) :: entries := by
  simp only [countedEntries, h]
  rcases identityInPlace id raw with kind | identity
  · rfl
  · rcases countedEntries counts locations with kind | entries <;> rfl

/-- An entry of a seed is a location as it stands, with its count and its identity. -/
theorem exists_location_of_mem_countedEntries {item : Text × Entry} :
    ∀ {entries : OrderedMap Text Entry}, countedEntries counts locations = .ok entries →
      item ∈ entries →
        OrderedMap.get? counts item.1 = some item.2.count ∧ (item.1, item.2.location) ∈ locations ∧
          identityInPlace item.1 item.2.location = .ok item.2.identity := by
  induction locations with
  | nil =>
    intro entries h hitem
    obtain rfl := Except.ok.inj h
    exact absurd hitem List.not_mem_nil
  | cons location locations ih =>
    intro entries h hitem
    obtain ⟨id, raw⟩ := location
    rcases hget : OrderedMap.get? counts id with _ | count
    · rw [countedEntries_cons_of_none hget] at h
      obtain ⟨hcount, hlocation, hidentity⟩ := ih h hitem
      exact ⟨hcount, List.mem_cons_of_mem _ hlocation, hidentity⟩
    · rw [countedEntries_cons_of_some hget, bind_eq_ok_iff] at h
      obtain ⟨identity, hidentity, h⟩ := h
      obtain ⟨others, hothers, rfl⟩ := map_eq_ok_iff.1 h
      rcases List.mem_cons.1 hitem with rfl | hitem
      · exact ⟨hget, List.mem_cons_self, hidentity⟩
      · obtain ⟨hcount, hlocation, hidentity⟩ := ih hothers hitem
        exact ⟨hcount, List.mem_cons_of_mem _ hlocation, hidentity⟩

end CountedEntries

/-! ### Contributors -/

namespace Contributor

variable {c : Contributor} {destination : Text} {enforceBounds : Bool} {table : LocationTable}

/-- How the ranges of the contributor are lifted to the destination. -/
def rangeMap (c : Contributor) (destination : Text) (enforceBounds : Bool) : PlainRangeMap :=
  plainMap c.resolver destination
    (if enforceBounds then c.resolver.lastLine destination else none)

theorem contribution_eq_ok_iff {contribution : Contribution} :
    c.contribution destination enforceBounds table = .ok contribution ↔
      contribution.listed = OrderedMap.keys (tableAt c.fields table.locationsKey) ∧
        keptEntries table (c.rangeMap destination enforceBounds)
          (tableAt c.fields table.countsKey) (tableAt c.fields table.locationsKey) =
            .ok contribution.entries := by
  rw [Contributor.contribution, bind_eq_ok_iff]
  constructor
  · rintro ⟨entries, hentries, h⟩
    obtain rfl := Except.ok.inj h
    exact ⟨rfl, hentries⟩
  · rintro ⟨hlisted, hentries⟩
    refine ⟨_, hentries, ?_⟩
    rw [← hlisted]
    rfl

/-- The contributor with another location under an id. -/
def setLocation (c : Contributor) (table : LocationTable) (id : Text) (raw : Json) : Contributor :=
  { c with
    fields := OrderedMap.insert c.fields table.locationsKey
      (.obj (OrderedMap.insert (tableAt c.fields table.locationsKey) id raw)) }

end Contributor

/-- What a member holds after one has been set. -/
theorem tableAt_insert (fields : OrderedMap Text Json) (key key' : Text)
    (locations : OrderedMap Text Json) :
    tableAt (OrderedMap.insert fields key (.obj locations)) key' =
      if key = key' then locations else tableAt fields key' := by
  rw [tableAt, OrderedMap.get?_insert]
  by_cases heq : key = key'
  · rw [if_pos heq, if_pos heq]
    rfl
  · rw [if_neg heq, if_neg heq]
    rfl

/-! The members of the tables are all different. -/

@[simp] theorem LocationTable.locationsKey_eq_iff {table table' : LocationTable} :
    table.locationsKey = table'.locationsKey ↔ table = table' := by
  cases table <;> cases table' <;> decide

@[simp] theorem LocationTable.countsKey_eq_iff {table table' : LocationTable} :
    table.countsKey = table'.countsKey ↔ table = table' := by
  cases table <;> cases table' <;> decide

@[simp] theorem LocationTable.locationsKey_ne_countsKey (table table' : LocationTable) :
    table.locationsKey ≠ table'.countsKey := by
  cases table <;> cases table' <;> decide

@[simp] theorem LocationTable.countsKey_ne_locationsKey (table table' : LocationTable) :
    table.countsKey ≠ table'.locationsKey :=
  (locationsKey_ne_countsKey table' table).symm

namespace Contributor

variable {c : Contributor} {destination : Text} {enforceBounds : Bool} {table other : LocationTable}
  {id : Text} {raw : Json} {contribution : Contribution}

/-- The locations of the table with another one under an id. -/
theorem tableAt_setLocation :
    tableAt (c.setLocation table id raw).fields table.locationsKey =
      OrderedMap.insert (tableAt c.fields table.locationsKey) id raw :=
  (tableAt_insert _ _ _ _).trans (if_pos rfl)

/-- All other members stay. -/
theorem tableAt_setLocation_of_ne {key : Text} (hne : table.locationsKey ≠ key) :
    tableAt (c.setLocation table id raw).fields key = tableAt c.fields key :=
  (tableAt_insert _ _ _ _).trans (if_neg hne)

/-- Another location in one table changes nothing in the other tables. -/
theorem contribution_setLocation_of_ne (hne : other ≠ table) :
    (c.setLocation table id raw).contribution destination enforceBounds other =
      c.contribution destination enforceBounds other := by
  have hlocations : table.locationsKey ≠ other.locationsKey := fun heq =>
    hne (LocationTable.locationsKey_eq_iff.1 heq).symm
  rw [Contributor.contribution, Contributor.contribution, tableAt_setLocation_of_ne hlocations,
    tableAt_setLocation_of_ne (LocationTable.locationsKey_ne_countsKey _ _)]
  rfl

/-- A location that cannot be lifted in the place of another one takes its entry away. -/
theorem contribution_setLocation
    (hkeys : (OrderedMap.keys (tableAt c.fields table.locationsKey)).Nodup)
    (hid : id ∈ OrderedMap.keys (tableAt c.fields table.locationsKey))
    (hraw : table.liftEntry (c.rangeMap destination enforceBounds) raw = .ok none)
    (h : c.contribution destination enforceBounds table = .ok contribution) :
    (c.setLocation table id raw).contribution destination enforceBounds table =
      .ok { contribution with entries := OrderedMap.erase contribution.entries id } := by
  obtain ⟨hlisted, hentries⟩ := contribution_eq_ok_iff.1 h
  rw [contribution_eq_ok_iff, tableAt_setLocation, OrderedMap.keys_insert_of_mem hid,
    tableAt_setLocation_of_ne (LocationTable.locationsKey_ne_countsKey _ _)]
  exact ⟨hlisted, keptEntries_insert hraw hkeys hid hentries⟩

end Contributor

/-! ### All contributions -/

/-- What the seed brings, if there is one. -/
def seedContribution : Option (OrderedMap Text Json) → Except RemapError (PerTable Contribution)
  | none => .ok (PerTable.ofFunction fun _ => ⟨[], []⟩)
  | some fields =>
    (PerTable.ofFunctionM (contributionInPlace fields)).mapError RemapError.incomparableType

theorem seedContribution_some_eq_ok_iff {fields : OrderedMap Text Json}
    {first : PerTable Contribution} :
    seedContribution (some fields) = .ok first ↔ ∀ table : LocationTable,
      (first.get table).listed = OrderedMap.keys (tableAt fields table.locationsKey) ∧
        countedEntries (tableAt fields table.countsKey) (tableAt fields table.locationsKey) =
          .ok (first.get table).entries := by
  rw [seedContribution, mapError_eq_ok_iff, PerTable.ofFunctionM_eq_ok_iff]
  refine forall_congr' fun table => ?_
  rw [contributionInPlace, bind_eq_ok_iff]
  constructor
  · rintro ⟨entries, hentries, h⟩
    rw [← Except.ok.inj h]
    exact ⟨rfl, hentries⟩
  · rintro ⟨hlisted, hentries⟩
    refine ⟨_, hentries, ?_⟩
    rw [← hlisted]
    rfl

theorem contributions_eq_ok_iff {destination : Text} {enforceBounds : Bool}
    {seed : Option (OrderedMap Text Json)} {contributors : List Contributor}
    {brought : List (PerTable Contribution)} :
    contributions destination enforceBounds seed contributors = .ok brought ↔
      ∃ first rest, seedContribution seed = .ok first ∧
        List.Forall₂ (fun c per => ∀ table, c.contribution destination enforceBounds table =
          .ok (per.get table)) contributors rest ∧ brought = first :: rest := by
  have hcontributions : contributions destination enforceBounds seed contributors =
      seedContribution seed >>= fun first =>
        contributors.mapM (fun c =>
          (PerTable.ofFunctionM (c.contribution destination enforceBounds)).mapError
            RemapError.resolver) >>= fun rest => .ok (first :: rest) := by
    cases seed <;> rfl
  rw [hcontributions, bind_eq_ok_iff]
  refine exists_congr fun first => ?_
  rw [bind_eq_ok_iff, ← exists_and_left]
  refine exists_congr fun rest => and_congr_right fun _ => ?_
  rw [mapM_eq_ok_iff]
  simp only [mapError_eq_ok_iff, PerTable.ofFunctionM_eq_ok_iff]
  exact and_congr_right fun _ => ⟨fun h => (Except.ok.inj h).symm, fun h => congrArg _ h.symm⟩

/-- Everything can be brought when the seed and each contributor can bring theirs. -/
theorem exists_contributions_iff {destination : Text} {enforceBounds : Bool}
    {seed : Option (OrderedMap Text Json)} {contributors : List Contributor} :
    (∃ brought, contributions destination enforceBounds seed contributors = .ok brought) ↔
      (∃ first, seedContribution seed = .ok first) ∧
        ∀ c ∈ contributors, ∃ per : PerTable Contribution, ∀ table,
          c.contribution destination enforceBounds table = .ok (per.get table) := by
  rw [← exists_forall₂_iff]
  constructor
  · rintro ⟨brought, h⟩
    obtain ⟨first, rest, hfirst, hrest, -⟩ := contributions_eq_ok_iff.1 h
    exact ⟨⟨first, hfirst⟩, rest, hrest⟩
  · rintro ⟨⟨first, hfirst⟩, rest, hrest⟩
    exact ⟨first :: rest, contributions_eq_ok_iff.2 ⟨first, rest, hfirst, hrest, rfl⟩⟩

/-! ### Files that are copies of their source -/

/-- The resolver of a copy of a source. -/
def Resolver.copyOf (source : Text) : Resolver where
  resolve line column := .ok (some ⟨source, line, column⟩)
  knownSources := [source]
  lastLine _ := none

/-- A location on one line. -/
def onLine (line : Int) : Json :=
  .obj [("start", .obj [("line", .int line), ("column", .int 0)])]

/-- Coverage with statements on some lines, each hit once. -/
def statementsOn (statements : List (Text × Int)) : OrderedMap Text Json :=
  [("statementMap", .obj (statements.map fun (id, line) => (id, onLine line))),
    ("s", .obj (statements.map fun (id, _) => (id, .int 1)))]

end CoverageLift
