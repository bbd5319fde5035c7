import CoverageLift.Proofs.Remap.Writes

/-!
# When remapping fails

A source map answers or does not know, it never fails, and neither does lifting with it: whatever is
malformed in a file that moves drops an entry. What a destination holds already is taken as it is.
There an entry with a count is compared by its identity, and the identity of a branch has the type of
the branch in it as it stands. So with source maps **remapping fails exactly on a branch whose type
is an array or an object**, in a table of a destination that is built.

No count is missing either: a folded entry always finds one to add to.
-/

namespace CoverageLift

/-! ### Lifting never fails -/

/-- A way to lift ranges that never fails. -/
def RangeMap.Total (remap : RangeMap) : Prop :=
  ∀ location, ∃ lifted, remap location = .ok lifted

/-- A source map gives every point a position, or none. -/
theorem exists_liftPoint (map : SourceMap) (p : Point) :
    ∃ position, liftPoint (Resolver.ofSourceMap map) p = .ok position := by
  rw [liftPoint]
  split
  · rcases hresolve : map.resolve p.line p.column with _ | position
    · exact ⟨none, by simp [Resolver.ofSourceMap, hresolve]⟩
    · by_cases hillegal : position.line < 1 ∨ position.column < 0
      · exact ⟨none, by simp [Resolver.ofSourceMap, hresolve, hillegal]⟩
      · exact ⟨some position, by simp [Resolver.ofSourceMap, hresolve, hillegal]⟩
  · exact ⟨none, rfl⟩

/-- A source map lifts every range, or drops it. -/
theorem exists_liftRange (map : SourceMap) (location : Range) :
    ∃ lifted, liftRange (Resolver.ofSourceMap map) location = .ok lifted := by
  refine exists_bind_eq_ok (exists_liftPoint map _) fun start => ?_
  rcases start with _ | start
  · exact ⟨none, rfl⟩
  · rcases location.stop with _ | p
    · exact ⟨_, rfl⟩
    · exact exists_bind_eq_ok (exists_liftPoint map p) fun _ => ⟨_, rfl⟩

/-- Refusing a range for its source or its lines never fails either. -/
theorem total_boundedMap (map : SourceMap) (destination : Text) (bound : Option Int) :
    (boundedMap (Resolver.ofSourceMap map) destination bound).Total := by
  intro location
  refine exists_bind_eq_ok (exists_liftRange map location) fun lifted => ?_
  rcases lifted with _ | lifted
  · exact ⟨none, rfl⟩
  · by_cases hsource : lifted.source = destination
    · simp only [hsource, ne_eq, not_true_eq_false, if_false]
      rcases bound with _ | n
      · exact ⟨_, rfl⟩
      · dsimp only
        split <;> exact ⟨_, rfl⟩
    · exact ⟨none, if_pos hsource⟩

section Total

variable {remap : RangeMap} (htotal : remap.Total)

include htotal

theorem RangeMap.Total.exists_apply? (location : Option Range) :
    ∃ lifted, remap.apply? location = .ok lifted := by
  cases location with
  | none => exact ⟨none, rfl⟩
  | some location => exact htotal location

theorem exists_liftStatement (raw : Json) : ∃ lifted, liftStatement remap raw = .ok lifted := by
  refine exists_bind_eq_ok (htotal.exists_apply? _) fun range => ?_
  cases range <;> exact ⟨_, rfl⟩

theorem exists_liftFunction (raw : Json) : ∃ lifted, liftFunction remap raw = .ok lifted := by
  cases raw with
  | obj fields =>
    rw [liftFunction]
    split
    · exact ⟨none, rfl⟩
    · refine exists_bind_eq_ok (htotal.exists_apply? _) fun declaration => ?_
      rcases declaration with _ | declaration
      · exact ⟨none, rfl⟩
      · dsimp only
        split
        · exact exists_bind_eq_ok (htotal.exists_apply? _) fun _ => ⟨_, rfl⟩
        · exact ⟨_, rfl⟩
  | _ => exact ⟨none, rfl⟩

theorem exists_liftBranch (raw : Json) : ∃ lifted, liftBranch remap raw = .ok lifted := by
  cases raw with
  | obj fields =>
    rw [liftBranch]
    split
    · exact ⟨none, rfl⟩
    · next items _ =>
      split
      · exact ⟨none, rfl⟩
      · have halternatives : ∃ lifted, items.mapM (fun v => remap.apply? (Range.ofJson? v)) =
            .ok lifted := by
          simp only [mapM_eq_ok_iff, exists_forall₂_iff]
          exact fun item _ => htotal.exists_apply? _
        refine exists_bind_eq_ok halternatives fun lifted => ?_
        refine exists_bind_eq_ok (htotal.exists_apply? _) fun whole => ?_
        split <;> exact ⟨_, rfl⟩
  | _ => exact ⟨none, rfl⟩

/-- Every entry is lifted or dropped. -/
theorem exists_liftEntry (table : LocationTable) (raw : Json) :
    ∃ lifted, table.liftEntry remap raw = .ok lifted := by
  cases table with
  | statements => exact exists_liftStatement htotal raw
  | functions => exact exists_liftFunction htotal raw
  | branches => exact exists_liftBranch htotal raw

end Total

/-- The entries of a table can always be told. -/
theorem exists_keptEntries {remap : PlainRangeMap} (htotal : RangeMap.Total remap)
    (table : LocationTable) (counts locations : OrderedMap Text Json) :
    ∃ entries, keptEntries table remap counts locations = .ok entries := by
  induction locations with
  | nil => exact ⟨[], rfl⟩
  | cons location locations ih =>
    obtain ⟨id, raw⟩ := location
    obtain ⟨others, hothers⟩ := ih
    have hkept : ∃ mapped, keptEntry table remap counts id raw = .ok mapped := by
      rw [keptEntry]
      split
      · exact ⟨none, rfl⟩
      · split
        · obtain ⟨lifted, hlifted⟩ := exists_liftEntry htotal table raw
          exact ⟨_, map_eq_ok_iff.2 ⟨lifted, hlifted, rfl⟩⟩
        · exact ⟨none, rfl⟩
    obtain ⟨mapped, hmapped⟩ := hkept
    exact ⟨_, keptEntries_cons_eq_ok_iff.2 ⟨mapped, others, hmapped, hothers, rfl⟩⟩

/-- What a contributor with a source map brings can always be told. -/
theorem exists_contribution {c : Contributor} {map : SourceMap}
    (hmap : c.resolver = Resolver.ofSourceMap map) (destination : Text) (enforceBounds : Bool) :
    ∃ per : PerTable Contribution, ∀ table,
      c.contribution destination enforceBounds table = .ok (per.get table) := by
  have htotal : RangeMap.Total (c.rangeMap destination enforceBounds) := by
    rw [Contributor.rangeMap, hmap]
    exact total_boundedMap map destination _
  choose entries hentries using fun table : LocationTable => exists_keptEntries htotal table
    (tableAt c.fields table.countsKey) (tableAt c.fields table.locationsKey)
  refine ⟨PerTable.ofFunction fun table =>
    ⟨OrderedMap.keys (tableAt c.fields table.locationsKey), entries table⟩, fun table => ?_⟩
  rw [PerTable.get_ofFunction]
  exact Contributor.contribution_eq_ok_iff.2 ⟨rfl, hentries table⟩

/-! ### Branches that cannot be compared -/

/-- Whether a value has members. -/
def Json.isContainer : Json → Bool
  | .arr _ => true
  | .obj _ => true
  | _ => false

/-- A branch whose type is an array or an object. What makes a location a branch is that it is no
range and all its alternatives are ranges. -/
def Incomparable (raw : Json) : Prop :=
  Range.ofJson? raw = none ∧ ∃ fields items type, raw = .obj fields ∧
    OrderedMap.get? fields ("locations" : Text) = some (.arr items) ∧
    (∀ item ∈ items, (Range.ofJson? item).isSome) ∧
    OrderedMap.get? fields ("type" : Text) = some type ∧ type.isContainer

theorem exists_scalar_iff {v : Json} :
    (∃ scalar, v.scalar = .ok scalar) ↔ v.isContainer = false := by
  cases v <;> simp [Json.scalar, Json.isContainer]

/-- Alternatives have regions when all of them are ranges. -/
theorem isSome_regions?_iff {items : List Json} :
    (regions? items).isSome ↔ ∀ item ∈ items, (Range.ofJson? item).isSome := by
  induction items with
  | nil => simp [regions?]
  | cons item items ih =>
    have hcons : regions? (item :: items) =
        ((Range.ofJson? item).map Range.key).bind fun key =>
          (regions? items).bind fun keys => some (key :: keys) :=
      List.mapM_cons
    rw [hcons, List.forall_mem_cons, ← ih]
    cases Range.ofJson? item <;> cases regions? items <;> simp

/-- A branch has an identity unless its type has members. -/
theorem exists_branchIdentity_iff {id : Text} {fields : OrderedMap Text Json} {items : List Json} :
    (∃ identity, branchIdentity id fields items = .ok identity) ↔
      ¬ ((∀ item ∈ items, (Range.ofJson? item).isSome) ∧
        ∃ type, OrderedMap.get? fields ("type" : Text) = some type ∧ type.isContainer) := by
  rw [branchIdentity, ← isSome_regions?_iff]
  rcases regions? items with _ | keys
  · simp
  · have htype : (∃ type, OrderedMap.get? fields ("type" : Text) = some type ∧ type.isContainer) ↔
        ((OrderedMap.get? fields ("type" : Text)).getD .null).isContainer = true := by
      cases OrderedMap.get? fields ("type" : Text) <;> simp [Json.isContainer]
    rw [htype]
    simp only [map_eq_ok_iff, Option.isSome_some, true_and, Bool.not_eq_true, ← exists_scalar_iff]
    constructor
    · rintro ⟨_, scalar, hscalar, -⟩
      exact ⟨scalar, hscalar⟩
    · rintro ⟨scalar, hscalar⟩
      exact ⟨_, scalar, hscalar, rfl⟩

/-- A location has an identity unless it is a branch that cannot be compared. -/
theorem exists_identityInPlace_iff {id : Text} {raw : Json} :
    (∃ identity, identityInPlace id raw = .ok identity) ↔ ¬ Incomparable raw := by
  rw [Incomparable]
  rcases hrange : Range.ofJson? raw with _ | range
  · cases raw with
    | obj fields =>
      rcases hlocations : OrderedMap.get? fields ("locations" : Text) with _ | v
      · simp [identityInPlace, hrange, hlocations]
      · cases v with
        | arr items =>
          -- only what has alternatives is compared by its type
          have hbranch : identityInPlace id (.obj fields) = branchIdentity id fields items := by
            simp only [identityInPlace, hrange, hlocations]
          simp [hbranch, exists_branchIdentity_iff, hlocations]
        | _ => simp [identityInPlace, hrange, hlocations]
    | _ => simp [identityInPlace, hrange]
  · simp [identityInPlace, hrange]

/-- The counted locations of a seed can be told when all of them can be compared. -/
theorem exists_countedEntries_iff {counts locations : OrderedMap Text Json} :
    (∃ entries, countedEntries counts locations = .ok entries) ↔
      ∀ location ∈ locations, (OrderedMap.get? counts location.1).isSome →
        ¬ Incomparable location.2 := by
  induction locations with
  | nil => exact ⟨fun _ _ h => absurd h List.not_mem_nil, fun _ => ⟨[], rfl⟩⟩
  | cons location locations ih =>
    obtain ⟨id, raw⟩ := location
    rw [List.forall_mem_cons, ← ih]
    rcases hcount : OrderedMap.get? counts id with _ | count
    · rw [countedEntries_cons_of_none hcount]
      simp
    · simp only [countedEntries_cons_of_some hcount, bind_eq_ok_iff, map_eq_ok_iff,
        Option.isSome_some, forall_const, ← @exists_identityInPlace_iff id raw]
      constructor
      · rintro ⟨_, identity, hidentity, others, hothers, rfl⟩
        exact ⟨⟨identity, hidentity⟩, others, hothers⟩
      · rintro ⟨⟨identity, hidentity⟩, others, hothers⟩
        exact ⟨_, identity, hidentity, others, hothers, rfl⟩

/-- The locations of a file that have a count can be compared. -/
def Comparable (fields : OrderedMap Text Json) : Prop :=
  ∀ table : LocationTable, ∀ location ∈ tableAt fields table.locationsKey,
    (OrderedMap.get? (tableAt fields table.countsKey) location.1).isSome → ¬ Incomparable location.2

/-- A seed can be brought when its counted locations can be compared. -/
theorem exists_seedContribution_iff {seed : Option (OrderedMap Text Json)} :
    (∃ first, seedContribution seed = .ok first) ↔ ∀ fields ∈ seed, Comparable fields := by
  cases seed with
  | none => exact ⟨fun _ _ h => (nomatch h), fun _ => ⟨_, rfl⟩⟩
  | some fields =>
    simp only [Option.mem_some_iff, forall_eq', Comparable, ← exists_countedEntries_iff,
      seedContribution_some_eq_ok_iff]
    constructor
    · rintro ⟨first, h⟩ table
      exact ⟨_, (h table).2⟩
    · intro h
      choose entries hentries using h
      refine ⟨PerTable.ofFunction fun table =>
        ⟨OrderedMap.keys (tableAt fields table.locationsKey), entries table⟩, fun table => ?_⟩
      rw [PerTable.get_ofFunction]
      exact ⟨rfl, hentries table⟩

/-! ### Remapping with source maps -/

/-- The atlas with the resolvers of source maps. -/
def Atlas.resolvers (maps : Atlas SourceMap) : Atlas Resolver :=
  ⟨maps.entries.map fun entry => (entry.1, Resolver.ofSourceMap entry.2)⟩

/-- A file moves by the resolver that the atlas has for it. -/
theorem resolver_mem_of_disposition {atlas : Atlas Resolver} {path destination : Text}
    {coverage : Json} {c : Contributor} (h : disposition atlas path coverage = .moves destination c) :
    (path, c.resolver) ∈ atlas.entries := by
  unfold disposition at h
  split at h
  · next resolver fields hlookup =>
    split at h
    · obtain ⟨-, rfl⟩ := Disposition.moves.inj h
      exact OrderedMap.mem_of_get?_eq_some hlookup
    · cases h
  · cases h

/-- What is collected for a destination in an atlas of source maps has source maps. -/
theorem exists_map_of_mem_contributorsTo {maps : Atlas SourceMap} {destination : Text}
    {report : Report} {c : Contributor}
    (hc : c ∈ contributorsTo maps.resolvers destination report) :
    ∃ map, c.resolver = Resolver.ofSourceMap map := by
  obtain ⟨file, -, hfile⟩ := List.mem_filterMap.1 hc
  rw [contributorTo?] at hfile
  split at hfile
  · next d c' hmoves =>
    split at hfile
    · obtain rfl := Option.some.inj hfile
      obtain ⟨entry, -, hentry⟩ := List.mem_map.1 (resolver_mem_of_disposition hmoves)
      exact ⟨entry.2, (Prod.mk.inj hentry).2.symm⟩
    · cases hfile
  · cases hfile

/-- Every placement of a turn can be written: a folded entry finds a count to add to. -/
theorem writable_of_callsOf {table : LocationTable} {brought : List (PerTable Contribution)}
    {earlier later : List (Contribution × Nat)} {call : Contribution × Nat}
    (hcalls : callsOf table 0 brought = earlier ++ call :: later) :
    Arena.Writable (Arena.empty.afterTurns earlier).counts
      ((Arena.empty.afterTurns earlier).merge call.2 call.1).placements := by
  have hnumbers := nodup_callsOf table brought
  rw [hcalls] at hnumbers
  obtain ⟨hearlier, hnumber⟩ := Arena.nodup_numbers_before hnumbers
  exact (Arena.history_afterTurns hearlier).writable hnumber call.1

/-- **Failures of remapping**: with source maps, remapping succeeds exactly when no destination that
is built holds a counted branch that cannot be compared. The turns never fail: whatever is brought,
each folded entry finds a count to add to. -/
theorem error_remap_resolvers_eq_none_iff (maps : Atlas SourceMap) (enforceBounds : Bool)
    (report : Report) :
    ((remap maps.resolvers enforceBounds report).error = none ↔
      ∀ destination ∈ OrderedMap.keys (pendingOf maps.resolvers report),
        ∀ fields ∈ seedAt (stayingOf maps.resolvers report) destination, Comparable fields) ∧
      ∀ (table : LocationTable) (brought : List (PerTable Contribution))
        (earlier later : List (Contribution × Nat)) (call : Contribution × Nat),
        callsOf table 0 brought = earlier ++ call :: later →
          Arena.Writable (Arena.empty.afterTurns earlier).counts
            ((Arena.empty.afterTurns earlier).merge call.2 call.1).placements := by
  refine ⟨?_, fun _ _ _ _ _ => writable_of_callsOf⟩
  rw [error_remap_eq_none_iff]
  -- each destination fails for its seed alone, since its contributors have source maps
  refine forall_congr' fun destination => ?_
  rw [mem_keys_pendingOf_iff]
  refine imp_congr_right fun _ => ?_
  rw [exists_contributions_iff, exists_seedContribution_iff]
  refine and_iff_left fun c hc => ?_
  obtain ⟨map, hmap⟩ := exists_map_of_mem_contributorsTo hc
  exact exists_contribution hmap destination enforceBounds

/-- The map of a file whose only line has no mappings. -/
def SourceMap.unmapped (source : Text) : SourceMap := ⟨[some source], [], [Mappings.sortLine []]⟩

/-- A destination with a branch of the type `["if"]` cannot be built, not even from a file without
entries. -/
theorem branch_of_array_type_fails :
    ¬ ∀ (maps : Atlas SourceMap) (enforceBounds : Bool) (report : Report),
      (∀ entry ∈ maps.entries, ∃ payload, SourceMap.ofPayload payload entry.1 = .ok entry.2) →
      (remap maps.resolvers enforceBounds report).error = none := by
  intro h
  -- the map comes from a payload, as every map does
  have hmap : SourceMap.ofPayload (.value (.obj [("version", .int 3),
      ("sources", .arr [.str "a.ts"]), ("mappings", .str "")])) "a.js" =
        .ok (.unmapped "a.ts") := rfl
  have hmaps : ∀ entry ∈ ([("a.js", .unmapped "a.ts")] : OrderedMap Text SourceMap),
      ∃ payload, SourceMap.ofPayload payload entry.1 = .ok entry.2 := by
    intro entry hentry
    obtain rfl := List.mem_singleton.1 hentry
    exact ⟨_, hmap⟩
  have herror := h ⟨[("a.js", .unmapped "a.ts")]⟩ true
    [("a.js", .obj []),
      ("a.ts", .obj [
        ("branchMap", .obj [("0", .obj [("type", .arr [.str "if"]),
          ("locations", .arr [onLine 1])])]),
        ("b", .obj [("0", .arr [.int 1])])])] hmaps
  revert herror
  decide

end CoverageLift
