import CoverageLift.Proofs.Remap.Writes

/-!
# No hit is lost or invented

In the tables of statements and functions a destination counts for every identity what its seed and
its contributors brought, no matter how the entries were kept, renumbered and folded. What is brought
does not depend on the order of the files in the report, and so neither do the totals.
-/

namespace CoverageLift

section Totals

variable {atlas : Atlas Resolver} {enforceBounds : Bool} {report report' : Report}
  {destination : Text} {table : LocationTable} {seed : Option (OrderedMap Text Json)}
  {contributors contributors' : List Contributor} {first : PerTable Contribution}
  {rest rest' : List (PerTable Contribution)}

/-- All counts that the seed has for its locations are numbers of hits. -/
def SeedCountsHits (seed : Option (OrderedMap Text Json)) (table : LocationTable) : Prop :=
  ∀ fields ∈ seed, ∀ id ∈ OrderedMap.keys (tableAt fields table.locationsKey),
    (OrderedMap.get? (tableAt fields table.countsKey) id).all isHits = true

instance (seed : Option (OrderedMap Text Json)) (table : LocationTable) :
    Decidable (SeedCountsHits seed table) :=
  inferInstanceAs (Decidable (∀ fields ∈ seed,
    ∀ id ∈ OrderedMap.keys (tableAt fields table.locationsKey),
      (OrderedMap.get? (tableAt fields table.countsKey) id).all isHits = true))

/-- All entries of the seed count hits. -/
theorem isHits_of_mem_seed (hseed : SeedCountsHits seed table)
    (hfirst : seedContribution seed = .ok first) {item : Text × Entry}
    (hitem : item ∈ (first.get table).entries) : isHits item.2.count = true := by
  rcases seed with _ | fields
  · rw [← Except.ok.inj hfirst, PerTable.get_ofFunction] at hitem
    exact absurd hitem List.not_mem_nil
  · obtain ⟨-, hentries⟩ := seedContribution_some_eq_ok_iff.1 hfirst table
    obtain ⟨hcount, hlocation, -⟩ := exists_location_of_mem_countedEntries hentries hitem
    have hhits := hseed fields rfl item.1 (List.mem_map.2 ⟨_, hlocation, rfl⟩)
    rwa [hcount] at hhits

/-- All entries of a contributor count hits. -/
theorem isHits_of_mem_contribution (htable : table ≠ .branches) {c : Contributor}
    {contribution : Contribution}
    (hc : c.contribution destination enforceBounds table = .ok contribution) {item : Text × Entry}
    (hitem : item ∈ contribution.entries) : isHits item.2.count = true := by
  obtain ⟨-, hentries⟩ := Contributor.contribution_eq_ok_iff.1 hc
  obtain ⟨-, hvalid, -⟩ := exists_location_of_mem_keptEntries hentries hitem
  cases table with
  | statements => exact hvalid
  | functions => exact hvalid
  | branches => exact absurd rfl htable

/-- The total of an identity is what was brought. -/
theorem totalOf_tableOf (htable : table ≠ .branches) (hseed : SeedCountsHits seed table)
    (hbrought : contributions destination enforceBounds seed contributors = .ok (first :: rest))
    (identity : Identity) :
    totalOf (stepsOf (callsOf table 0 (first :: rest))) (tableOf table (first :: rest)).locations
        (tableOf table (first :: rest)).counts identity =
      (first.get table).hitsOf identity +
        (rest.map fun per => (per.get table).hitsOf identity).sum := by
  obtain ⟨first', rest', hfirst, hrest, heq⟩ := contributions_eq_ok_iff.1 hbrought
  obtain ⟨rfl, rfl⟩ := List.cons.inj heq
  have hbrought : ∀ per ∈ first :: rest, ∀ item ∈ (per.get table).entries,
      isHits item.2.count = true := by
    intro per hper item hitem
    rcases List.mem_cons.1 hper with rfl | hper
    · exact isHits_of_mem_seed hseed hfirst hitem
    · obtain ⟨c, -, hc⟩ := exists_left_of_mem hrest hper
      exact isHits_of_mem_contribution htable (hc table) hitem
  have hcounts : ∀ call ∈ callsOf table 0 (first :: rest), ∀ item ∈ call.1.entries,
      isHits item.2.count = true := by
    intro call hcall
    have hmem : call.1 ∈ (first :: rest).map (·.get table) := by
      rw [← List.zipIdx_map_fst 0 ((first :: rest).map (·.get table))]
      exact List.mem_map_of_mem hcall
    obtain ⟨per, hper, heq⟩ := List.mem_map.1 hmem
    rw [← heq]
    exact hbrought per hper
  rw [tableOf, totalOf_afterTurns (nodup_callsOf table _) hcounts, callsOf]
  have hfst := congrArg (List.map fun c : Contribution => c.hitsOf identity)
    (List.zipIdx_map_fst 0 ((first :: rest).map (·.get table)))
  rw [List.map_map, List.map_map] at hfst
  exact congrArg List.sum hfst

/-- What contributors bring of an identity does not depend on their order. -/
theorem sum_hitsOf_perm (hperm : contributors'.Perm contributors)
    (hrest : List.Forall₂ (fun (c : Contributor) (per : PerTable Contribution) => ∀ table,
      c.contribution destination enforceBounds table = .ok (per.get table)) contributors rest)
    (hrest' : List.Forall₂ (fun (c : Contributor) (per : PerTable Contribution) => ∀ table,
      c.contribution destination enforceBounds table = .ok (per.get table)) contributors' rest')
    (identity : Identity) :
    (rest'.map fun per => (per.get table).hitsOf identity).sum =
      (rest.map fun per => (per.get table).hitsOf identity).sum := by
  let hitsOf (c : Contributor) : Int :=
    match c.contribution destination enforceBounds table with
    | .ok contribution => contribution.hitsOf identity
    | .error _ => 0
  have hhits : ∀ (c : Contributor) (per : PerTable Contribution),
      (∀ table, c.contribution destination enforceBounds table = .ok (per.get table)) →
        hitsOf c = (per.get table).hitsOf identity := by
    intro c per hc
    simp only [hitsOf, hc table]
  rw [← map_eq_map_of_forall₂ hrest hhits, ← map_eq_map_of_forall₂ hrest' hhits]
  exact (hperm.map _).sum_eq

/-- The hits that a report counts at a path for the ids that carry an identity. -/
def totalAt (report : Report) (path : Text) (table : LocationTable)
    (brought : List (PerTable Contribution)) (identity : Identity) : Int :=
  totalOf (stepsOf (callsOf table 0 brought))
    (tableAt ((seedAt report path).getD []) table.locationsKey)
    (tableAt ((seedAt report path).getD []) table.countsKey) identity

/-- An id of a destination carries one identity. -/
theorem existsUnique_carries {brought : List (PerTable Contribution)} {id : Text}
    (hid : id ∈ OrderedMap.keys (tableOf table brought).locations) :
    ∃! identity, Carries (stepsOf (callsOf table 0 brought)) identity id := by
  have hsound := Moment.sound_first.after (eventsOf (callsOf table 0 brought))
  have hclose := Arena.close_after_eventsOf (callsOf table 0 brought) Moment.first
  have hlocations : (tableOf table brought).locations =
      (Moment.first.after (eventsOf (callsOf table 0 brought))).turn.arena.locations :=
    (congrArg Arena.locations hclose.symm).trans (Turn.close_locations _)
  rw [hlocations] at hid
  obtain ⟨s, hs, hsid⟩ := hsound.mem_locations.1 hid
  refine ⟨s.identity, ⟨s, hs, hsid, rfl⟩, ?_⟩
  rintro identity ⟨r, hr, hrid, rfl⟩
  exact hsound.identity_eq hr hs (hrid.trans hsid.symm)

/-- The total of an identity at a destination is what was brought. -/
theorem totalAt_remap_eq (herror : (remap atlas enforceBounds report).error = none)
    (hne : contributorsTo atlas destination report ≠ []) (htable : table ≠ .branches)
    (hseed : SeedCountsHits (seedAt (stayingOf atlas report) destination) table)
    (hbrought : contributions destination enforceBounds
      (seedAt (stayingOf atlas report) destination) (contributorsTo atlas destination report) =
        .ok (first :: rest)) (identity : Identity) :
    totalAt (remap atlas enforceBounds report).report destination table (first :: rest) identity =
      (first.get table).hitsOf identity +
        (rest.map fun per => (per.get table).hitsOf identity).sum := by
  obtain ⟨hlocations, hcounts⟩ := tableAt_remap herror hne hbrought table
  rw [totalAt, hlocations, hcounts]
  exact totalOf_tableOf htable hseed hbrought identity

/-- **Totals**: for every identity a destination counts what its seed and its contributors brought,
and it counts the same when the files of the report are in another order. -/
theorem totalAt_remap (hkeys : (OrderedMap.keys report).Nodup)
    (herror : (remap atlas enforceBounds report).error = none)
    (hdestination : destination ∈ OrderedMap.keys (pendingOf atlas report))
    (htable : table ≠ .branches)
    (hseed : SeedCountsHits (seedAt (stayingOf atlas report) destination) table) :
    ∃ first rest, contributions destination enforceBounds
        (seedAt (stayingOf atlas report) destination) (contributorsTo atlas destination report) =
          .ok (first :: rest) ∧
      (∀ id ∈ OrderedMap.keys (tableAt
          ((seedAt (remap atlas enforceBounds report).report destination).getD [])
            table.locationsKey),
        ∃! identity, Carries (stepsOf (callsOf table 0 (first :: rest))) identity id) ∧
      (∀ identity,
        totalAt (remap atlas enforceBounds report).report destination table (first :: rest)
            identity =
          (first.get table).hitsOf identity +
            (rest.map fun per => (per.get table).hitsOf identity).sum) ∧
      ∀ report' : Report, report'.Perm report →
        (remap atlas enforceBounds report').error = none ∧
          ∃ brought', contributions destination enforceBounds
              (seedAt (stayingOf atlas report') destination)
              (contributorsTo atlas destination report') = .ok brought' ∧
            ∀ identity,
              totalAt (remap atlas enforceBounds report').report destination table brought'
                  identity =
                totalAt (remap atlas enforceBounds report).report destination table
                  (first :: rest) identity := by
  have hne := mem_keys_pendingOf_iff.1 hdestination
  obtain ⟨brought, hbrought⟩ := error_remap_eq_none_iff.1 herror destination hne
  obtain ⟨first, rest, hfirst, hrest, rfl⟩ := contributions_eq_ok_iff.1 hbrought
  have htotal := totalAt_remap_eq herror hne htable hseed hbrought
  refine ⟨first, rest, hbrought, fun id hid => ?_, htotal, fun report' hperm => ?_⟩
  · rw [(tableAt_remap herror hne hbrought table).1] at hid
    exact existsUnique_carries hid
  · have herror' := error_remap_perm hperm hkeys herror
    have hcontributors := @contributorsTo_perm atlas report report' hperm destination
    have hne' : contributorsTo atlas destination report' ≠ [] := fun hnil =>
      hne (List.nil_perm.1 (hnil ▸ hcontributors))
    have hseedAt := @seedAt_stayingOf_perm atlas report report' hperm hkeys destination
    obtain ⟨brought', hbrought'⟩ := error_remap_eq_none_iff.1 herror' destination hne'
    obtain ⟨first', rest', hfirst', hrest', rfl⟩ := contributions_eq_ok_iff.1 hbrought'
    refine ⟨herror', _, hbrought', fun identity => ?_⟩
    rw [htotal, totalAt_remap_eq herror' hne' htable (hseedAt.symm ▸ hseed) hbrought']
    -- the seed is the same, and the contributors are the same in another order
    rw [hseedAt, hfirst] at hfirst'
    rw [Except.ok.inj hfirst', sum_hitsOf_perm hcontributors hrest hrest']

end Totals

/-- The totals of two copies that move to a source with coverage of its own. -/
theorem totalAt_two_copies :
    let atlas : Atlas Resolver := ⟨[("a.js", .copyOf "a.ts"), ("b.js", .copyOf "a.ts")]⟩
    let report : Report := [
      ("a.js", .obj (statementsOn [("0", 1), ("1", 2)])),
      ("a.ts", .obj (statementsOn [("0", 2)])),
      ("b.js", .obj (statementsOn [("0", 2), ("1", 3)]))]
    (remap atlas true report).error = none ∧
      ∃ first rest, contributions "a.ts" true (seedAt (stayingOf atlas report) "a.ts")
          (contributorsTo atlas "a.ts" report) = .ok (first :: rest) ∧
        ∀ identity,
          totalAt (remap atlas true report).report "a.ts" .statements (first :: rest) identity =
            (first.get .statements).hitsOf identity +
              (rest.map fun per => (per.get .statements).hitsOf identity).sum := by
  intro atlas report
  have herror : (remap atlas true report).error = none := by decide
  obtain ⟨first, rest, hbrought, -, htotal, -⟩ := totalAt_remap
    (by decide : (OrderedMap.keys report).Nodup) herror
    (by decide : ("a.ts" : Text) ∈ OrderedMap.keys (pendingOf atlas report))
    (by decide : LocationTable.statements ≠ .branches) (by decide)
  exact ⟨herror, first, rest, hbrought, htotal⟩

end CoverageLift
