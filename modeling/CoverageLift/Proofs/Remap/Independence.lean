import CoverageLift.Proofs.Remap.Effect

/-!
# Destinations do not interfere

What remapping leaves at a path depends on the files that **concern** it, the file with this path
and those that move to it (`onlyFor`). No other file does, and neither does what is written at
other paths, also where destinations are files that move themselves: the seed of a destination is
what stayed of it in the report, never what another destination became.
-/

namespace CoverageLift

variable {atlas : Atlas Resolver} {enforceBounds : Bool} {report report' : Report}
  {destination other : Text}

/-- The files that concern a path: the one that has it and those that move to it, in their order. -/
def onlyFor (atlas : Atlas Resolver) (destination : Text) (report : Report) : Report :=
  report.filter fun file =>
    file.1 = destination ∨ destinationOf? atlas file = some destination

/-! ### What is left at a path -/

/-- Reports with the same contributors and the same coverage that stays become the same at a path.
-/
theorem get?_remap_congr (herror : (remap atlas enforceBounds report).error = none)
    (herror' : (remap atlas enforceBounds report').error = none)
    (hcontributors : contributorsTo atlas destination report' =
      contributorsTo atlas destination report)
    (hstays : OrderedMap.get? (stayingOf atlas report') destination =
      OrderedMap.get? (stayingOf atlas report) destination) :
    OrderedMap.get? (remap atlas enforceBounds report').report destination =
      OrderedMap.get? (remap atlas enforceBounds report).report destination := by
  by_cases hnone : contributorsTo atlas destination report = []
  · rw [get?_remap_of_no_contributors hnone,
      get?_remap_of_no_contributors (hcontributors.trans hnone), hstays]
  · obtain ⟨brought, hbrought⟩ := error_remap_eq_none_iff.1 herror destination hnone
    have hseed : seedAt (stayingOf atlas report') destination =
        seedAt (stayingOf atlas report) destination := by
      rw [seedAt, hstays, seedAt]
    have hne : contributorsTo atlas destination report' ≠ [] := hcontributors ▸ hnone
    have hbrought' : contributions destination enforceBounds
        (seedAt (stayingOf atlas report') destination)
        (contributorsTo atlas destination report') = .ok brought := by
      rw [hseed, hcontributors, hbrought]
    rw [get?_remap_of_contributors herror hnone hbrought,
      get?_remap_of_contributors herror' hne hbrought', hseed, hcontributors]

/-! ### The files that concern a path -/

theorem contributorsTo_onlyFor (atlas : Atlas Resolver) (destination : Text) (report : Report) :
    contributorsTo atlas destination (onlyFor atlas destination report) =
      contributorsTo atlas destination report := by
  rw [contributorsTo, onlyFor, List.filterMap_filter]
  refine List.filterMap_congr fun file _ => ?_
  split
  · rfl
  · next h =>
    -- a file that does not move there is no contributor
    have hnot : destinationOf? atlas file ≠ some destination := fun heq =>
      h (decide_eq_true (.inr heq))
    exact (Option.not_isSome_iff_eq_none.1 (mt isSome_contributorTo?_iff.1 hnot)).symm

theorem get?_stayingOf_onlyFor (atlas : Atlas Resolver) (destination : Text) (report : Report) :
    OrderedMap.get? (stayingOf atlas (onlyFor atlas destination report)) destination =
      OrderedMap.get? (stayingOf atlas report) destination := by
  have hfilter : stayingOf atlas (onlyFor atlas destination report) =
      (stayingOf atlas report).filter fun file =>
        file.1 = destination ∨ destinationOf? atlas file = some destination := by
    rw [stayingOf_eq_filter, stayingOf_eq_filter, onlyFor, List.filter_filter, List.filter_filter]
    exact List.filter_congr fun _ _ => Bool.and_comm _ _
  rw [hfilter]
  exact OrderedMap.get?_filter fun file _ heq => decide_eq_true (.inl heq)

/-- Of the files that concern a path, none stays at another path. -/
theorem seedAt_stayingOf_onlyFor_of_ne (hne : other ≠ destination) :
    seedAt (stayingOf atlas (onlyFor atlas destination report)) other = none := by
  have hnot : other ∉ OrderedMap.keys (stayingOf atlas (onlyFor atlas destination report)) := by
    rw [stayingOf_eq_filter]
    intro hmem
    obtain ⟨file, hfile, rfl⟩ := List.mem_map.1 hmem
    obtain ⟨hfile, hstays⟩ := List.mem_filter.1 hfile
    rcases of_decide_eq_true (List.mem_filter.1 hfile).2 with heq | hmoves
    · exact hne heq
    · rw [hmoves] at hstays
      cases hstays
  rw [seedAt, OrderedMap.get?_eq_none_iff.2 hnot]
  rfl

/-- Remapping that succeeds with all files succeeds with those that concern a path. -/
theorem error_remap_onlyFor (herror : (remap atlas enforceBounds report).error = none) :
    (remap atlas enforceBounds (onlyFor atlas destination report)).error = none := by
  rw [error_remap_eq_none_iff] at herror ⊢
  intro other hne
  have hsub : (contributorsTo atlas other (onlyFor atlas destination report)).Sublist
      (contributorsTo atlas other report) :=
    List.filter_sublist.filterMap _
  have hne' : contributorsTo atlas other report ≠ [] := fun hnil =>
    hne (List.sublist_nil.1 (hnil ▸ hsub))
  obtain ⟨hseed, hall⟩ := exists_contributions_iff.1 (herror other hne')
  refine exists_contributions_iff.2 ⟨?_, fun c hc => hall c (hsub.subset hc)⟩
  by_cases heq : other = destination
  · rwa [heq, seedAt, get?_stayingOf_onlyFor, ← seedAt, ← heq]
  · rw [seedAt_stayingOf_onlyFor_of_ne heq]
    exact ⟨_, rfl⟩

/-- **Destinations do not interfere**: when remapping succeeds, it succeeds with the files that
concern a path alone and leaves the same there; reports in which the same files concern the path
become the same there; and a destination is built from the coverage that stayed there, not from
what was written before. -/
theorem get?_remap_onlyFor (herror : (remap atlas enforceBounds report).error = none) :
    (remap atlas enforceBounds (onlyFor atlas destination report)).error = none ∧
      OrderedMap.get? (remap atlas enforceBounds (onlyFor atlas destination report)).report
          destination =
        OrderedMap.get? (remap atlas enforceBounds report).report destination ∧
      (∀ report', onlyFor atlas destination report' = onlyFor atlas destination report →
        (remap atlas enforceBounds report').error = none →
        OrderedMap.get? (remap atlas enforceBounds report').report destination =
          OrderedMap.get? (remap atlas enforceBounds report).report destination) ∧
      (contributorsTo atlas destination report ≠ [] → ∃ brought,
        contributions destination enforceBounds (seedAt (stayingOf atlas report) destination)
            (contributorsTo atlas destination report) = .ok brought ∧
          OrderedMap.get? (remap atlas enforceBounds report).report destination =
            (coverageOf destination (seedAt (stayingOf atlas report) destination)
              (contributorsTo atlas destination report) brought).map Json.obj) := by
  refine ⟨error_remap_onlyFor herror, ?_, fun report' honly herror' => ?_, fun hne => ?_⟩
  · exact get?_remap_congr herror (error_remap_onlyFor herror) (contributorsTo_onlyFor _ _ _)
      (get?_stayingOf_onlyFor _ _ _)
  · refine get?_remap_congr herror herror' ?_ ?_
    · rw [← contributorsTo_onlyFor atlas destination report', honly, contributorsTo_onlyFor]
    · rw [← get?_stayingOf_onlyFor atlas destination report', honly, get?_stayingOf_onlyFor]
  · obtain ⟨brought, hbrought⟩ := error_remap_eq_none_iff.1 herror destination hne
    exact ⟨brought, hbrought, get?_remap_of_contributors herror hne hbrought⟩

/-- Two files that change places: each becomes what it becomes without the other one staying. -/
theorem get?_remap_onlyFor_of_swap :
    let atlas : Atlas Resolver := ⟨[("a.js", .copyOf "b.js"), ("b.js", .copyOf "a.js"),
      ("c.js", .copyOf "c.js")]⟩
    let report : Report := [("a.js", .obj (statementsOn [("0", 1)])),
      ("b.js", .obj (statementsOn [("0", 2)])), ("c.js", .obj (statementsOn [("0", 3)]))]
    (remap atlas true report).error = none ∧
      onlyFor atlas "b.js" report = report.take 2 ∧
      OrderedMap.get? (remap atlas true (onlyFor atlas "b.js" report)).report "b.js" =
        OrderedMap.get? (remap atlas true report).report "b.js" := by
  intro atlas report
  have herror : (remap atlas true report).error = none := rfl
  obtain ⟨-, hget, -⟩ := @get?_remap_onlyFor atlas true report "b.js" herror
  exact ⟨herror, rfl, hget⟩

end CoverageLift
