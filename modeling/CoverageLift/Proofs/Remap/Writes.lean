import CoverageLift.Proofs.Remap.Report

/-!
# What remapping writes

Remapping builds the destinations one after the other until one cannot be built. What it does to
the report are its **writes**, one at each destination that was built: the coverage, or nothing
where the destination is left out. No destination is written twice and a write changes one path
only, so every write is decided by what the report held in the beginning (`mem_writesOf`): a
destination never sees what was written at another one.

So remapping succeeds exactly when every destination can be built from the files that stay, and the
tables of a destination are those of its turns.
-/

namespace CoverageLift

variable {atlas : Atlas Resolver} {enforceBounds : Bool} {report : Report}

/-- Coverage that is written at paths, and nothing where a path is left out. -/
abbrev Writes := OrderedMap Text (Option (OrderedMap Text Json))

/-- What is written at the destinations that are built, in their order. -/
def writes (enforceBounds : Bool) : (pending : Pending) → Report → Writes
  | [], _ => []
  | (destination, contributors) :: rest, report =>
    match assemble enforceBounds destination (seedAt report destination) contributors with
    | .error _ => []
    | .ok built =>
      (destination, built.coverage) ::
        writes enforceBounds rest (settle report destination built.coverage)

/-- The report after some writes. -/
def applyWrites (report : Report) (ws : Writes) : Report :=
  ws.foldl (fun report w => settle report w.1 w.2) report

theorem applyWrites_cons (report : Report) (w : Text × Option (OrderedMap Text Json))
    (ws : Writes) :
    applyWrites report (w :: ws) = applyWrites (settle report w.1 w.2) ws := rfl

/-! ### What a write does to the report -/

/-- A write changes the value at one path. -/
theorem get?_settle (report : Report) (destination path : Text)
    (coverage : Option (OrderedMap Text Json)) :
    OrderedMap.get? (settle report destination coverage) path =
      if destination = path then coverage.map Json.obj else OrderedMap.get? report path := by
  cases coverage with
  | none => exact OrderedMap.get?_erase _ _ _
  | some fields => exact OrderedMap.get?_insert _ _ _ _

/-- A write at one destination is not seen at another one. -/
theorem seedAt_settle_of_ne (report : Report) {destination other : Text}
    (coverage : Option (OrderedMap Text Json)) (hne : destination ≠ other) :
    seedAt (settle report destination coverage) other = seedAt report other := by
  rw [seedAt, get?_settle, if_neg hne, seedAt]

/-- The report holds what was written at a path, and elsewhere what it held before. -/
theorem get?_applyWrites {ws : Writes} :
    ∀ {report : Report}, (OrderedMap.keys ws).Nodup → ∀ path,
      OrderedMap.get? (applyWrites report ws) path =
        match OrderedMap.get? ws path with
        | some coverage => coverage.map Json.obj
        | none => OrderedMap.get? report path := by
  induction ws with
  | nil => exact fun _ _ => rfl
  | cons w ws ih =>
    intro report hnodup path
    obtain ⟨hnot, hnodup⟩ := List.nodup_cons.1 hnodup
    rw [applyWrites_cons, ih hnodup, OrderedMap.get?_cons, get?_settle]
    by_cases hpath : w.1 = path
    · -- no later write is at the same path
      have hnone : OrderedMap.get? ws path = none := by
        rw [← hpath]
        exact OrderedMap.get?_eq_none_iff.2 hnot
      rw [hnone, if_pos hpath, if_pos hpath]
    · rw [if_neg hpath, if_neg hpath]

/-! ### The writes of a run -/

/-- What is left when remapping stops is the report with its writes. -/
theorem report_assembleAll {pending : Pending} :
    ∀ {report : Report}, (assembleAll enforceBounds pending report).report =
      applyWrites report (writes enforceBounds pending report) := by
  induction pending with
  | nil => exact rfl
  | cons entry pending ih =>
    intro report
    obtain ⟨destination, contributors⟩ := entry
    rw [assembleAll, writes]
    rcases assemble enforceBounds destination (seedAt report destination) contributors with
      error | built
    · rfl
    · exact ih

/-- Destinations are written in the order in which they were collected. -/
theorem prefix_keys_writes {pending : Pending} :
    ∀ {report : Report},
      OrderedMap.keys (writes enforceBounds pending report) <+: OrderedMap.keys pending := by
  induction pending with
  | nil => exact List.nil_prefix
  | cons entry pending ih =>
    intro report
    obtain ⟨destination, contributors⟩ := entry
    rw [writes]
    rcases assemble enforceBounds destination (seedAt report destination) contributors with
      error | built
    · exact List.nil_prefix
    · exact List.cons_prefix_cons.2 ⟨rfl, ih⟩

/-- Remapping succeeds when all destinations are written. -/
theorem error_assembleAll_eq_none_iff {pending : Pending} :
    ∀ {report : Report}, (assembleAll enforceBounds pending report).error = none ↔
      OrderedMap.keys (writes enforceBounds pending report) = OrderedMap.keys pending := by
  induction pending with
  | nil => exact iff_of_true rfl rfl
  | cons entry pending ih =>
    intro report
    obtain ⟨destination, contributors⟩ := entry
    rw [assembleAll, writes]
    rcases assemble enforceBounds destination (seedAt report destination) contributors with
      error | built
    · exact iff_of_false (fun h => nomatch h) (fun h => nomatch h)
    · exact ih.trans (List.cons_inj_right destination).symm

/-- What is written at a destination is built from what the report held there in the beginning. -/
theorem mem_writes {pending : Pending} {destination : Text}
    {coverage : Option (OrderedMap Text Json)} :
    ∀ {report : Report}, (OrderedMap.keys pending).Nodup →
      (destination, coverage) ∈ writes enforceBounds pending report →
      ∃ contributors brought, (destination, contributors) ∈ pending ∧
        contributions destination enforceBounds (seedAt report destination) contributors =
          .ok brought ∧
        coverage = coverageOf destination (seedAt report destination) contributors brought := by
  induction pending with
  | nil => exact fun _ h => absurd h List.not_mem_nil
  | cons entry pending ih =>
    intro report hnodup h
    obtain ⟨destination', contributors⟩ := entry
    obtain ⟨hnot, hnodup⟩ := List.nodup_cons.1 hnodup
    rw [writes] at h
    rcases hbrought : contributions destination' enforceBounds (seedAt report destination')
      contributors with error | brought
    · rw [assemble_of_error hbrought] at h
      exact absurd h List.not_mem_nil
    · obtain ⟨built, hbuilt, hcoverage⟩ := assemble_of_ok hbrought
      rw [hbuilt] at h
      rcases List.mem_cons.1 h with heq | h
      · obtain ⟨rfl, rfl⟩ := Prod.mk.inj heq
        exact ⟨contributors, brought, List.mem_cons_self, hbrought, hcoverage⟩
      · -- the destinations that are left do not see the one that was built
        have hmem : destination ∈ OrderedMap.keys pending :=
          prefix_keys_writes.subset (List.mem_map_of_mem h)
        have hne : destination' ≠ destination := fun heq => hnot (heq ▸ hmem)
        obtain ⟨contributors', brought', hpending, hbrought', hcoverage'⟩ := ih hnodup h
        rw [seedAt_settle_of_ne _ _ hne] at hbrought' hcoverage'
        exact ⟨contributors', brought', List.mem_cons_of_mem _ hpending, hbrought', hcoverage'⟩

/-- All destinations are written when each of them can be built from what the report held in the
beginning. -/
theorem keys_writes_of_ok {pending : Pending} :
    ∀ {report : Report}, (OrderedMap.keys pending).Nodup →
      (∀ entry ∈ pending, ∃ brought,
        contributions entry.1 enforceBounds (seedAt report entry.1) entry.2 = .ok brought) →
      OrderedMap.keys (writes enforceBounds pending report) = OrderedMap.keys pending := by
  induction pending with
  | nil => exact fun _ _ => rfl
  | cons entry pending ih =>
    intro report hnodup hall
    obtain ⟨destination, contributors⟩ := entry
    obtain ⟨hnot, hnodup⟩ := List.nodup_cons.1 hnodup
    obtain ⟨⟨brought, hbrought⟩, hall⟩ := List.forall_mem_cons.1 hall
    obtain ⟨built, hbuilt, -⟩ := assemble_of_ok hbrought
    rw [writes, hbuilt]
    refine congrArg (List.cons destination) (ih hnodup fun other hother => ?_)
    have hne : destination ≠ other.1 := fun heq => hnot (List.mem_map.2 ⟨other, hother, heq.symm⟩)
    rw [seedAt_settle_of_ne _ _ hne]
    exact hall other hother

/-! ### The writes of remapping -/

/-- What remapping writes into a report. -/
def writesOf (atlas : Atlas Resolver) (enforceBounds : Bool) (report : Report) : Writes :=
  writes enforceBounds (pendingOf atlas report) (stayingOf atlas report)

/-- No destination is written twice. -/
theorem nodup_keys_writesOf (atlas : Atlas Resolver) (enforceBounds : Bool) (report : Report) :
    (OrderedMap.keys (writesOf atlas enforceBounds report)).Nodup :=
  (nodup_keys_pendingOf atlas report).sublist prefix_keys_writes.sublist

/-- The report after remapping is that of the files that stay, with what is written. -/
theorem report_remap (atlas : Atlas Resolver) (enforceBounds : Bool) (report : Report) :
    (remap atlas enforceBounds report).report =
      applyWrites (stayingOf atlas report) (writesOf atlas enforceBounds report) :=
  report_assembleAll

/-- **What is written** at a destination is built from its own seed and contributors. -/
theorem mem_writesOf {destination : Text} {coverage : Option (OrderedMap Text Json)}
    (h : (destination, coverage) ∈ writesOf atlas enforceBounds report) :
    contributorsTo atlas destination report ≠ [] ∧
      ∃ brought, contributions destination enforceBounds
          (seedAt (stayingOf atlas report) destination)
          (contributorsTo atlas destination report) = .ok brought ∧
        coverage = coverageOf destination (seedAt (stayingOf atlas report) destination)
          (contributorsTo atlas destination report) brought := by
  obtain ⟨contributors, brought, hmem, hbrought, hcoverage⟩ :=
    mem_writes (nodup_keys_pendingOf atlas report) h
  obtain ⟨rfl, hne⟩ := mem_pendingOf_iff.1 hmem
  exact ⟨hne, brought, hbrought, hcoverage⟩

/-- What is written at a destination is what the report holds there. -/
theorem get?_remap_of_mem {destination : Text} {coverage : Option (OrderedMap Text Json)}
    (h : (destination, coverage) ∈ writesOf atlas enforceBounds report) :
    OrderedMap.get? (remap atlas enforceBounds report).report destination =
      coverage.map Json.obj := by
  have hnodup := nodup_keys_writesOf atlas enforceBounds report
  rw [report_remap, get?_applyWrites hnodup, OrderedMap.get?_eq_some_of_mem hnodup h]

/-- A path that is no destination stays as it was. -/
theorem get?_remap_of_no_contributors {path : Text} (h : contributorsTo atlas path report = []) :
    OrderedMap.get? (remap atlas enforceBounds report).report path =
      OrderedMap.get? (stayingOf atlas report) path := by
  have hnot : path ∉ OrderedMap.keys (writesOf atlas enforceBounds report) := fun hmem =>
    mem_keys_pendingOf_iff.1 (prefix_keys_writes.subset hmem) h
  rw [report_remap, get?_applyWrites (nodup_keys_writesOf _ _ _),
    OrderedMap.get?_eq_none_iff.2 hnot]

/-- **Remapping succeeds** exactly when every destination can be built. -/
theorem error_remap_eq_none_iff :
    (remap atlas enforceBounds report).error = none ↔
      ∀ destination, contributorsTo atlas destination report ≠ [] →
        ∃ brought, contributions destination enforceBounds
          (seedAt (stayingOf atlas report) destination)
          (contributorsTo atlas destination report) = .ok brought := by
  refine error_assembleAll_eq_none_iff.trans ⟨fun hkeys destination hne => ?_, fun hall => ?_⟩
  · rw [← mem_keys_pendingOf_iff, ← hkeys] at hne
    obtain ⟨w, hw, rfl⟩ := List.mem_map.1 hne
    obtain ⟨-, brought, hbrought, -⟩ := mem_writesOf hw
    exact ⟨brought, hbrought⟩
  · refine keys_writes_of_ok (nodup_keys_pendingOf atlas report) ?_
    rintro ⟨destination, contributors⟩ hmem
    obtain ⟨rfl, hne⟩ := mem_pendingOf_iff.1 hmem
    exact hall destination hne

/-- Remapping that succeeds writes at every destination. -/
theorem keys_writesOf (herror : (remap atlas enforceBounds report).error = none) :
    OrderedMap.keys (writesOf atlas enforceBounds report) =
      OrderedMap.keys (pendingOf atlas report) :=
  error_assembleAll_eq_none_iff.1 herror

theorem exists_mem_writesOf (herror : (remap atlas enforceBounds report).error = none)
    {destination : Text} (hne : contributorsTo atlas destination report ≠ []) :
    ∃ coverage, (destination, coverage) ∈ writesOf atlas enforceBounds report := by
  rw [← mem_keys_pendingOf_iff, ← keys_writesOf herror] at hne
  obtain ⟨⟨destination, coverage⟩, hw, rfl⟩ := List.mem_map.1 hne
  exact ⟨coverage, hw⟩

/-- What remapping that succeeds leaves at a destination. -/
theorem get?_remap_of_contributors (herror : (remap atlas enforceBounds report).error = none)
    {destination : Text} (hne : contributorsTo atlas destination report ≠ [])
    {brought : List (PerTable Contribution)}
    (hbrought : contributions destination enforceBounds
      (seedAt (stayingOf atlas report) destination) (contributorsTo atlas destination report) =
        .ok brought) :
    OrderedMap.get? (remap atlas enforceBounds report).report destination =
      (coverageOf destination (seedAt (stayingOf atlas report) destination)
        (contributorsTo atlas destination report) brought).map Json.obj := by
  obtain ⟨coverage, hw⟩ := exists_mem_writesOf herror hne
  obtain ⟨-, brought', hbrought', rfl⟩ := mem_writesOf hw
  rw [hbrought] at hbrought'
  obtain rfl := Except.ok.inj hbrought'
  exact get?_remap_of_mem hw

/-- Whether remapping succeeds does not depend on the order of the files. -/
theorem error_remap_perm {report' : Report} (hperm : report'.Perm report)
    (hkeys : (OrderedMap.keys report).Nodup)
    (herror : (remap atlas enforceBounds report).error = none) :
    (remap atlas enforceBounds report').error = none := by
  rw [error_remap_eq_none_iff] at herror ⊢
  intro destination hne
  have hcontributors := @contributorsTo_perm atlas report report' hperm destination
  rw [seedAt_stayingOf_perm hperm hkeys, exists_contributions_iff]
  have hne' : contributorsTo atlas destination report ≠ [] := fun hnil =>
    hne (List.perm_nil.1 (hnil ▸ hcontributors))
  obtain ⟨hseed, hall⟩ := exists_contributions_iff.1 (herror destination hne')
  exact ⟨hseed, fun c hc => hall c (hcontributors.mem_iff.1 hc)⟩

/-- **The tables of a destination** are those of its turns. -/
theorem tableAt_remap (herror : (remap atlas enforceBounds report).error = none)
    {destination : Text} (hne : contributorsTo atlas destination report ≠ [])
    {brought : List (PerTable Contribution)}
    (hbrought : contributions destination enforceBounds
      (seedAt (stayingOf atlas report) destination) (contributorsTo atlas destination report) =
        .ok brought) (table : LocationTable) :
    tableAt ((seedAt (remap atlas enforceBounds report).report destination).getD [])
        table.locationsKey = (tableOf table brought).locations ∧
      tableAt ((seedAt (remap atlas enforceBounds report).report destination).getD [])
        table.countsKey = (tableOf table brought).counts := by
  have hobject : ∀ coverage : Option (OrderedMap Text Json),
      (coverage.map Json.obj).bind Json.object? = coverage := by
    rintro (_ | fields) <;> rfl
  rw [seedAt, get?_remap_of_contributors herror hne hbrought, hobject]
  exact tableAt_coverageOf _ _ _ _ _

end CoverageLift
