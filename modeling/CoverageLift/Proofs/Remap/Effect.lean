import CoverageLift.Proofs.Remap.Tables

/-!
# The effect on the files of a report

Which files a report has after remapping follows from three things: which files stay, what the
destinations are, and which destinations are **held** (`isHeld`): those with coverage that stays,
and those that receive an entry. A file that stays is left where it is unless it is a destination
that is not held; the destinations that are held and were not there follow in the order in which
they were collected.
-/

namespace CoverageLift

variable {atlas : Atlas Resolver} {enforceBounds : Bool} {report : Report} {destination : Text}

/-! ### Files that move -/

/-- Where a file moves: its coverage is an object and its resolver knows exactly one source. -/
def destinationOf? (atlas : Atlas Resolver) (file : Text × Json) : Option Text :=
  match file.2 with
  | .obj _ => (atlas.lookup (.text file.1)).bind Resolver.onlySource?
  | _ => none

/-- The destinations, each where the first file moves to it. -/
def destinationsOf (atlas : Atlas Resolver) (report : Report) : List Text :=
  (report.filterMap (destinationOf? atlas)).eraseDups

theorem destinationOf?_eq (atlas : Atlas Resolver) (file : Text × Json) :
    destinationOf? atlas file =
      match disposition atlas file.1 file.2 with
      | .moves destination _ => some destination
      | _ => none := by
  obtain ⟨path, coverage⟩ := file
  simp only [destinationOf?, disposition]
  rcases atlas.lookup (.text path) with _ | resolver
  · cases coverage <;> rfl
  · cases coverage with
    | obj fields =>
      dsimp only [Option.bind_some]
      cases resolver.onlySource? <;> rfl
    | _ => rfl

/-- A file is a contributor of the destination that it moves to. -/
theorem isSome_contributorTo?_iff {file : Text × Json} :
    (contributorTo? atlas destination file).isSome = true ↔
      destinationOf? atlas file = some destination := by
  rw [contributorTo?, destinationOf?_eq]
  rcases disposition atlas file.1 file.2 with _ | sources | ⟨d, c⟩
  · simp
  · simp
  · by_cases hd : d = destination <;> simp [hd]

/-- The files that stay are those that have no destination. -/
theorem stayingOf_eq_filter (atlas : Atlas Resolver) (report : Report) :
    stayingOf atlas report = report.filter fun file => (destinationOf? atlas file).isNone := by
  refine List.filter_congr fun ⟨path, coverage⟩ _ => ?_
  rw [destinationOf?_eq]
  dsimp only
  cases disposition atlas path coverage <;> rfl

/-- Destinations are collected in the order of the first file of each. -/
theorem keys_pendingOf (atlas : Atlas Resolver) (report : Report) :
    OrderedMap.keys (pendingOf atlas report) = destinationsOf atlas report := by
  induction report using List.reverseRecOn with
  | nil => rfl
  | append_singleton report file ih =>
    have hmem (d : Text) : d ∈ OrderedMap.keys (pendingOf atlas report) ↔
        d ∈ report.filterMap (destinationOf? atlas) := by
      rw [ih, destinationsOf, List.mem_eraseDups]
    rw [destinationsOf, List.filterMap_append, pendingOf_concat]
    have hdestination := destinationOf?_eq atlas file
    rcases hdisposition : disposition atlas file.1 file.2 with _ | sources | ⟨d, c⟩
    · rw [hdisposition] at hdestination
      rwa [List.filterMap_cons_none hdestination, List.filterMap_nil, List.append_nil]
    · rw [hdisposition] at hdestination
      rwa [List.filterMap_cons_none hdestination, List.filterMap_nil, List.append_nil]
    · rw [hdisposition] at hdestination
      rw [List.filterMap_cons_some hdestination, List.filterMap_nil, eraseDups_concat,
        ← destinationsOf, ← ih]
      by_cases h : d ∈ report.filterMap (destinationOf? atlas)
      · rw [if_pos h]
        exact OrderedMap.keys_insert_of_mem ((hmem d).2 h) _
      · rw [if_neg h]
        exact OrderedMap.keys_insert_of_not_mem (fun h' => h ((hmem d).1 h')) _

/-! ### Destinations that are held -/

/-- Whether a contributor brings an entry to some table of a destination. -/
def Contributor.bringsEntry (c : Contributor) (destination : Text) (enforceBounds : Bool) : Bool :=
  LocationTable.all.any fun table =>
    (c.contribution destination enforceBounds table).toOption.any fun contribution =>
      !contribution.entries.isEmpty

/-- Whether a destination has coverage that stays or receives an entry. -/
def isHeld (atlas : Atlas Resolver) (enforceBounds : Bool) (report : Report) (destination : Text) :
    Bool :=
  (seedAt (stayingOf atlas report) destination).isSome ||
    (contributorsTo atlas destination report).any (·.bringsEntry destination enforceBounds)

/-- A table is empty when nobody brings an entry to it. -/
theorem locations_tableOf_eq_nil_iff {table : LocationTable}
    {brought : List (PerTable Contribution)} :
    (tableOf table brought).locations = [] ↔ ∀ per ∈ brought, (per.get table).entries = [] := by
  have hsteps : (stepsOf (callsOf table 0 brought)).map (·.item) =
      brought.flatMap fun per => (per.get table).entries := by
    rw [stepsOf, map_item_steps_eventsOf, flatMap_callsOf]
  calc (tableOf table brought).locations = []
    _ ↔ OrderedMap.keys (tableOf table brought).locations = [] := List.map_eq_nil_iff.symm
    _ ↔ (stepsOf (callsOf table 0 brought)).map Step.target = [] := by
      rw [tableOf, Arena.keys_locations_afterTurns]
      simp only [List.eq_nil_iff_forall_not_mem, List.mem_eraseDups]
    _ ↔ stepsOf (callsOf table 0 brought) = [] := List.map_eq_nil_iff
    _ ↔ (brought.flatMap fun per => (per.get table).entries) = [] := by
      rw [← hsteps, List.map_eq_nil_iff]
    _ ↔ ∀ per ∈ brought, (per.get table).entries = [] := List.flatMap_eq_nil_iff

section Held

variable {seed : Option (OrderedMap Text Json)} {contributors : List Contributor}
  {brought : List (PerTable Contribution)}

/-- A contributor brings an entry when one of its tables has one. -/
theorem bringsEntry_iff {c : Contributor} {per : PerTable Contribution}
    (h : ∀ table, c.contribution destination enforceBounds table = .ok (per.get table)) :
    c.bringsEntry destination enforceBounds = true ↔ ∃ table, (per.get table).entries ≠ [] := by
  simp only [Contributor.bringsEntry, h, Except.toOption, Option.any_some, List.any_eq_true]
  constructor
  · rintro ⟨table, -, htable⟩
    exact ⟨table, by simpa using htable⟩
  · rintro ⟨table, htable⟩
    exact ⟨table, table.mem_all, by simpa using htable⟩

/-- Some contributor brings an entry when some contribution has one. -/
theorem exists_bringsEntry_iff {rest : List (PerTable Contribution)}
    (h : List.Forall₂ (fun c per => ∀ table, c.contribution destination enforceBounds table =
      .ok (per.get table)) contributors rest) :
    (∃ c ∈ contributors, c.bringsEntry destination enforceBounds = true) ↔
      ∃ per ∈ rest, ∃ table, (per.get table).entries ≠ [] := by
  constructor
  · rintro ⟨c, hc, hbrings⟩
    obtain ⟨per, hper, hcontribution⟩ := exists_right_of_mem h hc
    exact ⟨per, hper, (bringsEntry_iff hcontribution).1 hbrings⟩
  · rintro ⟨per, hper, hentry⟩
    obtain ⟨c, hc, hcontribution⟩ := exists_left_of_mem h hper
    exact ⟨c, hc, (bringsEntry_iff hcontribution).2 hentry⟩

/-- Coverage is built for a destination with a seed, and for one that receives an entry. -/
theorem isSome_coverageOf_iff
    (h : contributions destination enforceBounds seed contributors = .ok brought) :
    (coverageOf destination seed contributors brought).isSome = true ↔
      seed.isSome = true ∨
        ∃ c ∈ contributors, c.bringsEntry destination enforceBounds = true := by
  obtain ⟨first, rest, hfirst, hrest, rfl⟩ := contributions_eq_ok_iff.1 h
  have hempty : (LocationTable.all.all fun table =>
        (tableOf table (first :: rest)).locations.isEmpty) = true ↔
      ∀ table, ∀ per ∈ first :: rest, (per.get table).entries = [] := by
    rw [List.all_eq_true]
    simp only [List.isEmpty_iff, locations_tableOf_eq_nil_iff]
    exact ⟨fun hall table => hall table table.mem_all, fun hall table _ => hall table⟩
  rw [coverageOf, exists_bringsEntry_iff hrest]
  cases seed with
  | some fields => exact iff_of_true rfl (.inl rfl)
  | none =>
    -- where there is no seed, it brings nothing
    obtain rfl := Except.ok.inj hfirst
    split
    · next hnone =>
      refine iff_of_false Bool.false_ne_true ?_
      rintro (hseed | ⟨per, hper, table, hentries⟩)
      · cases hseed
      · exact hentries (hempty.1 hnone.2 table per (List.mem_cons_of_mem _ hper))
    · next hnone =>
      refine iff_of_true rfl (.inr (Classical.by_contradiction fun hnot => hnone ⟨rfl, ?_⟩))
      refine hempty.2 fun table per hper => ?_
      rcases List.mem_cons.1 hper with rfl | hper
      · rw [PerTable.get_ofFunction]
      · exact Classical.not_not.1 fun hentries => hnot ⟨per, hper, table, hentries⟩

end Held

/-- Coverage is written at the destinations that are held, and the others are left out. -/
theorem isHeld_of_mem_writesOf {coverage : Option (OrderedMap Text Json)}
    (h : (destination, coverage) ∈ writesOf atlas enforceBounds report) :
    isHeld atlas enforceBounds report destination = coverage.isSome := by
  obtain ⟨-, brought, hbrought, rfl⟩ := mem_writesOf h
  rw [Bool.eq_iff_iff, isSome_coverageOf_iff hbrought, isHeld, Bool.or_eq_true, List.any_eq_true]

/-! ### Keys after writes -/

theorem keys_settle_none (report : Report) (destination : Text) :
    OrderedMap.keys (settle report destination none) =
      (OrderedMap.keys report).filter fun path => path ≠ destination :=
  OrderedMap.keys_erase _ _

theorem keys_settle_some (report : Report) (destination : Text) (fields : OrderedMap Text Json) :
    OrderedMap.keys (settle report destination (some fields)) =
      if destination ∈ OrderedMap.keys report then OrderedMap.keys report
      else OrderedMap.keys report ++ [destination] := by
  split
  · next h => exact OrderedMap.keys_insert_of_mem h _
  · next h => exact OrderedMap.keys_insert_of_not_mem h _

/-- The keys after some writes: those that were there, unless they are left out, and behind them
those that are new. -/
theorem keys_applyWrites {held : Text → Bool} {ws : Writes} :
    ∀ {report : Report}, (OrderedMap.keys ws).Nodup → (∀ w ∈ ws, held w.1 = w.2.isSome) →
      OrderedMap.keys (applyWrites report ws) =
        ((OrderedMap.keys report).filter fun path => path ∉ OrderedMap.keys ws ∨ held path) ++
          (OrderedMap.keys ws).filter fun path => path ∉ OrderedMap.keys report ∧ held path := by
  induction ws with
  | nil =>
    intro report _ _
    simp [applyWrites, OrderedMap.keys]
  | cons w ws ih =>
    intro report hnodup hheld
    obtain ⟨path, coverage⟩ := w
    obtain ⟨hnot, hnodup⟩ := List.nodup_cons.1 hnodup
    obtain ⟨hpath, hheld⟩ := List.forall_mem_cons.1 hheld
    have hkeys : OrderedMap.keys ((path, coverage) :: ws) = path :: OrderedMap.keys ws := rfl
    have hne : ∀ other ∈ OrderedMap.keys ws, other ≠ path := fun other hother heq =>
      hnot (heq ▸ hother)
    rw [applyWrites_cons, ih hnodup hheld, hkeys]
    cases coverage with
    | none =>
      -- the path is taken out of the report, and no later write brings it back
      have hleft : held path = false := hpath
      rw [keys_settle_none, List.filter_filter, List.filter_cons_of_neg (by simp [hleft])]
      congr 1
      · refine List.filter_congr fun other _ => ?_
        by_cases heq : other = path <;> simp [heq, hleft]
      · refine List.filter_congr fun other hother => ?_
        simp [hne other hother]
    | some fields =>
      -- the path stays in its place or goes to the end, before those that are written later
      have hkept : held path = true := hpath
      have hstays : ((OrderedMap.keys report).filter fun other =>
            other ∉ OrderedMap.keys ws ∨ held other) =
          (OrderedMap.keys report).filter fun other =>
            other ∉ path :: OrderedMap.keys ws ∨ held other := by
        refine List.filter_congr fun other _ => ?_
        by_cases heq : other = path <;> simp [heq, hkept]
      rw [keys_settle_some]
      by_cases hmem : path ∈ OrderedMap.keys report
      · rw [if_pos hmem, hstays, List.filter_cons_of_neg (by simp [hmem])]
      · rw [if_neg hmem, List.filter_append, hstays, List.append_assoc,
          List.filter_cons_of_pos (by simp [hkept]),
          List.filter_cons_of_pos (by simp [hmem, hkept])]
        refine congrArg (_ ++ path :: ·) (List.filter_congr fun other hother => ?_)
        simp [hne other hother]

/-! ### Keys after remapping -/

/-- A path is a destination when some file moves to it. -/
theorem mem_destinationsOf_iff :
    destination ∈ destinationsOf atlas report ↔ contributorsTo atlas destination report ≠ [] := by
  rw [← keys_pendingOf, mem_keys_pendingOf_iff]

/-- **The effect on the files**: when remapping succeeds, the report has the files that stay, in
their order and without the destinations that are not held, and behind them the destinations that
are held and were not among them, each where the first file moved to it. A path that is no
destination and from which no file moves has the value that it had. -/
theorem keys_remap (herror : (remap atlas enforceBounds report).error = none) :
    OrderedMap.keys (remap atlas enforceBounds report).report =
        ((OrderedMap.keys (report.filter fun file => (destinationOf? atlas file).isNone)).filter
          fun path => path ∉ destinationsOf atlas report ∨
            isHeld atlas enforceBounds report path) ++
        ((destinationsOf atlas report).filter fun path =>
          path ∉ OrderedMap.keys (report.filter fun file => (destinationOf? atlas file).isNone) ∧
            isHeld atlas enforceBounds report path) ∧
      ∀ path, path ∉ destinationsOf atlas report →
        (∀ file ∈ report, file.1 = path → destinationOf? atlas file = none) →
        OrderedMap.get? (remap atlas enforceBounds report).report path =
          OrderedMap.get? report path := by
  constructor
  · rw [report_remap, ← stayingOf_eq_filter, ← keys_pendingOf, ← keys_writesOf herror]
    exact keys_applyWrites (nodup_keys_writesOf _ _ _) fun w hw => isHeld_of_mem_writesOf hw
  · intro path hpath hmoves
    have hnone : contributorsTo atlas path report = [] :=
      Classical.not_not.1 fun hne => hpath (mem_destinationsOf_iff.2 hne)
    rw [get?_remap_of_no_contributors hnone, stayingOf_eq_filter]
    exact OrderedMap.get?_filter fun file hfile heq => by rw [hmoves file hfile heq]; rfl

/-- A destination that moves away itself, one that receives nothing and was no coverage, one with
coverage, and a file that stays. -/
theorem keys_remap_of_emptied_destination :
    let atlas : Atlas Resolver := ⟨[("a.js", .copyOf "a.ts"), ("b.js", .copyOf "b.ts"),
      ("a.ts", .copyOf "c.ts")]⟩
    let report : Report := [
      ("a.ts", .obj (statementsOn [("0", 2)])), ("a.js", .obj (statementsOn [("0", 1)])),
      ("b.ts", .int 5), ("c.ts", .obj []), ("b.js", .obj (statementsOn [("0", 0)])),
      ("read.me", .null)]
    (remap atlas true report).error = none ∧
      OrderedMap.keys (remap atlas true report).report = ["c.ts", "read.me", "a.ts"] ∧
      OrderedMap.get? (remap atlas true report).report "read.me" = some .null := by
  intro atlas report
  have herror : (remap atlas true report).error = none := rfl
  obtain ⟨hkeys, hvalues⟩ := keys_remap herror
  exact ⟨herror, hkeys.trans rfl, hvalues "read.me" (by decide) (by decide)⟩

end CoverageLift
