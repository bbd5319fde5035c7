import CoverageLift.Coverage.Arena
import CoverageLift.Coverage.Lift
import CoverageLift.Atlas
import CoverageLift.Notice

/-!
# Remapping of reports

A report holds the coverage of files by path. A file **moves** when its value is an object and its
resolver knows exactly one source, its destination. All moving files leave the report first; then
each destination is built from what the report still has there (its seed) and from the files that
move to it, in the order of the report. A destination that was not there and receives no entry is
left out. Files that do not move stay as they are.

Building can fail: when a resolver fails for a reason of its own, and when a branch of a seed has a
type that cannot be compared. The destinations before are then already in the report.
-/

namespace CoverageLift

/-- Coverage by path. -/
abbrev Report := OrderedMap Text Json

/-- A file that moves to its destination. -/
structure Contributor where
  path : Text
  fields : OrderedMap Text Json
  resolver : Resolver

/-- Why a destination cannot be built. -/
inductive RemapError
  /-- A branch of the seed has a type of this kind, which cannot be compared. -/
  | incomparableType (kind : Container)
  /-- A resolver failed for a reason of its own. -/
  | resolver (failure : ResolverFailure)
  deriving DecidableEq, Repr

/-- The message of an error. -/
def RemapError.message : RemapError → Text
  | incomparableType .array => "unhashable type: \x27list\x27"
  | incomparableType .object => "unhashable type: \x27dict\x27"
  | resolver failure => failure.message

/-! ### Which files move -/

/-- What remapping does with a file. -/
inductive Disposition
  /-- The file has no resolver, or its coverage is no object. -/
  | untouched
  /-- The resolver of the file knows this number of sources, which is not one. -/
  | bundle (sources : Nat)
  /-- The file moves. -/
  | moves (destination : Text) (contributor : Contributor)

/-- What remapping does with a file of the report. -/
def disposition (atlas : Atlas Resolver) (path : Text) (coverage : Json) : Disposition :=
  match atlas.lookup (.text path), coverage with
  | some resolver, .obj fields =>
    match resolver.onlySource? with
    | some destination => .moves destination ⟨path, fields, resolver⟩
    | none => .bundle resolver.knownSources.length
  | _, _ => .untouched

/-- The files that move, by destination and in the order of the first file of each. -/
abbrev Pending := OrderedMap Text (List Contributor)

/-- Adds a file to those that move to a destination. -/
def Pending.add (pending : Pending) (destination : Text) (c : Contributor) : Pending :=
  OrderedMap.insert pending destination ((OrderedMap.get? pending destination).getD [] ++ [c])

/-- The files that move. -/
def pendingOf (atlas : Atlas Resolver) (report : Report) : Pending :=
  report.foldl (fun pending (path, coverage) =>
    match disposition atlas path coverage with
    | .moves destination c => Pending.add pending destination c
    | _ => pending) []

/-- The report without the files that move. -/
def stayingOf (atlas : Atlas Resolver) (report : Report) : Report :=
  report.filter fun (path, coverage) =>
    match disposition atlas path coverage with
    | .moves _ _ => false
    | _ => true

/-- Notices of the files that stay because of their maps. -/
def bundleNotices (atlas : Atlas Resolver) (report : Report) : List Notice :=
  report.filterMap fun (path, coverage) =>
    match disposition atlas path coverage with
    | .bundle sources => some (.bundleKept path sources)
    | _ => none

/-! ### What a destination is built from -/

/-- How the ranges of a contributor are lifted to a destination: the range must lie in the
destination and, when a bound is given, in its lines. -/
def boundedMap (r : Resolver) (destination : Text) (bound : Option Int) : RangeMap := fun location =>
  do
    match ← liftRange r location with
    | none => return none
    | some lifted =>
      if lifted.source ≠ destination then return none
      match bound with
      | none => return some lifted.range
      | some n => if lifted.range.lastLine > n then return none else return some lifted.range

/-- A range that is not refused was lifted to the destination and to its lines. -/
theorem exists_of_boundedMap {r : Resolver} {destination : Text} {bound : Option Int}
    {location range : Range} (h : boundedMap r destination bound location = .ok (some range)) :
    ∃ lifted, liftRange r location = .ok (some lifted) ∧ lifted.source = destination ∧
      lifted.range = range ∧ ∀ n ∈ bound, range.lastLine ≤ n := by
  rw [boundedMap] at h
  rcases hlifted : liftRange r location with failure | _ | lifted
  · rw [hlifted] at h
    cases h
  · rw [hlifted] at h
    cases h
  · rw [hlifted] at h
    simp only [bind, Except.bind] at h
    split at h
    · cases h
    · next hsource =>
      have hsource := Decidable.not_not.1 hsource
      split at h
      · obtain rfl := Option.some.inj (Except.ok.inj h)
        exact ⟨lifted, rfl, hsource, rfl, fun _ h => absurd h (Option.not_mem_none _)⟩
      · split at h
        · cases h
        · next hline =>
          obtain rfl := Option.some.inj (Except.ok.inj h)
          refine ⟨lifted, rfl, hsource, rfl, fun m hm => ?_⟩
          obtain rfl := Option.some.inj hm
          exact Int.not_lt.1 hline

/-- The ranges of a destination are plain, as all lifted ranges are. -/
theorem isPlain_boundedMap (r : Resolver) (destination : Text) (bound : Option Int) :
    (boundedMap r destination bound).IsPlain := by
  intro location range h
  obtain ⟨lifted, hlifted, -, rfl, -⟩ := exists_of_boundedMap h
  exact isPlain_of_liftRange hlifted

/-- How the ranges of a contributor are lifted to a destination, as it is needed to move tables. -/
def plainMap (r : Resolver) (destination : Text) (bound : Option Int) : PlainRangeMap :=
  ⟨boundedMap r destination bound, isPlain_boundedMap r destination bound⟩

/-- The entries of a table that have a valid count and can be lifted. -/
def keptEntries (table : LocationTable) (remap : PlainRangeMap) (counts : OrderedMap Text Json) :
    (locations : OrderedMap Text Json) → Except ResolverFailure (OrderedMap Text Entry)
  | [] => .ok []
  | (id, raw) :: rest => do
    let mapped ← match OrderedMap.get? counts id with
      | none => pure none
      | some count =>
        if table.validCount count then
          pure ((← table.liftEntry remap raw).map fun m =>
            (⟨m.location, m.identity, count⟩ : Entry))
        else pure none
    let others ← keptEntries table remap counts rest
    match mapped with
    | none => return others
    | some entry => return (id, entry) :: others

/-- What a contributor brings to a table of a destination. -/
def Contributor.contribution (c : Contributor) (destination : Text) (enforceBounds : Bool)
    (table : LocationTable) : Except ResolverFailure Contribution := do
  let bound := if enforceBounds then c.resolver.lastLine destination else none
  let locations := tableAt c.fields table.locationsKey
  let entries ← keptEntries table (plainMap c.resolver destination bound)
    (tableAt c.fields table.countsKey) locations
  return { listed := OrderedMap.keys locations, entries }

/-- The entries of a table of the seed that have a count. -/
def countedEntries (counts : OrderedMap Text Json) :
    (locations : OrderedMap Text Json) → Except Container (OrderedMap Text Entry)
  | [] => .ok []
  | (id, raw) :: rest => do
    match OrderedMap.get? counts id with
    | none => countedEntries counts rest
    | some count =>
      let identity ← identityInPlace id raw
      return (id, ⟨raw, identity, count⟩) :: (← countedEntries counts rest)

/-- What the seed brings to a table. -/
def contributionInPlace (seed : OrderedMap Text Json) (table : LocationTable) :
    Except Container Contribution := do
  let locations := tableAt seed table.locationsKey
  let entries ← countedEntries (tableAt seed table.countsKey) locations
  return { listed := OrderedMap.keys locations, entries }

/-- What the seed, if there is one, and the contributors bring to the tables, in their order. The
seed is the first of the list. -/
def contributions (destination : Text) (enforceBounds : Bool)
    (seed : Option (OrderedMap Text Json)) (contributors : List Contributor) :
    Except RemapError (List (PerTable Contribution)) := do
  let first ← match seed with
    | none => pure (PerTable.ofFunction fun _ => (⟨[], []⟩ : Contribution))
    | some fields =>
      (PerTable.ofFunctionM (contributionInPlace fields)).mapError RemapError.incomparableType
  let rest ← contributors.mapM fun c =>
    (PerTable.ofFunctionM (c.contribution destination enforceBounds)).mapError RemapError.resolver
  return first :: rest

/-! ### Building a destination -/

/-- The turns of contributors in a table, numbered from `number` on. -/
def takeTurns (table : LocationTable) : (number : Nat) → Arena → List (PerTable Contribution) →
    List Merged
  | _, _, [] => []
  | number, arena, c :: rest =>
    let merged := arena.merge number (c.get table)
    merged :: takeTurns table (number + 1) merged.arena rest

/-- The table after the last turn. -/
def lastArena (turns : List Merged) : Arena :=
  match turns.getLast? with
  | some merged => merged.arena
  | none => Arena.empty

/-- The notices of a contributor's turn in a table. -/
def turnNotices (path : Text) (table : LocationTable) (c : Contribution) (merged : Merged) :
    List Notice :=
  let dropped := c.listed.length - c.entries.length
  (if dropped = 0 then [] else [.entriesDropped dropped c.listed.length table path])
    ++ merged.unsummed.map (fun (kept, other) => .countsMismatched kept other)
    ++ (if merged.renumbered.isEmpty then []
      else [.idsRenumbered table path merged.renumbered])

/-- The coverage of a destination: that of the seed or else of the first contributor, with the path
and the tables of the destination and without the map of the generated file. -/
def destinationObject (base : OrderedMap Text Json) (destination : Text)
    (arenas : LocationTable → Arena) : OrderedMap Text Json :=
  let base := OrderedMap.erase base ("inputSourceMap" : Text)
  let base := OrderedMap.insert base ("path" : Text) (.str destination)
  LocationTable.all.foldl (fun fields table =>
    OrderedMap.insert
      (OrderedMap.insert fields table.locationsKey (.obj (arenas table).locations))
      table.countsKey (.obj (arenas table).counts)) base

/-- A destination: its coverage, unless it is left out, and what there is to report. -/
structure Assembled where
  coverage : Option (OrderedMap Text Json)
  notices : List Notice

/-- Builds a destination from its seed and its contributors. -/
def assemble (enforceBounds : Bool) (destination : Text)
    (seed : Option (OrderedMap Text Json)) (contributors : List Contributor) :
    Except RemapError Assembled := do
  let brought ← contributions destination enforceBounds seed contributors
  let turns := fun table => takeTurns table 0 Arena.empty brought
  let arenas := fun table => lastArena (turns table)
  let notices := (contributors.zip (brought.drop 1)).mapIdx fun i (c, per) =>
    LocationTable.all.flatMap fun table =>
      match (turns table)[i + 1]? with
      | some merged => turnNotices c.path table (per.get table) merged
      | none => []
  let base := match seed, contributors with
    | some fields, _ => fields
    | none, c :: _ => c.fields
    | none, [] => []
  if seed.isNone ∧ LocationTable.all.all fun table => (arenas table).locations.isEmpty then
    return { coverage := none, notices := notices.flatten ++ [.destinationEmpty destination] }
  else
    return {
      coverage := some (destinationObject base destination arenas)
      notices := notices.flatten }

/-! ### The whole report -/

/-- The outcome of remapping a report: the report as far as it got, what there is to report, and
the error that it stopped at. -/
structure Remapped where
  report : Report
  notices : List Notice
  error : Option RemapError

/-- What the report has at a destination when it is built. -/
def seedAt (report : Report) (destination : Text) : Option (OrderedMap Text Json) :=
  (OrderedMap.get? report destination).bind Json.object?

/-- Puts a destination into the report, or takes it out. -/
def settle (report : Report) (destination : Text) (coverage : Option (OrderedMap Text Json)) :
    Report :=
  match coverage with
  | some fields => OrderedMap.insert report destination (.obj fields)
  | none => OrderedMap.erase report destination

/-- Builds the destinations one after the other. -/
def assembleAll (enforceBounds : Bool) : (pending : Pending) → Report → Remapped
  | [], report => ⟨report, [], none⟩
  | (destination, contributors) :: rest, report =>
    match assemble enforceBounds destination (seedAt report destination) contributors with
    | .error error => ⟨report, [], some error⟩
    | .ok built =>
      let tail := assembleAll enforceBounds rest (settle report destination built.coverage)
      { tail with notices := built.notices ++ tail.notices }

/-- Remaps a report with the maps of an atlas. -/
def remap (atlas : Atlas Resolver) (enforceBounds : Bool) (report : Report) : Remapped :=
  let outcome := assembleAll enforceBounds (pendingOf atlas report) (stayingOf atlas report)
  { outcome with notices := bundleNotices atlas report ++ outcome.notices }

end CoverageLift
