import CoverageLift.Proofs.Arena.Totals
import CoverageLift.Proofs.Remap.Turns

/-!
# Destinations of a report

The files that move are collected by destination, in the order of the report, and a destination is
built from its own seed and its own contributors. It can be built when everything that they bring can
be told, and its tables are those of their turns.
-/

namespace CoverageLift

variable {atlas : Atlas Resolver} {enforceBounds : Bool} {report : Report}

/-! ### Which files move to a destination -/

/-- The file as a contributor of the destination. -/
def contributorTo? (atlas : Atlas Resolver) (destination : Text) (file : Text × Json) :
    Option Contributor :=
  match disposition atlas file.1 file.2 with
  | .moves d c => if d = destination then some c else none
  | _ => none

/-- The files that move to a destination. -/
def contributorsTo (atlas : Atlas Resolver) (destination : Text) (report : Report) :
    List Contributor :=
  report.filterMap (contributorTo? atlas destination)

theorem pendingOf_concat (atlas : Atlas Resolver) (report : Report) (file : Text × Json) :
    pendingOf atlas (report ++ [file]) =
      match disposition atlas file.1 file.2 with
      | .moves destination c => Pending.add (pendingOf atlas report) destination c
      | _ => pendingOf atlas report := by
  rw [pendingOf, List.foldl_append]
  rfl

/-- No destination is collected twice. -/
theorem nodup_keys_pendingOf (atlas : Atlas Resolver) (report : Report) :
    (OrderedMap.keys (pendingOf atlas report)).Nodup := by
  induction report using List.reverseRecOn with
  | nil => exact List.nodup_nil
  | append_singleton report file ih =>
    rw [pendingOf_concat]
    split
    · exact OrderedMap.nodup_keys_insert ih _ _
    · exact ih

/-- What is collected for a destination. -/
theorem get?_pendingOf (atlas : Atlas Resolver) (report : Report) (destination : Text) :
    OrderedMap.get? (pendingOf atlas report) destination =
      if contributorsTo atlas destination report = [] then none
      else some (contributorsTo atlas destination report) := by
  induction report using List.reverseRecOn with
  | nil => rfl
  | append_singleton report file ih =>
    have hsplit : contributorsTo atlas destination (report ++ [file]) =
        contributorsTo atlas destination report ++
          (contributorTo? atlas destination file).toList := by
      cases h : contributorTo? atlas destination file <;> simp [contributorsTo, h]
    rw [pendingOf_concat, hsplit, contributorTo?]
    rcases disposition atlas file.1 file.2 with _ | sources | ⟨d, c⟩
    · simpa using ih
    · simpa using ih
    · simp only [Pending.add, OrderedMap.get?_insert]
      by_cases hd : d = destination
      · rw [if_pos hd, if_pos hd, hd, ih]
        split
        · next hnil => simp [hnil]
        · simp
      · rw [if_neg hd, if_neg hd]
        simpa using ih

/-- The destinations with what is collected for them. -/
theorem mem_pendingOf_iff {destination : Text} {contributors : List Contributor} :
    (destination, contributors) ∈ pendingOf atlas report ↔
      contributors = contributorsTo atlas destination report ∧ contributors ≠ [] := by
  have hget := get?_pendingOf atlas report destination
  constructor
  · intro hmem
    rw [OrderedMap.get?_eq_some_of_mem (nodup_keys_pendingOf atlas report) hmem] at hget
    split at hget
    · cases hget
    · next hne =>
      obtain rfl := Option.some.inj hget
      exact ⟨rfl, hne⟩
  · rintro ⟨rfl, hne⟩
    rw [if_neg hne] at hget
    exact OrderedMap.mem_of_get?_eq_some hget

theorem mem_keys_pendingOf_iff {destination : Text} :
    destination ∈ OrderedMap.keys (pendingOf atlas report) ↔
      contributorsTo atlas destination report ≠ [] := by
  constructor
  · intro hmem
    obtain ⟨⟨destination, contributors⟩, hentry, rfl⟩ := List.mem_map.1 hmem
    obtain ⟨rfl, hne⟩ := mem_pendingOf_iff.1 hentry
    exact hne
  · exact fun hne => List.mem_map.2 ⟨(destination, _), mem_pendingOf_iff.2 ⟨rfl, hne⟩, rfl⟩

/-! ### Reports in another order -/

section Perm

variable {report' : Report} (hperm : report'.Perm report)

include hperm

theorem contributorsTo_perm (destination : Text) :
    (contributorsTo atlas destination report').Perm (contributorsTo atlas destination report) :=
  hperm.filterMap _

/-- The seed of a destination does not depend on the order of the files. -/
theorem seedAt_stayingOf_perm (hkeys : (OrderedMap.keys report).Nodup) (destination : Text) :
    seedAt (stayingOf atlas report') destination = seedAt (stayingOf atlas report) destination := by
  have hsub : (OrderedMap.keys (stayingOf atlas report)).Nodup :=
    hkeys.sublist (List.filter_sublist.map _)
  have hstaying : (stayingOf atlas report').Perm (stayingOf atlas report) := hperm.filter _
  rw [seedAt, seedAt, OrderedMap.get?_eq_of_perm hsub hstaying]

end Perm

/-! ### Building the destinations -/

section Build

variable {destination : Text} {seed : Option (OrderedMap Text Json)}
  {contributors : List Contributor} {brought : List (PerTable Contribution)}

/-- The table of a destination after all turns. -/
def tableOf (table : LocationTable) (brought : List (PerTable Contribution)) : Arena :=
  Arena.empty.afterTurns (callsOf table 0 brought)

/-- The table of the last turn, or the one that there was if there is no turn. -/
theorem getLast?_takeTurns (table : LocationTable) (brought : List (PerTable Contribution)) :
    ∀ (number : Nat) (arena : Arena),
      ((takeTurns table number arena brought).getLast?.map (·.arena)).getD arena =
        arena.afterTurns (callsOf table number brought) := by
  induction brought with
  | nil => exact fun _ _ => rfl
  | cons c rest ih =>
    intro number arena
    rw [takeTurns, List.getLast?_cons, callsOf_cons, Arena.afterTurns_cons, ← ih]
    cases (takeTurns table (number + 1) (arena.merge number (c.get table)).arena rest).getLast? <;> rfl

theorem lastArena_takeTurns (table : LocationTable) (brought : List (PerTable Contribution)) :
    lastArena (takeTurns table 0 Arena.empty brought) = tableOf table brought := by
  rw [tableOf, ← getLast?_takeTurns, lastArena]
  cases (takeTurns table 0 Arena.empty brought).getLast? <;> rfl

/-- The coverage that a destination is built on. -/
def baseOf (seed : Option (OrderedMap Text Json)) (contributors : List Contributor) :
    OrderedMap Text Json :=
  match seed, contributors with
  | some fields, _ => fields
  | none, c :: _ => c.fields
  | none, [] => []

/-- The coverage that is built for a destination, unless it is left out. -/
def coverageOf (destination : Text) (seed : Option (OrderedMap Text Json))
    (contributors : List Contributor) (brought : List (PerTable Contribution)) :
    Option (OrderedMap Text Json) :=
  if seed.isNone ∧ LocationTable.all.all fun table => (tableOf table brought).locations.isEmpty then
    none
  else some (destinationObject (baseOf seed contributors) destination fun table =>
    tableOf table brought)

/-- A destination with a seed is never left out. -/
theorem coverageOf_some (destination : Text) (fields : OrderedMap Text Json)
    (contributors : List Contributor) (brought : List (PerTable Contribution)) :
    coverageOf destination (some fields) contributors brought =
      some (destinationObject fields destination fun table => tableOf table brought) :=
  if_neg fun h => nomatch h.1

/-- Coverage that is built is that of the base with the tables. -/
theorem eq_destinationObject_of_coverageOf {fields : OrderedMap Text Json}
    (h : coverageOf destination seed contributors brought = some fields) :
    fields = destinationObject (baseOf seed contributors) destination
      fun table => tableOf table brought := by
  rw [coverageOf] at h
  split at h
  · cases h
  · exact (Option.some.inj h).symm

/-- A destination is built when everything that it is built from can be brought. -/
theorem assemble_of_ok (h : contributions destination enforceBounds seed contributors = .ok brought) :
    ∃ built, assemble enforceBounds destination seed contributors = .ok built ∧
      built.coverage = coverageOf destination seed contributors brought := by
  unfold assemble
  rw [h]
  simp only [lastArena_takeTurns]
  by_cases hempty : seed.isNone = true ∧
      (LocationTable.all.all fun table => (tableOf table brought).locations.isEmpty) = true
  · exact ⟨_, if_pos hempty, (if_pos hempty).symm⟩
  · exact ⟨_, if_neg hempty, (if_neg hempty).symm⟩

theorem assemble_of_error {error : RemapError}
    (h : contributions destination enforceBounds seed contributors = .error error) :
    assemble enforceBounds destination seed contributors = .error error := by
  unfold assemble
  rw [h]
  rfl

/-- The tables of the coverage that is built. -/
theorem get?_destinationObject (base : OrderedMap Text Json) (destination : Text)
    (arenas : LocationTable → Arena) (table : LocationTable) :
    OrderedMap.get? (destinationObject base destination arenas) table.locationsKey =
        some (.obj (arenas table).locations) ∧
      OrderedMap.get? (destinationObject base destination arenas) table.countsKey =
        some (.obj (arenas table).counts) := by
  simp only [destinationObject, LocationTable.all, List.foldl_cons, List.foldl_nil,
    OrderedMap.get?_insert]
  cases table <;> simp

/-- The ids of the counts are those of the locations, in the same order. -/
theorem keys_counts_tableOf (table : LocationTable) (brought : List (PerTable Contribution)) :
    OrderedMap.keys (tableOf table brought).counts =
      OrderedMap.keys (tableOf table brought).locations :=
  (Arena.history_afterTurns (nodup_callsOf table brought)).counted

/-- The tables of a destination, which has none when it is left out. -/
theorem tableAt_coverageOf (destination : Text) (seed : Option (OrderedMap Text Json))
    (contributors : List Contributor) (brought : List (PerTable Contribution))
    (table : LocationTable) :
    tableAt ((coverageOf destination seed contributors brought).getD []) table.locationsKey =
        (tableOf table brought).locations ∧
      tableAt ((coverageOf destination seed contributors brought).getD []) table.countsKey =
        (tableOf table brought).counts := by
  rw [coverageOf]
  split
  · next hempty =>
    have hlocations : (tableOf table brought).locations = [] := by
      have hall := List.all_eq_true.1 hempty.2 table table.mem_all
      exact List.isEmpty_iff.1 hall
    have hcounts : (tableOf table brought).counts = [] := by
      have hkeys := keys_counts_tableOf table brought
      rw [hlocations] at hkeys
      exact List.map_eq_nil_iff.1 hkeys
    rw [hlocations, hcounts]
    exact ⟨rfl, rfl⟩
  · obtain ⟨hlocations, hcounts⟩ := get?_destinationObject (baseOf seed contributors) destination
      (fun table => tableOf table brought) table
    rw [Option.getD_some, tableAt, tableAt, hlocations, hcounts]
    exact ⟨rfl, rfl⟩

end Build

end CoverageLift
