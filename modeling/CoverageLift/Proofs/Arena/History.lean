import CoverageLift.Proofs.Arena.Turn
import Mathlib.Data.List.Induction

/-!
# The table after any number of turns

The counts of a turn are written after all its entries have been placed. A new entry writes its own
count, and an entry that was folded adds its count to what an earlier turn has written, so the ids
of the counts are at all times those of the locations, in the same order.

`Arena.History` says what the turns of numbered contributors leave behind, whatever they bring: the
table is tidy, its two halves have the same ids, and **an identity has an owner exactly when it
occurred in one of the turns**. The one assumption is that no number is used twice.
-/

namespace CoverageLift

/-! ### Writing counts -/

/-- The count of an id after a placement there. -/
def Placement.countAfter (p : Placement) (before : Option Json) : Json :=
  match p.folded, before with
  | true, some present => (addCounts? present p.count).getD present
  | _, _ => p.count

namespace Arena

variable {state : OrderedMap Text Json × List (Json × Json)} {p : Placement}

/-- Writing a count changes nothing but the count of the target. -/
theorem get?_writeCount (state : OrderedMap Text Json × List (Json × Json)) (p : Placement)
    (id : Text) :
    OrderedMap.get? (writeCount state p).1 id =
      if p.target = id then some (p.countAfter (OrderedMap.get? state.1 p.target))
      else OrderedMap.get? state.1 id := by
  cases hfolded : p.folded with
  | false => simp [writeCount, Placement.countAfter, hfolded, OrderedMap.get?_insert]
  | true =>
    rcases hpresent : OrderedMap.get? state.1 p.target with _ | present
    · simp [writeCount, Placement.countAfter, hfolded, hpresent, OrderedMap.get?_insert]
    · rcases hsum : addCounts? present p.count with _ | sum
      · -- nothing is written, which is the same as writing the count that is there
        simp only [writeCount, Placement.countAfter, hfolded, hpresent, hsum, Option.getD_none]
        split
        · next htarget => rw [← htarget, hpresent]
        · rfl
      · simp [writeCount, Placement.countAfter, hfolded, hpresent, hsum, OrderedMap.get?_insert]

/-- A placement on an id that is there adds no id. -/
theorem keys_writeCount_of_mem (h : p.target ∈ OrderedMap.keys state.1) :
    OrderedMap.keys (writeCount state p).1 = OrderedMap.keys state.1 := by
  simp only [writeCount]
  split
  · rcases addCounts? _ p.count with _ | sum
    · rfl
    · exact OrderedMap.keys_insert_of_mem h _
  · exact OrderedMap.keys_insert_of_mem h _

/-- A placement that is not folded writes to a new id. -/
theorem keys_writeCount_of_not_mem (h : p.target ∉ OrderedMap.keys state.1)
    (hfolded : p.folded = false) :
    OrderedMap.keys (writeCount state p).1 = OrderedMap.keys state.1 ++ [p.target] := by
  simp only [writeCount, hfolded]
  exact OrderedMap.keys_insert_of_not_mem h _

/-- The placements of a turn can be written: folded entries find a count, and all others none. -/
structure Writable (counts : OrderedMap Text Json) (ps : List Placement) : Prop where
  mem : ∀ p ∈ ps, p.folded = true → p.target ∈ OrderedMap.keys counts
  nodup : (OrderedMap.keys counts ++ addedIds ps).Nodup

namespace Writable

variable {ps : List Placement}

/-- An entry that is not folded finds no count. -/
theorem not_mem {counts : OrderedMap Text Json} (h : Writable counts (p :: ps))
    (hfolded : p.folded = false) : p.target ∉ OrderedMap.keys counts := by
  have hadded : p.target ∈ addedIds (p :: ps) := by simp [addedIds, hfolded]
  exact fun hmem => List.disjoint_of_nodup_append h.nodup hmem hadded

/-- The ids after a placement has been written, and those that are still to come. -/
theorem keys_writeCount (h : Writable state.1 (p :: ps)) :
    OrderedMap.keys (writeCount state p).1 ++ addedIds ps =
      OrderedMap.keys state.1 ++ addedIds (p :: ps) := by
  cases hfolded : p.folded with
  | true =>
    rw [keys_writeCount_of_mem (h.mem p List.mem_cons_self hfolded)]
    simp [addedIds, hfolded]
  | false =>
    rw [keys_writeCount_of_not_mem (h.not_mem hfolded) hfolded]
    simp [addedIds, hfolded]

/-- The other placements can still be written. -/
theorem tail (h : Writable state.1 (p :: ps)) : Writable (writeCount state p).1 ps where
  mem q hq hfolded := by
    have hmem := h.mem q (List.mem_cons_of_mem _ hq) hfolded
    cases hp : p.folded with
    | true => rwa [keys_writeCount_of_mem (h.mem p List.mem_cons_self hp)]
    | false =>
      rw [keys_writeCount_of_not_mem (h.not_mem hp) hp]
      exact List.mem_append_left _ hmem
  nodup := by
    rw [h.keys_writeCount]
    exact h.nodup

end Writable

/-- The ids of the counts after a turn: the old ones and then those of the added entries. -/
theorem keys_foldl_writeCount :
    ∀ {ps : List Placement} {state : OrderedMap Text Json × List (Json × Json)},
      Writable state.1 ps →
        OrderedMap.keys (ps.foldl writeCount state).1 =
          OrderedMap.keys state.1 ++ addedIds ps := by
  intro ps
  induction ps with
  | nil => exact fun _ => (List.append_nil _).symm
  | cons p ps ih =>
    intro state h
    rw [List.foldl_cons, ih h.tail, h.keys_writeCount]

/-- The count of an id after a turn comes from the placements on that id alone. -/
theorem get?_foldl_writeCount (id : Text) :
    ∀ (ps : List Placement) (state : OrderedMap Text Json × List (Json × Json)),
      OrderedMap.get? (ps.foldl writeCount state).1 id =
        (ps.filter fun p => p.target = id).foldl (fun count p => some (p.countAfter count))
          (OrderedMap.get? state.1 id) := by
  intro ps
  induction ps with
  | nil => exact fun _ => rfl
  | cons p ps ih =>
    intro state
    rw [List.foldl_cons, ih, get?_writeCount]
    by_cases htarget : p.target = id
    · simp [htarget]
    · simp [htarget]

end Arena

/-! ### The end of a turn -/

/-- The table when a turn is over: its ids are claimed and its counts are written. -/
def Turn.close (turn : Turn) : Arena :=
  { turn.arena with
    claimed := turn.arena.claimed ++ turn.reserved
    counts := (turn.placements.foldl Arena.writeCount (turn.arena.counts, [])).1 }

@[simp] theorem Turn.close_locations (turn : Turn) :
    turn.close.locations = turn.arena.locations := rfl

@[simp] theorem Turn.close_owners (turn : Turn) : turn.close.owners = turn.arena.owners := rfl

@[simp] theorem Turn.close_claimed (turn : Turn) :
    turn.close.claimed = turn.arena.claimed ++ turn.reserved := rfl

@[simp] theorem Turn.close_nextId (turn : Turn) : turn.close.nextId = turn.arena.nextId := rfl

theorem Arena.Tidy.close {turn : Turn} (h : turn.arena.Tidy turn.reserved) : turn.close.Tidy [] :=
  h.claim _

namespace Arena

/-- A contributor's turn when all its entries have been placed. -/
def turn (arena : Arena) (number : Nat) (c : Contribution) : Turn :=
  c.entries.foldl (Turn.place number) ⟨arena, c.listed, []⟩

theorem merge_placements (arena : Arena) (number : Nat) (c : Contribution) :
    (arena.merge number c).placements = (arena.turn number c).placements := rfl

theorem merge_arena (arena : Arena) (number : Nat) (c : Contribution) :
    (arena.merge number c).arena = (arena.turn number c).close := rfl

/-- The table after the turns of numbered contributors. -/
def afterTurns (arena : Arena) (calls : List (Contribution × Nat)) : Arena :=
  calls.foldl (fun arena call => (arena.merge call.2 call.1).arena) arena

@[simp] theorem afterTurns_nil (arena : Arena) : arena.afterTurns [] = arena := rfl

theorem afterTurns_cons (arena : Arena) (call : Contribution × Nat)
    (calls : List (Contribution × Nat)) :
    arena.afterTurns (call :: calls) = (arena.merge call.2 call.1).arena.afterTurns calls := rfl

theorem afterTurns_concat (arena : Arena) (calls : List (Contribution × Nat))
    (call : Contribution × Nat) :
    arena.afterTurns (calls ++ [call]) =
      ((arena.afterTurns calls).merge call.2 call.1).arena := by
  simp [afterTurns]

/-- The numbers before a turn are distinct, and its own is none of them. -/
theorem nodup_numbers_before {earlier later : List (Contribution × Nat)} {call : Contribution × Nat}
    (hnumbers : ((earlier ++ call :: later).map Prod.snd).Nodup) :
    (earlier.map Prod.snd).Nodup ∧ call.2 ∉ earlier.map Prod.snd := by
  rw [List.map_append, List.nodup_append] at hnumbers
  obtain ⟨hearlier, -, hdisjoint⟩ := hnumbers
  exact ⟨hearlier, fun hmem => hdisjoint _ hmem _ List.mem_cons_self rfl⟩

/-- What the turns of numbered contributors leave behind. -/
structure History (calls : List (Contribution × Nat)) (arena : Arena) : Prop where
  tidy : arena.Tidy []
  /-- locations and counts have the same ids in the same order -/
  counted : OrderedMap.keys arena.counts = OrderedMap.keys arena.locations
  /-- an owner is an entry of one of the contributors -/
  contributor_mem : ∀ {identity owner}, OrderedMap.get? arena.owners identity = some owner →
    owner.contributor ∈ calls.map Prod.snd
  /-- an identity has an owner when an entry of a contributor has it -/
  owned : ∀ identity, (OrderedMap.get? arena.owners identity).isSome ↔
    ∃ call ∈ calls, ∃ item ∈ call.1.entries, item.2.identity = identity

namespace History

variable {calls : List (Contribution × Nat)} {arena : Arena} {c : Contribution} {number : Nat}

theorem empty : History [] Arena.empty where
  tidy := tidy_empty
  counted := rfl
  contributor_mem h := by cases h
  owned := by simp [Arena.empty]

/-- No owner has the number of a new contributor. -/
theorem foreign (h : History calls arena) (hnumber : number ∉ calls.map Prod.snd)
    {identity : Identity} {owner : Owner}
    (howner : OrderedMap.get? arena.owners identity = some owner) :
    owner.contributor ≠ number :=
  fun heq => hnumber (heq ▸ h.contributor_mem howner)

/-- The turn of a new contributor. -/
theorem turn_after (h : History calls arena) (hnumber : number ∉ calls.map Prod.snd)
    (c : Contribution) :
    Turn.After arena number c.listed c.entries (arena.turn number c) := by
  have hafter := (Turn.After.begin number c.listed h.tidy).foldl_place (h.foreign hnumber)
    c.entries
  rwa [List.nil_append] at hafter

/-- A folded entry finds the count that its own is added to. -/
theorem target_counted (h : History calls arena) (hnumber : number ∉ calls.map Prod.snd)
    {p : Placement} (hp : p ∈ (arena.merge number c).placements) (hfolded : p.folded = true) :
    p.target ∈ OrderedMap.keys arena.counts := by
  obtain ⟨item, -, hplaced⟩ := (h.turn_after hnumber c).exists_entry hp
  rw [hplaced.folded_eq] at hfolded
  obtain ⟨owner, howner⟩ := Option.isSome_iff_exists.1 hfolded
  rw [hplaced.target_eq owner howner, h.counted]
  exact h.tidy.owner_mem howner

/-- The counts of a turn can be written. -/
theorem writable (h : History calls arena) (hnumber : number ∉ calls.map Prod.snd)
    (c : Contribution) : Writable arena.counts (arena.merge number c).placements where
  mem _ hp hfolded := h.target_counted hnumber hp hfolded
  nodup := by
    have hafter := h.turn_after hnumber c
    rw [h.counted, merge_placements, ← hafter.locations]
    exact hafter.tidy.nodup

/-- The counts after the turn of a new contributor. -/
theorem counts_merge (h : History calls arena) (hnumber : number ∉ calls.map Prod.snd)
    (c : Contribution) :
    (arena.merge number c).arena.counts =
      ((arena.merge number c).placements.foldl writeCount (arena.counts, [])).1 := by
  rw [← (h.turn_after hnumber c).counts]
  rfl

/-- The ids of the counts after the turn of a new contributor. -/
theorem keys_counts_merge (h : History calls arena) (hnumber : number ∉ calls.map Prod.snd)
    (c : Contribution) :
    OrderedMap.keys (arena.merge number c).arena.counts =
      OrderedMap.keys (arena.merge number c).arena.locations := by
  rw [h.counts_merge hnumber, keys_foldl_writeCount (h.writable hnumber c), h.counted]
  exact (h.turn_after hnumber c).locations.symm

/-- The turn of a new contributor. -/
theorem merge (h : History calls arena) (hnumber : number ∉ calls.map Prod.snd)
    (c : Contribution) : History (calls ++ [(c, number)]) (arena.merge number c).arena where
  tidy := (h.turn_after hnumber c).tidy.close
  counted := h.keys_counts_merge hnumber c
  contributor_mem {identity owner} howner := by
    rw [List.map_append, List.mem_append]
    rcases (h.turn_after hnumber c).owner_new howner with hold | ⟨-, rfl⟩
    · exact .inl (h.contributor_mem hold)
    · exact .inr (List.mem_singleton.2 rfl)
  owned identity := by
    rw [merge_arena, Turn.close_owners, (h.turn_after hnumber c).owned, h.owned]
    simp [or_and_right, exists_or]

end History

/-- **History**: whatever numbered contributors bring, their turns leave a table with the invariants
above, as long as no number is used twice. -/
theorem history_afterTurns {calls : List (Contribution × Nat)}
    (hnumbers : (calls.map Prod.snd).Nodup) : History calls (empty.afterTurns calls) := by
  induction calls using List.reverseRecOn with
  | nil => exact History.empty
  | append_singleton calls call ih =>
    -- the last contributor is new to all turns before
    obtain ⟨hcalls, hnumber⟩ := nodup_numbers_before hnumbers
    rw [afterTurns_concat]
    exact (ih hcalls).merge hnumber call.1

end Arena

end CoverageLift
