import CoverageLift.Proofs.Arena.LeastFree

/-!
# Tables only grow

A turn never takes anything away from a table. What it adds goes under ids that are new in every
sense, and what it folds goes to entries of other contributors:

* `Turn.Extends` says what the entries placed so far have added to the table at the beginning of the
  turn; one placement keeps it (`Turn.Extends.place`), whatever else the table holds;
* `Arena.Claimed` says that all ids of a table are claimed between the turns. It needs that
  contributors list the ids of their entries, and it is what makes new ids **unclaimed**, too;
* `Arena.owner_added` traces an owner back to the turn in which its entry was added.

Together they are **one turn that never overwrites** (`Arena.merge_grows`).
-/

namespace CoverageLift

/-- Contributors list the ids of their entries. -/
def Contribution.ListsEntries (c : Contribution) : Prop := ∀ item ∈ c.entries, item.1 ∈ c.listed

instance (c : Contribution) : Decidable c.ListsEntries :=
  inferInstanceAs (Decidable (∀ item ∈ c.entries, item.1 ∈ c.listed))

/-- In a turn of contributor `number` an entry of the identity was added under the id. -/
def AddedBefore (calls : List (Contribution × Nat)) (number : Nat) (identity : Identity)
    (id : Text) : Prop :=
  ∃ earlier c later, calls = earlier ++ (c, number) :: later ∧
    ∃ pair ∈ c.entries.zip ((Arena.empty.afterTurns earlier).merge number c).placements,
      pair.1.2.identity = identity ∧ pair.2.folded = false ∧ pair.2.target = id

theorem AddedBefore.append {calls : List (Contribution × Nat)} {number : Nat} {identity : Identity}
    {id : Text} (h : AddedBefore calls number identity id) (more : List (Contribution × Nat)) :
    AddedBefore (calls ++ more) number identity id := by
  obtain ⟨earlier, c, later, rfl, hpair⟩ := h
  exact ⟨earlier, c, later ++ more, by simp, hpair⟩

/-! ### What a turn adds -/

/-- What becomes of an entry that is not folded: it goes under an id that was neither in the table
nor claimed when the turn began, and its location stands there. -/
def Added (start arena : Arena) (item : Text × Entry) (p : Placement) : Prop :=
  p.folded = false → p.target ∉ OrderedMap.keys start.locations ∧ p.target ∉ start.claimed ∧
    OrderedMap.get? arena.locations p.target = some item.2.location

namespace Turn

variable {start : Arena} {number : Nat} {turn : Turn} {done : OrderedMap Text Entry}

/-- What the entries `done` have added to the table that the turn began with. -/
structure Extends (start : Arena) (number : Nat) (done : OrderedMap Text Entry) (turn : Turn) :
    Prop where
  tidy : turn.arena.Tidy turn.reserved
  claimed : turn.arena.claimed = start.claimed
  /-- locations stay -/
  location : ∀ {id location}, OrderedMap.get? start.locations id = some location →
    OrderedMap.get? turn.arena.locations id = some location
  added : List.Forall₂ (Added start turn.arena) done turn.placements
  /-- a new owner is an entry that was added -/
  owner : ∀ {identity owner}, OrderedMap.get? turn.arena.owners identity = some owner →
    OrderedMap.get? start.owners identity = some owner ∨
      ∃ pair ∈ done.zip turn.placements, pair.1.2.identity = identity ∧ pair.2.folded = false ∧
        owner = ⟨pair.2.target, number⟩

/-- A location stays when an entry is placed. -/
theorem get?_place_of_some (h : turn.arena.Tidy turn.reserved) {id : Text} {location : Json}
    (hlocation : OrderedMap.get? turn.arena.locations id = some location) (item : Text × Entry) :
    OrderedMap.get? (turn.place number item).arena.locations id = some location := by
  rw [get?_place_locations h, hlocation, Option.some_or]

namespace Extends

/-- Nothing has been added at the beginning of a turn. -/
theorem begin (h : start.Tidy []) (number : Nat) (listed : List Text) :
    Extends start number [] ⟨start, listed, []⟩ where
  tidy := h.mono (List.nil_subset _)
  claimed := rfl
  location := id
  added := .nil
  owner := .inl

/-- The entry that is placed is added, unless it is folded. -/
theorem added_place (h : Extends start number done turn) (item : Text × Entry) :
    Added start (turn.place number item).arena item
      ⟨item.1, turn.target number item, turn.folds number item, item.2.count⟩ := by
  intro hfolds
  have hnew : turn.target number item ∉ OrderedMap.keys turn.arena.locations :=
    target_not_mem hfolds
  refine ⟨fun hmem => ?_, h.claimed ▸ target_not_claimed hfolds, ?_⟩
  · obtain ⟨location, hlocation⟩ := OrderedMap.exists_get?_of_mem hmem
    rw [← OrderedMap.get?_eq_none_iff, h.location hlocation] at hnew
    cases hnew
  · rw [get?_place_locations h.tidy, OrderedMap.get?_eq_none_iff.2 hnew, Option.none_or, if_pos rfl]

/-- **One placement** extends the table further. -/
theorem place (h : Extends start number done turn) (item : Text × Entry) :
    Extends start number (done ++ [item]) (turn.place number item) where
  tidy := tidy_place h.tidy number item
  claimed := (place_claimed number turn item).trans h.claimed
  location hlocation := get?_place_of_some h.tidy (h.location hlocation) item
  added := by
    rw [place_placements]
    refine List.rel_append (h.added.imp fun _ _ hadded hfolded => ?_) (.cons (h.added_place item) .nil)
    obtain ⟨hmem, hclaimed, hlocation⟩ := hadded hfolded
    exact ⟨hmem, hclaimed, get?_place_of_some h.tidy hlocation item⟩
  owner howner := by
    rw [place_placements, List.zip_append h.added.length_eq]
    rcases owners_place_eq_some.1 howner with howner | ⟨hnone, hidentity, rfl⟩
    · refine (h.owner howner).imp_right ?_
      rintro ⟨pair, hpair, hadded⟩
      exact ⟨pair, List.mem_append_left _ hpair, hadded⟩
    · -- an identity without an owner is not folded
      have hfolds : turn.folds number item = false := by
        rw [folds_eq_false_iff, hidentity, hnone]
        exact fun _ howner => nomatch howner
      exact .inr ⟨_, List.mem_append_right _ List.mem_cons_self, hidentity, hfolds, rfl⟩

/-- Placing all entries that are left. -/
theorem foldl_place : ∀ (rest : OrderedMap Text Entry) {done : OrderedMap Text Entry} {turn : Turn},
    Extends start number done turn →
      Extends start number (done ++ rest) (rest.foldl (Turn.place number) turn) := by
  intro rest
  induction rest with
  | nil =>
    intro done turn h
    rwa [List.append_nil]
  | cons item rest ih =>
    intro done turn h
    rw [List.foldl_cons, List.append_cons]
    exact ih (h.place item)

end Extends

end Turn

namespace Arena

variable {arena : Arena} {number : Nat} {c : Contribution} {calls : List (Contribution × Nat)}

/-- The turn of a contributor extends the table. -/
theorem Tidy.extends_turn (h : arena.Tidy []) (number : Nat) (c : Contribution) :
    Turn.Extends arena number c.entries (arena.turn number c) := by
  have hextends := (Turn.Extends.begin h number c.listed).foldl_place c.entries
  rwa [List.nil_append] at hextends

/-! ### Owners -/

/-- An owner is an entry that was added in the turn of its contributor. -/
theorem owner_added {identity : Identity} {owner : Owner} :
    OrderedMap.get? (empty.afterTurns calls).owners identity = some owner →
      AddedBefore calls owner.contributor identity owner.id := by
  induction calls using List.reverseRecOn with
  | nil => exact fun h => nomatch h
  | append_singleton calls call ih =>
    intro howner
    rw [afterTurns_concat, merge_arena, Turn.close_owners] at howner
    rcases ((tidy_afterTurns calls).extends_turn call.2 call.1).owner howner with
      hold | ⟨pair, hpair, hidentity, hfolded, rfl⟩
    · exact (ih hold).append [call]
    · exact ⟨calls, call.1, [], rfl, pair, hpair, hidentity, hfolded, rfl⟩

/-! ### Claimed ids -/

/-- All ids of the table are claimed. -/
def Claimed (arena : Arena) : Prop := OrderedMap.keys arena.locations ⊆ arena.claimed

namespace History

variable (h : History calls arena) (hnumber : number ∉ calls.map Prod.snd)

include h hnumber

/-- A turn claims what its contributor lists and the ids that it adds. -/
theorem mem_claimed_merge (hlisted : c.ListsEntries) {id : Text} :
    id ∈ (arena.merge number c).arena.claimed ↔
      id ∈ arena.claimed ∨ id ∈ c.listed ∨ id ∈ addedIds (arena.merge number c).placements := by
  have hafter := h.turn_after hnumber c
  rw [merge_arena, Turn.close_claimed, List.mem_append, hafter.claimed, merge_placements,
    holdsBack_turn arena number c id]
  refine or_congr_right ⟨Or.imp_right ?_, fun hid => ?_⟩
  · rintro ⟨p, hp, hfolded, -, rfl⟩
    exact Turn.After.mem_addedIds hp hfolded
  · rcases hid with hid | hid
    · exact .inl hid
    · obtain ⟨p, hp, rfl⟩ := List.mem_map.1 hid
      obtain ⟨hp, hfolded⟩ := List.mem_filter.1 hp
      by_cases hkept : p.target = p.id
      · -- the entry keeps its id, which is listed
        obtain ⟨item, hitem, hplaced⟩ := hafter.exists_entry hp
        rw [hkept, hplaced.id_eq]
        exact .inl (hlisted item hitem)
      · exact .inr ⟨p, hp, by simpa using hfolded, hkept, rfl⟩

/-- **One turn** leaves all ids of the table claimed. -/
theorem claimed_merge (hclaimed : arena.Claimed) (hlisted : c.ListsEntries) :
    (arena.merge number c).arena.Claimed := by
  intro id hid
  rw [merge_arena, Turn.close_locations, (h.turn_after hnumber c).locations, List.mem_append] at hid
  rw [h.mem_claimed_merge hnumber hlisted, merge_placements]
  exact hid.imp (fun hid => hclaimed hid) .inr

/-! ### Counts -/

/-- The placements on an id of the table are folded. -/
theorem folded_of_target_mem {p : Placement} (hp : p ∈ (arena.merge number c).placements)
    (hmem : p.target ∈ OrderedMap.keys arena.locations) : p.folded = true := by
  by_contra hfolded
  exact List.disjoint_of_nodup_append (h.turn_after hnumber c).nodup_added hmem
    (Turn.After.mem_addedIds hp (Bool.eq_false_iff.2 hfolded))

/-- The count of an id of the table stays if nothing is folded into it. -/
theorem get?_counts_merge_of_not_folded {id : Text} (hid : id ∈ OrderedMap.keys arena.locations)
    (hnone : ∀ p ∈ (arena.merge number c).placements, p.folded = true → p.target ≠ id) :
    OrderedMap.get? (arena.merge number c).arena.counts id = OrderedMap.get? arena.counts id := by
  have hplacements :
      ((arena.merge number c).placements.filter fun p => p.target = id) = [] := by
    refine List.filter_eq_nil_iff.2 fun p hp htarget => ?_
    have htarget : p.target = id := of_decide_eq_true htarget
    exact hnone p hp (h.folded_of_target_mem hnumber hp (htarget ▸ hid)) htarget
  rw [h.counts_merge hnumber, get?_foldl_writeCount, hplacements]
  rfl

/-- The count of an added entry stands under its new id. -/
theorem get?_counts_merge_of_added {p : Placement} (hp : p ∈ (arena.merge number c).placements)
    (hfolded : p.folded = false) :
    OrderedMap.get? (arena.merge number c).arena.counts p.target = some p.count := by
  have hafter := h.turn_after hnumber c
  -- every placement on the new id is this one, and the last of them decides
  have hsame : ∀ q ∈ (arena.merge number c).placements.filter fun q => q.target = p.target,
      q = p := by
    intro q hq
    obtain ⟨hq, htarget⟩ := List.mem_filter.1 hq
    have htarget : q.target = p.target := of_decide_eq_true htarget
    cases hqfolded : q.folded with
    | true => exact absurd htarget (hafter.target_ne h.tidy hq hp hqfolded hfolded)
    | false => exact hafter.eq_of_target_eq hq hp hqfolded hfolded htarget
  rw [h.counts_merge hnumber, get?_foldl_writeCount]
  obtain hnil | ⟨before, last, hlast⟩ := List.eq_nil_or_concat
    ((arena.merge number c).placements.filter fun q => q.target = p.target)
  · exact absurd (decide_eq_true rfl) (List.filter_eq_nil_iff.1 hnil p hp)
  · have hp' : last = p := hsame last (by simp [hlast])
    rw [hlast, List.concat_eq_append, List.foldl_append, hp']
    simp [Placement.countAfter, hfolded]

end History

/-- **Any number of turns** of contributors with distinct numbers leaves all ids claimed. -/
theorem claimed_afterTurns (hnumbers : (calls.map Prod.snd).Nodup)
    (hlisted : ∀ call ∈ calls, call.1.ListsEntries) : (empty.afterTurns calls).Claimed := by
  induction calls using List.reverseRecOn with
  | nil => exact List.nil_subset _
  | append_singleton calls call ih =>
    obtain ⟨hcalls, hnumber⟩ := nodup_numbers_before hnumbers
    obtain ⟨hlisted, hlast⟩ := List.forall_mem_append.1 hlisted
    rw [afterTurns_concat]
    exact (history_afterTurns hcalls).claimed_merge hnumber (ih hcalls hlisted)
      (hlast call List.mem_cons_self)

/-! ### One more turn -/

/-- What becomes of an entry of contributor `number` in a turn that makes the table `after` of the
table `before`, which the turns `calls` have left behind. -/
inductive Fate (calls : List (Contribution × Nat)) (before after : Arena) (number : Nat)
    (item : Text × Entry) : Placement → Prop
  /-- No earlier contributor has its identity, and it goes under a new id. -/
  | added {id : Text} (hfirst : ¬ Occurs calls item.2.identity)
      (hnew : id ∉ OrderedMap.keys before.locations) (hunclaimed : id ∉ before.claimed)
      (hlocation : OrderedMap.get? after.locations id = some item.2.location)
      (hcount : OrderedMap.get? after.counts id = some item.2.count) :
      Fate calls before after number item ⟨item.1, id, false, item.2.count⟩
  /-- It goes to the entry with its identity that another contributor has added. -/
  | folded {owner : Owner}
      (howner : OrderedMap.get? before.owners item.2.identity = some owner)
      (hmem : owner.id ∈ OrderedMap.keys before.locations) (hother : owner.contributor ≠ number)
      (hadded : AddedBefore calls owner.contributor item.2.identity owner.id) :
      Fate calls before after number item ⟨item.1, owner.id, true, item.2.count⟩

/-- What one more turn, of contributor `number` with `c`, does to the table `before`. -/
structure Grows (calls : List (Contribution × Nat)) (before : Arena) (number : Nat)
    (c : Contribution) (merged : Merged) : Prop where
  /-- every id of the table keeps its location -/
  location : ∀ id ∈ OrderedMap.keys before.locations,
    OrderedMap.get? merged.arena.locations id = OrderedMap.get? before.locations id
  /-- every entry is added or folded -/
  placed : List.Forall₂ (Fate calls before merged.arena number) c.entries merged.placements
  /-- no two entries are added under one id -/
  nodup : (addedIds merged.placements).Nodup
  /-- every id of the table keeps its count unless something is folded into it -/
  count : ∀ id ∈ OrderedMap.keys before.locations,
    (∀ p ∈ merged.placements, p.folded = true → p.target ≠ id) →
      OrderedMap.get? merged.arena.counts id = OrderedMap.get? before.counts id
  /-- the listed ids and those of added entries are claimed in addition -/
  mem_claimed_iff : ∀ id, id ∈ merged.arena.claimed ↔
    id ∈ before.claimed ∨ id ∈ c.listed ∨ id ∈ addedIds merged.placements
  /-- and so all ids of the table are -/
  claimed : merged.arena.Claimed

/-- Every entry of a new contributor is added or folded. -/
theorem fate_of_mem_zip (hcalls : (calls.map Prod.snd).Nodup) (hnumber : number ∉ calls.map Prod.snd)
    {item : Text × Entry} {p : Placement}
    (hpair : (item, p) ∈ c.entries.zip ((empty.afterTurns calls).merge number c).placements) :
    Fate calls (empty.afterTurns calls) ((empty.afterTurns calls).merge number c).arena number
      item p := by
  have h : History calls (empty.afterTurns calls) := history_afterTurns hcalls
  have hplaced := (List.forall₂_iff_zip.1 (h.turn_after hnumber c).placed).2 hpair
  have hadded := (List.forall₂_iff_zip.1 (h.tidy.extends_turn number c).added).2 hpair
  have hcount := h.get?_counts_merge_of_added hnumber (List.of_mem_zip hpair).2
  obtain ⟨hid, hcount', hfolded, htarget⟩ := hplaced
  obtain ⟨id, target, folded, count⟩ := p
  obtain rfl : id = item.1 := hid
  obtain rfl : count = item.2.count := hcount'
  cases folded with
  | false =>
    obtain ⟨hnew, hunclaimed, hlocation⟩ := hadded rfl
    refine .added (fun hoccurs => ?_) hnew hunclaimed hlocation (hcount rfl)
    have hsome := (h.owned item.2.identity).2 hoccurs
    rw [← hfolded] at hsome
    cases hsome
  | true =>
    obtain ⟨owner, howner⟩ := Option.isSome_iff_exists.1 hfolded.symm
    obtain rfl : target = owner.id := htarget owner howner
    exact .folded howner (h.tidy.owner_mem howner) (h.foreign hnumber howner) (owner_added howner)

/-- **Growth.** After any turns of contributors with distinct numbers that list the ids of their
entries, one more turn overwrites nothing. -/
theorem merge_grows (calls : List (Contribution × Nat)) (c : Contribution) (number : Nat)
    (hnumbers : ((calls ++ [(c, number)]).map Prod.snd).Nodup)
    (hlisted : ∀ call ∈ calls ++ [(c, number)], call.1.ListsEntries) :
    Grows calls (empty.afterTurns calls) number c ((empty.afterTurns calls).merge number c) := by
  obtain ⟨hcalls, hnumber⟩ := nodup_numbers_before hnumbers
  obtain ⟨hlisted, hlast⟩ := List.forall_mem_append.1 hlisted
  have hc : c.ListsEntries := hlast (c, number) List.mem_cons_self
  have h : History calls (empty.afterTurns calls) := history_afterTurns hcalls
  have hafter := h.turn_after hnumber c
  have hextends := h.tidy.extends_turn number c
  refine
    { location := fun id hid => ?_
      placed := List.forall₂_iff_zip.2
        ⟨hafter.placed.length_eq, fun hpair => fate_of_mem_zip hcalls hnumber hpair⟩
      nodup := List.Nodup.of_append_right hafter.nodup_added
      count := fun id hid hnone => h.get?_counts_merge_of_not_folded hnumber hid hnone
      mem_claimed_iff := fun id => h.mem_claimed_merge hnumber hc
      claimed := h.claimed_merge hnumber (claimed_afterTurns hcalls hlisted) hc }
  obtain ⟨location, hlocation⟩ := OrderedMap.exists_get?_of_mem hid
  rw [hlocation]
  exact hextends.location hlocation

/-- A second contributor with the ids `0`, `1` and `2`: its first entry is folded into the line that
is there as `1`, the second one has to give way to `3`, since `2` is held back, and the third one keeps
its id. -/
theorem merge_grows_of_two_contributors :
    let calls := [(⟨["0", "1"], [("0", .onLine 1 5), ("1", .onLine 2 6)]⟩, 0)]
    let c : Contribution :=
      ⟨["0", "1", "2"], [("0", .onLine 2 7), ("1", .onLine 3 8), ("2", .onLine 4 9)]⟩
    ((calls ++ [(c, 1)]).map Prod.snd).Nodup ∧
      (∀ call ∈ calls ++ [(c, 1)], call.1.ListsEntries) ∧
      ((empty.afterTurns calls).merge 1 c).ids.map Prod.snd = (["1", "3", "2"] : List Text) ∧
      Grows calls (empty.afterTurns calls) 1 c ((empty.afterTurns calls).merge 1 c) := by
  intro calls c
  have hnumbers : ((calls ++ [(c, 1)]).map Prod.snd).Nodup := by decide
  have hlisted : ∀ call ∈ calls ++ [(c, 1)], call.1.ListsEntries := by decide
  exact ⟨hnumbers, hlisted, by decide, merge_grows calls c 1 hnumbers hlisted⟩

end Arena

end CoverageLift
