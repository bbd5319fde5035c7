import CoverageLift.Proofs.Arena.Course

/-!
# The rows of a table

A table is read as a list of **rows**: its ids in order, each with the location and the count that
are written under it and the identity that it stands for. The owner of an identity is the first row
that has it (`Arena.Shows`).

What a turn does to the rows does not depend on ids. An entry whose identity has a row when the turn
begins is added to the first such row, and every other entry becomes a row of its own
(`absorb`). So the rows after any number of turns are, **apart from their ids**, what the entries of
the contributors alone make of each other (`Arena.exists_shows_afterTurns`).
-/

namespace CoverageLift

/-! ### Rows without ids -/

/-- An entry with the hits of another one added, if they can be added. -/
def Entry.plus (row entry : Entry) : Entry :=
  { row with count := (addCounts? row.count entry.count).getD row.count }

/-- Adds the hits of an entry to the first row that has its identity. -/
def addHits : (rows : List Entry) → Entry → List Entry
  | [], _ => []
  | row :: rows, entry =>
    if row.identity = entry.identity then row.plus entry :: rows else row :: addHits rows entry

/-- The rows with one more entry, in a turn that began with the rows `start`. -/
def absorbOne (start rows : List Entry) (entry : Entry) : List Entry :=
  if ∃ row ∈ start, row.identity = entry.identity then addHits rows entry else rows ++ [entry]

/-- The rows after a turn with these entries. -/
def absorb (rows entries : List Entry) : List Entry := entries.foldl (absorbOne rows) rows

/-- Entries that come first become rows as they are. -/
theorem absorb_nil (entries : List Entry) : absorb [] entries = entries := by
  have hfold : ∀ (entries rows : List Entry), entries.foldl (absorbOne []) rows = rows ++ entries := by
    intro entries
    induction entries with
    | nil => exact fun rows => (List.append_nil rows).symm
    | cons entry entries ih =>
      intro rows
      have hone : absorbOne [] rows entry = rows ++ [entry] := if_neg (by simp)
      rw [List.foldl_cons, hone, ih, ← List.append_cons]
  exact hfold entries []

theorem addHits_append_cons {before behind : List Entry} {row entry : Entry}
    (hbefore : ∀ r ∈ before, r.identity ≠ entry.identity) (hrow : row.identity = entry.identity) :
    addHits (before ++ row :: behind) entry = before ++ row.plus entry :: behind := by
  induction before with
  | nil => exact if_pos hrow
  | cons r before ih =>
    obtain ⟨hr, hbefore⟩ := List.forall_mem_cons.1 hbefore
    exact (if_neg hr).trans (congrArg (List.cons r) (ih hbefore))

/-- Adding hits changes no identity. -/
theorem map_identity_addHits (rows : List Entry) (entry : Entry) :
    (addHits rows entry).map (·.identity) = rows.map (·.identity) := by
  induction rows with
  | nil => rfl
  | cons row rows ih =>
    rw [addHits]
    split
    · rfl
    · exact congrArg (List.cons row.identity) ih

/-! What holds of all entries holds of all rows, when it is kept where hits are added. -/

section Kept

variable {P : Entry → Prop} {rows start entries : List Entry} {entry : Entry}
  (hplus : ∀ {row entry : Entry}, P row → P entry → row.identity = entry.identity →
    P (row.plus entry))

include hplus

theorem forall_addHits (hrows : ∀ row ∈ rows, P row) (hentry : P entry) :
    ∀ row ∈ addHits rows entry, P row := by
  induction rows with
  | nil => exact hrows
  | cons row rows ih =>
    obtain ⟨hrow, hrows⟩ := List.forall_mem_cons.1 hrows
    rw [addHits]
    split
    · next hsame => exact List.forall_mem_cons.2 ⟨hplus hrow hentry hsame, hrows⟩
    · exact List.forall_mem_cons.2 ⟨hrow, ih hrows⟩

theorem forall_absorbOne (hrows : ∀ row ∈ rows, P row) (hentry : P entry) :
    ∀ row ∈ absorbOne start rows entry, P row := by
  rw [absorbOne]
  split
  · exact forall_addHits hplus hrows hentry
  · exact List.forall_mem_append.2 ⟨hrows, List.forall_mem_singleton.2 hentry⟩

theorem forall_absorb (hrows : ∀ row ∈ rows, P row) (hentries : ∀ entry ∈ entries, P entry) :
    ∀ row ∈ absorb rows entries, P row := by
  have hfold : ∀ (entries done : List Entry), (∀ entry ∈ entries, P entry) →
      (∀ row ∈ done, P row) → ∀ row ∈ entries.foldl (absorbOne rows) done, P row := by
    intro entries
    induction entries with
    | nil => exact fun _ _ hdone => hdone
    | cons entry entries ih =>
      intro done hentries hdone
      obtain ⟨hentry, hentries⟩ := List.forall_mem_cons.1 hentries
      exact ih _ hentries (forall_absorbOne hplus hdone hentry)
  exact hfold entries rows hentries hrows

theorem forall_foldl_absorb {turns : List (List Entry)}
    (hturns : ∀ entries ∈ turns, ∀ entry ∈ entries, P entry) :
    ∀ row ∈ turns.foldl absorb [], P row := by
  induction turns using List.reverseRecOn with
  | nil => exact fun _ hrow => absurd hrow List.not_mem_nil
  | append_singleton turns entries ih =>
    obtain ⟨hturns, hentries⟩ := List.forall_mem_append.1 hturns
    rw [List.foldl_append]
    exact forall_absorb hplus (ih hturns) (List.forall_mem_singleton.1 hentries)

end Kept

/-! ### Tables as rows -/

/-- The table has these rows, and the owner of an identity is the first row that has it. -/
structure Arena.Shows (arena : Arena) (rows : OrderedMap Text Entry) : Prop where
  locations : arena.locations = rows.map fun row => (row.1, row.2.location)
  counts : arena.counts = rows.map fun row => (row.1, row.2.count)
  owner : ∀ identity, (OrderedMap.get? arena.owners identity).map (·.id) =
    OrderedMap.get? (rows.map fun row => (row.2.identity, row.1)) identity

namespace Arena.Shows

variable {arena : Arena} {rows : OrderedMap Text Entry}

theorem empty : Arena.empty.Shows [] := ⟨rfl, rfl, fun _ => rfl⟩

/-- A turn in which nothing has been placed yet leaves the rows as they are. -/
theorem close_begin (h : arena.Shows rows) (reserved : List Text) :
    (⟨arena, reserved, []⟩ : Turn).close.Shows rows :=
  ⟨h.locations, h.counts, h.owner⟩

theorem keys_locations (h : arena.Shows rows) :
    OrderedMap.keys arena.locations = OrderedMap.keys rows := by
  rw [h.locations, OrderedMap.keys, List.map_map]
  rfl

theorem keys_counts (h : arena.Shows rows) :
    OrderedMap.keys arena.counts = OrderedMap.keys rows := by
  rw [h.counts, OrderedMap.keys, List.map_map]
  rfl

/-- An identity has an owner when some row has it. -/
theorem owned_iff (h : arena.Shows rows) {identity : Identity} :
    (OrderedMap.get? arena.owners identity).isSome = true ↔
      ∃ row ∈ OrderedMap.values rows, row.identity = identity := by
  have hidentities : OrderedMap.keys (rows.map fun row => (row.2.identity, row.1)) =
      (OrderedMap.values rows).map (·.identity) := by
    simp [OrderedMap.keys, OrderedMap.values]
  rw [← Option.isSome_map, h.owner]
  refine (OrderedMap.contains_iff _ _).trans ?_
  rw [hidentities, List.mem_map]

/-- The owner of an identity is the first row that has it. -/
theorem exists_of_owner (h : arena.Shows rows) {identity : Identity} {owner : Owner}
    (howner : OrderedMap.get? arena.owners identity = some owner) :
    ∃ before row behind, rows = before ++ (owner.id, row) :: behind ∧ row.identity = identity ∧
      ∀ r ∈ before, r.2.identity ≠ identity := by
  have hget := h.owner identity
  rw [howner] at hget
  obtain ⟨before, behind, hrows, hnot⟩ := OrderedMap.get?_eq_some_iff_append.1 hget.symm
  obtain ⟨before, rest, rfl, rfl, hrest⟩ := List.map_eq_append_iff.1 hrows
  obtain ⟨⟨id, row⟩, behind, rfl, hrow, rfl⟩ := List.map_eq_cons_iff.1 hrest
  obtain ⟨rfl, rfl⟩ := Prod.mk.inj hrow
  refine ⟨before, row, behind, rfl, rfl, fun r hr heq => hnot ?_⟩
  exact List.mem_map.2 ⟨_, List.mem_map_of_mem hr, heq⟩

end Arena.Shows

/-! ### One placement -/

/-- A folded placement adds its count to that of its target. -/
theorem Arena.writeCount_of_folded {before behind : OrderedMap Text Json} {id target : Text}
    {present count : Json} (hnot : target ∉ OrderedMap.keys before) :
    (Arena.writeCount (before ++ (target, present) :: behind, []) ⟨id, target, true, count⟩).1 =
      before ++ (target, (addCounts? present count).getD present) :: behind := by
  have hget : OrderedMap.get? (before ++ (target, present) :: behind) target = some present :=
    OrderedMap.get?_eq_some_iff_append.2 ⟨before, behind, rfl, hnot⟩
  simp only [Arena.writeCount, hget]
  cases addCounts? present count with
  | none => rfl
  | some sum => exact OrderedMap.insert_append_cons hnot sum

namespace Turn

variable {number : Nat} {turn : Turn} {item : Text × Entry} {rows : OrderedMap Text Entry}

/-- The count of the entry is written when the turn is over. -/
theorem close_counts_place (number : Nat) (turn : Turn) (item : Text × Entry) :
    (turn.place number item).close.counts =
      (Arena.writeCount (turn.close.counts, [])
        ⟨item.1, turn.target number item, turn.folds number item, item.2.count⟩).1 := by
  have hcounts : (turn.place number item).arena.counts = turn.arena.counts := by
    rcases turn.place_cases number item.1 item.2 with
      ⟨_, -, hplace⟩ | ⟨-, -, hplace⟩ | ⟨-, -, hplace⟩
    · rw [hplace]
    · rw [hplace, Arena.add_counts]
    · rw [hplace, Arena.add_counts]
  -- what could not be added up does not matter to the counts
  have hfst : ∀ (state : OrderedMap Text Json × List (Json × Json)) (p : Placement),
      (Arena.writeCount state p).1 = (Arena.writeCount (state.1, []) p).1 := by
    intro state p
    simp only [Arena.writeCount]
    split
    · split <;> rfl
    · rfl
  rw [close, close, hcounts, place_placements, List.foldl_append, List.foldl_cons, List.foldl_nil]
  exact hfst _ _

/-- An entry that is not folded becomes a row under its target. -/
theorem shows_place_of_added (h : turn.close.Shows rows) (hfolds : turn.folds number item = false) :
    (turn.place number item).close.Shows (rows ++ [(turn.target number item, item.2)]) where
  locations := by
    have hlocations : turn.arena.locations = _ := h.locations
    rw [close_locations, place_locations, hfolds, if_neg Bool.false_ne_true,
      OrderedMap.insert_of_not_mem (target_not_mem hfolds), hlocations, List.map_append]
    rfl
  counts := by
    have hnot : turn.target number item ∉ OrderedMap.keys turn.close.counts := by
      rw [h.keys_counts, ← h.keys_locations]
      exact target_not_mem hfolds
    rw [close_counts_place, hfolds]
    refine (OrderedMap.insert_of_not_mem hnot _).trans ?_
    rw [h.counts, List.map_append]
    rfl
  owner identity := by
    have howner := h.owner identity
    rw [close_owners] at howner
    rw [close_owners, owners_place, Option.map_or, howner, List.map_append, OrderedMap.get?_append]
    refine congrArg (Option.or _) ?_
    by_cases heq : item.2.identity = identity
    · simp [heq, OrderedMap.get?_cons]
    · simp [heq, OrderedMap.get?_cons]

/-- A folded entry is added to the first row that has its identity. -/
theorem exists_shows_place_of_folds (h : turn.close.Shows rows)
    (htidy : turn.arena.Tidy turn.reserved) (hfolds : turn.folds number item = true) :
    ∃ rows', (turn.place number item).close.Shows rows' ∧
      OrderedMap.values rows' = addHits (OrderedMap.values rows) item.2 := by
  obtain ⟨owner, howner, -, htarget⟩ := exists_owner_of_folds hfolds
  obtain ⟨before, row, behind, rfl, hrow, hbefore⟩ := h.exists_of_owner howner
  refine ⟨before ++ (owner.id, row.plus item.2) :: behind, ⟨?_, ?_, fun identity => ?_⟩, ?_⟩
  · have hlocations := h.locations
    rw [close_locations] at hlocations
    rw [close_locations, place_locations, hfolds, if_pos rfl, hlocations]
    simp [Entry.plus]
  · have hnodup : (OrderedMap.keys (before ++ (owner.id, row) :: behind)).Nodup :=
      h.keys_locations ▸ htidy.nodup
    rw [OrderedMap.keys, List.map_append, List.map_cons] at hnodup
    have hnot : owner.id ∉ OrderedMap.keys (before.map fun row => (row.1, row.2.count)) := by
      rw [OrderedMap.keys, List.map_map]
      exact fun hmem => List.disjoint_of_nodup_append hnodup hmem List.mem_cons_self
    rw [close_counts_place, hfolds, htarget, h.counts, List.map_append, List.map_cons,
      List.map_append, List.map_cons]
    exact Arena.writeCount_of_folded hnot
  · -- the identity of the entry has its owner already
    have howners : OrderedMap.get? (turn.place number item).arena.owners identity =
        OrderedMap.get? turn.arena.owners identity := by
      rw [owners_place]
      split
      · next heq => rw [← heq, howner, Option.some_or]
      · rw [Option.or_none]
    have hshows := h.owner identity
    rw [close_owners] at hshows
    rw [close_owners, howners, hshows]
    simp [Entry.plus]
  · rw [OrderedMap.values_append, OrderedMap.values_append]
    refine (addHits_append_cons ?_ hrow).symm
    exact List.forall_mem_map.2 hbefore

end Turn

/-! ### Turns -/

section Turns

variable {start : Arena} {number : Nat} {listed : List Text} {calls : List (Contribution × Nat)}

/-- Placing the entries of a turn that began with the rows `present`. -/
theorem Turn.After.exists_shows_foldl
    (hforeign : ∀ {identity owner}, OrderedMap.get? start.owners identity = some owner →
      owner.contributor ≠ number) {present : OrderedMap Text Entry} (hstart : start.Shows present) :
    ∀ (rest : OrderedMap Text Entry) {done : OrderedMap Text Entry} {turn : Turn}
      {rows : OrderedMap Text Entry},
      Turn.After start number listed done turn → turn.close.Shows rows →
        ∃ rows', (rest.foldl (Turn.place number) turn).close.Shows rows' ∧
          OrderedMap.values rows' = (OrderedMap.values rest).foldl
            (absorbOne (OrderedMap.values present)) (OrderedMap.values rows) := by
  intro rest
  induction rest with
  | nil => exact fun _ hshows => ⟨_, hshows, rfl⟩
  | cons item rest ih =>
    intro done turn rows hafter hshows
    have hnext := hafter.place hforeign item.1 item.2
    -- whether the entry is folded was decided when the turn began
    have hfolds : turn.folds number item = true ↔
        ∃ row ∈ OrderedMap.values present, row.identity = item.2.identity := by
      rw [Turn.folds, hafter.otherOwner?_eq hforeign, Option.isSome_map, hstart.owned_iff]
    rw [List.foldl_cons, OrderedMap.values_cons, List.foldl_cons, absorbOne]
    by_cases hrow : ∃ row ∈ OrderedMap.values present, row.identity = item.2.identity
    · obtain ⟨rows', hshows', hvalues⟩ :=
        Turn.exists_shows_place_of_folds hshows hafter.tidy (hfolds.2 hrow)
      rw [if_pos hrow, ← hvalues]
      exact ih hnext hshows'
    · have hshows' := Turn.shows_place_of_added hshows
        (Bool.eq_false_iff.2 fun hfolded => hrow (hfolds.1 hfolded))
      rw [if_neg hrow]
      have hrest := ih hnext hshows'
      rwa [OrderedMap.values_append] at hrest

namespace Arena

/-- **One turn**: the rows take in the entries of a new contributor. -/
theorem History.exists_shows_merge (h : History calls start) (hnumber : number ∉ calls.map Prod.snd)
    {rows : OrderedMap Text Entry} (hshows : start.Shows rows) (c : Contribution) :
    ∃ rows', (start.merge number c).arena.Shows rows' ∧
      OrderedMap.values rows' = absorb (OrderedMap.values rows) (OrderedMap.values c.entries) :=
  Turn.After.exists_shows_foldl (h.foreign hnumber) hshows c.entries
    (Turn.After.begin number c.listed h.tidy) (hshows.close_begin c.listed)

/-- **All turns**: the rows of a table are what the entries of the contributors make of each other. -/
theorem exists_shows_afterTurns (hnumbers : (calls.map Prod.snd).Nodup) :
    ∃ rows, (empty.afterTurns calls).Shows rows ∧
      OrderedMap.values rows =
        (calls.map fun call => OrderedMap.values call.1.entries).foldl absorb [] := by
  induction calls using List.reverseRecOn with
  | nil => exact ⟨[], .empty, rfl⟩
  | append_singleton calls call ih =>
    obtain ⟨hcalls, hnumber⟩ := nodup_numbers_before hnumbers
    obtain ⟨rows, hshows, hvalues⟩ := ih hcalls
    obtain ⟨rows', hshows', hvalues'⟩ :=
      (history_afterTurns hcalls).exists_shows_merge hnumber hshows call.1
    refine ⟨rows', (afterTurns_concat empty calls call).symm ▸ hshows', ?_⟩
    rw [hvalues', hvalues, List.map_append, List.foldl_append]
    rfl

/-- The turn of a contributor that is the first one: every entry becomes a row under its own id. -/
theorem shows_merge_empty (number : Nat) {c : Contribution}
    (hkeys : (OrderedMap.keys c.entries).Nodup) : (empty.merge number c).arena.Shows c.entries := by
  have hforeign : ∀ {identity owner}, OrderedMap.get? empty.owners identity = some owner →
      owner.contributor ≠ number := fun howner => nomatch howner
  have hplaces : ∀ (rest : OrderedMap Text Entry) {done : OrderedMap Text Entry} {turn : Turn},
      Turn.After empty number c.listed done turn → turn.close.Shows done →
        (OrderedMap.keys (done ++ rest)).Nodup →
          (rest.foldl (Turn.place number) turn).close.Shows (done ++ rest) := by
    intro rest
    induction rest with
    | nil =>
      intro done turn _ hshows _
      rwa [List.append_nil]
    | cons item rest ih =>
      intro done turn hafter hshows hnodup
      have hfolds : turn.folds number item = false := by
        rw [Turn.folds, hafter.otherOwner?_eq hforeign]
        rfl
      have hfree : turn.isFree item.1 = true := by
        rw [Turn.isFree_iff, hafter.claimed, ← Turn.close_locations, hshows.keys_locations]
        refine ⟨List.not_mem_nil, fun hmem => ?_⟩
        rw [OrderedMap.keys, List.map_append] at hnodup
        exact List.disjoint_of_nodup_append hnodup hmem List.mem_cons_self
      have hplaced := Turn.shows_place_of_added hshows hfolds
      rw [Turn.target_eq_of_isFree hfolds hfree] at hplaced
      rw [List.append_cons] at hnodup ⊢
      exact ih (hafter.place hforeign item.1 item.2) hplaced hnodup
  exact hplaces c.entries (Turn.After.begin number c.listed tidy_empty)
    (Shows.empty.close_begin c.listed) hkeys

end Arena

end Turns

end CoverageLift
