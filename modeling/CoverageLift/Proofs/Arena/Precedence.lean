import CoverageLift.Proofs.Arena.Rows
import Mathlib.Algebra.BigOperators.Group.List.Basic
import Mathlib.Algebra.Ring.Int.Defs

/-!
# Rows that come first

The rows of the first contributor stay in front, under their ids and in their order, whatever later
contributors bring. All that may happen to such a row is that hits are added to it, and only the
first row of an identity is given any: those of every later entry that has this identity, in the
order of the entries (`feed_append_cons`).
-/

namespace CoverageLift

/-! ### Counts that are raised -/

/-- A count with other counts added one after the other, as far as they can be added. -/
def raised (count : Json) (others : List Json) : Json :=
  others.foldl (fun count other => (addCounts? count other).getD count) count

theorem raised_cons (count other : Json) (others : List Json) :
    raised count (other :: others) = raised ((addCounts? count other).getD count) others := rfl

/-- A number of hits is raised by the numbers among the others. -/
theorem raised_int (n : Int) (others : List Json) :
    raised (.int n) others = .int (n + (others.map hits).sum) := by
  induction others generalizing n with
  | nil => rw [List.map_nil, List.sum_nil, Int.add_zero]; rfl
  | cons other others ih =>
    have hone : (addCounts? (.int n) other).getD (.int n) = .int (n + hits other) := by
      cases other with
      | int m => rfl
      | _ => exact congrArg Json.int (Int.add_zero n).symm
    rw [raised_cons, hone, ih, List.map_cons, List.sum_cons, Int.add_assoc]

/-- A count to which none of the others can be added stays as it is. -/
theorem raised_of_unsummable {count : Json} {others : List Json}
    (h : ∀ other ∈ others, addCounts? count other = none) : raised count others = count := by
  induction others with
  | nil => rfl
  | cons other others ih =>
    obtain ⟨hother, hothers⟩ := List.forall_mem_cons.1 h
    rw [raised_cons, hother]
    exact ih hothers

/-- The counts of the entries that have an identity. -/
def countsOf (entries : List Entry) (identity : Identity) : List Json :=
  (entries.filter fun entry => entry.identity = identity).map (·.count)

/-- A row with the hits of all entries added that have its identity. -/
def Entry.raisedBy (row : Entry) (entries : List Entry) : Entry :=
  { row with count := raised row.count (countsOf entries row.identity) }

@[simp] theorem Entry.identity_raisedBy (row : Entry) (entries : List Entry) :
    (row.raisedBy entries).identity = row.identity := rfl

@[simp] theorem Entry.raisedBy_nil (row : Entry) : row.raisedBy [] = row := rfl

theorem Entry.raisedBy_cons (row entry : Entry) (entries : List Entry) :
    row.raisedBy (entry :: entries) = (row.raisedBy [entry]).raisedBy entries := by
  by_cases h : entry.identity = row.identity
  · simp [raisedBy, countsOf, raised, h]
  · simp [raisedBy, countsOf, raised, h]

/-- An entry raises the count of a row that has its identity. -/
theorem Entry.raisedBy_singleton (row entry : Entry) :
    row.raisedBy [entry] = if row.identity = entry.identity then row.plus entry else row := by
  by_cases h : row.identity = entry.identity
  · simp [raisedBy, countsOf, raised, plus, h]
  · simp [raisedBy, countsOf, raised, Ne.symm h, h]

/-! ### Hits that are added to some rows -/

section Hits

/-- Adding hits changes no location. -/
theorem map_location_addHits (rows : List Entry) (entry : Entry) :
    (addHits rows entry).map (·.location) = rows.map (·.location) := by
  induction rows with
  | nil => rfl
  | cons row rows ih =>
    rw [addHits]
    split
    · rfl
    · exact congrArg (List.cons row.location) ih

theorem map_location_foldl_addHits (entries rows : List Entry) :
    (entries.foldl addHits rows).map (·.location) = rows.map (·.location) := by
  induction entries generalizing rows with
  | nil => rfl
  | cons entry entries ih => rw [List.foldl_cons, ih, map_location_addHits]

/-- Hits of an identity that no row has are not added. -/
theorem addHits_of_not_mem {rows : List Entry} {entry : Entry}
    (h : entry.identity ∉ rows.map (·.identity)) : addHits rows entry = rows := by
  induction rows with
  | nil => rfl
  | cons row rows ih =>
    obtain ⟨hrow, hrows⟩ := not_or.1 (mt List.mem_cons.2 h)
    exact (if_neg (Ne.symm hrow)).trans (congrArg (List.cons row) (ih hrows))

/-- Hits of an identity that some of the first rows has are added to them. -/
theorem addHits_append_of_mem {first : List Entry} {entry : Entry}
    (h : entry.identity ∈ first.map (·.identity)) (rows : List Entry) :
    addHits (first ++ rows) entry = addHits first entry ++ rows := by
  induction first with
  | nil => exact absurd h List.not_mem_nil
  | cons row first ih =>
    rw [List.cons_append, addHits, addHits]
    split
    · rfl
    · next hrow =>
      exact congrArg (List.cons row) (ih ((List.mem_cons.1 h).resolve_left (Ne.symm hrow)))

theorem addHits_append_of_not_mem {first : List Entry} {entry : Entry}
    (h : entry.identity ∉ first.map (·.identity)) (rows : List Entry) :
    addHits (first ++ rows) entry = first ++ addHits rows entry := by
  induction first with
  | nil => rfl
  | cons row first ih =>
    obtain ⟨hrow, hfirst⟩ := not_or.1 (mt List.mem_cons.2 h)
    exact (if_neg (Ne.symm hrow)).trans (congrArg (List.cons row) (ih hfirst))

/-- The entries of a turn are added to rows that have the identities of the first ones, and nothing
else happens to these: what has no place among them goes behind them. -/
theorem exists_foldl_absorbOne_append {first rows : List Entry} (entries : List Entry) :
    ∀ first' rows' : List Entry, first'.map (·.identity) = first.map (·.identity) →
      ∃ rows'', entries.foldl (absorbOne (first ++ rows)) (first' ++ rows') =
        entries.foldl addHits first' ++ rows'' := by
  induction entries with
  | nil => exact fun _ rows' _ => ⟨rows', rfl⟩
  | cons entry entries ih =>
    intro first' rows' hsame
    rw [List.foldl_cons, List.foldl_cons, absorbOne]
    by_cases hfirst : entry.identity ∈ first'.map (·.identity)
    · have hpresent : ∃ row ∈ first ++ rows, row.identity = entry.identity := by
        obtain ⟨row, hrow, heq⟩ := List.mem_map.1 (hsame ▸ hfirst)
        exact ⟨row, List.mem_append_left _ hrow, heq⟩
      rw [if_pos hpresent, addHits_append_of_mem hfirst]
      exact ih _ _ ((map_identity_addHits _ _).trans hsame)
    · -- the entry goes to a row behind the first ones, or becomes one
      rw [addHits_append_of_not_mem hfirst, addHits_of_not_mem hfirst]
      split
      · exact ih _ _ hsame
      · rw [List.append_assoc]
        exact ih _ _ hsame

/-- What a turn does to the first rows of a table is to add hits to them. -/
theorem exists_absorb_append (first rows entries : List Entry) :
    ∃ rows', absorb (first ++ rows) entries = entries.foldl addHits first ++ rows' :=
  exists_foldl_absorbOne_append entries first rows rfl

/-- What an entry does to a row: it raises the count unless a row before has the same identity. -/
theorem exists_addHits_append_cons (before : List Entry) (row : Entry) (behind : List Entry)
    (entry : Entry) :
    ∃ before' behind', before'.map (·.identity) = before.map (·.identity) ∧
      addHits (before ++ row :: behind) entry = before' ++
        (if row.identity ∈ before.map (·.identity) then row else row.raisedBy [entry]) :: behind' := by
  rw [Entry.raisedBy_singleton]
  by_cases hbefore : entry.identity ∈ before.map (·.identity)
  · refine ⟨addHits before entry, behind, map_identity_addHits _ _, ?_⟩
    rw [addHits_append_of_mem hbefore]
    split
    · rfl
    · next hnot => rw [if_neg fun heq : row.identity = entry.identity => hnot (heq ▸ hbefore)]
  · rw [addHits_append_of_not_mem hbefore, addHits]
    by_cases hrow : row.identity = entry.identity
    · rw [if_pos hrow, if_neg (hrow ▸ hbefore), if_pos hrow]
      exact ⟨before, behind, rfl, rfl⟩
    · rw [if_neg hrow, if_neg hrow, ite_self]
      exact ⟨before, addHits behind entry, rfl, rfl⟩

/-- **What the first rows are given**: the first row of an identity all hits of that identity, and
every other row none. -/
theorem exists_foldl_addHits_append_cons (entries : List Entry) :
    ∀ (before : List Entry) (row : Entry) (behind : List Entry),
      ∃ before' behind', before'.map (·.identity) = before.map (·.identity) ∧
        entries.foldl addHits (before ++ row :: behind) = before' ++
          (if row.identity ∈ before.map (·.identity) then row else row.raisedBy entries) ::
            behind' := by
  induction entries with
  | nil =>
    intro before row behind
    refine ⟨before, behind, rfl, ?_⟩
    rw [Entry.raisedBy_nil, ite_self, List.foldl_nil]
  | cons entry entries ih =>
    intro before row behind
    obtain ⟨before', behind', hsame, hone⟩ := exists_addHits_append_cons before row behind entry
    rw [List.foldl_cons, hone]
    by_cases hbefore : row.identity ∈ before.map (·.identity)
    · rw [if_pos hbefore, if_pos hbefore]
      obtain ⟨before'', behind'', hsame', hrest⟩ := ih before' row behind'
      rw [hsame, if_pos hbefore] at hrest
      exact ⟨before'', behind'', hsame'.trans hsame, hrest⟩
    · rw [if_neg hbefore, if_neg hbefore, row.raisedBy_cons entry entries]
      obtain ⟨before'', behind'', hsame', hrest⟩ := ih before' (row.raisedBy [entry]) behind'
      rw [hsame, Entry.identity_raisedBy, if_neg hbefore] at hrest
      exact ⟨before'', behind'', hsame'.trans hsame, hrest⟩

end Hits

/-! ### Rows under their ids -/

/-- Rows with the hits of entries added to them, under the ids that they have. -/
def feed (rows : OrderedMap Text Entry) (entries : List Entry) : OrderedMap Text Entry :=
  (OrderedMap.keys rows).zip (entries.foldl addHits (OrderedMap.values rows))

section Feed

theorem length_keys_eq (rows : OrderedMap Text Entry) (entries : List Entry) :
    (OrderedMap.keys rows).length = (entries.foldl addHits (OrderedMap.values rows)).length := by
  have hlength := congrArg List.length (map_location_foldl_addHits entries (OrderedMap.values rows))
  rw [List.length_map, List.length_map] at hlength
  rw [hlength, OrderedMap.keys, OrderedMap.values, List.length_map, List.length_map]

theorem keys_feed (rows : OrderedMap Text Entry) (entries : List Entry) :
    OrderedMap.keys (feed rows entries) = OrderedMap.keys rows :=
  List.map_fst_zip (length_keys_eq rows entries).le

theorem values_feed (rows : OrderedMap Text Entry) (entries : List Entry) :
    OrderedMap.values (feed rows entries) = entries.foldl addHits (OrderedMap.values rows) :=
  List.map_snd_zip (length_keys_eq rows entries).ge

theorem feed_nil (rows : OrderedMap Text Entry) : feed rows [] = rows := by
  rw [feed, List.foldl_nil, OrderedMap.keys, OrderedMap.values, List.zip_map']
  exact List.map_id rows

theorem feed_feed (rows : OrderedMap Text Entry) (entries entries' : List Entry) :
    feed (feed rows entries) entries' = feed rows (entries ++ entries') := by
  rw [feed, keys_feed, values_feed, ← List.foldl_append, ← feed]

/-- Feeding changes no location. -/
theorem map_location_feed (rows : OrderedMap Text Entry) (entries : List Entry) :
    ((feed rows entries).map fun row => (row.1, row.2.location)) =
      rows.map fun row => (row.1, row.2.location) := by
  have hzip : ∀ rows : OrderedMap Text Entry, (rows.map fun row => (row.1, row.2.location)) =
      (OrderedMap.keys rows).zip ((OrderedMap.values rows).map (·.location)) := fun rows => by
    rw [OrderedMap.keys, OrderedMap.values, List.map_map, List.zip_map']
    rfl
  rw [hzip, hzip, keys_feed, values_feed, map_location_foldl_addHits]

/-- The first row of an identity is raised by the entries that have it, and no other row is. -/
theorem mem_feed_append_cons (before : OrderedMap Text Entry) (id : Text) (row : Entry)
    (behind : OrderedMap Text Entry) (entries : List Entry) :
    (id, if row.identity ∈ (OrderedMap.values before).map (·.identity) then row
      else row.raisedBy entries) ∈ feed (before ++ (id, row) :: behind) entries := by
  obtain ⟨before', behind', hsame, hfold⟩ := exists_foldl_addHits_append_cons entries
    (OrderedMap.values before) row (OrderedMap.values behind)
  have hlength : (OrderedMap.keys before).length = before'.length := by
    have hlength := congrArg List.length hsame
    simpa [OrderedMap.keys, OrderedMap.values] using hlength.symm
  have hkeys : OrderedMap.keys (before ++ (id, row) :: behind) =
      OrderedMap.keys before ++ id :: OrderedMap.keys behind := List.map_append
  rw [feed, hkeys, OrderedMap.values_append, OrderedMap.values_cons, hfold, List.zip_append hlength,
    List.zip_cons_cons]
  exact List.mem_append_right _ List.mem_cons_self

/-- A map whose keys and values begin with those of another one begins with it. -/
theorem exists_eq_append_of_views {first : OrderedMap Text Entry} {keys : List Text}
    {values : List Entry} : ∀ {rows : OrderedMap Text Entry},
      OrderedMap.keys rows = OrderedMap.keys first ++ keys →
        OrderedMap.values rows = OrderedMap.values first ++ values → ∃ rest, rows = first ++ rest := by
  induction first with
  | nil => exact fun {rows} _ _ => ⟨rows, rfl⟩
  | cons row first ih =>
    intro rows hkeys hvalues
    cases rows with
    | nil => cases hkeys
    | cons row' rows =>
      obtain ⟨hkey, hkeys⟩ := List.cons_eq_cons.1 hkeys
      obtain ⟨hvalue, hvalues⟩ := List.cons_eq_cons.1 hvalues
      obtain ⟨rest, rfl⟩ := ih hkeys hvalues
      exact ⟨rest, congrArg (· :: (first ++ rest)) (Prod.ext hkey hvalue)⟩

end Feed

/-! ### Turns -/

namespace Arena

variable {start : Arena} {number : Nat} {calls : List (Contribution × Nat)}

/-- **One turn** feeds the rows that come first, and they stay in front. -/
theorem History.exists_shows_merge_append (h : History calls start)
    (hnumber : number ∉ calls.map Prod.snd) {first added : OrderedMap Text Entry}
    (hshows : start.Shows (first ++ added)) (c : Contribution) :
    ∃ added', (start.merge number c).arena.Shows
      (feed first (OrderedMap.values c.entries) ++ added') := by
  obtain ⟨rows, hshows', hvalues⟩ := h.exists_shows_merge hnumber hshows c
  obtain ⟨behind, habsorb⟩ := exists_absorb_append (OrderedMap.values first)
    (OrderedMap.values added) (OrderedMap.values c.entries)
  have hkeys : OrderedMap.keys rows = OrderedMap.keys (feed first (OrderedMap.values c.entries)) ++
      (OrderedMap.keys added ++ addedIds (start.turn number c).placements) := by
    rw [← hshows'.keys_locations, merge_arena, Turn.close_locations,
      (h.turn_after hnumber c).locations, hshows.keys_locations, keys_feed, ← List.append_assoc]
    exact congrArg (· ++ _) List.map_append
  rw [OrderedMap.values_append, habsorb, ← values_feed] at hvalues
  obtain ⟨added', rfl⟩ := exists_eq_append_of_views hkeys hvalues
  exact ⟨added', hshows'⟩

/-- **All turns**: the entries of the first contributor are the first rows, under their own ids, and
the entries of all others feed them. -/
theorem exists_shows_afterTurns_cons {first : Contribution}
    (hkeys : (OrderedMap.keys first.entries).Nodup) (rest : List (Contribution × Nat)) :
    (((first, number) :: rest).map Prod.snd).Nodup →
      ∃ added, (empty.afterTurns ((first, number) :: rest)).Shows
        (feed first.entries (rest.flatMap fun call => OrderedMap.values call.1.entries) ++ added) := by
  induction rest using List.reverseRecOn with
  | nil =>
    intro _
    refine ⟨[], ?_⟩
    rw [List.flatMap_nil, feed_nil, List.append_nil]
    exact shows_merge_empty number hkeys
  | append_singleton rest call ih =>
    intro hnumbers
    rw [← List.cons_append] at hnumbers ⊢
    obtain ⟨hrest, hnumber⟩ := nodup_numbers_before hnumbers
    obtain ⟨added, hshows⟩ := ih hrest
    obtain ⟨added', hshows'⟩ :=
      (history_afterTurns hrest).exists_shows_merge_append hnumber hshows call.1
    rw [feed_feed] at hshows'
    refine ⟨added', ?_⟩
    rw [afterTurns_concat, List.flatMap_append, List.flatMap_singleton]
    exact hshows'

end Arena

end CoverageLift
