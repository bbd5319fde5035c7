import CoverageLift.Proofs.Arena.Course
import Mathlib.Algebra.BigOperators.Group.List.Basic
import Mathlib.Algebra.Ring.Int.Defs

/-!
# Totals

In a table of plain hit counts every count that is written reaches exactly one id: a new entry
writes it down, and a folded entry adds it to what is there (`Arena.hitsAt_writeCount`). So after any
number of turns the count of an id is the sum of the counts of the entries that were placed on it.
Entries on one id have one identity, and therefore **the ids of an identity count together what the
entries of that identity brought**, however these were kept, renumbered and folded.
-/

namespace CoverageLift

/-! ### Counts of one id -/

/-- The number of hits that is counted for an id. -/
def hitsAt (counts : OrderedMap Text Json) (id : Text) : Int :=
  hits ((OrderedMap.get? counts id).getD .null)

/-- Whether all counts are numbers of hits. -/
def AllHits (counts : OrderedMap Text Json) : Prop :=
  ∀ id count, OrderedMap.get? counts id = some count → isHits count = true

theorem isHits_iff {count : Json} : isHits count = true ↔ ∃ n, count = .int n := by
  cases count <;> simp [isHits]

theorem hitsAt_of_not_mem {counts : OrderedMap Text Json} {id : Text}
    (h : id ∉ OrderedMap.keys counts) : hitsAt counts id = 0 := by
  rw [hitsAt, OrderedMap.get?_eq_none_iff.2 h]
  rfl

namespace Arena

variable {state : OrderedMap Text Json × List (Json × Json)} {p : Placement}

/-- The count of the target after a placement. -/
theorem hits_countAfter (hstate : AllHits state.1) (hcount : isHits p.count = true)
    {ps : List Placement} (h : Writable state.1 (p :: ps)) :
    p.countAfter (OrderedMap.get? state.1 p.target) =
      .int (hitsAt state.1 p.target + hits p.count) := by
  obtain ⟨n, hn⟩ := isHits_iff.1 hcount
  cases hfolded : p.folded with
  | false =>
    rw [hitsAt_of_not_mem (h.not_mem hfolded), hn, Int.zero_add]
    simp [Placement.countAfter, hfolded, hn, hits]
  | true =>
    obtain ⟨present, hpresent⟩ :=
      OrderedMap.exists_get?_of_mem (h.mem p List.mem_cons_self hfolded)
    obtain ⟨k, rfl⟩ := isHits_iff.1 (hstate _ _ hpresent)
    simp [Placement.countAfter, hfolded, hitsAt, hpresent, hn, hits, addCounts?]

/-- A placement adds its count to that of its target. -/
theorem hitsAt_writeCount (hstate : AllHits state.1) (hcount : isHits p.count = true)
    {ps : List Placement} (h : Writable state.1 (p :: ps)) (id : Text) :
    hitsAt (writeCount state p).1 id =
      hitsAt state.1 id + if p.target = id then hits p.count else 0 := by
  rw [hitsAt, get?_writeCount, hits_countAfter hstate hcount h]
  by_cases htarget : p.target = id
  · rw [if_pos htarget, if_pos htarget, ← htarget]
    rfl
  · rw [if_neg htarget, if_neg htarget, Int.add_zero]
    rfl

/-- Counts stay numbers of hits. -/
theorem allHits_writeCount (hstate : AllHits state.1) (hcount : isHits p.count = true)
    {ps : List Placement} (h : Writable state.1 (p :: ps)) : AllHits (writeCount state p).1 := by
  intro id count hget
  rw [get?_writeCount, hits_countAfter hstate hcount h] at hget
  split at hget
  · rw [← Option.some.inj hget]
    rfl
  · exact hstate id count hget

/-- After a turn an id has the hits that it had and those of the entries that were placed on it. -/
theorem hitsAt_foldl_writeCount :
    ∀ {ps : List Placement} {state : OrderedMap Text Json × List (Json × Json)},
      AllHits state.1 → (∀ p ∈ ps, isHits p.count = true) → Writable state.1 ps →
        AllHits (ps.foldl writeCount state).1 ∧
          ∀ id, hitsAt (ps.foldl writeCount state).1 id =
            hitsAt state.1 id +
              ((ps.filter fun p => p.target = id).map fun p => hits p.count).sum := by
  intro ps
  induction ps with
  | nil => exact fun hstate _ _ => ⟨hstate, fun _ => (Int.add_zero _).symm⟩
  | cons p ps ih =>
    intro state hstate hcounts h
    obtain ⟨hcount, hcounts⟩ := List.forall_mem_cons.1 hcounts
    obtain ⟨hall, hsum⟩ := ih (allHits_writeCount hstate hcount h) hcounts h.tail
    refine ⟨hall, fun id => ?_⟩
    rw [List.foldl_cons, hsum, hitsAt_writeCount hstate hcount h, Int.add_assoc]
    by_cases htarget : p.target = id
    · simp [htarget]
    · simp [htarget]

/-! ### Counts after any number of turns -/

/-- The steps of one more turn. -/
theorem placements_merge_afterTurns (calls : List (Contribution × Nat))
    (call : Contribution × Nat) :
    stepsOf (calls ++ [call]) = stepsOf calls ++
        (Moment.first.after (eventsOf calls)).steps (eventsOf [call]) ∧
      ((empty.afterTurns calls).merge call.2 call.1).placements =
        ((Moment.first.after (eventsOf calls)).steps (eventsOf [call])).map Step.placement := by
  constructor
  · rw [stepsOf, eventsOf_append, Moment.steps_append]
    rfl
  · have hclose : (Moment.first.after (eventsOf calls)).turn.close = empty.afterTurns calls :=
      close_after_eventsOf calls Moment.first
    rw [← hclose, Moment.placements_turn, eventsOf_cons]
    simp [eventsOf]

/-- The hits of an id are those of the entries that were placed on it. -/
theorem hitsAt_afterTurns {calls : List (Contribution × Nat)}
    (hnumbers : (calls.map Prod.snd).Nodup)
    (hcounts : ∀ call ∈ calls, ∀ item ∈ call.1.entries, isHits item.2.count = true) :
    AllHits (empty.afterTurns calls).counts ∧
      ∀ id, hitsAt (empty.afterTurns calls).counts id =
        (((stepsOf calls).filter fun s => s.target = id).map fun s => hits s.item.2.count).sum := by
  induction calls using List.reverseRecOn with
  | nil => exact ⟨fun _ _ h => (nomatch h), fun _ => rfl⟩
  | append_singleton calls call ih =>
    obtain ⟨hcalls, hnumber⟩ := nodup_numbers_before hnumbers
    obtain ⟨hall, hsum⟩ := ih hcalls fun call' hcall' =>
      hcounts call' (List.mem_append_left _ hcall')
    have h : History calls (empty.afterTurns calls) := history_afterTurns hcalls
    obtain ⟨hsteps, hplacements⟩ := placements_merge_afterTurns calls call
    have hplaced : ∀ p ∈ ((empty.afterTurns calls).merge call.2 call.1).placements,
        isHits p.count = true := by
      intro p hp
      rw [hplacements] at hp
      obtain ⟨s, hs, rfl⟩ := List.mem_map.1 hp
      obtain ⟨call', hcall', -, hitem⟩ := exists_call_of_mem_steps hs
      rw [List.mem_singleton.1 hcall'] at hitem
      exact hcounts call (List.mem_append_right _ List.mem_cons_self) _ hitem
    rw [afterTurns_concat, h.counts_merge hnumber]
    -- what the last turn adds to what the earlier ones left
    obtain ⟨hall', hsum'⟩ := @hitsAt_foldl_writeCount _ ((empty.afterTurns calls).counts, []) hall
      hplaced (h.writable hnumber call.1)
    refine ⟨hall', fun id => ?_⟩
    rw [hsum', hsum, hsteps, hplacements, List.filter_append, List.map_append, List.sum_append,
      List.filter_map, List.map_map]
    rfl

end Arena

/-! ### Counts of one identity -/

/-- Some entry of the identity was placed on the id. -/
def Carries (steps : List Step) (identity : Identity) (id : Text) : Prop :=
  ∃ s ∈ steps, s.target = id ∧ s.identity = identity

instance (steps : List Step) (identity : Identity) (id : Text) :
    Decidable (Carries steps identity id) :=
  inferInstanceAs (Decidable (∃ s ∈ steps, s.target = id ∧ s.identity = identity))

/-- The hits of a contributor's entries of an identity. -/
def Contribution.hitsOf (c : Contribution) (identity : Identity) : Int :=
  ((c.entries.filter fun item => item.2.identity = identity).map fun item => hits item.2.count).sum

/-- The hits of the ids of a table that carry an identity. -/
def totalOf (steps : List Step) (locations counts : OrderedMap Text Json) (identity : Identity) :
    Int :=
  (((OrderedMap.keys locations).filter fun id => Carries steps identity id).map (hitsAt counts)).sum

/-- The items of two disjoint kinds. -/
theorem sum_filter_or {α : Type} {p q : α → Bool} (w : α → Int) :
    ∀ {items : List α}, (∀ a ∈ items, p a = true → q a = false) →
      ((items.filter fun a => p a || q a).map w).sum =
        ((items.filter p).map w).sum + ((items.filter q).map w).sum := by
  intro items
  induction items with
  | nil => exact fun _ => rfl
  | cons a items ih =>
    intro hdisjoint
    obtain ⟨ha, hdisjoint⟩ := List.forall_mem_cons.1 hdisjoint
    have ih := ih hdisjoint
    cases hp : p a with
    | true => simp [hp, ha hp, ih, Int.add_assoc]
    | false =>
      cases hq : q a with
      | true => simp [hp, hq, ih, Int.add_left_comm]
      | false => simp [hp, hq, ih]

/-- The items by their values. -/
theorem sum_filter_mem {α β : Type} [DecidableEq β] (f : α → β) (w : α → Int) (items : List α) :
    ∀ {values : List β}, values.Nodup →
      (values.map fun b => ((items.filter fun a => f a = b).map w).sum).sum =
        ((items.filter fun a => f a ∈ values).map w).sum := by
  intro values
  induction values with
  | nil => simp
  | cons b values ih =>
    intro hnodup
    obtain ⟨hnot, hnodup⟩ := List.nodup_cons.1 hnodup
    have hor := @sum_filter_or _ (fun a => f a = b) (fun a => f a ∈ values) w items
      fun a _ heq => decide_eq_false fun hmem => hnot (of_decide_eq_true heq ▸ hmem)
    rw [List.map_cons, List.sum_cons, ih hnodup, ← hor]
    simp only [List.mem_cons, Bool.decide_or]

/-- The steps of turns place the entries of the contributors. -/
theorem map_item_steps_eventsOf (calls : List (Contribution × Nat)) :
    ∀ m : Moment, (m.steps (eventsOf calls)).map (·.item) = calls.flatMap (·.1.entries) := by
  have hplaces : ∀ (entries : OrderedMap Text Entry) (m : Moment),
      (m.steps (entries.map .places)).map (·.item) = entries := by
    intro entries
    induction entries with
    | nil => exact fun _ => rfl
    | cons item entries ih => exact fun m => congrArg (List.cons item) (ih _)
  induction calls with
  | nil => exact fun _ => rfl
  | cons call calls ih =>
    intro m
    rw [eventsOf_cons, Moment.steps_append, List.map_append, ih, List.flatMap_cons,
      Moment.steps_opens, hplaces]

/-- **Totals**: the ids of an identity count together what the entries of that identity brought. -/
theorem totalOf_afterTurns {calls : List (Contribution × Nat)}
    (hnumbers : (calls.map Prod.snd).Nodup)
    (hcounts : ∀ call ∈ calls, ∀ item ∈ call.1.entries, isHits item.2.count = true)
    (identity : Identity) :
    totalOf (stepsOf calls) (Arena.empty.afterTurns calls).locations
        (Arena.empty.afterTurns calls).counts identity =
      (calls.map fun call => call.1.hitsOf identity).sum := by
  have hsound : Moment.Sound (stepsOf calls) (Moment.first.after (eventsOf calls)) :=
    Moment.sound_first.after (eventsOf calls)
  have hclose : (Moment.first.after (eventsOf calls)).turn.close = Arena.empty.afterTurns calls :=
    Arena.close_after_eventsOf calls Moment.first
  have hhits := (Arena.hitsAt_afterTurns hnumbers hcounts).2
  rw [← hclose] at hhits ⊢
  let carriers := (OrderedMap.keys (Moment.first.after (eventsOf calls)).turn.close.locations).filter
    fun id => Carries (stepsOf calls) identity id
  have hnodup : carriers.Nodup := hsound.tidy.nodup.filter _
  -- entries with one id have one identity, so the ids that carry it have no other entries
  have hcarriers : ∀ s ∈ stepsOf calls, s.target ∈ carriers ↔ s.identity = identity := by
    intro s hs
    rw [List.mem_filter, decide_eq_true_iff]
    constructor
    · rintro ⟨-, r, hr, htarget, rfl⟩
      exact hsound.identity_eq hs hr htarget.symm
    · intro hidentity
      exact ⟨hsound.mem_locations.2 ⟨s, hs, rfl⟩, s, hs, rfl, hidentity⟩
  calc
    (carriers.map (hitsAt (Moment.first.after (eventsOf calls)).turn.close.counts)).sum
      = (carriers.map fun id => (((stepsOf calls).filter fun s => s.target = id).map
          fun s => hits s.item.2.count).sum).sum :=
        congrArg List.sum (List.map_congr_left fun id _ => hhits id)
    _ = _ := sum_filter_mem Step.target _ _ hnodup
    _ = (((stepsOf calls).filter fun s => s.identity = identity).map
          fun s => hits s.item.2.count).sum :=
        congrArg (fun steps => (steps.map fun s : Step => hits s.item.2.count).sum)
          (List.filter_congr fun s hs => decide_eq_decide.2 (hcarriers s hs))
    _ = ((((stepsOf calls).map (·.item)).filter fun item => item.2.identity = identity).map
          fun item => hits item.2.count).sum := by
        rw [List.filter_map, List.map_map]
        rfl
    _ = (calls.map fun call => call.1.hitsOf identity).sum := by
        rw [stepsOf, map_item_steps_eventsOf, List.filter_flatMap, List.map_flatMap,
          List.flatMap_def, List.sum_flatten, List.map_map]
        rfl

end CoverageLift
