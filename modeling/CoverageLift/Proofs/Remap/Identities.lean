import CoverageLift.Proofs.Remap.Recognition
import CoverageLift.Proofs.Remap.Seeds
import CoverageLift.Proofs.Remap.Turns

/-!
# Identities of entries that were written

The identity of an entry is found in two ways. The lifted entry gets it from the ranges that it was
lifted to, and an entry that stands at a destination is told by what is written there. Both are one
(`identityInPlace_of_produced`): so coverage that was lifted to a destination before is recognised
there, and **whatever is lifted to the same place later goes to the location that stands there
first** (`mem_newIds_of_first`).
-/

namespace CoverageLift

/-- The id of the first of the locations that have a count and are told by the identity. -/
def FirstToldBy (counts locations : OrderedMap Text Json) (identity : Identity) (id : Text) :
    Prop :=
  ∃ before location behind, locations = before ++ (id, location) :: behind ∧
    OrderedMap.contains counts id = true ∧ identityInPlace id location = .ok identity ∧
    ¬ Counts counts before identity

section Seed

variable {counts locations : OrderedMap Text Json} {identity : Identity} {id : Text}

/-- Among the locations that are told by an identity there is a first one. -/
theorem exists_firstToldBy (h : Counts counts locations identity) :
    ∃ id, FirstToldBy counts locations identity id := by
  induction locations using List.reverseRecOn with
  | nil =>
    obtain ⟨location, hlocation, -⟩ := h
    exact absurd hlocation List.not_mem_nil
  | append_singleton locations last ih =>
    by_cases hbefore : Counts counts locations identity
    · obtain ⟨id, before, location, behind, rfl, hfirst⟩ := ih hbefore
      exact ⟨id, before, location, behind ++ [last], by simp, hfirst⟩
    · obtain ⟨location, hlocation, hcount, hidentity⟩ := h
      rcases List.mem_append.1 hlocation with hlocation | hlocation
      · exact absurd ⟨location, hlocation, hcount, hidentity⟩ hbefore
      · obtain rfl := List.mem_singleton.1 hlocation
        exact ⟨location.1, locations, location.2, [], rfl, hcount, hidentity, hbefore⟩

/-- The entries of a seed have the id of the first location with an identity in front of all others
with this identity. -/
theorem get?_identities_of_first (h : FirstToldBy counts locations identity id)
    {entries : OrderedMap Text Entry} (hentries : countedEntries counts locations = .ok entries) :
    OrderedMap.get? (entries.map fun row => (row.2.identity, row.1)) identity = some id := by
  obtain ⟨before, location, behind, rfl, hcount, hidentity, hnot⟩ := h
  obtain ⟨count, hcount⟩ := Option.isSome_iff_exists.1 hcount
  obtain ⟨first, identity', rest, hfirst, hidentity', rfl⟩ :=
    exists_of_countedEntries_append_cons hcount hentries
  obtain rfl := Except.ok.inj (hidentity.symm.trans hidentity')
  refine OrderedMap.get?_eq_some_iff_append.2
    ⟨first.map fun row => (row.2.identity, row.1), _, List.map_append, fun hmem => hnot ?_⟩
  rw [← mem_identities_iff hfirst]
  simpa [OrderedMap.keys, OrderedMap.values] using hmem

end Seed

section Turns

variable {destination : Text} {enforceBounds : Bool} {seed : OrderedMap Text Json}
  {contributors : List Contributor} {brought : List (PerTable Contribution)} {table : LocationTable}
  {identity : Identity} {owner : Text}

/-- **What is lifted to one place goes to the location that stands there first**: every entry that a
contributor brings goes to the first location of the seed that is told by its identity. -/
theorem mem_newIds_of_first
    (hbrought : contributions destination enforceBounds (some seed) contributors = .ok brought)
    (hnodup : (OrderedMap.keys (tableAt seed table.locationsKey)).Nodup)
    (hfirst : FirstToldBy (tableAt seed table.countsKey) (tableAt seed table.locationsKey) identity
      owner) {n : Nat} {per : PerTable Contribution} {item : Text × Entry}
    (hper : brought[n + 1]? = some per) (hitem : item ∈ (per.get table).entries)
    (hidentity : item.2.identity = identity) :
    (n + 1, item.1, owner) ∈ newIds 0 (takeTurns table 0 Arena.empty brought) := by
  obtain ⟨first, rest, hseed, -, rfl⟩ := contributions_eq_ok_iff.1 hbrought
  obtain ⟨-, hentries⟩ := seedContribution_some_eq_ok_iff.1 hseed table
  -- after the turn of the seed, the identity has its owner
  let m := Moment.first.after (.opens 0 (first.get table).listed ::
    (first.get table).entries.map .places)
  have hclose : m.turn.close = (Arena.empty.merge 0 (first.get table)).arena :=
    Moment.after_turn Moment.first 0 (first.get table)
  have hshows := Arena.shows_merge_empty 0 (hnodup.sublist (keys_countedEntries_sublist hentries))
  have howner := hshows.owner identity
  rw [get?_identities_of_first hfirst hentries, ← hclose, Turn.close_owners] at howner
  obtain ⟨o, ho, rfl⟩ := Option.map_eq_some_iff.1 howner
  have hseedOwner : o.contributor = 0 := by
    have hhistory : Arena.History [(first.get table, 0)]
        (Arena.empty.merge 0 (first.get table)).arena :=
      Arena.History.empty.merge List.not_mem_nil (first.get table)
    rw [← hclose] at hhistory
    exact List.mem_singleton.1 (hhistory.contributor_mem ho)
  have hcall : (per.get table, n + 1) ∈ callsOf table 1 rest := by
    refine List.mk_mem_zipIdx_iff_le_and_getElem?_sub.2 ⟨Nat.le_add_left 1 n, ?_⟩
    rw [List.getElem?_map, Nat.add_sub_cancel]
    exact congrArg (Option.map _) hper
  obtain ⟨s, hs, hnumber, rfl⟩ := exists_step_of_mem hcall hitem m
  have hother : o.contributor ≠ s.number := by
    rw [hseedOwner, hnumber]
    exact (Nat.succ_ne_zero n).symm
  have htarget := Moment.target_of_owner hidentity hother _ ho hs
  rw [newIds_takeTurns, stepsOf, callsOf_cons, eventsOf_cons, Moment.steps_append]
  refine List.mem_map.2 ⟨s, List.mem_append_right _ hs, ?_⟩
  rw [Step.record, hnumber, htarget]

/-- **One identity**: an entry that was lifted, to ranges whose points have plain keys, comes back
with its own identity under any id, unless it was given members that make it look like something
else. So where it stands in a seed with a count, there is a first location that is told by its
identity, and to this location every entry of the identity goes that a contributor brings. -/
theorem identityInPlace_of_produced {remap : RangeMap} {raw : Json} {m : LiftedLocation}
    (hremap : ∀ location range, remap location = .ok (some range) → range.HasPlainKeys)
    (h : table.liftEntry remap raw = .ok (some m)) (hraw : table.IsPlain raw) :
    (∀ id, identityInPlace id m.location = .ok m.identity) ∧
      ∀ (destination : Text) (enforceBounds : Bool) (seed : OrderedMap Text Json)
        (contributors : List Contributor) (brought : List (PerTable Contribution)) (id : Text),
        contributions destination enforceBounds (some seed) contributors = .ok brought →
        (OrderedMap.keys (tableAt seed table.locationsKey)).Nodup →
        (id, m.location) ∈ tableAt seed table.locationsKey →
        OrderedMap.contains (tableAt seed table.countsKey) id = true →
        ∃ owner, FirstToldBy (tableAt seed table.countsKey) (tableAt seed table.locationsKey)
            m.identity owner ∧
          ∀ n per item, brought[n + 1]? = some per → item ∈ (per.get table).entries →
            item.2.identity = m.identity →
            (n + 1, item.1, owner) ∈ newIds 0 (takeTurns table 0 Arena.empty brought) := by
  have hidentity := identityInPlace_of_liftEntry hremap h hraw
  refine ⟨hidentity, ?_⟩
  intro destination enforceBounds seed contributors brought id hbrought hnodup hlocation hcount
  obtain ⟨owner, howner⟩ := exists_firstToldBy
    (⟨_, hlocation, hcount, hidentity id⟩ : Counts _ _ m.identity)
  exact ⟨owner, howner, fun n per item hper hitem hsame =>
    mem_newIds_of_first hbrought hnodup howner hper hitem hsame⟩

/-- A branch with two alternatives that are no ranges and borrow that of the whole. It comes back
under another id, behind a location that is told by itself only, and takes in the branch of a
file. -/
theorem identityInPlace_of_produced_borrowed :
    let resolver := Resolver.ofTable ["a.ts"] [((4, 0), .ok ⟨"a.ts", 7, 2⟩)] []
    let raw : Json := .obj [("type", .str "if"), ("loc", rangeObject 4 0 4 9),
      ("locations", .arr [.obj [], .null])]
    let place : Json := rangeObject 7 2 7 2
    let location : Json := .obj [("type", .str "if"), ("loc", place),
      ("locations", .arr [place, place])]
    let seed : OrderedMap Text Json := [("branchMap", .obj [("x", .null), ("7", location)]),
      ("b", .obj [("x", .int 0), ("7", .arr [.int 1, .int 0])])]
    let file : Contributor := ⟨"b.js", [("branchMap", .obj [("7", .null), ("0", raw)]),
      ("b", .obj [("0", .arr [.int 2, .int 2])])], resolver⟩
    ∃ m brought, LocationTable.branches.liftEntry (boundedMap resolver "a.ts" none) raw =
        .ok (some m) ∧ m.location = location ∧ LocationTable.branches.IsPlain raw ∧
      identityInPlace "7" location = .ok m.identity ∧
      contributions "a.ts" true (some seed) [file] = .ok brought ∧
      ((1, "0", "7") : Nat × Text × Text) ∈
        newIds 0 (takeTurns .branches 0 Arena.empty brought) := by
  intro resolver raw place location seed file
  have hremap : ∀ range lifted, boundedMap resolver "a.ts" none range = .ok (some lifted) →
      lifted.HasPlainKeys := fun _ _ h => (legal_of_boundedMap h).hasPlainKeys
  have hlifted : LocationTable.branches.liftEntry (boundedMap resolver "a.ts" none) raw =
      .ok (some _) := rfl
  have hplain : LocationTable.branches.IsPlain raw := by decide
  have hbrought : contributions "a.ts" true (some seed) [file] = .ok _ := rfl
  obtain ⟨hidentity, hmeets⟩ := identityInPlace_of_produced hremap hlifted hplain
  obtain ⟨owner, howner, hgoes⟩ := hmeets "a.ts" true seed [file] _ "7" hbrought (by decide)
    (List.mem_cons_of_mem _ List.mem_cons_self) rfl
  refine ⟨_, _, hlifted, rfl, hplain, hidentity "7", hbrought, ?_⟩
  have hgoes := hgoes 0 _ _ rfl List.mem_cons_self rfl
  obtain ⟨before, told, behind, hlocations, -, htold, -⟩ := howner
  match before, hlocations with
  | [], hlocations =>
    -- the first location is told by itself only
    obtain ⟨hfirst, -⟩ := List.cons.inj hlocations
    obtain ⟨rfl, rfl⟩ := Prod.mk.inj hfirst
    cases htold
  | [_], hlocations =>
    obtain ⟨-, hrest⟩ := List.cons.inj hlocations
    obtain ⟨rfl, -⟩ := Prod.mk.inj (List.cons.inj hrest).1
    exact hgoes
  | _ :: _ :: _, hlocations =>
    obtain ⟨-, hrest⟩ := List.cons.inj hlocations
    exact absurd (List.cons.inj hrest).2.symm (List.append_ne_nil_of_right_ne_nil _ nofun)

end Turns

end CoverageLift
