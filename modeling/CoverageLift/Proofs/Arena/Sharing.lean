import CoverageLift.Proofs.Arena.History

/-!
# Entries that share an id

Two entries of one contributor share an id in the table only by being folded into the same owner:
new entries get ids of their own, and those are no old ids. So they share one **exactly when they
have the same identity and an earlier contributor had it too**. Among entries whose identity is new,
the first becomes the owner and the others stay apart from it; it is only an owner from before that
takes in all of them, and then its count takes in all of theirs.
-/

namespace CoverageLift

/-- A statement on one line with a number of hits. -/
def Entry.onLine (line count : Int) : Entry :=
  ⟨.null, .statement ⟨line, 0, line, 0⟩, .int count⟩

/-- The id in the table of an entry of the contributor. -/
def Merged.newId (m : Merged) (id : Text) : Option Text := OrderedMap.get? m.ids id

/-- Some entry of these contributors has the identity. -/
def Occurs (calls : List (Contribution × Nat)) (identity : Identity) : Prop :=
  ∃ call ∈ calls, ∃ item ∈ call.1.entries, item.2.identity = identity

/-- No two entries of the contributor have one identity that occurred before. -/
def Contribution.Apart (c : Contribution) (earlier : List (Contribution × Nat)) : Prop :=
  ∀ a ∈ c.entries, ∀ b ∈ c.entries, a.1 ≠ b.1 → a.2.identity = b.2.identity →
    ¬ Occurs earlier a.2.identity

instance (calls : List (Contribution × Nat)) (identity : Identity) :
    Decidable (Occurs calls identity) :=
  inferInstanceAs (Decidable (∃ call ∈ calls, ∃ item ∈ call.1.entries, item.2.identity = identity))

instance (c : Contribution) (earlier : List (Contribution × Nat)) : Decidable (c.Apart earlier) :=
  inferInstanceAs (Decidable (∀ a ∈ c.entries, ∀ b ∈ c.entries, a.1 ≠ b.1 →
    a.2.identity = b.2.identity → ¬ Occurs earlier a.2.identity))

namespace Turn.After

variable {start : Arena} {number : Nat} {listed : List Text} {done : OrderedMap Text Entry}
  {turn : Turn}

/-- The placements are those of the entries, in order. -/
theorem map_id (h : After start number listed done turn) :
    turn.placements.map (·.id) = OrderedMap.keys done :=
  (map_eq_map_of_forall₂ h.placed fun _ _ hplaced => hplaced.id_eq.symm).symm

/-- Added entries have different ids, and none of them is an old one. -/
theorem nodup_added (h : After start number listed done turn) :
    (OrderedMap.keys start.locations ++ addedIds turn.placements).Nodup :=
  h.locations ▸ h.tidy.nodup

/-- A placement that is not folded goes to an added id. -/
theorem mem_addedIds {p : Placement} (hp : p ∈ turn.placements) (hfolded : p.folded = false) :
    p.target ∈ addedIds turn.placements :=
  List.mem_map.2 ⟨p, List.mem_filter.2 ⟨hp, by simp [hfolded]⟩, rfl⟩

/-- Two placements that are not folded and have the same target are the same. -/
theorem eq_of_target_eq (h : After start number listed done turn) {p q : Placement}
    (hp : p ∈ turn.placements) (hq : q ∈ turn.placements) (hpf : p.folded = false)
    (hqf : q.folded = false) (heq : p.target = q.target) : p = q :=
  List.inj_on_of_nodup_map (List.Nodup.of_append_right h.nodup_added)
    (List.mem_filter.2 ⟨hp, by simp [hpf]⟩) (List.mem_filter.2 ⟨hq, by simp [hqf]⟩) heq

/-- A folded placement goes to an old id, so it shares none with an added entry. -/
theorem target_ne (h : After start number listed done turn) (hstart : start.Tidy [])
    {p q : Placement} (hp : p ∈ turn.placements) (hq : q ∈ turn.placements)
    (hpf : p.folded = true) (hqf : q.folded = false) : p.target ≠ q.target := by
  intro heq
  obtain ⟨item, -, hplaced⟩ := h.exists_entry hp
  rw [hplaced.folded_eq] at hpf
  obtain ⟨owner, howner⟩ := Option.isSome_iff_exists.1 hpf
  have hold : p.target ∈ OrderedMap.keys start.locations := by
    rw [hplaced.target_eq owner howner]
    exact hstart.owner_mem howner
  exact List.disjoint_of_nodup_append h.nodup_added hold (heq ▸ mem_addedIds hq hqf)

/-- Two entries with different ids have the same target exactly when they have the same identity and
it had an owner at the beginning of the turn. -/
theorem target_eq_iff (h : After start number listed done turn) (hstart : start.Tidy [])
    {a b : Text × Entry} {p q : Placement} (hp : p ∈ turn.placements) (hq : q ∈ turn.placements)
    (hpa : Placed start a p) (hqb : Placed start b q) (hne : a.1 ≠ b.1) :
    p.target = q.target ↔
      a.2.identity = b.2.identity ∧ (OrderedMap.get? start.owners a.2.identity).isSome := by
  constructor
  · intro heq
    cases hpf : p.folded <;> cases hqf : q.folded
    · -- both were added
      obtain rfl := h.eq_of_target_eq hp hq hpf hqf heq
      exact absurd (hpa.id_eq.symm.trans hqb.id_eq) hne
    · exact absurd heq.symm (h.target_ne hstart hq hp hqf hpf)
    · exact absurd heq (h.target_ne hstart hp hq hpf hqf)
    · -- both were folded
      rw [hpa.folded_eq] at hpf
      rw [hqb.folded_eq] at hqf
      obtain ⟨owner, howner⟩ := Option.isSome_iff_exists.1 hpf
      obtain ⟨owner', howner'⟩ := Option.isSome_iff_exists.1 hqf
      rw [hpa.target_eq owner howner, hqb.target_eq owner' howner'] at heq
      exact ⟨hstart.owner_inj howner howner' heq, hpf⟩
  · rintro ⟨hidentity, hsome⟩
    obtain ⟨owner, howner⟩ := Option.isSome_iff_exists.1 hsome
    rw [hpa.target_eq owner howner, hqb.target_eq owner (hidentity ▸ howner)]

end Turn.After

namespace Arena

variable {earlier : List (Contribution × Nat)} {arena : Arena} {c : Contribution} {number : Nat}

/-- The ids of a turn are those of the entries. -/
theorem History.keys_ids (h : History earlier arena) (hnumber : number ∉ earlier.map Prod.snd) :
    OrderedMap.keys (arena.merge number c).ids = OrderedMap.keys c.entries := by
  rw [← (h.turn_after hnumber c).map_id]
  simp [Merged.ids, OrderedMap.keys, merge_placements]

/-- The new id of an entry is the target of its placement. -/
theorem History.newId_eq (h : History earlier arena) (hnumber : number ∉ earlier.map Prod.snd)
    (hids : (OrderedMap.keys c.entries).Nodup) {p : Placement}
    (hp : p ∈ (arena.merge number c).placements) :
    (arena.merge number c).newId p.id = some p.target := by
  refine OrderedMap.get?_eq_some_of_mem ?_ (List.mem_map.2 ⟨p, hp, rfl⟩)
  rwa [h.keys_ids hnumber]

/-- Two entries of a turn have one new id exactly when they have one identity that occurred
before. -/
theorem History.newId_eq_iff (h : History earlier arena) (hnumber : number ∉ earlier.map Prod.snd)
    (hids : (OrderedMap.keys c.entries).Nodup) {a b : Text × Entry} (ha : a ∈ c.entries)
    (hb : b ∈ c.entries) (hne : a.1 ≠ b.1) :
    (arena.merge number c).newId a.1 = (arena.merge number c).newId b.1 ↔
      a.2.identity = b.2.identity ∧ Occurs earlier a.2.identity := by
  have hafter := h.turn_after hnumber c
  obtain ⟨p, hp, hpa⟩ := hafter.exists_placement ha
  obtain ⟨q, hq, hqb⟩ := hafter.exists_placement hb
  rw [← hpa.id_eq, ← hqb.id_eq, h.newId_eq hnumber hids hp, h.newId_eq hnumber hids hq,
    Option.some.injEq, hafter.target_eq_iff h.tidy hp hq hpa hqb hne, h.owned]
  rfl

/-- The new ids of a turn are distinct exactly when no two entries share one. -/
theorem History.nodup_newIds_iff (h : History earlier arena) (hnumber : number ∉ earlier.map Prod.snd)
    (hids : (OrderedMap.keys c.entries).Nodup) :
    (OrderedMap.values (arena.merge number c).ids).Nodup ↔
      ∀ a ∈ c.entries, ∀ b ∈ c.entries, a.1 ≠ b.1 →
        (arena.merge number c).newId a.1 ≠ (arena.merge number c).newId b.1 := by
  have hafter := h.turn_after hnumber c
  have hvalues : OrderedMap.values (arena.merge number c).ids =
      (arena.merge number c).placements.map (·.target) := by
    simp [Merged.ids, OrderedMap.values]
  have hnodup : ((arena.merge number c).placements.map (·.id)).Nodup := by
    rw [merge_placements, hafter.map_id]
    exact hids
  rw [hvalues]
  constructor
  · intro htargets a ha b hb hne hsame
    obtain ⟨p, hp, hpa⟩ := hafter.exists_placement ha
    obtain ⟨q, hq, hqb⟩ := hafter.exists_placement hb
    rw [← hpa.id_eq, ← hqb.id_eq, h.newId_eq hnumber hids hp, h.newId_eq hnumber hids hq,
      Option.some.injEq] at hsame
    have hpq : p = q := List.inj_on_of_nodup_map htargets hp hq hsame
    exact hne (by rw [← hpa.id_eq, ← hqb.id_eq, hpq])
  · intro happart
    refine List.Nodup.map_on (fun p hp q hq hsame => ?_) (List.Nodup.of_map _ hnodup)
    obtain ⟨a, ha, hpa⟩ := hafter.exists_entry hp
    obtain ⟨b, hb, hqb⟩ := hafter.exists_entry hq
    by_contra hpq
    have hne : a.1 ≠ b.1 := fun hab =>
      hpq (List.inj_on_of_nodup_map hnodup hp hq (hpa.id_eq.trans (hab.trans hqb.id_eq.symm)))
    refine happart a ha b hb hne ?_
    rw [← hpa.id_eq, ← hqb.id_eq, h.newId_eq hnumber hids hp, h.newId_eq hnumber hids hq, hsame]

/-- **Sharing**: a contributor's entries get distinct ids exactly when no two of them have an identity
that occurred before, and it is just those entries that share one. The count of an id afterwards is
the count before with those of the entries placed there. -/
theorem nodup_newIds_iff_apart (earlier : List (Contribution × Nat)) (c : Contribution)
    (number : Nat) (hnumbers : ((earlier ++ [(c, number)]).map Prod.snd).Nodup)
    (hids : (OrderedMap.keys c.entries).Nodup) :
    let before := empty.afterTurns earlier
    let merged := before.merge number c
    OrderedMap.keys merged.ids = OrderedMap.keys c.entries ∧
      ((OrderedMap.values merged.ids).Nodup ↔ c.Apart earlier) ∧
      (∀ a ∈ c.entries, ∀ b ∈ c.entries, a.1 ≠ b.1 →
        (merged.newId a.1 = merged.newId b.1 ↔
          a.2.identity = b.2.identity ∧ Occurs earlier a.2.identity)) ∧
      ∀ id, OrderedMap.get? merged.arena.counts id =
        (merged.placements.filter fun p => p.target = id).foldl
          (fun count p => some (p.countAfter count)) (OrderedMap.get? before.counts id) := by
  intro before merged
  obtain ⟨hearlier, hnumber⟩ := nodup_numbers_before hnumbers
  have h : History earlier before := history_afterTurns hearlier
  refine ⟨h.keys_ids hnumber, ?_, fun a ha b hb => h.newId_eq_iff hnumber hids ha hb, fun id => ?_⟩
  · rw [h.nodup_newIds_iff hnumber hids]
    constructor
    · intro hne a ha b hb hab hidentity hoccurs
      exact hne a ha b hb hab ((h.newId_eq_iff hnumber hids ha hb hab).2 ⟨hidentity, hoccurs⟩)
    · intro hapart a ha b hb hab hsame
      obtain ⟨hidentity, hoccurs⟩ := (h.newId_eq_iff hnumber hids ha hb hab).1 hsame
      exact hapart a ha b hb hab hidentity hoccurs
  · rw [h.counts_merge hnumber]
    exact get?_foldl_writeCount id _ _

/-- Two entries on different lines stay apart when one of the lines occurred before. -/
theorem nodup_newIds_of_lines :
    (OrderedMap.values ((empty.afterTurns [(⟨["0"], [("0", .onLine 1 1)]⟩, 0)]).merge 1
      ⟨["0", "1"], [("0", .onLine 1 10), ("1", .onLine 2 4)]⟩).ids).Nodup :=
  (nodup_newIds_iff_apart [(⟨["0"], [("0", .onLine 1 1)]⟩, 0)]
    ⟨["0", "1"], [("0", .onLine 1 10), ("1", .onLine 2 4)]⟩ 1 (by decide) (by decide)).2.1.2
    (by decide)

/-- An earlier entry of a line takes in two entries of one contributor, with all their hits. -/
theorem two_entries_of_a_line_share :
    ¬ ∀ (earlier : List (Contribution × Nat)) (c : Contribution) (number : Nat),
      ((earlier ++ [(c, number)]).map Prod.snd).Nodup → (OrderedMap.keys c.entries).Nodup →
      (OrderedMap.values ((empty.afterTurns earlier).merge number c).ids).Nodup := by
  intro h
  have hnodup := h [(⟨["0"], [("0", .onLine 1 1)]⟩, 0)]
    ⟨["0", "1"], [("0", .onLine 1 10), ("1", .onLine 1 4)]⟩ 1 (by decide) (by decide)
  revert hnodup
  decide

end Arena

end CoverageLift
