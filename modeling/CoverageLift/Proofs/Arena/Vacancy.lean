import CoverageLift.Proofs.Arena.Course

/-!
# Two turns that agree off one id

An entry that is left out leaves its id vacant, and from then on the table is compared with the one
that has the entry: `Turn.AgreeOff` says that the two agree on every other id. All that keeps them
apart is whether the vacant id is given away again. **As long as the same entries go to it in both,
all entries get the same ids** (`Turn.AgreeOff.target_eq`), and the two still agree afterwards
(`Turn.AgreeOff.place`). A number that became vacant is the next to be allocated, since all smaller
ones are taken.
-/

namespace CoverageLift

namespace Turn

variable {t : Text} {turn other : Turn} {number : Nat} {item : Text × Entry} {id : Text}

/-- What is taken stays taken. -/
theorem isTaken_place (h : turn.arena.Tidy turn.reserved)
    (htaken : turn.arena.isTaken turn.reserved id = true) :
    (turn.place number item).arena.isTaken (turn.place number item).reserved id = true := by
  rw [Arena.isTaken_iff] at htaken ⊢
  rw [place_claimed, mem_place_locations h, mem_place_reserved]
  exact htaken.imp .inl (Or.imp_right .inl)

/-- What is taken stays taken when the turn is over. -/
theorem isTaken_close (listed : List Text)
    (htaken : turn.arena.isTaken turn.reserved id = true) :
    turn.close.isTaken listed id = true := by
  rw [Arena.isTaken_iff] at htaken ⊢
  rw [close_locations, close_claimed, List.mem_append]
  rcases htaken with hid | hid | hid
  · exact .inl hid
  · exact .inr (.inl (.inl hid))
  · exact .inr (.inl (.inr hid))

/-- The tables of two turns agree off the id `t`, which the first one has. -/
structure AgreeOff (t : Text) (turn other : Turn) : Prop where
  tidy : turn.arena.Tidy turn.reserved
  other_tidy : other.arena.Tidy other.reserved
  mem : t ∈ OrderedMap.keys turn.arena.locations
  locations : ∀ {id}, id ≠ t →
    (id ∈ OrderedMap.keys other.arena.locations ↔ id ∈ OrderedMap.keys turn.arena.locations)
  claimed : ∀ {id}, id ≠ t → (id ∈ other.arena.claimed ↔ id ∈ turn.arena.claimed)
  reserved : ∀ {id}, id ≠ t → (id ∈ other.reserved ↔ id ∈ turn.reserved)
  /-- owners under other ids are the same -/
  owner_keep : ∀ {identity owner}, OrderedMap.get? turn.arena.owners identity = some owner →
    owner.id ≠ t → OrderedMap.get? other.arena.owners identity = some owner
  /-- an identity that `t` owns may pass to an entry of the same contributor, or to another `t` -/
  owner_from : ∀ {identity owner'}, OrderedMap.get? other.arena.owners identity = some owner' →
    OrderedMap.get? turn.arena.owners identity = some owner' ∨
      ∃ owner, OrderedMap.get? turn.arena.owners identity = some owner ∧ owner.id = t ∧
        (owner'.id = t ∨ owner'.contributor = owner.contributor)
  /-- if `t` is vacant then it is the least free number -/
  vacancy : other.arena.isTaken other.reserved t = true ∨
    ∃ n, t = Text.ofNat n ∧ ∀ m, m < n → other.arena.isTaken other.reserved (Text.ofNat m) = true

namespace AgreeOff

/-- Leaving out an entry whose id is held back. -/
theorem without (h : turn.arena.Tidy turn.reserved) (number : Nat)
    (hlisted : item.1 ∈ turn.reserved) :
    AgreeOff (turn.target number item) (turn.place number item) turn where
  tidy := tidy_place h number item
  other_tidy := h
  mem := (mem_place_locations h).2 (.inr rfl)
  locations hid := by
    rw [mem_place_locations h]
    exact ⟨.inl, fun hmem => hmem.resolve_right hid⟩
  claimed _ := by rw [place_claimed]
  reserved hid := by
    rw [mem_place_reserved]
    exact ⟨.inl, fun hmem => hmem.resolve_right fun hnew => hid hnew.2.2⟩
  owner_keep howner hid := by
    rcases owners_place_eq_some.1 howner with howner | ⟨-, -, rfl⟩
    · exact howner
    · exact absurd rfl hid
  owner_from howner := .inl (owners_place_eq_some.2 (.inl howner))
  vacancy := by
    cases hfolds : turn.folds number item with
    | true =>
      obtain ⟨owner, howner, -, htarget⟩ := exists_owner_of_folds hfolds
      rw [htarget]
      exact .inl (Arena.isTaken_iff.2 (.inl (h.owner_mem howner)))
    | false =>
      cases hfree : turn.isFree item.1 with
      | true =>
        rw [target_eq_of_isFree hfolds hfree]
        exact .inl (Arena.isTaken_iff.2 (.inr (.inr hlisted)))
      | false =>
        rw [target_eq_of_not_isFree hfolds hfree]
        exact .inr ⟨_, rfl, fun _ hm => h.takenBelow.isTaken_of_lt hm⟩

variable (h : AgreeOff t turn other)

include h

/-- Only folded entries go to `t`. -/
theorem exists_owner (htarget : turn.target number item = t) :
    ∃ owner, OrderedMap.get? turn.arena.owners item.2.identity = some owner ∧
      owner.contributor ≠ number ∧ owner.id = t := by
  cases hfolds : turn.folds number item with
  | false => exact absurd (htarget ▸ h.mem) (target_not_mem hfolds)
  | true =>
    obtain ⟨owner, howner, hother, hid⟩ := exists_owner_of_folds hfolds
    exact ⟨owner, howner, hother, hid.symm.trans htarget⟩

/-- An entry whose identity has no owner does not go to `t`. -/
theorem target_ne (hnone : OrderedMap.get? turn.arena.owners item.2.identity = none) :
    turn.target number item ≠ t := by
  intro htarget
  obtain ⟨owner, howner, -⟩ := h.exists_owner htarget
  rw [hnone] at howner
  cases howner

theorem isFree_self : turn.isFree t = false :=
  Bool.eq_false_iff.2 fun hfree => (isFree_iff.1 hfree).2 h.mem

theorem isFree_eq (hid : id ≠ t) : other.isFree id = turn.isFree id := by
  rw [Bool.eq_iff_iff, isFree_iff, isFree_iff, h.claimed hid, h.locations hid]

theorem isTaken_eq (hid : id ≠ t) :
    other.arena.isTaken other.reserved id = turn.arena.isTaken turn.reserved id := by
  rw [Bool.eq_iff_iff, Arena.isTaken_iff, Arena.isTaken_iff, h.locations hid, h.claimed hid,
    h.reserved hid]

/-- A vacant id that is not taken is the next to be allocated. -/
theorem allocate_eq_self (htaken : other.arena.isTaken other.reserved t = false) :
    Text.ofNat (other.arena.allocate other.reserved) = t := by
  rcases h.vacancy with hvacancy | ⟨n, rfl, hbelow⟩
  · rw [htaken] at hvacancy
    cases hvacancy
  · rw [h.other_tidy.takenBelow.allocate_eq htaken hbelow]

/-- Numbers apart from `t` are allocated alike. -/
theorem allocate_eq (hne : Text.ofNat (other.arena.allocate other.reserved) ≠ t) :
    other.arena.allocate other.reserved = turn.arena.allocate turn.reserved := by
  have hnot := Arena.allocate_not_mem turn.arena turn.reserved
  -- the number of the first table is free in the other one, and no smaller one is
  refine h.other_tidy.takenBelow.allocate_eq ?_ fun m hm => ?_
  · have hid : Text.ofNat (turn.arena.allocate turn.reserved) ≠ t := by
      rintro rfl
      exact hnot h.mem
    rw [h.isTaken_eq hid, Arena.isTaken_allocate]
  · by_cases heq : Text.ofNat m = t
    · rw [heq]
      by_contra htaken
      exact hne (h.allocate_eq_self (Bool.eq_false_iff.2 htaken))
    · rw [h.isTaken_eq heq]
      exact h.tidy.takenBelow.isTaken_of_lt hm

/-- An entry that is added in the first table is not folded in the other, unless into `t`. -/
theorem folds_eq_false (hfolds : turn.folds number item = false)
    (hne : other.target number item ≠ t) : other.folds number item = false := by
  rw [folds_eq_false_iff] at hfolds ⊢
  intro owner' howner'
  by_contra hother
  have htarget := (folds_of_owner howner' hother).2
  rcases h.owner_from howner' with howner | ⟨owner, howner, -, hid | hcontributor⟩
  · exact hother (hfolds owner' howner)
  · exact hne (htarget.trans hid)
  · exact hother (hcontributor.trans (hfolds owner howner))

/-- An entry that is folded into another id than `t` is folded into it in both tables. -/
theorem folds_target (hfolds : turn.folds number item = true)
    (hne : turn.target number item ≠ t) :
    other.folds number item = true ∧ other.target number item = turn.target number item := by
  obtain ⟨owner, howner, hother, htarget⟩ := exists_owner_of_folds hfolds
  rw [htarget] at hne ⊢
  exact folds_of_owner (h.owner_keep howner hne) hother

/-- An entry that is added in both tables, but not under `t`, finds its id free in both or in
none. -/
theorem isFree_item (hfolds : other.folds number item = false)
    (hne : other.target number item ≠ t) : other.isFree item.1 = turn.isFree item.1 := by
  by_cases hid : item.1 = t
  · rw [hid, h.isFree_self]
    refine Bool.eq_false_iff.2 fun hfree => hne ?_
    exact (target_eq_of_isFree hfolds (hid ▸ hfree)).trans hid
  · exact h.isFree_eq hid

/-- **An entry gets the same id in both tables** as long as neither gives it `t` alone. -/
theorem target_eq (hagree : other.target number item = t ↔ turn.target number item = t) :
    other.target number item = turn.target number item := by
  by_cases hne : turn.target number item = t
  · rw [hne, hagree.2 hne]
  · have hne' : other.target number item ≠ t := fun heq => hne (hagree.1 heq)
    cases hfolds : turn.folds number item with
    | true => exact (h.folds_target hfolds hne).2
    | false =>
      have hfolds' := h.folds_eq_false hfolds hne'
      have hfree' := h.isFree_item hfolds' hne'
      cases hfree : turn.isFree item.1 with
      | true => rw [target_eq_of_isFree hfolds hfree, target_eq_of_isFree hfolds' (hfree'.trans hfree)]
      | false =>
        have htarget' := target_eq_of_not_isFree hfolds' (hfree'.trans hfree)
        rw [htarget'] at hne'
        rw [htarget', target_eq_of_not_isFree hfolds hfree, h.allocate_eq hne']

/-- The two tables still agree when such an entry has been placed. -/
theorem place (hagree : other.target number item = t ↔ turn.target number item = t) :
    AgreeOff t (turn.place number item) (other.place number item) where
  tidy := tidy_place h.tidy number item
  other_tidy := tidy_place h.other_tidy number item
  mem := (mem_place_locations h.tidy).2 (.inl h.mem)
  locations hid := by
    rw [mem_place_locations h.tidy, mem_place_locations h.other_tidy, h.target_eq hagree,
      h.locations hid]
  claimed hid := by
    rw [place_claimed, place_claimed]
    exact h.claimed hid
  reserved {id} hid := by
    rw [mem_place_reserved, mem_place_reserved, h.target_eq hagree, h.reserved hid]
    refine or_congr_right ?_
    by_cases hne : turn.target number item = t
    · -- the id that is given is `t`
      rw [hne]
      exact ⟨fun hnew => absurd hnew.2.2 hid, fun hnew => absurd hnew.2.2 hid⟩
    · have hne' : other.target number item ≠ t := fun heq => hne (hagree.1 heq)
      cases hfolds : turn.folds number item with
      | true => simp [(h.folds_target hfolds hne).1]
      | false =>
        have hfolds' := h.folds_eq_false hfolds hne'
        rw [hfolds', h.isFree_item hfolds' hne']
  owner_keep {identity owner} howner hid := by
    rw [owners_place_eq_some] at howner ⊢
    rcases howner with howner | ⟨hnone, hidentity, rfl⟩
    · exact .inl (h.owner_keep howner hid)
    · refine .inr ⟨?_, hidentity, by rw [h.target_eq hagree]⟩
      -- every owner of the other table has one in the first
      rw [Option.eq_none_iff_forall_ne_some]
      intro owner' howner'
      rcases h.owner_from howner' with howner | ⟨owner, howner, -⟩
      · rw [hnone] at howner
        cases howner
      · rw [hnone] at howner
        cases howner
  owner_from {identity owner'} howner' := by
    rcases owners_place_eq_some.1 howner' with howner' | ⟨hnone', hidentity, rfl⟩
    · rcases h.owner_from howner' with howner | ⟨owner, howner, hid⟩
      · exact .inl (owners_place_eq_some.2 (.inl howner))
      · exact .inr ⟨owner, owners_place_eq_some.2 (.inl howner), hid⟩
    · rcases howner : OrderedMap.get? turn.arena.owners identity with _ | owner
      · refine .inl (owners_place_eq_some.2 (.inr ⟨howner, hidentity, ?_⟩))
        rw [h.target_eq hagree]
      · -- only an identity that `t` owns can have lost its owner
        have hid : owner.id = t := by
          by_contra hid
          rw [h.owner_keep howner hid] at hnone'
          cases hnone'
        refine .inr ⟨owner, owners_place_eq_some.2 (.inl howner), hid, ?_⟩
        by_cases hother : owner.contributor = number
        · exact .inr hother.symm
        · obtain rfl := hidentity
          exact .inl (hagree.2 ((folds_of_owner howner hother).2.trans hid))
  vacancy := by
    rcases h.vacancy with htaken | ⟨n, hn, hbelow⟩
    · exact .inl (isTaken_place h.other_tidy htaken)
    · exact .inr ⟨n, hn, fun m hm => isTaken_place h.other_tidy (hbelow m hm)⟩

/-- The two tables still agree when the next turn opens. -/
theorem close (listed : List Text) : AgreeOff t ⟨turn.close, listed, []⟩ ⟨other.close, listed, []⟩ where
  tidy := h.tidy.close.mono (List.nil_subset _)
  other_tidy := h.other_tidy.close.mono (List.nil_subset _)
  mem := h.mem
  locations := h.locations
  claimed hid := by
    rw [close_claimed, close_claimed, List.mem_append, List.mem_append, h.claimed hid,
      h.reserved hid]
  reserved _ := Iff.rfl
  owner_keep := h.owner_keep
  owner_from := h.owner_from
  vacancy := by
    rcases h.vacancy with htaken | ⟨n, hn, hbelow⟩
    · exact .inl (isTaken_close listed htaken)
    · exact .inr ⟨n, hn, fun m hm => isTaken_close listed (hbelow m hm)⟩

end AgreeOff

end Turn

end CoverageLift
