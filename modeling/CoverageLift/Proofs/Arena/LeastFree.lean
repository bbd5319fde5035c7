import CoverageLift.Proofs.Arena.Course
import CoverageLift.Proofs.Arena.Sharing
import Mathlib.Order.Bounds.Defs

/-!
# The least free number

An entry that cannot keep its id gets a number. The search for it tries one numeral after the other,
from a stored number on and without a bound (`Search`). Two things hold of it in every turn, whatever
the contributors bring and however they are numbered:

* **it ends**, since only finitely many numerals are taken and no two numbers share one;
* it ends at **the least of all free numbers**, although it does not begin at zero: what a search has
  passed is in the table, claimed, or held back by the contributor whose turn it is, and what is held
  back is claimed when the turn is over. So a number before the stored one never becomes free again.

The second is `Arena.Tidy.takenBelow`, which one placement keeps (`Turn.tidy_place`); here it is carried
through a turn and through any sequence of turns.
-/

namespace CoverageLift

/-! ### The search without a bound -/

/-- The search for a free number ends at `found` when it begins at `start`: it goes on to the next
number while the numeral is taken. -/
inductive Search (taken : Text → Bool) : (start found : Nat) → Prop
  | here {n : Nat} (hfree : taken (Text.ofNat n) = false) : Search taken n n
  | next {n found : Nat} (htaken : taken (Text.ofNat n) = true) (rest : Search taken (n + 1) found) :
      Search taken n found

/-- A search ends at the first number from its start on that is free. -/
theorem search_iff {taken : Text → Bool} {start found : Nat} :
    Search taken start found ↔
      start ≤ found ∧ taken (Text.ofNat found) = false ∧
        ∀ m, start ≤ m → m < found → taken (Text.ofNat m) = true := by
  constructor
  · intro h
    induction h with
    | here hfree => exact ⟨Nat.le_refl _, hfree, fun m hle hlt => absurd hlt (Nat.not_lt.2 hle)⟩
    | next htaken _ ih =>
      obtain ⟨hle, hfree, hbelow⟩ := ih
      refine ⟨Nat.le_of_succ_le hle, hfree, fun m hm hlt => ?_⟩
      rcases Nat.eq_or_lt_of_le hm with rfl | hm
      · exact htaken
      · exact hbelow m hm hlt
  · rintro ⟨hle, hfree, hbelow⟩
    -- by induction on the number of numerals that are passed
    obtain ⟨passed, rfl⟩ := Nat.exists_eq_add_of_le hle
    induction passed generalizing start with
    | zero => exact .here hfree
    | succ passed ih =>
      refine .next (hbelow start (Nat.le_refl _) (by omega)) ?_
      have hnext : start + (passed + 1) = start + 1 + passed := by omega
      rw [hnext] at hfree hbelow ⊢
      exact ih (Nat.le_add_right _ _) hfree fun m hm hlt => hbelow m (Nat.le_of_succ_le hm) hlt

namespace Arena

variable {arena : Arena} {reserved : List Text}

/-- The numbers whose numerals are in no use: they are not in the table, not claimed, and not held
back. -/
def freeNumbers (arena : Arena) (reserved : List Text) : Set Nat :=
  {n | Text.ofNat n ∉ OrderedMap.keys arena.locations ∧ Text.ofNat n ∉ arena.claimed ∧
    Text.ofNat n ∉ reserved}

theorem mem_freeNumbers_iff {n : Nat} :
    n ∈ arena.freeNumbers reserved ↔ arena.isTaken reserved (Text.ofNat n) = false := by
  rw [← Bool.not_eq_true, isTaken_iff, not_or, not_or]
  exact Iff.rfl

/-- The search ends, and it ends at the number that is allocated. -/
theorem search_allocate (arena : Arena) (reserved : List Text) :
    Search (arena.isTaken reserved) arena.nextId (arena.allocate reserved) :=
  search_iff.2 (allocate_spec arena reserved)

/-- Where all numbers before the stored one are taken, the allocated number is the least free one. -/
theorem TakenBelow.isLeast (h : arena.TakenBelow reserved) :
    IsLeast (arena.freeNumbers reserved) (arena.allocate reserved) := by
  refine ⟨mem_freeNumbers_iff.2 (isTaken_allocate arena reserved), fun n hfree => ?_⟩
  rw [mem_freeNumbers_iff] at hfree
  refine Nat.le_of_not_lt fun hlt => ?_
  rw [h.isTaken_of_lt hlt] at hfree
  cases hfree

end Arena

/-! ### Through a turn -/

namespace Turn

variable {number : Nat} {turn : Turn} {item : Text × Entry} {listed : List Text}

/-- Placing entries keeps the table tidy. -/
theorem tidy_foldl_place (number : Nat) (entries : OrderedMap Text Entry)
    (h : turn.arena.Tidy turn.reserved) :
    (entries.foldl (Turn.place number) turn).arena.Tidy
      (entries.foldl (Turn.place number) turn).reserved :=
  List.foldlRecOn (motive := fun turn : Turn => turn.arena.Tidy turn.reserved) entries _ h
    fun _ h item _ => tidy_place h number item

/-- Every entry has a placement of its own, after those that are there. -/
theorem exists_placements_foldl_place (number : Nat) (entries : OrderedMap Text Entry) :
    ∀ turn : Turn, ∃ more, (entries.foldl (Turn.place number) turn).placements =
      turn.placements ++ more ∧ more.length = entries.length := by
  induction entries with
  | nil => exact fun turn => ⟨[], (List.append_nil _).symm, rfl⟩
  | cons item entries ih =>
    intro turn
    obtain ⟨more, hmore, hlength⟩ := ih (turn.place number item)
    refine ⟨⟨item.1, turn.target number item, turn.folds number item, item.2.count⟩ :: more, ?_, ?_⟩
    · rw [List.foldl_cons, hmore, place_placements, List.append_assoc]
      rfl
    · rw [List.length_cons, hlength, List.length_cons]

/-- An entry that is not folded keeps its id exactly when the id is free. -/
theorem target_eq_id_iff (h : turn.folds number item = false) :
    turn.target number item = item.1 ↔ turn.isFree item.1 = true := by
  refine ⟨fun htarget => isFree_iff.2 ?_, target_eq_of_isFree h⟩
  rw [← htarget]
  exact ⟨target_not_claimed h, target_not_mem h⟩

/-- What is held back is what the contributor lists and the numbers that its entries got. -/
def HoldsBack (listed : List Text) (turn : Turn) : Prop :=
  ∀ id, id ∈ turn.reserved ↔
    id ∈ listed ∨ ∃ p ∈ turn.placements, p.folded = false ∧ p.target ≠ p.id ∧ p.target = id

theorem HoldsBack.place (h : turn.HoldsBack listed) (number : Nat) (item : Text × Entry) :
    (turn.place number item).HoldsBack listed := by
  intro id
  rw [mem_place_reserved, h id, place_placements, or_assoc]
  refine or_congr_right ?_
  simp only [List.mem_append, List.mem_singleton, or_and_right, exists_or, exists_eq_left]
  refine or_congr_right (and_congr_right fun hfolds => ?_)
  rw [Ne, target_eq_id_iff hfolds, Bool.not_eq_true]
  exact and_congr_right fun _ => eq_comm

theorem HoldsBack.foldl_place (number : Nat) (entries : OrderedMap Text Entry)
    (h : turn.HoldsBack listed) : (entries.foldl (Turn.place number) turn).HoldsBack listed :=
  List.foldlRecOn entries _ h fun _ h item _ => h.place number item

end Turn

/-! ### Through any number of turns -/

namespace Arena

variable {arena : Arena}

/-- The table is tidy at any time of a turn. -/
theorem Tidy.turn (h : arena.Tidy []) (number : Nat) (c : Contribution) :
    (arena.turn number c).arena.Tidy (arena.turn number c).reserved :=
  Turn.tidy_foldl_place number c.entries (h.mono (List.nil_subset c.listed))

/-- **One turn** keeps the table tidy, and with it every number before the stored one taken. -/
theorem Tidy.merge (h : arena.Tidy []) (number : Nat) (c : Contribution) :
    (arena.merge number c).arena.Tidy [] := by
  rw [merge_arena]
  exact (h.turn number c).close

/-- **Any number of turns** keeps the table tidy, also when numbers of contributors repeat. -/
theorem tidy_afterTurns (calls : List (Contribution × Nat)) : (empty.afterTurns calls).Tidy [] := by
  induction calls using List.reverseRecOn with
  | nil => exact tidy_empty
  | append_singleton calls call ih =>
    rw [afterTurns_concat]
    exact ih.merge call.2 call.1

theorem holdsBack_turn (arena : Arena) (number : Nat) (c : Contribution) :
    (arena.turn number c).HoldsBack c.listed :=
  Turn.HoldsBack.foldl_place number c.entries fun _ => by simp

/-- The placement of an entry stands where the entry does, and is decided by those before it. -/
theorem getElem?_placements_merge (arena : Arena) (number : Nat) (listed : List Text)
    (done rest : OrderedMap Text Entry) (item : Text × Entry) :
    let turn := arena.turn number ⟨listed, done⟩
    (arena.merge number ⟨listed, done ++ item :: rest⟩).placements[done.length]? =
      some ⟨item.1, turn.target number item, turn.folds number item, item.2.count⟩ := by
  intro turn
  obtain ⟨placed, hplaced, hlength⟩ :=
    Turn.exists_placements_foldl_place number done ⟨arena, listed, []⟩
  have hturn : turn.placements = placed := hplaced
  obtain ⟨more, hmore, -⟩ :=
    Turn.exists_placements_foldl_place number rest (turn.place number item)
  have hmerge : (arena.merge number ⟨listed, done ++ item :: rest⟩).placements =
      (turn.place number item).placements ++ more := by
    rw [merge_placements, ← hmore]
    exact congrArg Turn.placements (List.foldl_append.trans rfl)
  rw [hmerge, Turn.place_placements, hturn, List.append_assoc, ← hlength,
    List.getElem?_append_right (Nat.le_refl _), Nat.sub_self]
  rfl

/-- **The least free number.** At any time of any turn the search for a number ends, and it ends at
the least number whose numeral is not in the table, not claimed and not held back by the contributor.
This numeral is the id of an entry that is not folded and cannot keep its own. -/
theorem allocation_ends_at_least_free (calls : List (Contribution × Nat)) (number : Nat)
    (listed : List Text) (done rest : OrderedMap Text Entry) (item : Text × Entry) :
    let before := empty.afterTurns calls
    let turn := before.turn number ⟨listed, done⟩
    let merged := before.merge number ⟨listed, done ++ item :: rest⟩
    turn.HoldsBack listed ∧
      ∃ n, Search (turn.arena.isTaken turn.reserved) turn.arena.nextId n ∧
        IsLeast (turn.arena.freeNumbers turn.reserved) n ∧
        (turn.folds number item = false → turn.isFree item.1 = false →
          merged.placements[done.length]? =
              some ⟨item.1, Text.ofNat n, false, item.2.count⟩ ∧
            (turn.place number item).arena.nextId = n) := by
  intro before turn merged
  have htidy : turn.arena.Tidy turn.reserved := (tidy_afterTurns calls).turn number ⟨listed, done⟩
  refine ⟨holdsBack_turn before number ⟨listed, done⟩, turn.arena.allocate turn.reserved,
    search_allocate turn.arena turn.reserved, htidy.takenBelow.isLeast, fun hfolds hfree => ⟨?_, ?_⟩⟩
  · rw [← Turn.target_eq_of_not_isFree hfolds hfree, ← hfolds]
    exact getElem?_placements_merge before number listed done rest item
  · -- of the three ways to place an entry only the search is left
    rcases turn.place_cases number item.1 item.2 with
      ⟨target, hother, -⟩ | ⟨-, hfree', -⟩ | ⟨-, -, hplace⟩
    · rw [Turn.folds, hother] at hfolds
      cases hfolds
    · rw [hfree'] at hfree
      cases hfree
    · rw [hplace, add_nextId]

/-- The second search of a turn goes on where the first one ended, and still finds the least free
number: `0` to `2` are in the table, and `3` is claimed. -/
theorem allocation_ends_at_least_free_second_search :
    let before := empty.afterTurns
      [(⟨["0", "1", "3"], [("0", .onLine 1 1), ("1", .onLine 2 1)]⟩, 0)]
    let turn := before.turn 1 ⟨["0", "1"], [("0", .onLine 3 1)]⟩
    turn.arena.nextId = 2 ∧ IsLeast (turn.arena.freeNumbers turn.reserved) 4 ∧
      (before.merge 1 ⟨["0", "1"], [("0", .onLine 3 1), ("1", .onLine 4 7)]⟩).placements[1]? =
        some ⟨"1", "4", false, .int 7⟩ := by
  intro before turn
  obtain ⟨-, n, -, hleast, hplacement⟩ := allocation_ends_at_least_free
    [(⟨["0", "1", "3"], [("0", .onLine 1 1), ("1", .onLine 2 1)]⟩, 0)] 1 ["0", "1"]
    [("0", .onLine 3 1)] [] ("1", .onLine 4 7)
  obtain ⟨hid, hnext⟩ := hplacement (by decide) (by decide)
  have hn : n = 4 := hnext.symm.trans (by decide)
  subst hn
  exact ⟨by decide, hleast, hid⟩

end Arena

end CoverageLift
