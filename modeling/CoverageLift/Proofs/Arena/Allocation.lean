import CoverageLift.Coverage.Arena
import Mathlib.Data.List.Nodup
import Mathlib.Data.List.Range
import Mathlib.Tactic.Push

/-!
# Allocation of ids

The search for a free id tries the numerals from a stored number on, with as much fuel as there are
taken ids. Distinct numbers have distinct numerals, so the fuel never runs out: the search ends at
the least number from there on whose numeral is not taken.

Where every number before the stored one is taken for good, that number is simply the **least free
number**, so it depends on the taken ids alone and not on where the search began
(`Arena.allocate_congr`).
-/

namespace CoverageLift

/-- Distinct numbers have distinct numerals. -/
theorem Text.ofNat_injective : Function.Injective Text.ofNat := by
  intro m n h
  have hdigits : Nat.toDigits 10 m = Nat.toDigits 10 n :=
    List.map_injective_iff.2 (fun a b hab => CodePoint.char.inj hab) h
  calc
    m = Nat.ofDigitChars 10 (Nat.toDigits 10 m) 0 := Nat.ofDigitChars_ten_toDigits.symm
    _ = n := by rw [hdigits, Nat.ofDigitChars_ten_toDigits]

namespace Arena

variable {arena : Arena} {reserved : List Text}

theorem isTaken_iff {id : Text} :
    arena.isTaken reserved id = true ↔
      id ∈ OrderedMap.keys arena.locations ∨ id ∈ arena.claimed ∨ id ∈ reserved := by
  simp [isTaken, OrderedMap.contains_iff, or_assoc]

/-! ### The search -/

/-- A search with enough fuel ends at the least number from `n` on that is not taken. -/
theorem firstFree_spec {taken : Text → Bool} :
    ∀ {fuel n : Nat}, (∃ m, n ≤ m ∧ m < n + fuel ∧ taken (Text.ofNat m) = false) →
      n ≤ firstFree taken fuel n ∧ taken (Text.ofNat (firstFree taken fuel n)) = false ∧
        ∀ m, n ≤ m → m < firstFree taken fuel n → taken (Text.ofNat m) = true := by
  intro fuel
  induction fuel with
  | zero =>
    rintro n ⟨m, hle, hlt, -⟩
    omega
  | succ fuel ih =>
    rintro n ⟨m, hle, hlt, hm⟩
    cases hn : taken (Text.ofNat n) with
    | false =>
      rw [firstFree, hn, if_neg Bool.false_ne_true]
      exact ⟨Nat.le_refl n, hn, fun k hk hkn => absurd hkn (by omega)⟩
    | true =>
      rw [firstFree, hn, if_pos rfl]
      have hne : m ≠ n := by
        rintro rfl
        rw [hn] at hm
        cases hm
      obtain ⟨hle', hfree, hbelow⟩ := ih (n := n + 1) ⟨m, by omega, by omega, hm⟩
      refine ⟨by omega, hfree, fun k hk hlt' => ?_⟩
      rcases Nat.eq_or_lt_of_le hk with rfl | hk
      · exact hn
      · exact hbelow k hk hlt'

/-- Among one number more than there are taken ids, one has a numeral that is not taken. -/
theorem exists_free (arena : Arena) (reserved : List Text) (n : Nat) :
    ∃ m, n ≤ m ∧ m < n + (arena.locations.length + arena.claimed.length + reserved.length + 1) ∧
      arena.isTaken reserved (Text.ofNat m) = false := by
  by_contra hnone
  push Not at hnone
  let numerals :=
    (List.range' n (arena.locations.length + arena.claimed.length + reserved.length + 1)).map
      Text.ofNat
  have hnodup : numerals.Nodup := List.Nodup.map Text.ofNat_injective List.nodup_range'
  have hsub : numerals ⊆ OrderedMap.keys arena.locations ++ (arena.claimed ++ reserved) := by
    intro id hid
    obtain ⟨m, hm, rfl⟩ := List.mem_map.1 hid
    have hrange := List.mem_range'_1.1 hm
    have htaken := isTaken_iff.1 (Bool.of_not_eq_false (hnone m hrange.1 hrange.2))
    simpa using htaken
  have hlen := hnodup.length_le_of_subset hsub
  simp [numerals, OrderedMap.keys] at hlen
  omega

/-- The allocated numeral is not taken, and every number that the search passed is. -/
theorem allocate_spec (arena : Arena) (reserved : List Text) :
    arena.nextId ≤ arena.allocate reserved ∧
      arena.isTaken reserved (Text.ofNat (arena.allocate reserved)) = false ∧
        ∀ m, arena.nextId ≤ m → m < arena.allocate reserved →
          arena.isTaken reserved (Text.ofNat m) = true :=
  firstFree_spec (exists_free arena reserved arena.nextId)

theorem isTaken_allocate (arena : Arena) (reserved : List Text) :
    arena.isTaken reserved (Text.ofNat (arena.allocate reserved)) = false :=
  (allocate_spec arena reserved).2.1

/-- The allocated numeral is used, claimed and held back nowhere. -/
theorem allocate_not_taken :
    ¬ (Text.ofNat (arena.allocate reserved) ∈ OrderedMap.keys arena.locations ∨
      Text.ofNat (arena.allocate reserved) ∈ arena.claimed ∨
        Text.ofNat (arena.allocate reserved) ∈ reserved) := by
  rw [← isTaken_iff, isTaken_allocate]
  exact Bool.false_ne_true

/-- The allocated numeral is no id of the table. -/
theorem allocate_not_mem (arena : Arena) (reserved : List Text) :
    Text.ofNat (arena.allocate reserved) ∉ OrderedMap.keys arena.locations :=
  fun hmem => allocate_not_taken (.inl hmem)

/-! ### The least free number -/

/-- Every number before the one where the search begins is taken. -/
def TakenBelow (arena : Arena) (reserved : List Text) : Prop :=
  ∀ m, m < arena.nextId → arena.isTaken reserved (Text.ofNat m) = true

/-- The allocated number is the least free one. -/
theorem TakenBelow.isTaken_of_lt (h : arena.TakenBelow reserved) {m : Nat}
    (hm : m < arena.allocate reserved) : arena.isTaken reserved (Text.ofNat m) = true := by
  rcases Nat.lt_or_ge m arena.nextId with hlt | hge
  · exact h m hlt
  · exact (allocate_spec arena reserved).2.2 m hge hm

/-- A number whose numeral is free while all smaller ones are taken is the allocated one. -/
theorem TakenBelow.allocate_eq (h : arena.TakenBelow reserved) {n : Nat}
    (hfree : arena.isTaken reserved (Text.ofNat n) = false)
    (hbelow : ∀ m, m < n → arena.isTaken reserved (Text.ofNat m) = true) :
    arena.allocate reserved = n := by
  rcases Nat.lt_trichotomy (arena.allocate reserved) n with hlt | heq | hgt
  · have htaken := hbelow _ hlt
    rw [isTaken_allocate] at htaken
    cases htaken
  · exact heq
  · have htaken := h.isTaken_of_lt hgt
    rw [hfree] at htaken
    cases htaken

end Arena

end CoverageLift
