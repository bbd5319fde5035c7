import CoverageLift.Proofs.Arena.Rows
import Mathlib.Algebra.BigOperators.Group.List.Basic
import Mathlib.Algebra.Ring.Int.Defs

/-!
# What rows weigh

Where two entries of one identity are added up, whatever is **additive** is neither lost nor
invented (`Additive`): after any number of turns the rows of an identity weigh together what the
entries of that identity weighed, no matter which of them were added up and which stayed apart
(`weightOf_foldl_absorb`).
-/

namespace CoverageLift

/-- What the rows of an identity weigh. -/
def weightOf (w : Entry → Int) (identity : Identity) (rows : List Entry) : Int :=
  ((rows.filter fun row => row.identity = identity).map w).sum

/-- Among entries with `P`, adding up two of one identity adds up their weights. -/
structure Additive (P : Entry → Prop) (w : Entry → Int) : Prop where
  holds : ∀ {row entry}, P row → P entry → row.identity = entry.identity → P (row.plus entry)
  weight : ∀ {row entry}, P row → P entry → row.identity = entry.identity →
    w (row.plus entry) = w row + w entry

section Weights

variable {P : Entry → Prop} {w : Entry → Int} {identity : Identity} {rows entries : List Entry}
  {entry : Entry}

theorem weightOf_nil : weightOf w identity [] = 0 := rfl

theorem weightOf_cons (row : Entry) (rows : List Entry) :
    weightOf w identity (row :: rows) =
      (if row.identity = identity then w row else 0) + weightOf w identity rows := by
  by_cases h : row.identity = identity
  · simp [weightOf, h]
  · simp [weightOf, h]

theorem weightOf_append (rows rows' : List Entry) :
    weightOf w identity (rows ++ rows') = weightOf w identity rows + weightOf w identity rows' := by
  simp [weightOf]

/-- Adding hits to the row of an identity adds their weight. -/
theorem weightOf_addHits (h : Additive P w) (hrows : ∀ row ∈ rows, P row) (hentry : P entry)
    (hpresent : entry.identity ∈ rows.map (·.identity)) :
    weightOf w identity (addHits rows entry) =
      weightOf w identity rows + weightOf w identity [entry] := by
  induction rows with
  | nil => exact absurd hpresent List.not_mem_nil
  | cons row rows ih =>
    obtain ⟨hrow, hrows⟩ := List.forall_mem_cons.1 hrows
    rw [addHits]
    split
    · next hsame =>
      have hidentity : (row.plus entry).identity = row.identity := rfl
      rw [weightOf_cons, weightOf_cons, weightOf_cons, weightOf_nil, hidentity,
        h.weight hrow hentry hsame, hsame]
      split <;> omega
    · next hother =>
      have hpresent : entry.identity ∈ rows.map (·.identity) :=
        (List.mem_cons.1 hpresent).resolve_left fun heq => hother heq.symm
      rw [weightOf_cons, weightOf_cons, ih hrows hpresent, Int.add_assoc]

/-- **One turn** adds the weight of its entries. -/
theorem weightOf_absorb (h : Additive P w) (hrows : ∀ row ∈ rows, P row)
    (hentries : ∀ entry ∈ entries, P entry) :
    weightOf w identity (absorb rows entries) =
      weightOf w identity rows + weightOf w identity entries := by
  have hfold : ∀ (entries done : List Entry), (∀ row ∈ done, P row) →
      (∀ entry ∈ entries, P entry) → rows.map (·.identity) ⊆ done.map (·.identity) →
        weightOf w identity (entries.foldl (absorbOne rows) done) =
          weightOf w identity done + weightOf w identity entries := by
    intro entries
    induction entries with
    | nil => exact fun done _ _ _ => (Int.add_zero _).symm
    | cons entry entries ih =>
      intro done hdone hentries hsub
      obtain ⟨hentry, hentries⟩ := List.forall_mem_cons.1 hentries
      have hnext : ∀ row ∈ absorbOne rows done entry, P row :=
        forall_absorbOne h.holds hdone hentry
      rw [List.foldl_cons, ← List.singleton_append, weightOf_append, ← Int.add_assoc]
      rw [absorbOne] at hnext ⊢
      split at hnext
      · next hpresent =>
        -- the rows that were there in the beginning are still there
        obtain ⟨row, hrow, heq⟩ := hpresent
        rw [if_pos ⟨row, hrow, heq⟩,
          ih _ hnext hentries ((map_identity_addHits done entry).symm ▸ hsub),
          weightOf_addHits h hdone hentry (hsub (heq ▸ List.mem_map_of_mem hrow))]
      · next habsent =>
        rw [if_neg habsent, ih _ hnext hentries
          (List.map_append ▸ List.subset_append_of_subset_left _ hsub), weightOf_append]
  exact hfold entries rows hrows hentries (List.Subset.refl _)

/-- **All turns**: the rows of an identity weigh what the entries of that identity weighed. -/
theorem weightOf_foldl_absorb (h : Additive P w) {turns : List (List Entry)}
    (hturns : ∀ entries ∈ turns, ∀ entry ∈ entries, P entry) :
    weightOf w identity (turns.foldl absorb []) = (turns.map (weightOf w identity)).sum := by
  induction turns using List.reverseRecOn with
  | nil => rfl
  | append_singleton turns entries ih =>
    obtain ⟨hturns, hentries⟩ := List.forall_mem_append.1 hturns
    rw [List.foldl_append, List.map_append, List.sum_append, List.map_singleton, List.sum_singleton,
      ← ih hturns]
    exact weightOf_absorb h (forall_foldl_absorb h.holds hturns)
      (List.forall_mem_singleton.1 hentries)

end Weights

end CoverageLift
