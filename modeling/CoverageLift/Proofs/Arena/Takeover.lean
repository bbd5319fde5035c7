import CoverageLift.Proofs.Arena.Vacancy

/-!
# Who takes a vacant id over

Two tables that agree off one id are in one of two states. Either the id is **filled** again in the
second one, by an entry of the same identity; then only the entries that are folded into it can tell
the two tables apart. Or it is **vacant** there, and an entry takes it over when nothing keeps the
id from it any more (`Step.TakesOver`). Contributors keep a vacant id from later entries only by
listing it: an id that was given and is not given now is not claimed.
-/

namespace CoverageLift

/-- Whether the entry would get the id `t` if that had been left vacant in an earlier step, whose
identity then had no other entry of its contributor, or had one. -/
def Step.TakesOver (t : Text) (alone : Prop) (s : Step) : Prop :=
  (s.folds = false ∨ s.target = t ∧ alone) ∧ t ∉ s.moment.past ∧
    (s.item.1 = t ∨ s.isFree = false ∧ t ∉ s.moment.listed)

/-- Whether the identity has other entries matters only to what was folded into the id. -/
theorem Step.takesOver_congr {t : Text} {s : Step} {alone alone' : Prop}
    (h : s.target = t → (alone ↔ alone')) : s.TakesOver t alone ↔ s.TakesOver t alone' := by
  refine and_congr_left fun _ => or_congr_right ?_
  exact and_congr_right h

namespace Moment

variable {t : Text} {m : Moment} {other : Turn} {item : Text × Entry}

/-! ### The id is in both tables -/

/-- The id `t` is in both tables, added by contributor `p` in one and by `q` in the other. -/
structure Filled (t : Text) (p q : Nat) (m : Moment) (other : Turn) : Prop where
  agree : m.turn.AgreeOff t other
  mem : t ∈ OrderedMap.keys other.arena.locations
  owner : ∀ {identity owner}, OrderedMap.get? m.turn.arena.owners identity = some owner →
    owner.id = t →
      owner.contributor = p ∧ OrderedMap.get? other.arena.owners identity = some ⟨t, q⟩

namespace Filled

variable {p q : Nat} (h : Filled t p q m other)

include h

/-- Where the id `t` is in the table, only folded entries go to it. -/
theorem target_eq_self_iff (hp : m.number ≠ p) :
    other.target m.number item = t ↔ m.turn.target m.number item = t ∧ m.number ≠ q := by
  constructor
  · intro htarget
    cases hfolds : other.folds m.number item with
    | false => exact absurd (htarget ▸ h.mem) (Turn.target_not_mem hfolds)
    | true =>
      obtain ⟨owner', howner', hother, hid'⟩ := Turn.exists_owner_of_folds hfolds
      rw [htarget] at hid'
      have howner : ∃ owner, OrderedMap.get? m.turn.arena.owners item.2.identity = some owner ∧
          owner.id = t := by
        rcases h.agree.owner_from howner' with howner | ⟨owner, howner, hid, -⟩
        · exact ⟨owner', howner, hid'.symm⟩
        · exact ⟨owner, howner, hid⟩
      obtain ⟨owner, howner, hid⟩ := howner
      -- in one table the owner is an entry of `p`, in the other one of `q`
      obtain ⟨hcontributor, hown⟩ := h.owner howner hid
      have hmine : owner.contributor ≠ m.number := by
        rw [hcontributor]
        exact hp.symm
      refine ⟨(Turn.folds_of_owner howner hmine).2.trans hid, ?_⟩
      rw [howner'] at hown
      obtain rfl := Option.some.inj hown
      exact hother.symm
  · rintro ⟨htarget, hq⟩
    obtain ⟨owner, howner, -, hid⟩ := h.agree.exists_owner htarget
    exact (Turn.folds_of_owner (h.owner howner hid).2 hq.symm).2

/-- An entry goes elsewhere exactly when contributor `q` has it and it was folded into `t`. -/
theorem target_eq_iff (hp : m.number ≠ p) :
    other.target m.number item = m.turn.target m.number item ↔
      (m.number = q → m.turn.target m.number item ≠ t) := by
  constructor
  · intro heq hq htarget
    exact (h.target_eq_self_iff hp).1 (heq.trans htarget) |>.2 hq
  · intro hne
    refine h.agree.target_eq ?_
    rw [h.target_eq_self_iff hp]
    exact ⟨fun htarget => htarget.1, fun htarget => ⟨htarget, fun hq => hne hq htarget⟩⟩

theorem opens (number : Nat) (listed : List Text) :
    Filled t p q (m.next (.opens number listed)) ⟨other.close, listed, []⟩ where
  agree := h.agree.close listed
  mem := h.mem
  owner := h.owner

theorem places (heq : other.target m.number item = m.turn.target m.number item) :
    Filled t p q (m.next (.places item)) (other.place m.number item) where
  agree := h.agree.place (by rw [heq])
  mem := (Turn.mem_place_locations h.agree.other_tidy).2 (.inl h.mem)
  owner howner hid := by
    rcases Turn.owners_place_eq_some.1 howner with howner | ⟨hnone, rfl, rfl⟩
    · obtain ⟨hcontributor, hown⟩ := h.owner howner hid
      exact ⟨hcontributor, Turn.owners_place_eq_some.2 (.inl hown)⟩
    · exact absurd hid (h.agree.target_ne hnone)

end Filled

/-! ### The id is vacant -/

/-- The id `t` was given by contributor `k` to an entry of the identity, and is in the first table
only. -/
structure Vacant (t : Text) (identity : Identity) (k : Nat) (m : Moment) (other : Turn) : Prop where
  agree : m.turn.AgreeOff t other
  not_mem : t ∉ OrderedMap.keys other.arena.locations
  /-- the identity has an owner in the first table -/
  owned : (OrderedMap.get? m.turn.arena.owners identity).isSome
  /-- and `t` can only be the owner of that identity -/
  owner : ∀ {identity' owner}, OrderedMap.get? m.turn.arena.owners identity' = some owner →
    owner.id = t → identity' = identity ∧ owner.contributor = k
  /-- contributors whose turns are over keep the id only by listing it -/
  claimed : t ∈ other.arena.claimed ↔ t ∈ m.past
  /-- and so does the contributor whose turn it is -/
  reserved : t ∈ other.reserved ↔ t ∈ m.listed

namespace Vacant

variable {identity : Identity} {k : Nat} (h : Vacant t identity k m other)

include h

/-- No entry is folded into a vacant id. -/
theorem folds_eq_false (htarget : other.target m.number item = t) :
    other.folds m.number item = false := by
  refine Bool.eq_false_iff.2 fun hfolds => h.not_mem ?_
  obtain ⟨owner', howner', -, hid'⟩ := Turn.exists_owner_of_folds hfolds
  rw [← htarget, hid']
  exact h.agree.other_tidy.owner_mem howner'

/-- Without `t` an entry is added when it was added before, and when it was folded into `t` and
nothing else has its identity. -/
theorem folds_eq_false_iff :
    other.folds m.number item = false ↔
      m.turn.folds m.number item = false ∨
        m.turn.target m.number item = t ∧
          OrderedMap.get? other.arena.owners identity = none := by
  constructor
  · intro hfolds'
    refine or_iff_not_imp_left.2 fun hfolds => ?_
    rw [Bool.not_eq_false] at hfolds
    -- folded before and added now, so its owner was `t`
    have htarget : m.turn.target m.number item = t := by
      by_contra hne
      have hfolds := (h.agree.folds_target hfolds hne).1
      rw [hfolds'] at hfolds
      cases hfolds
    obtain ⟨owner, howner, hother, hid⟩ := Turn.exists_owner_of_folds hfolds
    rw [htarget] at hid
    refine ⟨htarget, ?_⟩
    -- a new owner would be an entry of this contributor, who is not the one that `t` came from
    rw [← (h.owner howner hid.symm).1, Option.eq_none_iff_forall_ne_some]
    intro owner' howner'
    have hmine := Turn.folds_eq_false_iff.1 hfolds' owner' howner'
    rcases h.agree.owner_from howner' with hsame | ⟨owner'', hsame, -, hid' | hcontributor⟩
    · rw [howner] at hsame
      obtain rfl := Option.some.inj hsame
      exact hother hmine
    · exact h.not_mem (hid' ▸ h.agree.other_tidy.owner_mem howner')
    · rw [howner] at hsame
      obtain rfl := Option.some.inj hsame
      exact hother (hcontributor.symm.trans hmine)
  · rintro (hfolds | ⟨htarget, hnone⟩)
    · refine Turn.folds_eq_false_iff.2 fun owner' howner' => ?_
      rcases h.agree.owner_from howner' with howner | ⟨owner, howner, -, hid' | hcontributor⟩
      · exact Turn.folds_eq_false_iff.1 hfolds owner' howner
      · exact absurd (hid' ▸ h.agree.other_tidy.owner_mem howner') h.not_mem
      · exact hcontributor.trans (Turn.folds_eq_false_iff.1 hfolds owner howner)
    · obtain ⟨owner, howner, -, hid⟩ := h.agree.exists_owner htarget
      rw [Turn.folds_eq_false_iff, (h.owner howner hid).1, hnone]
      exact fun _ howner => by cases howner

/-- **Who takes a vacant id over.** -/
theorem target_eq_self_iff :
    other.target m.number item = t ↔
      (⟨m, item⟩ : Step).TakesOver t (OrderedMap.get? other.arena.owners identity = none) := by
  rw [Step.TakesOver]
  constructor
  · intro htarget
    have hfolds := h.folds_eq_false htarget
    refine ⟨h.folds_eq_false_iff.1 hfolds, ?_⟩
    cases hfree : other.isFree item.1 with
    | true =>
      have hid : item.1 = t := (Turn.target_eq_of_isFree hfolds hfree).symm.trans htarget
      exact ⟨fun hpast => (Turn.isFree_iff.1 hfree).1 (hid ▸ h.claimed.2 hpast), .inl hid⟩
    | false =>
      -- the id was allocated, so nobody claims it and this contributor does not list it
      rw [Turn.target_eq_of_not_isFree hfolds hfree] at htarget
      have hfresh := Arena.isTaken_allocate other.arena other.reserved
      rw [htarget, ← Bool.not_eq_true, Arena.isTaken_iff, h.claimed, h.reserved] at hfresh
      obtain ⟨-, hpast, hlisted⟩ := by simpa only [not_or] using hfresh
      refine ⟨hpast, or_iff_not_imp_left.2 fun hid => ⟨?_, hlisted⟩⟩
      exact (h.agree.isFree_eq hid).symm.trans hfree
  · rintro ⟨hadded, hpast, hid⟩
    have hfolds := h.folds_eq_false_iff.2 hadded
    have hclaimed : t ∉ other.arena.claimed := fun hmem => hpast (h.claimed.1 hmem)
    by_cases heq : item.1 = t
    · have hfree : other.isFree item.1 = true := by
        rw [heq, Turn.isFree_iff]
        exact ⟨hclaimed, h.not_mem⟩
      exact (Turn.target_eq_of_isFree hfolds hfree).trans heq
    · obtain ⟨hfree, hlisted⟩ := hid.resolve_left heq
      -- all smaller numbers are taken, so the search stops at `t`
      rw [Turn.target_eq_of_not_isFree hfolds ((h.agree.isFree_eq heq).trans hfree)]
      refine h.agree.allocate_eq_self (Bool.eq_false_iff.2 ?_)
      rw [Ne, Arena.isTaken_iff, h.reserved]
      simp only [not_or]
      exact ⟨h.not_mem, hclaimed, hlisted⟩

theorem opens (number : Nat) (listed : List Text) :
    Vacant t identity k (m.next (.opens number listed)) ⟨other.close, listed, []⟩ where
  agree := h.agree.close listed
  not_mem := h.not_mem
  owned := h.owned
  owner := h.owner
  claimed := by
    rw [Turn.close_claimed, List.mem_append, h.claimed, h.reserved, next, List.mem_append]
  reserved := Iff.rfl

/-- An owner of `t` stays the only one. -/
theorem owner_place {identity' : Identity} {owner : Owner}
    (howner : OrderedMap.get? (m.turn.place m.number item).arena.owners identity' = some owner)
    (hid : owner.id = t) : identity' = identity ∧ owner.contributor = k := by
  rcases Turn.owners_place_eq_some.1 howner with howner | ⟨hnone, rfl, rfl⟩
  · exact h.owner howner hid
  · exact absurd hid (h.agree.target_ne hnone)

/-- The id stays vacant when an entry gets another one in both tables. -/
theorem places (hne : m.turn.target m.number item ≠ t)
    (hne' : other.target m.number item ≠ t) :
    Vacant t identity k (m.next (.places item)) (other.place m.number item) where
  agree := h.agree.place ⟨fun htarget => absurd htarget hne', fun htarget => absurd htarget hne⟩
  not_mem hmem := by
    rcases (Turn.mem_place_locations h.agree.other_tidy).1 hmem with hmem | htarget
    · exact h.not_mem hmem
    · exact hne' htarget.symm
  owned := by
    rw [next, Turn.owners_place, Option.isSome_or, h.owned, Bool.true_or]
  owner := h.owner_place
  claimed := by
    rw [Turn.place_claimed, h.claimed, next]
  reserved := by
    rw [Turn.mem_place_reserved, h.reserved, next]
    exact ⟨fun hmem => hmem.resolve_right fun hnew => hne' hnew.2.2.symm, .inl⟩

/-- The id is filled again by the entry that was folded into it. -/
theorem fill (htarget : m.turn.target m.number item = t)
    (htarget' : other.target m.number item = t) :
    Filled t k m.number (m.next (.places item)) (other.place m.number item) where
  agree := h.agree.place ⟨fun _ => htarget, fun _ => htarget'⟩
  mem := (Turn.mem_place_locations h.agree.other_tidy).2 (.inr htarget'.symm)
  owner howner hid := by
    obtain ⟨rfl, hcontributor⟩ := h.owner_place howner hid
    refine ⟨hcontributor, Turn.owners_place_eq_some.2 (.inr ?_)⟩
    rw [htarget']
    obtain ⟨owner', howner', hother, hid'⟩ := h.agree.exists_owner htarget
    -- the entry was folded, so it is added now because its identity has lost its owner
    have hadded := h.folds_eq_false_iff.1 (h.folds_eq_false htarget')
    rw [(Turn.folds_of_owner howner' hother).1] at hadded
    exact ⟨(hadded.resolve_left nofun).2, (h.owner howner' hid').1, rfl⟩

/-- Whether the identity has an owner in the second table after an entry has been placed. -/
theorem owners_place_eq_none_iff (hne : m.turn.target m.number item ≠ t) :
    OrderedMap.get? (other.place m.number item).arena.owners identity = none ↔
      OrderedMap.get? other.arena.owners identity = none ∧
        (m.number = k → item.2.identity ≠ identity) := by
  rw [Turn.owners_place, Option.or_eq_none_iff]
  refine and_congr_right fun hnone => ?_
  have hnew : (if item.2.identity = identity then
      some (⟨other.target m.number item, m.number⟩ : Owner) else none) = none ↔
        item.2.identity ≠ identity := by simp
  rw [hnew]
  refine ⟨fun hother _ => hother, fun hother hidentity => ?_⟩
  obtain ⟨owner, howner⟩ := Option.isSome_iff_exists.1 h.owned
  by_cases hid : owner.id = t
  · -- another contributor's entry would have been folded into `t`
    have hmine : owner.contributor ≠ m.number := by
      rw [(h.owner howner hid).2]
      exact fun hk => hother hk.symm hidentity
    exact hne ((Turn.folds_of_owner (hidentity ▸ howner) hmine).2.trans hid)
  · rw [h.agree.owner_keep howner hid] at hnone
    cases hnone

/-- What is folded into `t` comes from another contributor. -/
theorem number_ne (htarget : m.turn.target m.number item = t) : m.number ≠ k := by
  obtain ⟨owner, howner, hother, hid⟩ := h.agree.exists_owner htarget
  rw [← (h.owner howner hid).2]
  exact hother.symm

end Vacant

/-! ### The step that is left out -/

section Without

variable {done : List Step} (h : Sound done m) (hlisted : item.1 ∈ m.listed)

include h hlisted

/-- A folded entry leaves everything as it was. -/
theorem Sound.filled (hfolds : m.turn.folds m.number item = true) :
    ∃ owner, OrderedMap.get? m.turn.arena.owners item.2.identity = some owner ∧
      owner.contributor ≠ m.number ∧
      Filled (m.turn.target m.number item) owner.contributor owner.contributor
        (m.next (.places item)) m.turn := by
  obtain ⟨owner, howner, hother, htarget⟩ := Turn.exists_owner_of_folds hfolds
  refine ⟨owner, howner, hother, .without h.tidy m.number (h.listed_sub hlisted), ?_, ?_⟩
  · rw [htarget]
    exact h.tidy.owner_mem howner
  · intro identity owner' howner' hid
    rw [htarget] at hid ⊢
    rcases Turn.owners_place_eq_some.1 howner' with howner' | ⟨hnone, rfl, -⟩
    · obtain rfl := h.tidy.owner_inj howner' howner hid
      rw [howner] at howner'
      obtain rfl := Option.some.inj howner'
      exact ⟨rfl, howner⟩
    · rw [howner] at hnone
      cases hnone

/-- An added entry leaves its id vacant. -/
theorem Sound.vacant (hfolds : m.turn.folds m.number item = false) :
    Vacant (m.turn.target m.number item) item.2.identity m.number (m.next (.places item))
      m.turn where
  agree := .without h.tidy m.number (h.listed_sub hlisted)
  not_mem := Turn.target_not_mem hfolds
  owned := by
    rw [next, Turn.owners_place, Option.isSome_or]
    simp
  owner howner hid := by
    rcases Turn.owners_place_eq_some.1 howner with howner | ⟨-, rfl, rfl⟩
    · exact absurd (hid ▸ h.tidy.owner_mem howner) (Turn.target_not_mem hfolds)
    · exact ⟨rfl, rfl⟩
  claimed :=
    -- past ids are claimed, and an id that is given is not
    ⟨fun hmem => absurd hmem (Turn.target_not_claimed hfolds), fun hmem => h.past_sub hmem⟩
  reserved := by
    refine ⟨fun hmem => ?_, fun hmem => h.listed_sub hmem⟩
    cases hfree : m.turn.isFree item.1 with
    | true =>
      rw [Turn.target_eq_of_isFree hfolds hfree]
      exact hlisted
    | false =>
      rw [Turn.target_eq_of_not_isFree hfolds hfree] at hmem
      exact absurd (.inr (.inr hmem)) Arena.allocate_not_taken

end Without

end Moment

end CoverageLift
