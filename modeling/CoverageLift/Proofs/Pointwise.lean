import Mathlib.Data.List.Forall2

/-!
# Lists that are related item by item

What follows from `List.Forall₂` for single items: both lists have a partner for every item of the
other, they split at the same places, and values that partners share are the same lists of values.
Where an item is judged by the items before it (`EachBehind`), a list passes or has a first item that
does not.
-/

namespace CoverageLift

variable {α β γ : Type} {R : α → β → Prop} {items : List α} {results : List β}

/-- Every item on the left has a partner. -/
theorem exists_right_of_mem (h : List.Forall₂ R items results) {a : α} (ha : a ∈ items) :
    ∃ b ∈ results, R a b := by
  obtain ⟨i, hi, rfl⟩ := List.getElem_of_mem ha
  obtain ⟨hlength, hrelated⟩ := List.forall₂_iff_get.1 h
  exact ⟨results[i], List.getElem_mem _, hrelated i hi (by omega)⟩

/-- Every item on the right has a partner. -/
theorem exists_left_of_mem (h : List.Forall₂ R items results) {b : β} (hb : b ∈ results) :
    ∃ a ∈ items, R a b := by
  obtain ⟨i, hi, rfl⟩ := List.getElem_of_mem hb
  obtain ⟨hlength, hrelated⟩ := List.forall₂_iff_get.1 h
  exact ⟨items[i], List.getElem_mem _, hrelated i (by omega) hi⟩

/-- The partner of an item on the right stands in the same place. -/
theorem exists_left_of_getElem? (h : List.Forall₂ R items results) :
    ∀ {i : Nat} {b : β}, results[i]? = some b → ∃ a, items[i]? = some a ∧ R a b := by
  induction h with
  | nil => exact fun h => nomatch h
  | cons hab _ ih =>
    rintro (_ | i) b hb
    · obtain rfl := Option.some.inj hb
      exact ⟨_, rfl, hab⟩
    · exact ih hb

/-- Items have partners when each of them has one. -/
theorem exists_forall₂_iff : (∃ results, List.Forall₂ R items results) ↔ ∀ a ∈ items, ∃ b, R a b := by
  constructor
  · rintro ⟨results, h⟩ a ha
    obtain ⟨b, -, hab⟩ := exists_right_of_mem h ha
    exact ⟨b, hab⟩
  · induction items with
    | nil => exact fun _ => ⟨[], .nil⟩
    | cons a items ih =>
      intro h
      obtain ⟨⟨b, hab⟩, hitems⟩ := List.forall_mem_cons.1 h
      obtain ⟨results, hresults⟩ := ih hitems
      exact ⟨b :: results, .cons hab hresults⟩

/-- The right list splits where the left one does. -/
theorem exists_of_forall₂_append_cons {a : α} {after : List α} :
    ∀ {before : List α} {results : List β}, List.Forall₂ R (before ++ a :: after) results →
      ∃ bs b as, results = bs ++ b :: as ∧ List.Forall₂ R before bs ∧ R a b ∧
        List.Forall₂ R after as := by
  intro before
  induction before with
  | nil =>
    rintro results (_ | ⟨ha, hafter⟩)
    exact ⟨[], _, _, rfl, .nil, ha, hafter⟩
  | cons item before ih =>
    rintro results (_ | ⟨hitem, hrest⟩)
    obtain ⟨bs, b, as, rfl, hbefore, ha, hafter⟩ := ih hrest
    exact ⟨_ :: bs, b, as, rfl, .cons hitem hbefore, ha, hafter⟩

/-- Partners with equal values. -/
theorem map_eq_map_of_forall₂ {f : α → γ} {g : β → γ} (h : List.Forall₂ R items results)
    (heq : ∀ a b, R a b → f a = g b) : items.map f = results.map g := by
  induction h with
  | nil => rfl
  | cons hab _ ih => rw [List.map_cons, List.map_cons, heq _ _ hab, ih]

/-! ### Items behind those before them -/

/-- Each item is as `P` says behind the items before it. -/
def EachBehind (P : List α → α → Prop) (items : List α) : Prop :=
  ∀ before item behind, items = before ++ item :: behind → P before item

variable {P : List α → α → Prop} {item : α}

theorem eachBehind_nil : EachBehind P [] :=
  fun before item behind h => absurd h.symm (List.append_ne_nil_of_right_ne_nil before
    (List.cons_ne_nil item behind))

theorem eachBehind_cons_iff :
    EachBehind P (item :: items) ↔
      P [] item ∧ EachBehind (fun before => P (item :: before)) items := by
  constructor
  · intro h
    exact ⟨h [] item items rfl,
      fun before other behind heq => h (item :: before) other behind (congrArg (List.cons item) heq)⟩
  · rintro ⟨hitem, hitems⟩ (_ | ⟨first, before⟩) other behind heq
    · obtain ⟨rfl, -⟩ := List.cons.inj heq
      exact hitem
    · obtain ⟨rfl, hrest⟩ := List.cons.inj heq
      exact hitems before other behind hrest

/-- All items have partners that are as `P` says, each behind those before it, or there is a first
item that has none. -/
theorem exists_eachBehind_or_first (R : α → β → Prop) (items : List α) :
    ∀ P : List β → β → Prop,
      (∃ results, List.Forall₂ R items results ∧ EachBehind P results) ∨
        ∃ before item behind results, items = before ++ item :: behind ∧
          List.Forall₂ R before results ∧ EachBehind P results ∧
          ¬ ∃ result, R item result ∧ P results result := by
  induction items with
  | nil => exact fun P => .inl ⟨[], .nil, eachBehind_nil⟩
  | cons item items ih =>
    intro P
    by_cases hitem : ∃ result, R item result ∧ P [] result
    · obtain ⟨result, hresult, hP⟩ := hitem
      obtain ⟨results, hresults, heach⟩ | ⟨before, first, behind, results, rfl, hresults, heach, hnot⟩ :=
        ih fun before => P (result :: before)
      · exact .inl ⟨result :: results, .cons hresult hresults, eachBehind_cons_iff.2 ⟨hP, heach⟩⟩
      · exact .inr ⟨item :: before, first, behind, result :: results, rfl, .cons hresult hresults,
          eachBehind_cons_iff.2 ⟨hP, heach⟩, hnot⟩
    · exact .inr ⟨[], item, items, [], rfl, .nil, eachBehind_nil, hitem⟩

end CoverageLift
