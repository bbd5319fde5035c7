import CoverageLift.Json.Parser
import CoverageLift.Proofs.Success

/-!
# The keys of objects that are read

A member that is read again keeps its place in the object and gets its last value. So a list of
members without a repeated key stays one while members are read (`readMembers`), by induction on the
fuel, and **no object that is read has a key twice** (`nodup_keys_of_read`).
-/

namespace CoverageLift.Json

/-- The members of a value have distinct keys; a value that is no object has none. -/
def HasDistinctKeys (v : Json) : Prop := (OrderedMap.keys v.fieldsOrEmpty).Nodup

variable {fuel : Nat} {c after : Cursor} {v : Json}

theorem hasDistinctKeys_of_readNumber (h : readNumber c = .ok (some (v, after))) :
    v.HasDistinctKeys := by
  unfold readNumber at h
  split at h
  dsimp only at h
  split at h
  · cases h
  · split at h
    · split at h
      · cases h
      · obtain ⟨rfl, -⟩ := Prod.mk.inj (Option.some.inj (Except.ok.inj h))
        exact List.nodup_nil
    · obtain ⟨rfl, -⟩ := Prod.mk.inj (Option.some.inj (Except.ok.inj h))
      exact List.nodup_nil

/-- No name stands for an object. -/
theorem hasDistinctKeys_of_mem_names : ∀ name ∈ names, name.2.HasDistinctKeys := by
  simp [names, HasDistinctKeys, fieldsOrEmpty, OrderedMap.keys]

theorem hasDistinctKeys_of_readSimple (h : readSimple c = .ok (v, after)) : v.HasDistinctKeys := by
  unfold readSimple at h
  split at h
  · obtain ⟨text, -, heq⟩ := map_eq_ok_iff.1 h
    obtain ⟨rfl, -⟩ := Prod.mk.inj heq
    exact List.nodup_nil
  · split at h
    · next hname =>
      obtain ⟨rfl, -⟩ := Prod.mk.inj (Except.ok.inj h)
      exact hasDistinctKeys_of_mem_names _ (List.mem_of_find?_eq_some hname)
    · split at h
      · cases h
      · next hnumber =>
        obtain rfl := Except.ok.inj h
        exact hasDistinctKeys_of_readNumber hnumber
      · cases h

/-- Items make up an array. -/
theorem hasDistinctKeys_of_readItems :
    ∀ {read : List Json} {c : Cursor}, readItems fuel read c = .ok (v, after) →
      v.HasDistinctKeys := by
  induction fuel with
  | zero => exact fun h => nomatch h
  | succ fuel ih =>
    intro read c h
    unfold readItems at h
    split at h
    · cases h
    · dsimp only at h
      split at h
      · obtain ⟨rfl, -⟩ := Prod.mk.inj (Except.ok.inj h)
        exact List.nodup_nil
      · exact ih h
      · cases h

/-- Members are put among those that have been read. -/
theorem hasDistinctKeys_of_readMembers :
    ∀ (read : OrderedMap Text Json) {c : Cursor}, (OrderedMap.keys read).Nodup →
      readMembers fuel read c = .ok (v, after) → v.HasDistinctKeys := by
  induction fuel with
  | zero => exact fun _ _ _ h => nomatch h
  | succ fuel ih =>
    intro read c hread h
    unfold readMembers at h
    split at h
    · split at h
      · cases h
      · next key after hkey =>
        dsimp only at h
        split at h
        · split at h
          · cases h
          · next value behind hvalue =>
            have hinsert := OrderedMap.nodup_keys_insert hread key value
            split at h
            · obtain ⟨rfl, -⟩ := Prod.mk.inj (Except.ok.inj h)
              exact hinsert
            · exact ih _ hinsert h
            · cases h
        · cases h
    · cases h

theorem hasDistinctKeys_of_readValue (h : readValue fuel c = .ok (v, after)) :
    v.HasDistinctKeys := by
  rcases fuel with _ | fuel
  · cases h
  · unfold readValue at h
    split at h
    · dsimp only at h
      split at h
      · obtain ⟨rfl, -⟩ := Prod.mk.inj (Except.ok.inj h)
        exact List.nodup_nil
      · exact hasDistinctKeys_of_readMembers [] List.nodup_nil h
    · dsimp only at h
      split at h
      · obtain ⟨rfl, -⟩ := Prod.mk.inj (Except.ok.inj h)
        exact List.nodup_nil
      · exact hasDistinctKeys_of_readItems h
    · exact hasDistinctKeys_of_readSimple h

/-- **No object that is read has a key twice.** -/
theorem nodup_keys_of_read {t : Text} {fields : OrderedMap Text Json}
    (h : read t = .ok (.obj fields)) : (OrderedMap.keys fields).Nodup := by
  rw [read] at h
  split at h
  · next v hread =>
    obtain rfl := Except.ok.inj h
    unfold readText at hread
    split at hread
    · cases hread
    · split at hread
      · cases hread
      · next hvalue =>
        dsimp only at hread
        split at hread
        · obtain rfl := Except.ok.inj hread
          exact hasDistinctKeys_of_readValue hvalue
        · cases hread
  · cases h
  · cases h

end CoverageLift.Json
