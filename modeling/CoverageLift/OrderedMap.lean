/-!
# Maps in insertion order

A map is a list of entries with at most one entry per key. Replacing a value keeps the place of its
key and a new key goes to the end, so the order of the keys is the order of their first insertion.

What a map is shows in two views, the value at a key (`get?`) and the keys in order (`keys`), and every
operation is described through them.
-/

namespace CoverageLift

/-- A map from keys to values that remembers the order of insertion. -/
abbrev OrderedMap (κ α : Type) := List (κ × α)

namespace OrderedMap

variable {κ α : Type} [DecidableEq κ]

/-- The value at a key. -/
def get? : OrderedMap κ α → κ → Option α
  | [], _ => none
  | (k, v) :: rest, key => if k = key then some v else get? rest key

/-- Whether a key has a value. -/
def contains (m : OrderedMap κ α) (key : κ) : Bool := (get? m key).isSome

/-- The keys in order. -/
def keys (m : OrderedMap κ α) : List κ := m.map (·.1)

/-- The values in the order of their keys. -/
def values (m : OrderedMap κ α) : List α := m.map (·.2)

/-- Sets the value at a key, in the place of the key or else at the end. -/
def insert : OrderedMap κ α → κ → α → OrderedMap κ α
  | [], key, value => [(key, value)]
  | (k, v) :: rest, key, value =>
    if k = key then (k, value) :: rest else (k, v) :: insert rest key value

/-- Removes a key. -/
def erase (m : OrderedMap κ α) (key : κ) : OrderedMap κ α := m.filter fun entry => entry.1 ≠ key

/-- The map that inserting the entries one after the other builds. -/
def ofEntries (entries : List (κ × α)) : OrderedMap κ α :=
  entries.foldl (fun m entry => insert m entry.1 entry.2) []

/-! ### The views of the operations -/

@[simp] theorem get?_nil (key : κ) : get? ([] : OrderedMap κ α) key = none := rfl

theorem get?_cons (entry : κ × α) (m : OrderedMap κ α) (key : κ) :
    get? (entry :: m) key = if entry.1 = key then some entry.2 else get? m key := rfl

omit [DecidableEq κ] in
@[simp] theorem values_cons (entry : κ × α) (m : OrderedMap κ α) :
    values (entry :: m) = entry.2 :: values m := rfl

omit [DecidableEq κ] in
@[simp] theorem values_append (m m' : OrderedMap κ α) :
    values (m ++ m') = values m ++ values m' := List.map_append

/-- The value at a key after another one has been set. -/
theorem get?_insert (m : OrderedMap κ α) (key other : κ) (value : α) :
    get? (insert m key value) other = if key = other then some value else get? m other := by
  induction m with
  | nil => simp [insert, get?_cons]
  | cons entry m ih =>
    obtain ⟨k, v⟩ := entry
    simp only [insert]
    split
    · next h => simp only [get?_cons, h]; split <;> rfl
    · next h =>
      simp only [get?_cons, ih]
      split
      · next h' => rw [if_neg fun e => h (h'.trans e.symm)]
      · rfl

/-- A key has a value exactly when it is among the keys. -/
theorem contains_iff (m : OrderedMap κ α) (key : κ) : contains m key = true ↔ key ∈ keys m := by
  induction m with
  | nil => simp [contains, keys]
  | cons entry m ih =>
    simp only [contains, keys, get?_cons, List.map_cons, List.mem_cons] at ih ⊢
    split
    · next h => simp [h]
    · next h => simpa [Ne.symm h] using ih

/-- A key that is there has a value. -/
theorem exists_get?_of_mem {m : OrderedMap κ α} {key : κ} (h : key ∈ keys m) :
    ∃ value, get? m key = some value :=
  Option.isSome_iff_exists.1 ((contains_iff m key).2 h)

/-- A key that is not there has no value. -/
theorem get?_eq_none_iff {m : OrderedMap κ α} {key : κ} : get? m key = none ↔ key ∉ keys m := by
  rw [← contains_iff, contains, Option.not_isSome_iff_eq_none]

/-- The value at a key is that of an entry. -/
theorem mem_of_get?_eq_some {m : OrderedMap κ α} {key : κ} {value : α}
    (h : get? m key = some value) : (key, value) ∈ m := by
  induction m with
  | nil => cases h
  | cons entry m ih =>
    rw [get?_cons] at h
    split at h
    · next hkey =>
      obtain rfl := Option.some.inj h
      exact hkey ▸ List.mem_cons_self
    · exact List.mem_cons_of_mem _ (ih h)

/-- Where no key occurs twice, an entry holds the value at its key. -/
theorem get?_eq_some_of_mem {m : OrderedMap κ α} (hnodup : (keys m).Nodup) {key : κ} {value : α}
    (h : (key, value) ∈ m) : get? m key = some value := by
  induction m with
  | nil => cases h
  | cons entry m ih =>
    obtain ⟨hnot, hnodup⟩ := List.nodup_cons.1 hnodup
    rw [get?_cons]
    rcases List.mem_cons.1 h with rfl | h
    · rw [if_pos rfl]
    · rw [if_neg, ih hnodup h]
      rintro rfl
      exact hnot (List.mem_map.2 ⟨_, h, rfl⟩)

/-- Where no key occurs twice, the order of the entries does not matter to the values. -/
theorem get?_eq_of_perm {m m' : OrderedMap κ α} (hnodup : (keys m).Nodup) (hperm : m'.Perm m)
    (key : κ) : get? m' key = get? m key := by
  have hnodup' : (keys m').Nodup := (hperm.map _).nodup_iff.2 hnodup
  refine Option.ext fun value => ⟨fun h => ?_, fun h => ?_⟩
  · exact get?_eq_some_of_mem hnodup (hperm.mem_iff.1 (mem_of_get?_eq_some h))
  · exact get?_eq_some_of_mem hnodup' (hperm.mem_iff.2 (mem_of_get?_eq_some h))

/-- The value at a key of two maps, one behind the other. -/
theorem get?_append (m m' : OrderedMap κ α) (key : κ) :
    get? (m ++ m') key = (get? m key).or (get? m' key) := by
  induction m with
  | nil => rfl
  | cons entry m ih =>
    rw [List.cons_append, get?_cons, get?_cons, ih]
    split <;> rfl

/-- The value at a key is that of the first entry with this key. -/
theorem get?_eq_some_iff_append {m : OrderedMap κ α} {key : κ} {value : α} :
    get? m key = some value ↔
      ∃ before behind, m = before ++ (key, value) :: behind ∧ key ∉ keys before := by
  constructor
  · induction m with
    | nil => exact fun h => nomatch h
    | cons entry m ih =>
      intro h
      rw [get?_cons] at h
      split at h
      · next hkey =>
        obtain rfl := Option.some.inj h
        exact ⟨[], m, by rw [← hkey, List.nil_append], List.not_mem_nil⟩
      · next hkey =>
        obtain ⟨before, behind, rfl, hnot⟩ := ih h
        exact ⟨entry :: before, behind, rfl, List.not_mem_cons_of_ne_of_not_mem (Ne.symm hkey) hnot⟩
  · rintro ⟨before, behind, rfl, hnot⟩
    rw [get?_append, get?_eq_none_iff.2 hnot, Option.none_or, get?_cons, if_pos rfl]

/-- A new key goes to the end with its value. -/
theorem insert_of_not_mem {m : OrderedMap κ α} {key : κ} (h : key ∉ keys m) (value : α) :
    insert m key value = m ++ [(key, value)] := by
  induction m with
  | nil => rfl
  | cons entry m ih =>
    have hne : entry.1 ≠ key := (List.ne_of_not_mem_cons h).symm
    exact (if_neg hne).trans (congrArg (List.cons entry) (ih (List.not_mem_of_not_mem_cons h)))

/-- An entry after a value has been set is the new one or was there before. -/
theorem mem_of_mem_insert {m : OrderedMap κ α} {key : κ} {value : α} {entry : κ × α}
    (h : entry ∈ insert m key value) : entry = (key, value) ∨ entry ∈ m := by
  induction m with
  | nil => exact .inl (List.mem_singleton.1 h)
  | cons first m ih =>
    rw [insert] at h
    split at h
    · rcases List.mem_cons.1 h with rfl | h
      · next hkey => exact .inl (by rw [hkey])
      · exact .inr (List.mem_cons_of_mem _ h)
    · rcases List.mem_cons.1 h with rfl | h
      · exact .inr List.mem_cons_self
      · exact (ih h).imp_right (List.mem_cons_of_mem _)

/-- The value of a key is set at the first entry with this key. -/
theorem insert_append_cons {before behind : OrderedMap κ α} {key : κ} {old : α}
    (h : key ∉ keys before) (value : α) :
    insert (before ++ (key, old) :: behind) key value = before ++ (key, value) :: behind := by
  induction before with
  | nil => exact if_pos rfl
  | cons entry before ih =>
    have hne : entry.1 ≠ key := (List.ne_of_not_mem_cons h).symm
    exact (if_neg hne).trans (congrArg (List.cons entry) (ih (List.not_mem_of_not_mem_cons h)))

/-- Setting the value of a key that is there leaves the keys as they are. -/
theorem keys_insert_of_mem {m : OrderedMap κ α} {key : κ} (h : key ∈ keys m) (value : α) :
    keys (insert m key value) = keys m := by
  induction m with
  | nil => simp [keys] at h
  | cons entry m ih =>
    obtain ⟨k, v⟩ := entry
    simp only [insert]
    split
    · rfl
    · next hk =>
      have hm : key ∈ keys m := by
        rcases List.mem_cons.1 h with rfl | hm
        · exact absurd rfl hk
        · exact hm
      simpa [keys] using ih hm

/-- A new key goes to the end. -/
theorem keys_insert_of_not_mem {m : OrderedMap κ α} {key : κ} (h : key ∉ keys m) (value : α) :
    keys (insert m key value) = keys m ++ [key] := by
  rw [insert_of_not_mem h, keys, List.map_append]
  rfl

/-- No key occurs twice after a value has been set. -/
theorem nodup_keys_insert {m : OrderedMap κ α} (h : (keys m).Nodup) (key : κ) (value : α) :
    (keys (insert m key value)).Nodup := by
  by_cases hm : key ∈ keys m
  · rwa [keys_insert_of_mem hm]
  · rw [keys_insert_of_not_mem hm]
    refine List.nodup_append.2 ⟨h, by simp, ?_⟩
    rintro a ha b hb rfl
    exact hm (List.mem_singleton.1 hb ▸ ha)

/-- A key that has been removed has no value, and all others keep theirs. -/
theorem get?_erase (m : OrderedMap κ α) (key other : κ) :
    get? (erase m key) other = if key = other then none else get? m other := by
  induction m with
  | nil => simp [erase]
  | cons entry m ih =>
    simp only [erase, List.filter_cons] at ih ⊢
    by_cases h : entry.1 = key
    · simp only [h, ne_eq, not_true_eq_false, decide_false, Bool.false_eq_true, if_false, get?_cons,
        ih]
      split <;> rfl
    · simp only [h, ne_eq, not_false_eq_true, decide_true, if_true, get?_cons, ih]
      split
      · next h' => rw [if_neg fun e => h (h'.trans e.symm)]
      · rfl

/-- A key keeps its value among entries of which the others have another key. -/
theorem get?_filter {m : OrderedMap κ α} {p : κ × α → Bool} {key : κ}
    (h : ∀ entry ∈ m, entry.1 = key → p entry = true) : get? (m.filter p) key = get? m key := by
  induction m with
  | nil => rfl
  | cons entry m ih =>
    obtain ⟨hentry, hrest⟩ := List.forall_mem_cons.1 h
    by_cases hp : p entry = true
    · rw [List.filter_cons_of_pos hp, get?_cons, get?_cons, ih hrest]
    · rw [List.filter_cons_of_neg hp, get?_cons, if_neg fun heq => hp (hentry heq), ih hrest]

/-- Where no key occurs twice, the value at a key after some entries have been left out and the
others been given new values. -/
theorem get?_filterMap {β : Type} (f : κ → α → Option β) {m : OrderedMap κ α}
    (hnodup : (keys m).Nodup) (key : κ) :
    get? (m.filterMap fun entry => (f entry.1 entry.2).map (Prod.mk entry.1)) key =
      (get? m key).bind (f key) := by
  induction m with
  | nil => rfl
  | cons entry m ih =>
    obtain ⟨hnot, hnodup⟩ := List.nodup_cons.1 hnodup
    rw [get?_cons, List.filterMap_cons]
    by_cases hkey : entry.1 = key
    · -- no later entry has the key
      have hnone : get? m key = none := get?_eq_none_iff.2 (hkey ▸ hnot)
      rw [if_pos hkey, hkey]
      cases hf : f key entry.2 with
      | none => simpa [hnone, hf] using ih hnodup
      | some value => simp [get?_cons, hf]
    · rw [if_neg hkey, ← ih hnodup]
      cases f entry.1 entry.2 with
      | none => rfl
      | some value => exact if_neg hkey

/-- The value at a key after all values have been replaced. -/
theorem get?_map {β : Type} (f : α → β) (m : OrderedMap κ α) (key : κ) :
    get? (m.map fun entry => (entry.1, f entry.2)) key = (get? m key).map f := by
  induction m with
  | nil => rfl
  | cons entry m ih =>
    rw [List.map_cons, get?_cons, get?_cons, ih]
    split <;> rfl

/-- The keys that are left after one has been removed. -/
theorem keys_erase (m : OrderedMap κ α) (key : κ) :
    keys (erase m key) = (keys m).filter fun k => k ≠ key := by
  simp [keys, erase, List.filter_map, Function.comp_def]

/-- Removing a key that is not there changes nothing. -/
theorem erase_eq_self {m : OrderedMap κ α} {key : κ} (h : key ∉ keys m) : erase m key = m :=
  List.filter_eq_self.2 fun _ hentry =>
    decide_eq_true fun heq => h (heq ▸ List.mem_map_of_mem hentry)

/-- Removing a key that occurs once removes its entry. -/
theorem erase_append_cons {before behind : OrderedMap κ α} {key : κ} {value : α}
    (hbefore : key ∉ keys before) (hbehind : key ∉ keys behind) :
    erase (before ++ (key, value) :: behind) key = before ++ behind := by
  have hsplit : erase (before ++ (key, value) :: behind) key =
      erase before key ++ erase behind key := by
    simp [erase]
  rw [hsplit, erase_eq_self hbefore, erase_eq_self hbehind]

end OrderedMap

end CoverageLift
