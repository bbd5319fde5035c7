import CoverageLift.SourceMap.Mappings
import Mathlib.Data.List.Induction

/-!
# The segment that applies at a column

A line of a map is kept sorted by generated column, and a look-up takes the last segment at or before
a column. Beside it stands a plain scan in document order (`latest`), which keeps the best segment so
far. Among the segments at or before the column it takes one with the **greatest column, and of
those the last in the document** (`latest_eq_some_iff`). Sorting is stable, so both find the same
segment (`segmentAt?_sortLine`).
-/

namespace CoverageLift.Mappings

/-! ### Scanning -/

section Latest

variable {α β : Type} {column : α → Int} {q : Int} {items : List α} {a : α}

/-- Whether an item takes the place of the best one so far: it begins at or before the column in
question, and not before the best one. -/
def takesPlace (column : α → Int) (q : Int) (best : Option α) (a : α) : Bool :=
  column a ≤ q && best.all fun b => column b ≤ column a

/-- The item that a scan in the given order finds for a column. -/
def latest (column : α → Int) (q : Int) (items : List α) : Option α :=
  items.foldl (fun best a => if takesPlace column q best a then some a else best) none

/-- An item is the one that applies at a column: it begins at or before it, no item does so with a
greater column, and no later one with the same column. -/
def IsLatest (column : α → Int) (q : Int) (items : List α) (a : α) : Prop :=
  ∃ before behind, items = before ++ a :: behind ∧ column a ≤ q ∧
    (∀ b ∈ before, column b ≤ q → column b ≤ column a) ∧
    ∀ b ∈ behind, column b ≤ q → column b < column a

theorem latest_concat (items : List α) (a : α) :
    latest column q (items ++ [a]) =
      if takesPlace column q (latest column q items) a then some a else latest column q items := by
  rw [latest, List.foldl_append]
  rfl

theorem latest_map (f : β → α) (items : List β) :
    latest column q (items.map f) = (latest (column ∘ f) q items).map f := by
  induction items using List.reverseRecOn with
  | nil => rfl
  | append_singleton items b ih =>
    have hplace : takesPlace column q ((latest (column ∘ f) q items).map f) (f b) =
        takesPlace (column ∘ f) q (latest (column ∘ f) q items) b := by
      cases latest (column ∘ f) q items <;> rfl
    rw [List.map_append, List.map_singleton, latest_concat, latest_concat, ih, hplace]
    split <;> rfl

theorem IsLatest.column_le (h : IsLatest column q items a) : column a ≤ q := by
  obtain ⟨-, -, -, hle, -⟩ := h
  exact hle

theorem IsLatest.mem (h : IsLatest column q items a) : a ∈ items := by
  obtain ⟨before, behind, rfl, -⟩ := h
  exact List.mem_append_right _ List.mem_cons_self

/-- No item at or before the column has a greater one. -/
theorem IsLatest.le (h : IsLatest column q items a) {b : α} (hb : b ∈ items) (hq : column b ≤ q) :
    column b ≤ column a := by
  obtain ⟨before, behind, rfl, -, hbefore, hbehind⟩ := h
  rcases List.mem_append.1 hb with hb | hb
  · exact hbefore b hb hq
  · rcases List.mem_cons.1 hb with rfl | hb
    · exact Int.le_refl _
    · exact Int.le_of_lt (hbehind b hb hq)

/-- Only one item applies at a column. -/
theorem IsLatest.eq (h : IsLatest column q items a) {b : α} (hb : IsLatest column q items b) :
    a = b := by
  have hcolumn : column a = column b :=
    Int.le_antisymm (hb.le h.mem h.column_le) (h.le hb.mem hb.column_le)
  obtain ⟨before, behind, rfl, ha, -, hbehind⟩ := h
  obtain ⟨before', behind', heq, hb, -, hbehind'⟩ := hb
  -- the one that comes first would be followed by an item of the same column
  rcases List.append_eq_append_iff.1 heq with
    ⟨_ | ⟨c, middle⟩, rfl, hrest⟩ | ⟨_ | ⟨c, middle⟩, rfl, hrest⟩
  · exact (List.cons.inj hrest).1
  · obtain ⟨rfl, rfl⟩ := List.cons.inj hrest
    exact absurd hcolumn.symm (Int.ne_of_lt (hbehind b (by simp) hb))
  · exact (List.cons.inj hrest).1.symm
  · obtain ⟨rfl, rfl⟩ := List.cons.inj hrest
    exact absurd hcolumn (Int.ne_of_lt (hbehind' a (by simp) ha))

/-- An item that no item before it exceeds applies as soon as it is met. -/
theorem isLatest_concat (hq : column a ≤ q)
    (hitems : ∀ b ∈ items, column b ≤ q → column b ≤ column a) :
    IsLatest column q (items ++ [a]) a :=
  ⟨items, [], rfl, hq, hitems, fun _ h => absurd h List.not_mem_nil⟩

/-- The item that applies stays the one until another one takes its place. -/
theorem IsLatest.concat (h : IsLatest column q items a) {c : α}
    (hc : ¬ (column c ≤ q ∧ column a ≤ column c)) : IsLatest column q (items ++ [c]) a := by
  obtain ⟨before, behind, rfl, hq, hbefore, hbehind⟩ := h
  refine ⟨before, behind ++ [c], by simp, hq, hbefore, fun d hd hdq => ?_⟩
  rcases List.mem_append.1 hd with hd | hd
  · exact hbehind d hd hdq
  · rw [List.mem_singleton.1 hd] at hdq ⊢
    exact Int.not_le.1 fun hle => hc ⟨hdq, hle⟩

/-- What a scan finds, or why it finds nothing. -/
theorem latest_spec (items : List α) :
    (∀ a, latest column q items = some a → IsLatest column q items a) ∧
      (latest column q items = none → ∀ b ∈ items, q < column b) := by
  induction items using List.reverseRecOn with
  | nil => exact ⟨fun _ h => (nomatch h), fun _ _ h => absurd h List.not_mem_nil⟩
  | append_singleton items c ih =>
    obtain ⟨hsome, hnone⟩ := ih
    rw [latest_concat]
    rcases hbest : latest column q items with _ | b
    · have hall := hnone hbest
      by_cases hc : column c ≤ q
      · rw [if_pos (by simp [takesPlace, hc])]
        refine ⟨fun a ha => ?_, fun h => (nomatch h)⟩
        obtain rfl := Option.some.inj ha
        exact isLatest_concat hc fun b hb hq => absurd hq (Int.not_le.2 (hall b hb))
      · rw [if_neg (by simp [takesPlace, hc])]
        exact ⟨fun _ h => (nomatch h), fun _ => List.forall_mem_append.2
          ⟨hall, List.forall_mem_singleton.2 (Int.not_le.1 hc)⟩⟩
    · have hb := hsome b hbest
      by_cases hc : column c ≤ q ∧ column b ≤ column c
      · rw [if_pos (by simp [takesPlace, hc])]
        refine ⟨fun a ha => ?_, fun h => (nomatch h)⟩
        obtain rfl := Option.some.inj ha
        exact isLatest_concat hc.1 fun d hd hq => Int.le_trans (hb.le hd hq) hc.2
      · rw [if_neg (by simpa [takesPlace] using hc)]
        refine ⟨fun a ha => ?_, fun h => (nomatch h)⟩
        obtain rfl := Option.some.inj ha
        exact hb.concat hc

/-- **A scan** finds an item exactly when it is the last one with the greatest column at or before
the one in question. -/
theorem latest_eq_some_iff : latest column q items = some a ↔ IsLatest column q items a := by
  obtain ⟨hsome, hnone⟩ := @latest_spec α column q items
  refine ⟨hsome a, fun h => ?_⟩
  rcases hlatest : latest column q items with _ | b
  · exact absurd h.column_le (Int.not_le.2 (hnone hlatest a h.mem))
  · rw [(hsome b hlatest).eq h]

theorem latest_eq_none_iff : latest column q items = none ↔ ∀ b ∈ items, q < column b := by
  refine ⟨(@latest_spec α column q items).2, fun h => ?_⟩
  rcases hlatest : latest column q items with _ | b
  · rfl
  · have hb := latest_eq_some_iff.1 hlatest
    exact absurd hb.column_le (Int.not_le.2 (h b hb.mem))

end Latest

/-! ### Looking up in a sorted line -/

section Sorted

variable {line : List Segment} {column : Nat} {s : Segment}

theorem pairwise_sortLine (line : List Segment) :
    (sortLine line).Pairwise fun a b => a.column ≤ b.column := by
  have hsorted := @List.pairwise_mergeSort _ (fun a b : Segment => decide (a.column ≤ b.column))
    (fun a b c hab hbc => by simp only [decide_eq_true_eq] at *; omega)
    (fun a b => by simp only [Bool.or_eq_true, decide_eq_true_eq]; omega) line
  exact hsorted.imp of_decide_eq_true

theorem mem_sortLine : s ∈ sortLine line ↔ s ∈ line :=
  (List.mergeSort_perm line _).mem_iff

/-- **Sorting is stable**: the segments of one column stay in document order. -/
theorem filter_sortLine (line : List Segment) (n : Nat) :
    ((sortLine line).filter fun s => s.column = n) = line.filter fun s => s.column = n := by
  have hcolumns : (line.filter fun s => s.column = n).Pairwise
      fun a b => decide (a.column ≤ b.column) = true := by
    refine List.pairwise_of_forall_mem_list fun a ha b hb => decide_eq_true ?_
    have ha := of_decide_eq_true (List.mem_filter.1 ha).2
    have hb := of_decide_eq_true (List.mem_filter.1 hb).2
    omega
  have hsub : (line.filter fun s => s.column = n).Sublist (sortLine line) :=
    List.sublist_mergeSort (fun a b c hab hbc => by simp only [decide_eq_true_eq] at *; omega)
      (fun a b => by simp only [Bool.or_eq_true, decide_eq_true_eq]; omega) hcolumns
      List.filter_sublist
  have hsub := hsub.filter fun s => s.column = n
  rw [List.filter_filter] at hsub
  simp only [Bool.and_self] at hsub
  exact (hsub.eq_of_length ((List.mergeSort_perm line _).filter _).length_eq.symm).symm

/-- In a sorted line the segments at or before a column come first. -/
theorem takeWhile_of_pairwise (hsorted : line.Pairwise fun a b => a.column ≤ b.column)
    (column : Nat) :
    (line.takeWhile fun s => s.column ≤ column) = line.filter fun s => s.column ≤ column := by
  induction line with
  | nil => rfl
  | cons s line ih =>
    obtain ⟨hs, hsorted⟩ := List.pairwise_cons.1 hsorted
    by_cases hcolumn : s.column ≤ column
    · rw [List.takeWhile_cons_of_pos (by simpa using hcolumn),
        List.filter_cons_of_pos (by simpa using hcolumn), ih hsorted]
    · rw [List.takeWhile_cons_of_neg (by simpa using hcolumn),
        List.filter_cons_of_neg (by simpa using hcolumn), eq_comm, List.filter_eq_nil_iff]
      intro r hr hle
      have hsr := hs r hr
      have hle := of_decide_eq_true hle
      omega

theorem segmentAt?_eq_getLast? (line : List Segment) (column : Nat) :
    segmentAt? (sortLine line) column =
      ((sortLine line).filter fun s => s.column ≤ column).getLast? := by
  rw [segmentAt?, takeWhile_of_pairwise (pairwise_sortLine line)]

/-- No segment at or before the column has a greater one than the segment that is found. -/
theorem le_of_segmentAt? (h : segmentAt? (sortLine line) column = some s) :
    s.column ≤ column ∧ ∀ r ∈ line, r.column ≤ column → r.column ≤ s.column := by
  rw [segmentAt?_eq_getLast?] at h
  obtain ⟨init, hfilter⟩ := List.getLast?_eq_some_iff.1 h
  have hs : s ∈ (sortLine line).filter fun s => s.column ≤ column := by simp [hfilter]
  refine ⟨of_decide_eq_true (List.mem_filter.1 hs).2, fun r hr hle => ?_⟩
  have hmem : r ∈ (sortLine line).filter fun s => s.column ≤ column :=
    List.mem_filter.2 ⟨mem_sortLine.2 hr, decide_eq_true hle⟩
  have hsorted := (pairwise_sortLine line).filter fun s => decide (s.column ≤ column)
  rw [hfilter] at hmem hsorted
  rcases List.mem_append.1 hmem with hr | hr
  · exact (List.pairwise_append.1 hsorted).2.2 r hr s List.mem_cons_self
  · exact Nat.le_of_eq (congrArg Segment.column (List.mem_singleton.1 hr))

/-- Of its column the segment that is found is the last in the document. -/
theorem exists_filter_of_segmentAt? (h : segmentAt? (sortLine line) column = some s) :
    ∃ init, (line.filter fun r => r.column = s.column) = init ++ [s] := by
  have hle := (le_of_segmentAt? h).1
  rw [segmentAt?_eq_getLast?] at h
  obtain ⟨init, hfilter⟩ := List.getLast?_eq_some_iff.1 h
  have hfilters : ((sortLine line).filter fun r => r.column = s.column) =
      ((sortLine line).filter fun r => r.column ≤ column).filter fun r => r.column = s.column := by
    rw [List.filter_filter]
    refine List.filter_congr fun r _ => ?_
    by_cases hr : r.column = s.column
    · simp [hr, hle]
    · simp [hr]
  refine ⟨init.filter fun r => r.column = s.column, ?_⟩
  rw [← filter_sortLine, hfilters, hfilter, List.filter_append]
  simp

/-- **Looking up** in the sorted line finds the segment that a scan in document order finds. -/
theorem segmentAt?_sortLine (line : List Segment) (column : Nat) :
    segmentAt? (sortLine line) column = latest (fun s => (s.column : Int)) column line := by
  rcases h : segmentAt? (sortLine line) column with _ | s
  · rw [segmentAt?_eq_getLast?, List.getLast?_eq_none_iff, List.filter_eq_nil_iff] at h
    refine (latest_eq_none_iff.2 fun r hr => ?_).symm
    have hr := h r (mem_sortLine.2 hr)
    simp only [decide_eq_true_eq] at hr
    omega
  · obtain ⟨hle, hmax⟩ := le_of_segmentAt? h
    obtain ⟨init, hfilter⟩ := exists_filter_of_segmentAt? h
    -- the line splits at the last segment of this column
    obtain ⟨before, rest, rfl, -, hrest⟩ := List.filter_eq_append_iff.1 hfilter
    obtain ⟨between, behind, rfl, -, -, hbehind⟩ := List.filter_eq_cons_iff.1 hrest
    have hsplit : before ++ (between ++ s :: behind) = (before ++ between) ++ s :: behind :=
      (List.append_assoc _ _ _).symm
    rw [hsplit] at hmax ⊢
    have hlatest : IsLatest (fun s : Segment => (s.column : Int)) column
        ((before ++ between) ++ s :: behind) s := by
      refine ⟨_, _, rfl, Int.ofNat_le.2 hle, fun r hr hrc => ?_, fun r hr hrc => ?_⟩
      · exact Int.ofNat_le.2 (hmax r (List.mem_append_left _ hr) (Int.ofNat_le.1 hrc))
      · have hrs := hmax r (by simp [hr]) (Int.ofNat_le.1 hrc)
        have hne := List.filter_eq_nil_iff.1 hbehind r hr
        simp only [decide_eq_true_eq] at hne
        exact Int.ofNat_lt.2 (by omega)
    exact (latest_eq_some_iff.2 hlatest).symm

end Sorted

end CoverageLift.Mappings
