import CoverageLift.Proofs.SourceMap.Numbers
import CoverageLift.Proofs.SourceMap.Scan
import CoverageLift.Proofs.SourceMap.Sums

/-!
# Reading back mappings

Mappings are written as differences and read as sums, and the two undo each other whatever the sums
are at the time: this carries the induction over the segments of a line and then over the lines. What
is read back is sorted by generated column. **Decoding undoes encoding** (`decode_encode`): lines
whose segments name sources that the map has are found again, each one sorted stably.
-/

namespace CoverageLift.Mappings

/-- Every segment of the lines names a source below `count`, if it names one. -/
def NamesSources (count : Nat) (line : List Segment) : Prop :=
  ∀ s ∈ line, ∀ t, s.target = some t → t.source < count

/-- `sorted` has the segments of `line` in ascending order of their generated columns, and those of
one column in the order of `line`. -/
structure IsStableSort (line sorted : List Segment) : Prop where
  ascending : sorted.Pairwise fun a b => a.column ≤ b.column
  stable : ∀ column, (sorted.filter fun s => s.column = column) =
    line.filter fun s => s.column = column

theorem isStableSort_sortLine (line : List Segment) : IsStableSort line (sortLine line) where
  ascending := pairwise_sortLine line
  stable := filter_sortLine line

variable {count : Nat} {line : List Segment}

/-! ### Segments -/

theorem add?_sub (total n : Nat) : add? total ((n : Int) - total) = some n := by
  rw [add?_eq_some_iff]
  omega

theorem segmentFields_ne_nil (totals : Totals) (s : Segment) : (segmentFields totals s).2 ≠ [] := by
  rw [segmentFields]
  split <;> exact List.cons_ne_nil _ _

/-- The differences of a position lead back to it from the sums that they were taken from. -/
theorem readTarget_sub (segment : Text) (totals : Totals) (column : Nat) {t : Target}
    (ht : t.source < count) :
    readTarget count segment totals column ((t.source : Int) - totals.source)
        ((t.line : Int) - totals.sourceLine) ((t.column : Int) - totals.sourceColumn) =
      .ok (⟨column, t.source, t.line, t.column⟩, ⟨column, some t⟩) := by
  have hindex : (totals.source : Int) + ((t.source : Int) - totals.source) = t.source := by omega
  have hrange : (0 : Int) ≤ t.source ∧ (t.source : Int) < count := by omega
  rw [readTarget]
  simp only [hindex, add?_sub, Int.toNat_natCast]
  rw [if_neg (not_not_intro hrange)]

/-- **One segment** is read back from its differences, and leaves the sums that writing left. -/
theorem readSegment_encode (totals : Totals) {s : Segment}
    (hs : ∀ t, s.target = some t → t.source < count) :
    readSegment count totals (Vlq.encode (segmentFields totals s).2) =
      .ok ((segmentFields totals s).1, s) := by
  obtain ⟨column, _ | t⟩ := s
  · -- a segment without a position
    rw [readSegment, Vlq.decode_encode_self]
    simp only [segmentFields, add?_sub]
  · have htarget := readTarget_sub (Vlq.encode (segmentFields totals ⟨column, some t⟩).2) totals
      column (hs t rfl)
    rw [readSegment, Vlq.decode_encode_self]
    simp only [segmentFields, add?_sub, List.length_nil, Nat.zero_le, if_true] at htarget ⊢
    exact htarget

/-- **The segments of a line** are read back from any sums. -/
theorem readSegments_writeSegments (hline : NamesSources count line) :
    ∀ totals, readSegments count totals (writeSegments totals line).2 =
      .ok ((writeSegments totals line).1, line) := by
  induction line with
  | nil => exact fun totals => rfl
  | cons s line ih =>
    intro totals
    obtain ⟨hs, hline⟩ := List.forall_mem_cons.1 hline
    rw [writeSegments]
    dsimp only
    rw [readSegments, readSegment_encode totals hs]
    dsimp only
    rw [ih hline]
    rfl

/-! ### Texts of lines -/

/-- What is written for a segment is not empty and has neither of the two separators. -/
theorem texts_writeSegments :
    ∀ totals, ∀ text ∈ (writeSegments totals line).2,
      text ≠ [] ∧ CodePoint.char ',' ∉ text ∧ CodePoint.char ';' ∉ text := by
  induction line with
  | nil => exact fun totals text htext => absurd htext List.not_mem_nil
  | cons s line ih =>
    intro totals
    rw [writeSegments]
    refine List.forall_mem_cons.2 ⟨⟨?_, ?_, ?_⟩, ih _⟩
    · exact Vlq.encode_ne_nil (segmentFields_ne_nil totals s)
    · exact Vlq.not_mem_encode rfl _
    · exact Vlq.not_mem_encode rfl _

/-- The segments of a written line; a line without segments has one empty piece, which is passed
over. -/
theorem pieces_writeSegments (totals : Totals) :
    ((Text.splitOn (.char ',') (Text.join [.char ','] (writeSegments totals line).2)).filter
      fun s => !s.isEmpty) = (writeSegments totals line).2 := by
  have htexts := @texts_writeSegments line totals
  by_cases hnone : (writeSegments totals line).2 = []
  · rw [hnone]
    rfl
  · rw [Text.splitOn_join hnone fun text htext => (htexts text htext).2.1, List.filter_eq_self]
    intro text htext
    rw [Bool.not_eq_true', List.isEmpty_eq_false_iff]
    exact (htexts text htext).1

/-- What is written for a line has no separator of lines. -/
theorem not_mem_of_mem_writeLines {lines : List (List Segment)} :
    ∀ totals, ∀ text ∈ writeLines totals lines, CodePoint.char ';' ∉ text := by
  induction lines with
  | nil => exact fun totals text htext => absurd htext List.not_mem_nil
  | cons line lines ih =>
    intro totals
    rw [writeLines]
    refine List.forall_mem_cons.2 ⟨fun hmem => ?_, ih _⟩
    obtain hsep | ⟨text, htext, hmem⟩ := Text.mem_of_mem_join hmem
    · exact absurd hsep (by decide)
    · exact (texts_writeSegments _ text htext).2.2 hmem

/-! ### Lines -/

/-- **The lines** are read back from any sums. -/
theorem readLines_writeLines {lines : List (List Segment)}
    (hlines : ∀ line ∈ lines, NamesSources count line) :
    ∀ number totals, readLines count number totals (writeLines totals lines) = .ok lines := by
  induction lines with
  | nil => exact fun number totals => rfl
  | cons line lines ih =>
    intro number totals
    obtain ⟨hline, hlines⟩ := List.forall_mem_cons.1 hlines
    rw [writeLines, readLines]
    rw [pieces_writeSegments, readSegments_writeSegments hline]
    dsimp only
    rw [ih hlines]
    rfl

theorem writeLines_ne_nil {lines : List (List Segment)} (h : lines ≠ []) (totals : Totals) :
    writeLines totals lines ≠ [] := by
  obtain ⟨line, lines, rfl⟩ := List.exists_cons_of_ne_nil h
  rw [writeLines]
  exact List.cons_ne_nil _ _

/-- Written mappings are read back in document order. -/
theorem read_encode {lines : List (List Segment)} (hne : lines ≠ [])
    (hlines : ∀ line ∈ lines, NamesSources count line) :
    read count (encode lines) = .ok lines := by
  rw [read, encode, Text.splitOn_join (writeLines_ne_nil hne _) (not_mem_of_mem_writeLines _),
    readLines_writeLines hlines]

/-- **Decoding undoes encoding**: the segments of every line come back sorted by generated column,
those of one column in the order in which they were written. -/
theorem decode_encode {lines : List (List Segment)} (hne : lines ≠ [])
    (hlines : ∀ line ∈ lines, NamesSources count line) :
    ∃ decoded, decode count (encode lines) = .ok decoded ∧
      List.Forall₂ IsStableSort lines decoded := by
  refine ⟨lines.map sortLine, ?_, ?_⟩
  · rw [decode, read_encode hne hlines]
    rfl
  · rw [List.forall₂_map_right_iff, List.forall₂_same]
    exact fun line _ => isStableSort_sortLine line

/-- Two lines, the first with its segments out of order: two at column 4, a bare one between them,
and one whose source, line and column are all smaller than those before it. -/
theorem decode_encode_of_unsorted_line :
    ∃ decoded,
      decode 2 (encode [[⟨4, some ⟨1, 30, 500⟩⟩, ⟨0, none⟩, ⟨4, some ⟨0, 2, 1⟩⟩], []]) =
          .ok decoded ∧
        List.Forall₂ IsStableSort
          [[⟨4, some ⟨1, 30, 500⟩⟩, ⟨0, none⟩, ⟨4, some ⟨0, 2, 1⟩⟩], []] decoded := by
  refine decode_encode (List.cons_ne_nil _ _) ?_
  simp [NamesSources]

end CoverageLift.Mappings
