import CoverageLift.Proofs.SourceMap.Numbers
import CoverageLift.Proofs.SourceMap.Refusal
import CoverageLift.Proofs.SourceMap.Sums

/-!
# Which mappings are accepted

Mappings are legal when every segment of them is: it has one, four or five numbers, and their sums up
to it stay within bounds (`LegalSegment`). A segment that is not legal has a fault, the first one in
the order in which a segment is checked (`Offends`). Reading a segment succeeds or fails with the fault,
whatever the sums are at the time; carried over the segments of a line and then over the lines, **mappings
are accepted exactly when they are legal, and otherwise refused with the line and the fault of their
first segment that is not** (`decode_accepts_legal`). The message of that refusal can be shown unless
it is about a source index beyond the length of numerals.
-/

namespace CoverageLift.Mappings

/-! ### Legal segments -/

/-- The numbers of a segment are legal behind the segments `passed` of its line and the segments
`earlier` of the lines before: the generated column is not negative, and a segment with a position has
a source of the map, and neither a line nor a column below zero. -/
structure LegalSegment (count : Nat) (earlier passed : List (List Int)) (numbers : List Int) :
    Prop where
  fields : numbers.length ∈ [1, 4, 5]
  column : 0 ≤ sumAt 0 (passed ++ [numbers])
  source : numbers.length ≠ 1 →
    0 ≤ sumAt 1 (earlier ++ passed ++ [numbers]) ∧ sumAt 1 (earlier ++ passed ++ [numbers]) < count
  position : numbers.length ≠ 1 →
    0 ≤ sumAt 2 (earlier ++ passed ++ [numbers]) ∧ 0 ≤ sumAt 3 (earlier ++ passed ++ [numbers])

/-- The fault of a segment that is not legal. A fault counts only if there is none of those before it
in this list. -/
inductive Offends (count : Nat) (earlier passed : List (List Int)) (text : Text) : Fault → Prop
  | vlq {error : Vlq.DecodeError} (h : Vlq.Fails text error) :
      Offends count earlier passed text (.vlq error)
  | fieldCount {numbers : List Int} (h : Vlq.IsSegment text numbers)
      (hfields : numbers.length ∉ [1, 4, 5]) :
      Offends count earlier passed text (.fieldCount text numbers.length)
  | column {numbers : List Int} (h : Vlq.IsSegment text numbers)
      (hfields : numbers.length ∈ [1, 4, 5]) (hcolumn : sumAt 0 (passed ++ [numbers]) < 0) :
      Offends count earlier passed text (.negativeColumn text)
  | source {numbers : List Int} (h : Vlq.IsSegment text numbers)
      (hfields : numbers.length ∈ [4, 5]) (hcolumn : 0 ≤ sumAt 0 (passed ++ [numbers]))
      (hsource : ¬ (0 ≤ sumAt 1 (earlier ++ passed ++ [numbers]) ∧
        sumAt 1 (earlier ++ passed ++ [numbers]) < count)) :
      Offends count earlier passed text
        (.sourceOutOfRange (sumAt 1 (earlier ++ passed ++ [numbers])))
  | position {numbers : List Int} (h : Vlq.IsSegment text numbers)
      (hfields : numbers.length ∈ [4, 5]) (hcolumn : 0 ≤ sumAt 0 (passed ++ [numbers]))
      (hsource : 0 ≤ sumAt 1 (earlier ++ passed ++ [numbers]) ∧
        sumAt 1 (earlier ++ passed ++ [numbers]) < count)
      (hposition : sumAt 2 (earlier ++ passed ++ [numbers]) < 0 ∨
        sumAt 3 (earlier ++ passed ++ [numbers]) < 0) :
      Offends count earlier passed text (.negativePosition text)

variable {count : Nat} {earlier passed : List (List Int)} {text : Text} {numbers : List Int}
  {totals : Totals}

/-- A segment is legal or has a fault. -/
theorem legal_or_offends (count : Nat) (earlier passed : List (List Int)) (text : Text) :
    (∃ numbers, Vlq.IsSegment text numbers ∧ LegalSegment count earlier passed numbers) ∨
      ∃ fault, Offends count earlier passed text fault := by
  obtain ⟨numbers, h⟩ | ⟨error, h⟩ := Vlq.isSegment_or_fails text
  · by_cases hfields : numbers.length ∈ [1, 4, 5]
    · by_cases hcolumn : 0 ≤ sumAt 0 (passed ++ [numbers])
      · by_cases hone : numbers.length = 1
        · exact .inl ⟨numbers, h, hfields, hcolumn, absurd hone, absurd hone⟩
        · have hmore : numbers.length ∈ [4, 5] := (List.mem_cons.1 hfields).resolve_left hone
          by_cases hsource : 0 ≤ sumAt 1 (earlier ++ passed ++ [numbers]) ∧
              sumAt 1 (earlier ++ passed ++ [numbers]) < count
          · by_cases hposition : 0 ≤ sumAt 2 (earlier ++ passed ++ [numbers]) ∧
                0 ≤ sumAt 3 (earlier ++ passed ++ [numbers])
            · exact .inl ⟨numbers, h, hfields, hcolumn, fun _ => hsource, fun _ => hposition⟩
            · exact .inr ⟨_, .position h hmore hcolumn hsource (by omega)⟩
          · exact .inr ⟨_, .source h hmore hcolumn hsource⟩
      · exact .inr ⟨_, .column h hfields (Int.not_le.1 hcolumn)⟩
    · exact .inr ⟨_, .fieldCount h hfields⟩
  · exact .inr ⟨_, .vlq h⟩

/-! ### Reading one segment -/

/-- Reading a position in terms of the sums that it leads to. -/
theorem readTarget_eq {column : Nat} {source line sourceColumn : Int} :
    readTarget count text totals column source line sourceColumn =
      if 0 ≤ totals.source + source ∧ totals.source + source < count then
        if 0 ≤ totals.sourceLine + line ∧ 0 ≤ totals.sourceColumn + sourceColumn then
          let target : Target := ⟨(totals.source + source).toNat, (totals.sourceLine + line).toNat,
            (totals.sourceColumn + sourceColumn).toNat⟩
          .ok (⟨column, target.source, target.line, target.column⟩, ⟨column, some target⟩)
        else .error (.negativePosition text)
      else .error (.sourceOutOfRange (totals.source + source)) := by
  rw [readTarget]
  dsimp only
  rw [ite_not]
  refine if_congr Iff.rfl ?_ rfl
  rw [add?, add?]
  by_cases hline : (0 : Int) ≤ totals.sourceLine + line
  · by_cases hcolumn : (0 : Int) ≤ totals.sourceColumn + sourceColumn
    · simp only [hline, hcolumn, and_self, if_true]
    · simp only [hline, hcolumn, and_false, if_true, if_false]
  · simp only [hline, false_and, if_false]

/-- Reading a segment in terms of its numbers. -/
theorem readSegment_eq (h : Vlq.IsSegment text numbers) :
    readSegment count totals text =
      if numbers.length ∈ [1, 4, 5] then
        if 0 ≤ totals.column + numbers.getD 0 0 then
          if numbers.length = 1 then
            let column := (totals.column + numbers.getD 0 0).toNat
            .ok ({ totals with column }, ⟨column, none⟩)
          else readTarget count text totals (totals.column + numbers.getD 0 0).toNat
            (numbers.getD 1 0) (numbers.getD 2 0) (numbers.getD 3 0)
        else .error (.negativeColumn text)
      else .error (.fieldCount text numbers.length) := by
  rw [readSegment, Vlq.decode_of_isSegment h]
  rcases numbers with _ | ⟨column, _ | ⟨source, _ | ⟨line, _ | ⟨sourceColumn, more⟩⟩⟩⟩
  · rfl
  · -- one number
    by_cases hcolumn : (0 : Int) ≤ totals.column + column
    · simp [add?, hcolumn]
    · simp [add?, hcolumn]
  · rfl
  · rfl
  · -- four numbers or more
    have hfields : (column :: source :: line :: sourceColumn :: more).length ∈ [1, 4, 5] ↔
        more.length ≤ 1 := by
      simp only [List.length_cons, List.mem_cons, List.not_mem_nil, or_false]
      omega
    dsimp only
    rw [if_congr hfields rfl rfl]
    refine if_congr Iff.rfl ?_ rfl
    by_cases hcolumn : (0 : Int) ≤ totals.column + column
    · simp [add?, hcolumn]
    · simp [add?, hcolumn]

/-! ### Reading behind other segments -/

/-- The reader's state behind the segments `passed` of a line and the segments `earlier` of the lines
before. -/
structure Totals.Behind (totals : Totals) (earlier passed : List (List Int)) : Prop where
  sums : totals.SumsOf (earlier ++ passed)
  column : (totals.column : Int) = sumAt 0 passed

/-- A line begins with the column zero. -/
theorem Totals.SumsOf.beginLine (h : totals.SumsOf earlier) :
    { totals with column := 0 }.Behind earlier [] where
  sums := by
    rw [List.append_nil]
    exact ⟨h.source, h.sourceLine, h.sourceColumn⟩
  column := rfl

/-- The sums when the numbers of a segment are added. -/
theorem Totals.Behind.add (h : totals.Behind earlier passed) (numbers : List Int) :
    (totals.column : Int) + numbers.getD 0 0 = sumAt 0 (passed ++ [numbers]) ∧
      (totals.source : Int) + numbers.getD 1 0 = sumAt 1 (earlier ++ passed ++ [numbers]) ∧
      (totals.sourceLine : Int) + numbers.getD 2 0 = sumAt 2 (earlier ++ passed ++ [numbers]) ∧
      (totals.sourceColumn : Int) + numbers.getD 3 0 =
        sumAt 3 (earlier ++ passed ++ [numbers]) := by
  simp only [sumAt_concat, h.column, h.sums.source, h.sums.sourceLine, h.sums.sourceColumn,
    and_self]

variable {fault : Fault}

/-- Behind other segments a segment with a position is read by reading the position. -/
theorem readSegment_eq_readTarget (htotals : totals.Behind earlier passed)
    (h : Vlq.IsSegment text numbers) (hfields : numbers.length ∈ [1, 4, 5])
    (hone : numbers.length ≠ 1) (hcolumn : 0 ≤ sumAt 0 (passed ++ [numbers])) :
    readSegment count totals text =
      readTarget count text totals (sumAt 0 (passed ++ [numbers])).toNat (numbers.getD 1 0)
        (numbers.getD 2 0) (numbers.getD 3 0) := by
  rw [readSegment_eq h, if_pos hfields, (htotals.add numbers).1, if_pos hcolumn, if_neg hone]

/-- A legal segment is read. -/
theorem exists_readSegment (htotals : totals.Behind earlier passed)
    (h : Vlq.IsSegment text numbers) (hlegal : LegalSegment count earlier passed numbers) :
    ∃ totals' s, readSegment count totals text = .ok (totals', s) ∧
      totals'.Behind earlier (passed ++ [numbers]) := by
  have hread : ∃ totals' s, readSegment count totals text = .ok (totals', s) := by
    obtain ⟨hcolumn, hsource, hline, hsourceColumn⟩ := htotals.add numbers
    by_cases hone : numbers.length = 1
    · rw [readSegment_eq h, hcolumn, if_pos hlegal.fields, if_pos hlegal.column, if_pos hone]
      exact ⟨_, _, rfl⟩
    · rw [readSegment_eq_readTarget htotals h hlegal.fields hone hlegal.column, readTarget_eq, hsource,
        hline, hsourceColumn, if_pos (hlegal.source hone), if_pos (hlegal.position hone)]
      exact ⟨_, _, rfl⟩
  obtain ⟨totals', s, hread⟩ := hread
  obtain ⟨others, hothers, -, hsums, hcolumn⟩ :=
    spot_readSegment htotals.sums htotals.column hread
  obtain rfl := Except.ok.inj (hothers.symm.trans (Vlq.decode_of_isSegment h))
  exact ⟨totals', s, hread, hsums, hcolumn⟩

/-- A segment with a fault is refused for it. -/
theorem readSegment_of_offends (htotals : totals.Behind earlier passed)
    (h : Offends count earlier passed text fault) :
    readSegment count totals text = .error fault := by
  -- a segment of four or five numbers has a position
  have hposition {numbers : List Int} (hfields : numbers.length ∈ [4, 5]) :
      numbers.length ∈ [1, 4, 5] ∧ numbers.length ≠ 1 :=
    ⟨List.mem_cons_of_mem _ hfields, fun hone => absurd (hone ▸ hfields) (by decide)⟩
  cases h with
  | vlq h => rw [readSegment, Vlq.decode_of_fails h]
  | fieldCount h hfields => rw [readSegment_eq h, if_neg hfields]
  | @column numbers h hfields hcolumn =>
    rw [readSegment_eq h, if_pos hfields, (htotals.add numbers).1, if_neg (Int.not_le.2 hcolumn)]
  | @source numbers h hfields hcolumn hsource =>
    obtain ⟨hall, hone⟩ := hposition hfields
    rw [readSegment_eq_readTarget htotals h hall hone hcolumn, readTarget_eq,
      (htotals.add numbers).2.1, if_neg hsource]
  | @position numbers h hfields hcolumn hsource hnegative =>
    obtain ⟨hall, hone⟩ := hposition hfields
    obtain ⟨-, hsource', hline', hsourceColumn'⟩ := htotals.add numbers
    rw [readSegment_eq_readTarget htotals h hall hone hcolumn, readTarget_eq, hsource', hline',
      hsourceColumn', if_pos hsource, if_neg (by omega)]

/-! ### Lines -/

/-- The texts of the segments of a line. -/
def segmentTexts (line : Text) : List Text :=
  (Text.splitOn (.char ',') line).filter fun s => !s.isEmpty

/-- Texts are the segments of the numbers `line`, all legal behind the segments `earlier` of the lines
before. -/
structure LegalLine (count : Nat) (earlier : List (List Int)) (texts : List Text)
    (line : List (List Int)) : Prop where
  spelled : List.Forall₂ Vlq.IsSegment texts line
  legal : EachBehind (LegalSegment count earlier) line

/-- Texts are lines of the segments `lines`, all legal. -/
structure LegalLines (count : Nat) (texts : List Text) (lines : List (List (List Int))) : Prop where
  spelled : List.Forall₂ (fun text => List.Forall₂ Vlq.IsSegment (segmentTexts text)) texts lines
  legal : EachBehind (fun before => EachBehind (LegalSegment count before.flatten)) lines

/-- The line of the first segment that is not legal, counted from one, and its fault. -/
inductive FirstFault (count : Nat) (mappings : Text) : DecodeError → Prop
  | intro {before behind passed rest : List Text} {line text : Text}
      {lines : List (List (List Int))} {segments : List (List Int)} {fault : Fault}
      (hmappings : Text.splitOn (.char ';') mappings = before ++ line :: behind)
      (hline : segmentTexts line = passed ++ text :: rest)
      (hbefore : LegalLines count before lines)
      (hpassed : LegalLine count lines.flatten passed segments)
      (hfault : Offends count lines.flatten segments text fault) :
      FirstFault count mappings ⟨before.length + 1, fault⟩

/-- Mappings are legal or have a first fault. -/
theorem legalLines_or_firstFault (count : Nat) (mappings : Text) :
    (∃ lines, LegalLines count (Text.splitOn (.char ';') mappings) lines) ∨
      ∃ error, FirstFault count mappings error := by
  obtain ⟨lines, hspelled, hlegal⟩ | ⟨before, line, behind, lines, hmappings, hspelled, hlegal, hnot⟩ :=
    exists_eachBehind_or_first
      (fun text => List.Forall₂ Vlq.IsSegment (segmentTexts text))
      (Text.splitOn (.char ';') mappings)
      fun before => EachBehind (LegalSegment count before.flatten)
  · exact .inl ⟨lines, hspelled, hlegal⟩
  · -- in the first line that is not legal, the first segment that is not
    obtain hline | ⟨passed, text, rest, segments, hline, hpassed, heach, hsegment⟩ :=
      exists_eachBehind_or_first Vlq.IsSegment (segmentTexts line) (LegalSegment count lines.flatten)
    · exact absurd hline hnot
    · obtain ⟨fault, hfault⟩ :=
        (legal_or_offends count lines.flatten segments text).resolve_left hsegment
      exact .inr ⟨_, .intro hmappings hline ⟨hspelled, hlegal⟩ ⟨hpassed, heach⟩ hfault⟩

/-! ### Reading lines -/

/-- The legal segments at the beginning of a line are read, and then the rest of it. -/
theorem exists_readSegments (rest : List Text) {texts : List Text} :
    ∀ {totals : Totals} {passed line : List (List Int)}, totals.Behind earlier passed →
      List.Forall₂ Vlq.IsSegment texts line →
      EachBehind (fun before => LegalSegment count earlier (passed ++ before)) line →
      ∃ totals' segments, totals'.Behind earlier (passed ++ line) ∧
        readSegments count totals (texts ++ rest) =
          (readSegments count totals' rest).map fun (totals, more) => (totals, segments ++ more) := by
  induction texts with
  | nil =>
    rintro totals passed _ htotals ⟨⟩ _
    refine ⟨totals, [], (List.append_nil passed).symm ▸ htotals, ?_⟩
    cases h : readSegments count totals rest <;> simp [h, Except.map]
  | cons text texts ih =>
    rintro totals passed _ htotals (_ | @⟨_, numbers, _, line, htext, htexts⟩) hlegal
    obtain ⟨hnumbers, hline⟩ := eachBehind_cons_iff.1 hlegal
    rw [List.append_nil] at hnumbers
    obtain ⟨totals₁, s, hread, htotals₁⟩ := exists_readSegment htotals htext hnumbers
    obtain ⟨totals', segments, htotals', hrest⟩ := ih htotals₁ htexts <| by
      simpa only [List.append_assoc, List.singleton_append] using hline
    rw [List.append_assoc, List.singleton_append] at htotals'
    refine ⟨totals', s :: segments, htotals', ?_⟩
    rw [List.cons_append, readSegments, hread]
    dsimp only
    rw [hrest]
    cases readSegments count totals' rest <;> rfl

/-- The legal lines at the beginning are read, and then the rest. -/
theorem exists_readLines (rest : List Text) {texts : List Text} :
    ∀ (number : Nat) {totals : Totals} (before : List (List (List Int)))
      {lines : List (List (List Int))}, totals.SumsOf before.flatten →
      List.Forall₂ (fun text => List.Forall₂ Vlq.IsSegment (segmentTexts text)) texts lines →
      EachBehind (fun passed => EachBehind (LegalSegment count (before ++ passed).flatten)) lines →
      ∃ totals' read, totals'.SumsOf (before ++ lines).flatten ∧ read.length = texts.length ∧
        readLines count number totals (texts ++ rest) =
          (readLines count (number + texts.length) totals' rest).map (read ++ ·) := by
  induction texts with
  | nil =>
    rintro number totals before _ htotals ⟨⟩ _
    refine ⟨totals, [], (List.append_nil before).symm ▸ htotals, rfl, ?_⟩
    cases h : readLines count number totals rest <;> simp [h, Except.map]
  | cons text texts ih =>
    rintro number totals before _ htotals (_ | @⟨_, line, _, lines, htext, htexts⟩) hlegal
    obtain ⟨hline, hlines⟩ := eachBehind_cons_iff.1 hlegal
    rw [List.append_nil] at hline
    obtain ⟨totals₁, segments, htotals₁, hread⟩ :=
      exists_readSegments [] htotals.beginLine htext hline
    have hflatten : before.flatten ++ ([] ++ line) = (before ++ [line]).flatten := by simp
    obtain ⟨totals', read, htotals', hlength, hrest⟩ :=
      ih (number + 1) (before ++ [line]) (hflatten ▸ htotals₁.sums) htexts <| by
        simpa only [List.append_assoc, List.singleton_append] using hlines
    rw [List.append_assoc, List.singleton_append] at htotals'
    refine ⟨totals', segments :: read, htotals', congrArg Nat.succ hlength, ?_⟩
    have hnumber : number + 1 + texts.length = number + (text :: texts).length := by
      rw [List.length_cons]
      omega
    rw [List.append_nil, segmentTexts] at hread
    rw [List.cons_append, readLines, hread, ← hnumber]
    simp only [readSegments, Except.map, List.append_nil]
    rw [hrest]
    cases readLines count (number + 1 + texts.length) totals' rest <;> rfl

/-- Legal mappings are read. -/
theorem exists_read {mappings : Text} {numbers : List (List (List Int))}
    (h : LegalLines count (Text.splitOn (.char ';') mappings) numbers) :
    ∃ lines, read count mappings = .ok lines ∧
      lines.length = Text.count (.char ';') mappings + 1 := by
  obtain ⟨totals, lines, -, hlength, hread⟩ :=
    exists_readLines [] 1 [] sumsOf_start h.spelled h.legal
  refine ⟨lines, ?_, hlength.trans (Text.length_splitOn _ _)⟩
  rw [List.append_nil] at hread
  rw [read, hread, readLines, Except.map, List.append_nil]

/-- Mappings with a fault are refused for their first one. -/
theorem read_of_firstFault {mappings : Text} {error : DecodeError}
    (h : FirstFault count mappings error) : read count mappings = .error error := by
  obtain @⟨before, behind, passed, rest, line, text, lines, segments, fault, hmappings, hline,
    hbefore, hpassed, hfault⟩ := h
  obtain ⟨totals, lines', htotals, -, hread⟩ :=
    exists_readLines (line :: behind) 1 [] sumsOf_start hbefore.spelled hbefore.legal
  obtain ⟨totals', segments', htotals', hsegments⟩ :=
    exists_readSegments (text :: rest) htotals.beginLine hpassed.spelled hpassed.legal
  have hstops : readSegments count { totals with column := 0 } (segmentTexts line) = .error fault := by
    rw [hline, hsegments, readSegments, readSegment_of_offends htotals' hfault]
    rfl
  rw [segmentTexts] at hstops
  rw [read, hmappings, hread, readLines, hstops, Nat.add_comm 1]
  rfl

/-! ### Acceptance -/

variable {mappings : Text} {error : DecodeError}

theorem exists_decode_iff :
    (∃ lines, decode count mappings = .ok lines) ↔
      ∃ numbers, LegalLines count (Text.splitOn (.char ';') mappings) numbers := by
  constructor
  · rintro ⟨lines, hlines⟩
    refine (legalLines_or_firstFault count mappings).resolve_right fun ⟨error, herror⟩ => ?_
    rw [decode, read_of_firstFault herror] at hlines
    cases hlines
  · rintro ⟨numbers, hnumbers⟩
    obtain ⟨lines, hlines, -⟩ := exists_read hnumbers
    exact ⟨lines.map sortLine, by rw [decode, hlines, Except.map]⟩

theorem length_decode {lines : List (List Segment)} (h : decode count mappings = .ok lines) :
    lines.length = Text.count (.char ';') mappings + 1 := by
  obtain ⟨numbers, hnumbers⟩ := exists_decode_iff.1 ⟨lines, h⟩
  obtain ⟨lines', hlines', hlength⟩ := exists_read hnumbers
  rw [decode, hlines'] at h
  rw [← Except.ok.inj h, List.length_map, hlength]

theorem decode_eq_error_iff : decode count mappings = .error error ↔ FirstFault count mappings error := by
  constructor
  · intro h
    obtain hlegal | ⟨other, hother⟩ := legalLines_or_firstFault count mappings
    · obtain ⟨lines, hlines⟩ := exists_decode_iff.2 hlegal
      exact nomatch h.symm.trans hlines
    · rw [decode, read_of_firstFault hother] at h
      exact Except.error.inj h ▸ hother
  · intro h
    rw [decode, read_of_firstFault h, Except.map]

/-- The fault is a source index that is too long to be shown. -/
def Fault.HasLongIndex (fault : Fault) : Prop :=
  ∃ index, fault = .sourceOutOfRange index ∧ Text.ExceedsNumerals index

theorem showsLongInteger_mappings_iff :
    SourceMap.showsLongInteger (.mappings error) = true ↔ error.fault.HasLongIndex := by
  rw [SourceMap.showsLongInteger_iff]
  constructor
  · rintro (⟨_, heq, -⟩ | ⟨line, index, heq, hlong⟩)
    · cases heq
    · cases heq
      exact ⟨index, rfl, hlong⟩
  · rintro ⟨index, hfault, hlong⟩
    obtain ⟨line, fault⟩ := error
    obtain rfl : fault = .sourceOutOfRange index := hfault
    exact .inr ⟨line, index, rfl, hlong⟩

/-- What becomes of a document whose mappings have a fault. -/
theorem outcome_of_firstFault {document : SourceMapDocument} (generated : Text)
    (hversion : document.version = 3)
    (h : FirstFault document.sources.length document.mappings error) :
    SourceMap.outcome (SourceMap.ofDocument document generated) =
      .error (if SourceMap.showsLongInteger (.mappings error) then .unprintable
        else .malformed (.mappings error)) := by
  rw [SourceMap.ofDocument_eq_error_iff.2 (.inr ⟨hversion, error, read_of_firstFault h, rfl⟩)]
  rfl

/-- **Acceptance.** Mappings are accepted exactly when they are lines of legal segments, and there is
then one line more than there are separators of lines. They are refused exactly with the line of their
first segment that is not legal and its fault. A document with such mappings is malformed, and the
message begins with that line, unless the fault is a source index that is too long to be shown; there
is no message then. -/
theorem decode_accepts_legal (count : Nat) (mappings : Text) :
    ((∃ lines, decode count mappings = .ok lines) ↔
      ∃ numbers, LegalLines count (Text.splitOn (.char ';') mappings) numbers) ∧
    (∀ lines, decode count mappings = .ok lines →
      lines.length = Text.count (.char ';') mappings + 1) ∧
    (∀ error, decode count mappings = .error error ↔ FirstFault count mappings error) ∧
    ∀ error, FirstFault count mappings error →
      ∀ document generated, document.version = 3 → document.sources.length = count →
        document.mappings = mappings →
        (¬ error.fault.HasLongIndex →
          SourceMap.outcome (SourceMap.ofDocument document generated) =
              .error (.malformed (.mappings error)) ∧
            ("Line " : Text) ++ Text.ofNat error.line ++ (": " : Text) <+:
              (MapFault.mappings error).message) ∧
        (error.fault.HasLongIndex →
          SourceMap.outcome (SourceMap.ofDocument document generated) = .error .unprintable) := by
  refine ⟨exists_decode_iff, fun lines => length_decode, fun error => decode_eq_error_iff, ?_⟩
  rintro error herror document generated hversion rfl rfl
  rw [← showsLongInteger_mappings_iff, outcome_of_firstFault generated hversion herror]
  refine ⟨fun hshort => ⟨by rw [if_neg hshort], ?_⟩, fun hlong => by rw [if_pos hlong]⟩
  exact List.prefix_append _ _

/-- Three lines of which one is empty, and a line that falls below zero in the second of two lines. -/
theorem decode_accepts_legal_of_lines :
    (∀ lines, decode 1 "AAAA;;C" = .ok lines → lines.length = 3) ∧
      FirstFault 1 "AAAA;,A,CADA;!" ⟨2, .negativePosition "CADA"⟩ ∧
      SourceMap.outcome
          (SourceMap.ofDocument ⟨3, [some "a.ts"], "AAAA;,A,CADA;!", none, none⟩ "a.js") =
        .error (.malformed (.mappings ⟨2, .negativePosition "CADA"⟩)) := by
  have hread : decode 1 "AAAA;,A,CADA;!" = .error ⟨2, .negativePosition "CADA"⟩ := by decide +kernel
  have hfault := ((decode_accepts_legal 1 "AAAA;,A,CADA;!").2.2.1 _).1 hread
  have hreport := (decode_accepts_legal 1 "AAAA;,A,CADA;!").2.2.2 _ hfault
    ⟨3, [some "a.ts"], "AAAA;,A,CADA;!", none, none⟩ "a.js" rfl rfl rfl
  exact ⟨(decode_accepts_legal 1 "AAAA;;C").2.1, hfault, (hreport.1 fun ⟨_, h, _⟩ => nomatch h).1⟩

/-! ### An index beyond the length of numerals -/

/-- A source index where there are no sources. -/
theorem firstFault_encode_source (n : Nat) :
    FirstFault 0 (Vlq.encode [0, n, 0, 0]) ⟨1, .sourceOutOfRange n⟩ := by
  have hline : Text.splitOn (.char ';') (Vlq.encode [0, (n : Int), 0, 0]) = [Vlq.encode [0, n, 0, 0]] :=
    Text.splitOn_of_not_mem (Vlq.not_mem_encode (by decide) _)
  have hsegment : segmentTexts (Vlq.encode [0, (n : Int), 0, 0]) = [Vlq.encode [0, n, 0, 0]] := by
    rw [segmentTexts, Text.splitOn_of_not_mem (Vlq.not_mem_encode (by decide) _)]
    simp [Vlq.encode_ne_nil]
  have hindex : sumAt 1 ([] ++ [] ++ [[0, (n : Int), 0, 0]]) = n := by simp [sumAt]
  have hfault : Offends 0 [] [] (Vlq.encode [0, (n : Int), 0, 0]) (.sourceOutOfRange n) :=
    hindex ▸ .source (Vlq.isSegment_encode [0, (n : Int), 0, 0]) (by simp) (by simp [sumAt]) (by omega)
  exact @FirstFault.intro 0 _ [] [] [] [] _ _ [] [] _ hline hsegment ⟨.nil, eachBehind_nil⟩
    ⟨.nil, eachBehind_nil⟩ hfault

/-- A document without sources. -/
def withoutSources (mappings : Text) : Payload :=
  .value (.obj [("version", .int 3), ("sources", .arr []), ("mappings", .str mappings)])

/-- Such a source index is not reported. -/
theorem not_reported_of_exceedsNumerals {n : Nat} (h : Text.ExceedsNumerals n) (generated : Text) :
    ¬ SourceMap.Reported
      (SourceMap.ofPayload (withoutSources (Vlq.encode [0, n, 0, 0])) generated) := by
  have hlong : SourceMap.showsLongInteger (.mappings ⟨1, .sourceOutOfRange n⟩) = true :=
    showsLongInteger_mappings_iff.2 ⟨n, rfl, h⟩
  have hbuilt : SourceMap.ofPayload (withoutSources (Vlq.encode [0, (n : Int), 0, 0])) generated =
      .error .unprintable := by
    have hdocument := @outcome_of_firstFault _ ⟨3, [], Vlq.encode [0, n, 0, 0], none, none⟩ generated
      rfl (firstFault_encode_source n)
    rw [if_pos hlong] at hdocument
    exact hdocument
  rw [hbuilt]
  rintro (⟨_, h⟩ | ⟨_, h⟩)
  · cases h
  · cases h

/-- A fault of the first line that is not reported: a source index of 4301 digits. The document is
neither built nor malformed. -/
theorem not_reported_long_index :
    FirstFault 0 (Vlq.encode [0, (10 ^ Text.maxNumeralLength : Nat), 0, 0])
        ⟨1, .sourceOutOfRange (10 ^ Text.maxNumeralLength : Nat)⟩ ∧
      ¬ ((∃ map, SourceMap.ofPayload
            (withoutSources (Vlq.encode [0, (10 ^ Text.maxNumeralLength : Nat), 0, 0])) "a.js" =
              .ok map) ∨
          ∃ fault, SourceMap.ofPayload
            (withoutSources (Vlq.encode [0, (10 ^ Text.maxNumeralLength : Nat), 0, 0])) "a.js" =
              .error (.malformed fault)) :=
  ⟨firstFault_encode_source _, not_reported_of_exceedsNumerals (Int.natAbs_natCast _).ge "a.js"⟩

end CoverageLift.Mappings
