import CoverageLift.Proofs.Success
import CoverageLift.SourceMap.Mappings
import Mathlib.Algebra.BigOperators.Group.List.Basic
import Mathlib.Algebra.Ring.Int.Defs

/-!
# The sums in mappings

The numbers of a segment are differences. The reader carries their sums along; here the sums are
written out: the generated column of a segment is the sum over the segments of its line up to it,
and its position the sum over all segments of the document up to it. **Segments that are read have
these sums** (`map_spot_read`).
-/

namespace CoverageLift.Mappings

/-! ### Numbers of segments -/

/-- The numbers of the segments of a line. -/
def numbersOfLine (line : Text) : Except Vlq.DecodeError (List (List Int)) :=
  ((Text.splitOn (.char ',') line).filter fun s => !s.isEmpty).mapM Vlq.decode

/-- The numbers of the segments of every line. -/
def numbersOf (mappings : Text) : Except Vlq.DecodeError (List (List (List Int))) :=
  (Text.splitOn (.char ';') mappings).mapM numbersOfLine

/-- The sum of the numbers that segments have in one place; a segment that has none there adds
nothing. -/
def sumAt (place : Nat) (segments : List (List Int)) : Int :=
  (segments.map fun numbers => numbers.getD place 0).sum

theorem sumAt_concat (place : Nat) (segments : List (List Int)) (numbers : List Int) :
    sumAt place (segments ++ [numbers]) = sumAt place segments + numbers.getD place 0 := by
  simp [sumAt]

/-! ### Segments with their sums -/

/-- A segment of the document: its generated column and the source, line and column that it maps to,
all counted from zero. -/
structure Spot where
  column : Int
  target : Option (Int × Int × Int)
  deriving DecidableEq

/-- The source, line and column that segments sum up to. -/
def positionSums (segments : List (List Int)) : Int × Int × Int :=
  (sumAt 1 segments, sumAt 2 segments, sumAt 3 segments)

/-- The segment `numbers` behind the segments `passed` of its line and the segments `earlier` of the
lines before. A segment of one number maps to nothing. -/
def spotAfter (earlier passed : List (List Int)) (numbers : List Int) : Spot where
  column := sumAt 0 (passed ++ [numbers])
  target :=
    if numbers.length = 1 then none else some (positionSums (earlier ++ (passed ++ [numbers])))

/-- The segments of a line behind the segments `passed`. -/
def spotsAfter (earlier : List (List Int)) : (passed line : List (List Int)) → List Spot
  | _, [] => []
  | passed, numbers :: line =>
    spotAfter earlier passed numbers :: spotsAfter earlier (passed ++ [numbers]) line

/-- The segments of a line behind the lines `before`. -/
def spotsOfLine (before : List (List (List Int))) (line : List (List Int)) : List Spot :=
  spotsAfter before.flatten [] line

/-- A segment that has been read. -/
def Segment.spot (s : Segment) : Spot :=
  ⟨s.column, s.target.map fun t => (t.source, t.line, t.column)⟩

/-! ### What the reader carries along -/

theorem add?_eq_some_iff {total n : Nat} {difference : Int} :
    add? total difference = some n ↔ (n : Int) = total + difference := by
  rw [add?]
  split
  · rw [Option.some.injEq]
    omega
  · exact iff_of_false (fun h => nomatch h) (by omega)

/-- The reader's sums of positions are those of the segments so far. -/
structure Totals.SumsOf (totals : Totals) (segments : List (List Int)) : Prop where
  source : (totals.source : Int) = sumAt 1 segments
  sourceLine : (totals.sourceLine : Int) = sumAt 2 segments
  sourceColumn : (totals.sourceColumn : Int) = sumAt 3 segments

/-- The reader's sums of positions have grown by the numbers of a segment. -/
structure Totals.GrownBy (totals' totals : Totals) (numbers : List Int) : Prop where
  source : (totals'.source : Int) = totals.source + numbers.getD 1 0
  sourceLine : (totals'.sourceLine : Int) = totals.sourceLine + numbers.getD 2 0
  sourceColumn : (totals'.sourceColumn : Int) = totals.sourceColumn + numbers.getD 3 0

/-- The position that the reader's sums stand for. -/
def Totals.target (totals : Totals) : Target :=
  ⟨totals.source, totals.sourceLine, totals.sourceColumn⟩

variable {count : Nat} {totals totals' : Totals} {text : Text} {s : Segment}
  {earlier passed : List (List Int)}

theorem sumsOf_start : Totals.start.SumsOf [] := ⟨rfl, rfl, rfl⟩

theorem Totals.SumsOf.concat {segments : List (List Int)} {numbers : List Int}
    (h : totals.SumsOf segments) (hgrown : totals'.GrownBy totals numbers) :
    totals'.SumsOf (segments ++ [numbers]) where
  source := by rw [sumAt_concat, ← h.source, hgrown.source]
  sourceLine := by rw [sumAt_concat, ← h.sourceLine, hgrown.sourceLine]
  sourceColumn := by rw [sumAt_concat, ← h.sourceColumn, hgrown.sourceColumn]

/-- The position of a segment that is read is that of the new sums. -/
theorem exists_of_readTarget {column : Nat} {source line sourceColumn : Int}
    (h : readTarget count text totals column source line sourceColumn = .ok (totals', s)) :
    s = ⟨column, some totals'.target⟩ ∧ totals'.column = column ∧
      ∀ difference more,
        totals'.GrownBy totals (difference :: source :: line :: sourceColumn :: more) := by
  rw [readTarget] at h
  split at h
  · cases h
  · next hindex =>
    split at h
    · next l k hl hk =>
      obtain ⟨rfl, rfl⟩ := Prod.mk.inj (Except.ok.inj h)
      refine ⟨rfl, rfl, fun _ _ => ⟨?_, add?_eq_some_iff.1 hl, add?_eq_some_iff.1 hk⟩⟩
      exact Int.toNat_of_nonneg (Classical.not_not.1 hindex).1
    · cases h

/-- The sums grow by the numbers of a segment that is read. With one number it has a column only,
and otherwise the position of the new sums. -/
theorem exists_of_readSegment (h : readSegment count totals text = .ok (totals', s)) :
    ∃ numbers, Vlq.decode text = .ok numbers ∧
      (s.column : Int) = totals.column + numbers.getD 0 0 ∧ totals'.column = s.column ∧
      totals'.GrownBy totals numbers ∧
      s.target = if numbers.length = 1 then none else some totals'.target := by
  rw [readSegment] at h
  split at h
  · cases h
  · next numbers hnumbers =>
    refine ⟨numbers, hnumbers, ?_⟩
    split at h
    · -- one number
      next column =>
      split at h
      · cases h
      · next c hc =>
        obtain ⟨rfl, rfl⟩ := Prod.mk.inj (Except.ok.inj h)
        have hstays : ∀ n : Int, n = n + 0 := fun n => (Int.add_zero n).symm
        exact ⟨add?_eq_some_iff.1 hc, rfl, ⟨hstays _, hstays _, hstays _⟩, rfl⟩
    · -- four numbers, or five
      next column source line sourceColumn more =>
      split at h
      · split at h
        · cases h
        · next c hc =>
          obtain ⟨rfl, hcolumn, hgrown⟩ := exists_of_readTarget h
          exact ⟨add?_eq_some_iff.1 hc, hcolumn, hgrown _ _, (if_neg (by simp)).symm⟩
      · cases h
    · cases h

/-- Reading one more segment of a line. -/
theorem spot_readSegment (hsums : totals.SumsOf (earlier ++ passed))
    (hcolumn : (totals.column : Int) = sumAt 0 passed)
    (h : readSegment count totals text = .ok (totals', s)) :
    ∃ numbers, Vlq.decode text = .ok numbers ∧ s.spot = spotAfter earlier passed numbers ∧
      totals'.SumsOf (earlier ++ (passed ++ [numbers])) ∧
      (totals'.column : Int) = sumAt 0 (passed ++ [numbers]) := by
  obtain ⟨numbers, hnumbers, hsum, hcolumn', hgrown, htarget⟩ := exists_of_readSegment h
  have hcolumns : (s.column : Int) = sumAt 0 (passed ++ [numbers]) := by
    rw [sumAt_concat, ← hcolumn, hsum]
  have hsums' : totals'.SumsOf (earlier ++ (passed ++ [numbers])) :=
    List.append_assoc .. ▸ hsums.concat hgrown
  refine ⟨numbers, hnumbers, ?_, hsums', hcolumn' ▸ hcolumns⟩
  rw [Segment.spot, spotAfter, hcolumns, htarget, positionSums, ← hsums'.source,
    ← hsums'.sourceLine, ← hsums'.sourceColumn]
  split <;> rfl

/-- Reading the segments of a line that are left. -/
theorem map_spot_readSegments {texts : List Text} :
    ∀ {totals totals' : Totals} {passed : List (List Int)} {segments : List Segment},
      totals.SumsOf (earlier ++ passed) → (totals.column : Int) = sumAt 0 passed →
      readSegments count totals texts = .ok (totals', segments) →
      ∃ line, texts.mapM Vlq.decode = .ok line ∧
        segments.map Segment.spot = spotsAfter earlier passed line ∧
        totals'.SumsOf (earlier ++ (passed ++ line)) := by
  induction texts with
  | nil =>
    intro totals totals' passed segments hsums _ h
    obtain ⟨rfl, rfl⟩ := Prod.mk.inj (Except.ok.inj h)
    refine ⟨[], rfl, rfl, ?_⟩
    rwa [List.append_nil]
  | cons text texts ih =>
    intro totals totals' passed segments hsums hcolumn h
    rw [readSegments] at h
    split at h
    · cases h
    · next totals₁ s hread =>
      obtain ⟨numbers, hnumbers, hspot, hsums, hcolumn⟩ := spot_readSegment hsums hcolumn hread
      obtain ⟨⟨totals₂, rest⟩, hrest, heq⟩ := map_eq_ok_iff.1 h
      obtain ⟨rfl, rfl⟩ := Prod.mk.inj heq
      obtain ⟨line, hline, hspots, hsums⟩ := ih hsums hcolumn hrest
      refine ⟨numbers :: line, ?_, ?_, ?_⟩
      · rw [mapM_eq_ok_iff] at hline ⊢
        exact .cons hnumbers hline
      · rw [List.map_cons, hspot, hspots, spotsAfter]
      · rwa [List.append_assoc, List.singleton_append] at hsums

/-! ### Lines -/

/-- Reading the lines that are left. -/
theorem map_spot_readLines {texts : List Text} :
    ∀ {number : Nat} {totals : Totals} {before : List (List (List Int))}
      {lines : List (List Segment)}, totals.SumsOf before.flatten →
      readLines count number totals texts = .ok lines →
      ∃ numbers, texts.mapM numbersOfLine = .ok numbers ∧ lines.length = numbers.length ∧
        ∀ i line, lines[i]? = some line → ∃ segments, numbers[i]? = some segments ∧
          line.map Segment.spot = spotsOfLine (before ++ numbers.take i) segments := by
  induction texts with
  | nil =>
    intro number totals before lines _ h
    obtain rfl := Except.ok.inj h
    exact ⟨[], rfl, rfl, fun _ _ h => (nomatch h)⟩
  | cons text texts ih =>
    intro number totals before lines hsums h
    rw [readLines] at h
    split at h
    · cases h
    · next totals' line hread =>
      obtain ⟨rest, hrest, rfl⟩ := map_eq_ok_iff.1 h
      have hbegin : { totals with column := 0 }.SumsOf (before.flatten ++ []) := by
        rw [List.append_nil]
        exact ⟨hsums.source, hsums.sourceLine, hsums.sourceColumn⟩
      obtain ⟨segments, hsegments, hspots, hsums⟩ := map_spot_readSegments hbegin rfl hread
      have hflatten : before.flatten ++ ([] ++ segments) = (before ++ [segments]).flatten := by
        simp
      rw [hflatten] at hsums
      obtain ⟨numbers, hnumbers, hlength, hlines⟩ := ih hsums hrest
      refine ⟨segments :: numbers, ?_, by simp [hlength], ?_⟩
      · rw [mapM_eq_ok_iff] at hnumbers ⊢
        exact .cons hsegments hnumbers
      · rintro (_ | i) line' hline'
        · obtain rfl := Option.some.inj hline'
          refine ⟨segments, rfl, ?_⟩
          rw [hspots, List.take_zero, List.append_nil]
          rfl
        · obtain ⟨segments', hsegments', hspots'⟩ := hlines i line' hline'
          refine ⟨segments', hsegments', ?_⟩
          rw [hspots', List.take_succ_cons, List.append_assoc, List.singleton_append]

/-- **Sums**: the segments of mappings that are read have the sums of their numbers. -/
theorem map_spot_read {mappings : Text} {lines : List (List Segment)}
    (h : read count mappings = .ok lines) :
    ∃ numbers, numbersOf mappings = .ok numbers ∧ lines.length = numbers.length ∧
      ∀ i line, lines[i]? = some line → ∃ segments, numbers[i]? = some segments ∧
        line.map Segment.spot = spotsOfLine (numbers.take i) segments :=
  @map_spot_readLines count _ 1 Totals.start [] lines sumsOf_start h

end CoverageLift.Mappings
