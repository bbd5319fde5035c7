import CoverageLift.Proofs.Remap.Ranges

/-!
# Where ranges come from

A point **comes from** a position when it is legal, the resolver names the position, and the
position is legal too. With a resolver that fails only where it has no answer, that is all there is
to lifting a point (`exists_liftPoint_of_answers`): an illegal point, a failure, no answer and an
illegal answer are the same.

So a range is dropped exactly when its start comes from nowhere, and otherwise it begins where its
start comes from. It ends where its end comes from, if that is a place for it to end, and where it
begins if it is not (`liftRange_of_answers`).
-/

namespace CoverageLift

/-- A resolver that fails only for positions that it has no answer for. -/
def Resolver.Answers (r : Resolver) : Prop :=
  ∀ line column failure, r.resolve line column = .error failure → failure.isRecoverable = true

/-- A source map never fails. -/
theorem Resolver.answers_ofSourceMap (map : SourceMap) : (Resolver.ofSourceMap map).Answers :=
  fun _ _ _ h => nomatch h

/-- A table fails only where a failure is written in it. -/
theorem Resolver.answers_ofTable {sources : List Text} {lastLines : OrderedMap Text Int}
    {points : OrderedMap (Int × Int) (Except ResolverFailure Position)}
    (h : ∀ entry ∈ points, ∀ failure, entry.2 = .error failure → failure.isRecoverable = true) :
    (Resolver.ofTable sources points lastLines).Answers := by
  intro line column failure hresolve
  rw [Resolver.ofTable] at hresolve
  dsimp only at hresolve
  split at hresolve
  · cases hresolve
  · next answer hget =>
    refine h _ (OrderedMap.mem_of_get?_eq_some hget) failure ?_
    cases answer with
    | error => exact congrArg _ (Except.error.inj hresolve)
    | ok => cases hresolve

/-- The position that a point comes from. -/
structure ComesFrom (r : Resolver) (p : Point) (position : Position) : Prop where
  line_pos : 1 ≤ p.line
  column_nonneg : 0 ≤ p.column
  resolved : r.resolve p.line p.column = .ok (some position)
  sourceLine_pos : 1 ≤ position.line
  sourceColumn_nonneg : 0 ≤ position.column

variable {r : Resolver} {p : Point} {location : Range} {start position : Position}

/-! ### Points -/

theorem Point.isLegal_iff : p.isLegal = true ↔ 1 ≤ p.line ∧ 0 ≤ p.column := by
  simp [Point.isLegal]

theorem liftPoint_of_comesFrom (h : ComesFrom r p position) :
    liftPoint r p = .ok (some position) := by
  have hlegal : ¬ (position.line < 1 ∨ position.column < 0) :=
    not_or.2 ⟨Int.not_lt.2 h.sourceLine_pos, Int.not_lt.2 h.sourceColumn_nonneg⟩
  rw [liftPoint, if_pos (Point.isLegal_iff.2 ⟨h.line_pos, h.column_nonneg⟩), h.resolved]
  exact if_neg hlegal

/-- A point is lifted to a position, and then it comes from there, or it comes from nowhere. -/
theorem exists_liftPoint_of_answers (hr : r.Answers) (p : Point) :
    ∃ answer, liftPoint r p = .ok answer ∧
      ∀ position, answer = some position ↔ ComesFrom r p position := by
  by_cases h : ∃ position, ComesFrom r p position
  · obtain ⟨position, h⟩ := h
    refine ⟨some position, liftPoint_of_comesFrom h, fun other => ?_⟩
    refine ⟨fun heq => Option.some.inj heq ▸ h, fun hother => ?_⟩
    exact Except.ok.inj (h.resolved.symm.trans hother.resolved)
  · refine ⟨none, ?_, fun position => ⟨fun heq => (nomatch heq), fun hp => absurd ⟨position, hp⟩ h⟩⟩
    rw [liftPoint]
    split
    · next hlegal =>
      obtain ⟨hline, hcolumn⟩ := Point.isLegal_iff.1 hlegal
      split
      · next failure hresolve => exact if_pos (hr _ _ _ hresolve)
      · rfl
      · next position hresolve =>
        refine if_pos (Classical.not_not.1 fun hposition => h ⟨position, ?_⟩)
        rw [not_or, Int.not_lt, Int.not_lt] at hposition
        exact ⟨hline, hcolumn, hresolve, hposition.1, hposition.2⟩
    · rfl

/-- When a point comes from nowhere. -/
theorem not_exists_comesFrom_iff :
    (¬ ∃ position, ComesFrom r p position) ↔
      p.line < 1 ∨ p.column < 0 ∨
        (∀ position, r.resolve p.line p.column ≠ .ok (some position)) ∨
        ∃ position, r.resolve p.line p.column = .ok (some position) ∧
          (position.line < 1 ∨ position.column < 0) := by
  refine ⟨fun h => ?_, ?_⟩
  · refine or_iff_not_imp_left.2 fun hline => or_iff_not_imp_left.2 fun hcolumn => ?_
    refine or_iff_not_imp_left.2 fun hresolved => ?_
    obtain ⟨position, hresolved⟩ : ∃ position, r.resolve p.line p.column = .ok (some position) := by
      simpa using hresolved
    refine ⟨position, hresolved, Classical.not_not.1 fun hposition => h ⟨position, ?_⟩⟩
    rw [not_or, Int.not_lt, Int.not_lt] at hposition
    exact ⟨Int.not_lt.1 hline, Int.not_lt.1 hcolumn, hresolved, hposition.1, hposition.2⟩
  · rintro h ⟨position, hposition⟩
    obtain hline | hcolumn | hnone | ⟨other, hother, hillegal⟩ := h
    · exact Int.not_lt.2 hposition.line_pos hline
    · exact Int.not_lt.2 hposition.column_nonneg hcolumn
    · exact hnone position hposition.resolved
    · obtain rfl := Option.some.inj (Except.ok.inj (hother.symm.trans hposition.resolved))
      exact hillegal.elim (Int.not_lt.2 hposition.sourceLine_pos)
        (Int.not_lt.2 hposition.sourceColumn_nonneg)

/-! ### Ends -/

/-- Whether a range that begins at `start` can end at a position: it lies in the same source and not
before it. -/
def Position.Closes (position start : Position) : Prop :=
  position.source = start.source ∧
    (start.line < position.line ∨ start.line = position.line ∧ start.column ≤ position.column)

theorem Position.closes_self : start.Closes start := ⟨rfl, .inr ⟨rfl, Int.le_refl _⟩⟩

theorem Position.closes_iff :
    position.Closes start ↔ ¬ (position.source ≠ start.source ∨ position.before start = true) := by
  rw [not_or, not_not, Bool.not_eq_true, Closes]
  refine and_congr_right fun _ => ⟨fun h => ?_, ordered_of_not_before⟩
  simp only [before, Bool.or_eq_false_iff, Bool.and_eq_false_iff, decide_eq_false_iff_not]
  omega

theorem chooseStop_of_not_closes (h : ¬ position.Closes start) :
    chooseStop start (some position) = start :=
  if_pos (Classical.not_not.1 (mt Position.closes_iff.2 h))

/-- The end is taken exactly when the range can end there. -/
theorem chooseStop_eq_iff :
    chooseStop start (some position) = position ↔ position.Closes start := by
  refine ⟨fun heq => ?_, fun h => if_neg (Position.closes_iff.1 h)⟩
  by_contra h
  rw [chooseStop_of_not_closes h] at heq
  exact h (heq ▸ Position.closes_self)

/-! ### Ranges -/

/-- A range whose start comes from somewhere is lifted, and its end is chosen. -/
theorem exists_liftRange_of_comesFrom (hr : r.Answers) (h : ComesFrom r location.start start) :
    ∃ stop, (∀ position, stop = some position ↔
        ∃ p, location.stop = some p ∧ ComesFrom r p position) ∧
      liftRange r location = .ok (some ⟨start.source, Point.plain start.line start.column,
        some (Point.plain (chooseStop start stop).line (chooseStop start stop).column),
        location.skip⟩) := by
  cases hend : location.stop with
  | none =>
    refine ⟨none, by simp, ?_⟩
    rw [liftRange, liftPoint_of_comesFrom h, hend]
    rfl
  | some p =>
    obtain ⟨stop, hstop, hiff⟩ := exists_liftPoint_of_answers hr p
    refine ⟨stop, by simp [hiff], ?_⟩
    rw [liftRange, hend]
    exact bind_eq_ok_iff.2 ⟨_, liftPoint_of_comesFrom h, bind_eq_ok_iff.2 ⟨stop, hstop, rfl⟩⟩

/-- **How a range is lifted**, by a resolver that fails only where it has no answer. It is dropped
exactly when its start is illegal, is not resolved, or is resolved to an illegal position. Otherwise
it begins where its start comes from, it keeps its mark, and it ends where its end comes from exactly
when that lies in the same source and not before; in all other cases it ends where it begins. -/
theorem liftRange_of_answers {r : Resolver} (hr : r.Answers) (location : Range) :
    ∃ answer, liftRange r location = .ok answer ∧
      (answer = none ↔ location.start.line < 1 ∨ location.start.column < 0 ∨
        (∀ position, r.resolve location.start.line location.start.column ≠ .ok (some position)) ∨
        ∃ position, r.resolve location.start.line location.start.column = .ok (some position) ∧
          (position.line < 1 ∨ position.column < 0)) ∧
      ∀ lifted, answer = some lifted → ∃ start stop : Position,
        ComesFrom r location.start start ∧
        lifted = ⟨start.source, Point.plain start.line start.column,
          some (Point.plain stop.line stop.column), location.skip⟩ ∧
        (∀ p position, location.stop = some p → ComesFrom r p position →
          (stop = position ↔ position.Closes start)) ∧
        ((¬ ∃ p position, location.stop = some p ∧ ComesFrom r p position ∧
          position.Closes start) → stop = start) := by
  rw [← not_exists_comesFrom_iff]
  by_cases h : ∃ start, ComesFrom r location.start start
  · obtain ⟨start, hstart⟩ := h
    obtain ⟨stop, hiff, hlifted⟩ := exists_liftRange_of_comesFrom hr hstart
    refine ⟨_, hlifted, ⟨fun heq => (nomatch heq), fun h => absurd ⟨start, hstart⟩ h⟩, ?_⟩
    intro lifted heq
    refine ⟨start, chooseStop start stop, hstart, (Option.some.inj heq).symm, ?_, fun hnone => ?_⟩
    · intro p position hp hposition
      rw [(hiff position).2 ⟨p, hp, hposition⟩, chooseStop_eq_iff]
    · cases stop with
      | none => rfl
      | some position =>
        obtain ⟨p, hp, hposition⟩ := (hiff position).1 rfl
        exact chooseStop_of_not_closes fun hcloses => hnone ⟨p, position, hp, hposition, hcloses⟩
  · obtain ⟨answer, hanswer, hiff⟩ := exists_liftPoint_of_answers hr location.start
    have hnone : answer = none :=
      Option.eq_none_iff_forall_ne_some.2 fun start heq => h ⟨start, (hiff start).1 heq⟩
    refine ⟨none, ?_, ⟨fun _ => h, fun _ => rfl⟩, fun _ heq => nomatch heq⟩
    rw [liftRange, hanswer, hnone]
    rfl

/-- A range whose end comes from another source: it ends where it begins. -/
theorem liftRange_of_answers_across_sources :
    let resolver := Resolver.ofTable ["a.ts", "b.ts"]
      [((1, 0), .ok ⟨"a.ts", 3, 2⟩), ((1, 9), .ok ⟨"b.ts", 7, 0⟩), ((2, 0), .error ⟨.badIndex, "2"⟩)]
      []
    let location : Range := ⟨Point.plain 1 0, some (Point.plain 1 9), some true⟩
    resolver.Answers ∧ liftRange resolver location =
      .ok (some ⟨"a.ts", Point.plain 3 2, some (Point.plain 3 2), some true⟩) := by
  intro resolver location
  have hr : resolver.Answers := by
    refine Resolver.answers_ofTable fun entry hentry failure hfailure => ?_
    simp only [List.mem_cons, List.not_mem_nil, or_false] at hentry
    rcases hentry with rfl | rfl | rfl
    · cases hfailure
    · cases hfailure
    · obtain rfl := Except.error.inj hfailure
      rfl
  obtain ⟨answer, hanswer, hdropped, hlifted⟩ := liftRange_of_answers hr location
  have hbegins : ComesFrom resolver location.start ⟨"a.ts", 3, 2⟩ :=
    ⟨by decide, by decide, rfl, by decide, by decide⟩
  cases answer with
  | none => exact absurd ⟨_, hbegins⟩ (not_exists_comesFrom_iff.2 (hdropped.1 rfl))
  | some lifted =>
    obtain ⟨start, stop, hstart, rfl, -, hstop⟩ := hlifted _ rfl
    obtain rfl := Option.some.inj (Except.ok.inj (hbegins.resolved.symm.trans hstart.resolved))
    refine ⟨hr, ?_⟩
    rw [hanswer, hstop]
    rintro ⟨p, position, hp, hposition, hcloses⟩
    obtain rfl := Option.some.inj hp
    obtain rfl := Option.some.inj (Except.ok.inj hposition.resolved)
    exact absurd hcloses.1 (by decide)

end CoverageLift
