import CoverageLift.Coverage.Range
import CoverageLift.Resolver

/-!
# Lifting ranges

A generated range becomes a range of the source that its start comes from. The start decides: when
it has no position in a source, the range has none. The end is that of the generated range when it
lies in the same source and not before the start; otherwise the start is the end as well.
-/

namespace CoverageLift

/-- A range of a source. -/
structure LiftedRange where
  source : Text
  range : Range

/-- The position that a point comes from. Illegal points, positions and recoverable failures of the
resolver all mean that there is none. -/
def liftPoint (r : Resolver) (p : Point) : Except ResolverFailure (Option Position) :=
  if p.isLegal then
    match r.resolve p.line p.column with
    | .error failure => if failure.isRecoverable then .ok none else .error failure
    | .ok none => .ok none
    | .ok (some position) =>
      if position.line < 1 ∨ position.column < 0 then .ok none else .ok (some position)
  else .ok none

/-- Whether a position lies before another one of the same source. -/
def Position.before (a b : Position) : Bool :=
  a.line < b.line || (a.line = b.line && a.column < b.column)

/-- The end of a lifted range that starts at `start`. -/
def chooseStop (start : Position) (stop : Option Position) : Position :=
  match stop with
  | none => start
  | some p => if p.source ≠ start.source ∨ p.before start then start else p

/-- The range of a source that a generated range comes from. -/
def liftRange (r : Resolver) (location : Range) :
    Except ResolverFailure (Option LiftedRange) := do
  match ← liftPoint r location.start with
  | none => return none
  | some start =>
    let stop ← match location.stop with
      | none => pure none
      | some p => liftPoint r p
    let stop := chooseStop start stop
    return some {
      source := start.source
      range := {
        start := Point.plain start.line start.column
        stop := some (Point.plain stop.line stop.column)
        skip := location.skip } }

/-! ### What lifted ranges are made of -/

variable {r : Resolver} {location : Range} {lifted : LiftedRange}

/-- A lifted range is made of the position of its start and that of its end, if it has one. -/
theorem exists_of_liftRange (h : liftRange r location = .ok (some lifted)) :
    ∃ start stop, liftPoint r location.start = .ok (some start) ∧
      (∀ position ∈ stop, ∃ p, liftPoint r p = .ok (some position)) ∧
      lifted = ⟨start.source, Point.plain start.line start.column,
        some (Point.plain (chooseStop start stop).line (chooseStop start stop).column),
        location.skip⟩ := by
  rw [liftRange] at h
  rcases hstart : liftPoint r location.start with failure | _ | start
  · rw [hstart] at h
    cases h
  · rw [hstart] at h
    cases h
  · rw [hstart] at h
    rcases hend : location.stop with _ | p
    · rw [hend] at h
      exact ⟨start, none, rfl, fun _ h => absurd h (Option.not_mem_none _),
        (Option.some.inj (Except.ok.inj h)).symm⟩
    · rw [hend] at h
      rcases hstop : liftPoint r p with failure | stop
      · simp only [hstop] at h
        cases h
      · simp only [hstop] at h
        refine ⟨start, stop, rfl, ?_, (Option.some.inj (Except.ok.inj h)).symm⟩
        rintro position rfl
        exact ⟨p, hstop⟩

/-- Lifted ranges are plain, whatever was lifted. -/
theorem isPlain_of_liftRange (h : liftRange r location = .ok (some lifted)) :
    lifted.range.IsPlain := by
  obtain ⟨start, stop, -, -, rfl⟩ := exists_of_liftRange h
  exact Range.isPlain_plain _ _ _ _ _

end CoverageLift
