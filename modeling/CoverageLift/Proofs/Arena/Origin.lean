import CoverageLift.Proofs.Arena.Course

/-!
# Where the entries of a table come from

An id enters the table with the first step that goes there. The steps that go there later are
folded and change no location. So **the ids of the table are the targets of the steps, each where
it occurred first**, and the location under an id is that of its first step.
-/

namespace CoverageLift

/-- One more item is new or occurred before. -/
theorem eraseDups_concat {α : Type} [BEq α] [LawfulBEq α] (items : List α) (a : α) :
    (items ++ [a]).eraseDups = if a ∈ items then items.eraseDups else items.eraseDups ++ [a] := by
  rw [List.eraseDups_append]
  split
  · next hmem => simp [List.removeAll, hmem]
  · next hmem => simp [List.removeAll, hmem, List.eraseDups_cons]

namespace Moment

/-- What the table at a moment has of the steps `done`. -/
structure Recorded (done : List Step) (m : Moment) : Prop where
  /-- the ids are the targets, each where it occurred first -/
  keys_locations : OrderedMap.keys m.turn.arena.locations = (done.map Step.target).eraseDups
  /-- the location under an id is that of the first step there -/
  get?_locations : ∀ id, OrderedMap.get? m.turn.arena.locations id =
    (done.find? fun s => s.target = id).map fun s => s.item.2.location

theorem recorded_first : Recorded [] first where
  keys_locations := rfl
  get?_locations _ := rfl

namespace Recorded

variable {done : List Step} {m : Moment}

/-- Placing an entry. -/
theorem places (h : Recorded done m) (hsound : Sound done m) (item : Text × Entry) :
    Recorded (done ++ [⟨m, item⟩]) (m.next (.places item)) where
  keys_locations := by
    rw [next, Turn.keys_place_locations hsound.tidy, h.keys_locations, List.map_append,
      List.map_singleton, eraseDups_concat]
    simp only [List.mem_eraseDups]
    rfl
  get?_locations id := by
    rw [next, Turn.get?_place_locations hsound.tidy, h.get?_locations, List.find?_append,
      Option.map_or, List.find?_singleton]
    refine congrArg (Option.or _) ?_
    by_cases htarget : (⟨m, item⟩ : Step).target = id
    · rw [if_pos (decide_eq_true htarget)]
      exact if_pos htarget
    · rw [if_neg fun hsame => htarget (of_decide_eq_true hsame)]
      exact if_neg htarget

/-- A course from a moment where the table has all steps ends at one. -/
theorem after : ∀ (events : List Event) {done : List Step} {m : Moment}, Recorded done m →
    Sound done m → Recorded (done ++ m.steps events) (m.after events) := by
  intro events
  induction events with
  | nil =>
    intro done m h _
    rwa [steps_nil, List.append_nil]
  | cons event events ih =>
    intro done m h hsound
    cases event with
    | opens number listed =>
      exact ih ⟨h.keys_locations, h.get?_locations⟩ (hsound.opens number listed)
    | places item =>
      rw [steps_places, List.append_cons]
      exact ih (h.places hsound item) (hsound.places item)

end Recorded

end Moment

namespace Arena

/-- **Ids of a table**: those that the entries got, in the order in which they were given first. -/
theorem keys_locations_afterTurns (calls : List (Contribution × Nat)) :
    OrderedMap.keys (empty.afterTurns calls).locations =
      ((stepsOf calls).map Step.target).eraseDups := by
  have hclose : (Moment.first.after (eventsOf calls)).turn.close = empty.afterTurns calls :=
    close_after_eventsOf calls Moment.first
  rw [← hclose]
  exact (Moment.recorded_first.after (eventsOf calls) Moment.sound_first).keys_locations

/-- The location under an id is that of the first entry that got the id. -/
theorem get?_locations_afterTurns (calls : List (Contribution × Nat)) (id : Text) :
    OrderedMap.get? (empty.afterTurns calls).locations id =
      ((stepsOf calls).find? fun s => s.target = id).map fun s => s.item.2.location := by
  have hclose : (Moment.first.after (eventsOf calls)).turn.close = empty.afterTurns calls :=
    close_after_eventsOf calls Moment.first
  rw [← hclose]
  exact (Moment.recorded_first.after (eventsOf calls) Moment.sound_first).get?_locations id

end Arena

end CoverageLift
