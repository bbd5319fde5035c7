import CoverageLift.Proofs.Arena.Course
import CoverageLift.Proofs.Remap.Contributions
import Mathlib.Data.List.Sigma

/-!
# The turns at a destination

The seed and the contributors take their turns in order, numbered from zero on, so what is shown of
the turns of numbered contributors holds of every destination.
-/

namespace CoverageLift

/-- The contributions to a table with the numbers of the contributors. -/
def callsOf (table : LocationTable) (number : Nat) (brought : List (PerTable Contribution)) :
    List (Contribution × Nat) :=
  (brought.map (·.get table)).zipIdx number

/-- The new ids: contributor, old id and new id of every entry. -/
def newIds : (number : Nat) → List Merged → List (Nat × Text × Text)
  | _, [] => []
  | number, merged :: rest => merged.ids.map (Prod.mk number) ++ newIds (number + 1) rest

theorem callsOf_cons (table : LocationTable) (number : Nat) (c : PerTable Contribution)
    (rest : List (PerTable Contribution)) :
    callsOf table number (c :: rest) = (c.get table, number) :: callsOf table (number + 1) rest := rfl

/-- No two contributors have one number. -/
theorem nodup_callsOf (table : LocationTable) (brought : List (PerTable Contribution)) :
    ((callsOf table 0 brought).map Prod.snd).Nodup :=
  List.nodup_zipIdx_map_snd _

theorem map_fst_callsOf (table : LocationTable) (number : Nat)
    (brought : List (PerTable Contribution)) :
    (callsOf table number brought).map Prod.fst = brought.map (·.get table) :=
  List.zipIdx_map_fst number _

theorem flatMap_callsOf {α : Type} (f : Contribution → List α) (table : LocationTable)
    (number : Nat) (brought : List (PerTable Contribution)) :
    ((callsOf table number brought).flatMap fun call => f call.1) =
      brought.flatMap fun per => f (per.get table) := by
  rw [← List.flatMap_map Prod.fst f, map_fst_callsOf, List.flatMap_map]

/-- The new ids are those that the steps record. -/
theorem map_record_callsOf (table : LocationTable) (brought : List (PerTable Contribution)) :
    ∀ (number : Nat) (m : Moment),
      (m.steps (eventsOf (callsOf table number brought))).map Step.record =
        newIds number (takeTurns table number m.turn.close brought) := by
  induction brought with
  | nil => exact fun _ _ => rfl
  | cons c rest ih =>
    intro number m
    rw [callsOf_cons, eventsOf_cons, Moment.steps_append, List.map_append, ih,
      ← Moment.records_turn, Moment.after_turn]
    rfl

/-- The new ids at a destination. -/
theorem newIds_takeTurns (table : LocationTable) (brought : List (PerTable Contribution)) :
    newIds 0 (takeTurns table 0 Arena.empty brought) =
      (stepsOf (callsOf table 0 brought)).map Step.record :=
  (map_record_callsOf table brought 0 Moment.first).symm

end CoverageLift
