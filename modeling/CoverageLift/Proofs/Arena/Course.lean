import CoverageLift.Proofs.Arena.History

/-!
# The course of a table

The turns of several contributors are one sequence of events: a turn opens, and an entry is placed.
The table at a moment is what the events so far have made of it, and the entries that are placed,
each with its moment, are the **steps** of the course (`Moment.steps`). A statement about all turns
is then one induction on the events.

`Moment.Sound` holds along every course: the table is tidy, ids of turns that are over are claimed
and those of the open turn are held back, the ids of the table are the targets of the steps so far,
and **steps with one target have one identity**.
-/

namespace CoverageLift

namespace Turn

variable {number : Nat} {turn : Turn} {item : Text × Entry}

/-- Whether an entry would be folded. -/
def folds (number : Nat) (turn : Turn) (item : Text × Entry) : Bool :=
  (turn.arena.otherOwner? number item.2.identity).isSome

/-- The id that an entry would get. -/
def target (number : Nat) (turn : Turn) (item : Text × Entry) : Text :=
  match turn.arena.otherOwner? number item.2.identity with
  | some target => target
  | none => if turn.isFree item.1 then item.1 else Text.ofNat (turn.arena.allocate turn.reserved)

/-! ### What is seen before an entry is placed -/

theorem otherOwner?_eq_some_iff {arena : Arena} {identity : Identity} {target : Text} :
    arena.otherOwner? number identity = some target ↔
      ∃ owner, OrderedMap.get? arena.owners identity = some owner ∧ owner.contributor ≠ number ∧
        owner.id = target := by
  rcases howner : OrderedMap.get? arena.owners identity with _ | owner
  · simp [Arena.otherOwner?, howner]
  · simp [Arena.otherOwner?, howner]

/-- An entry is not folded when its identity has no owner of another contributor. -/
theorem folds_eq_false_iff :
    turn.folds number item = false ↔
      ∀ owner, OrderedMap.get? turn.arena.owners item.2.identity = some owner →
        owner.contributor = number := by
  rcases howner : OrderedMap.get? turn.arena.owners item.2.identity with _ | owner
  · simp [folds, Arena.otherOwner?, howner]
  · simp [folds, Arena.otherOwner?, howner]

theorem folds_of_otherOwner? (h : turn.arena.otherOwner? number item.2.identity = none) :
    turn.folds number item = false := by
  rw [folds, h]
  rfl

/-- A folded entry goes to the owner of its identity. -/
theorem exists_owner_of_folds (h : turn.folds number item = true) :
    ∃ owner, OrderedMap.get? turn.arena.owners item.2.identity = some owner ∧
      owner.contributor ≠ number ∧ turn.target number item = owner.id := by
  obtain ⟨target, htarget⟩ := Option.isSome_iff_exists.1 h
  obtain ⟨owner, howner, hother, rfl⟩ := otherOwner?_eq_some_iff.1 htarget
  exact ⟨owner, howner, hother, by simp [Turn.target, htarget]⟩

/-- An entry whose identity has an owner of another contributor goes there. -/
theorem folds_of_owner {owner : Owner}
    (howner : OrderedMap.get? turn.arena.owners item.2.identity = some owner)
    (hother : owner.contributor ≠ number) :
    turn.folds number item = true ∧ turn.target number item = owner.id := by
  have htarget := otherOwner?_eq_some_iff.2 ⟨owner, howner, hother, rfl⟩
  exact ⟨by simp [folds, htarget], by simp [Turn.target, htarget]⟩

/-- An entry that is not folded keeps a free id. -/
theorem target_eq_of_isFree (h : turn.folds number item = false)
    (hfree : turn.isFree item.1 = true) : turn.target number item = item.1 := by
  simp [Turn.target, Option.not_isSome_iff_eq_none.1 (Bool.eq_false_iff.1 h), hfree]

/-- An entry that is not folded gets a number when its id is not free. -/
theorem target_eq_of_not_isFree (h : turn.folds number item = false)
    (hfree : turn.isFree item.1 = false) :
    turn.target number item = Text.ofNat (turn.arena.allocate turn.reserved) := by
  simp [Turn.target, Option.not_isSome_iff_eq_none.1 (Bool.eq_false_iff.1 h), hfree]

/-- An entry that is not folded gets an id that is not in the table. -/
theorem target_not_mem (h : turn.folds number item = false) :
    turn.target number item ∉ OrderedMap.keys turn.arena.locations := by
  cases hfree : turn.isFree item.1 with
  | true =>
    rw [target_eq_of_isFree h hfree]
    exact (isFree_iff.1 hfree).2
  | false =>
    rw [target_eq_of_not_isFree h hfree]
    exact Arena.allocate_not_mem _ _

/-- An entry that is not folded gets an id that is not claimed. -/
theorem target_not_claimed (h : turn.folds number item = false) :
    turn.target number item ∉ turn.arena.claimed := by
  cases hfree : turn.isFree item.1 with
  | true =>
    rw [target_eq_of_isFree h hfree]
    exact (isFree_iff.1 hfree).1
  | false =>
    rw [target_eq_of_not_isFree h hfree]
    exact fun hmem => Arena.allocate_not_taken (.inr (.inl hmem))

/-! ### What is seen afterwards -/

/-- An entry is placed on its target. -/
theorem place_placements (number : Nat) (turn : Turn) (item : Text × Entry) :
    (turn.place number item).placements =
      turn.placements ++
        [⟨item.1, turn.target number item, turn.folds number item, item.2.count⟩] := by
  rcases turn.place_cases number item.1 item.2 with
    ⟨target, hother, hplace⟩ | ⟨hother, hfree, hplace⟩ | ⟨hother, hfree, hplace⟩
  · simp [hplace, Turn.target, folds, hother]
  · simp [hplace, Turn.target, folds, hother, hfree]
  · simp [hplace, Turn.target, folds, hother, hfree]

/-- Claimed ids stay as they are during a turn. -/
@[simp] theorem place_claimed (number : Nat) (turn : Turn) (item : Text × Entry) :
    (turn.place number item).arena.claimed = turn.arena.claimed := by
  rcases turn.place_cases number item.1 item.2 with
    ⟨_, -, hplace⟩ | ⟨-, -, hplace⟩ | ⟨-, -, hplace⟩
  · simp [hplace]
  · simp [hplace]
  · simp [hplace]

/-- A folded entry leaves the locations as they are; any other one is added under its target. -/
theorem place_locations (number : Nat) (turn : Turn) (item : Text × Entry) :
    (turn.place number item).arena.locations =
      if turn.folds number item then turn.arena.locations
      else OrderedMap.insert turn.arena.locations (turn.target number item) item.2.location := by
  rcases turn.place_cases number item.1 item.2 with
    ⟨target, hother, hplace⟩ | ⟨hother, hfree, hplace⟩ | ⟨hother, hfree, hplace⟩
  · simp [hplace, folds, hother]
  · have hfolds := folds_of_otherOwner? hother
    simp [hplace, hfolds, target_eq_of_isFree hfolds hfree, Arena.add]
  · have hfolds := folds_of_otherOwner? hother
    simp [hplace, hfolds, target_eq_of_not_isFree hfolds hfree, Arena.add]

/-- A folded entry goes to an id of the table. -/
theorem target_mem_of_folds (h : turn.arena.Tidy turn.reserved)
    (hfolds : turn.folds number item = true) :
    turn.target number item ∈ OrderedMap.keys turn.arena.locations := by
  obtain ⟨owner, howner, -, htarget⟩ := exists_owner_of_folds hfolds
  rw [htarget]
  exact h.owner_mem howner

/-- A new target goes to the end of the table. -/
theorem keys_place_locations (h : turn.arena.Tidy turn.reserved) :
    OrderedMap.keys (turn.place number item).arena.locations =
      if turn.target number item ∈ OrderedMap.keys turn.arena.locations then
        OrderedMap.keys turn.arena.locations
      else OrderedMap.keys turn.arena.locations ++ [turn.target number item] := by
  rw [place_locations]
  cases hfolds : turn.folds number item with
  | true => rw [if_pos rfl, if_pos (target_mem_of_folds h hfolds)]
  | false =>
    have hnot := target_not_mem hfolds
    rw [if_neg Bool.false_ne_true, if_neg hnot, OrderedMap.keys_insert_of_not_mem hnot]

/-- The target of an entry is in the table from then on. -/
theorem mem_place_locations (h : turn.arena.Tidy turn.reserved) {id : Text} :
    id ∈ OrderedMap.keys (turn.place number item).arena.locations ↔
      id ∈ OrderedMap.keys turn.arena.locations ∨ id = turn.target number item := by
  rw [keys_place_locations h]
  split
  · next hmem =>
    refine ⟨.inl, ?_⟩
    rintro (hid | rfl)
    · exact hid
    · exact hmem
  · rw [List.mem_append, List.mem_singleton]

/-- A location stays, and a new target has the location of the entry. -/
theorem get?_place_locations (h : turn.arena.Tidy turn.reserved) (id : Text) :
    OrderedMap.get? (turn.place number item).arena.locations id =
      (OrderedMap.get? turn.arena.locations id).or
        (if turn.target number item = id then some item.2.location else none) := by
  rw [place_locations]
  cases hfolds : turn.folds number item with
  | true =>
    obtain ⟨location, hlocation⟩ := OrderedMap.exists_get?_of_mem (target_mem_of_folds h hfolds)
    rw [if_pos rfl]
    split
    · next htarget => rw [← htarget, hlocation, Option.some_or]
    · rw [Option.or_none]
  | false =>
    rw [if_neg Bool.false_ne_true, OrderedMap.get?_insert]
    split
    · next htarget =>
      rw [← htarget, OrderedMap.get?_eq_none_iff.2 (target_not_mem hfolds), Option.none_or]
    · rw [Option.or_none]

/-- Only an id that was given is held back in addition. -/
theorem mem_place_reserved {id : Text} :
    id ∈ (turn.place number item).reserved ↔
      id ∈ turn.reserved ∨
        turn.folds number item = false ∧ turn.isFree item.1 = false ∧
          id = turn.target number item := by
  rcases turn.place_cases number item.1 item.2 with
    ⟨target, hother, hplace⟩ | ⟨hother, hfree, hplace⟩ | ⟨hother, hfree, hplace⟩
  · simp [hplace, folds, hother]
  · simp [hplace, folds, hother, hfree]
  · simp [hplace, folds, Turn.target, hother, hfree]

/-- The entry becomes the owner of its identity if there is none. -/
theorem owners_place (number : Nat) (turn : Turn) (item : Text × Entry) (identity : Identity) :
    OrderedMap.get? (turn.place number item).arena.owners identity =
      (OrderedMap.get? turn.arena.owners identity).or
        (if item.2.identity = identity then some ⟨turn.target number item, number⟩ else none) := by
  rcases turn.place_cases number item.1 item.2 with
    ⟨target, hother, hplace⟩ | ⟨hother, hfree, hplace⟩ | ⟨hother, hfree, hplace⟩
  · obtain ⟨owner, howner, -, rfl⟩ := otherOwner?_eq_some_iff.1 hother
    rw [hplace]
    split
    · next heq => rw [← heq, howner, Option.some_or]
    · rw [Option.or_none]
  · rw [hplace, target_eq_of_isFree (folds_of_otherOwner? hother) hfree]
    exact Arena.owners_add identity
  · rw [hplace, target_eq_of_not_isFree (folds_of_otherOwner? hother) hfree]
    exact Arena.owners_add identity

/-- An owner after an entry has been placed is an earlier one or that entry. -/
theorem owners_place_eq_some {identity : Identity} {owner : Owner} :
    OrderedMap.get? (turn.place number item).arena.owners identity = some owner ↔
      OrderedMap.get? turn.arena.owners identity = some owner ∨
        (OrderedMap.get? turn.arena.owners identity = none ∧ item.2.identity = identity ∧
          owner = ⟨turn.target number item, number⟩) := by
  rw [owners_place, Option.or_eq_some_iff, Option.ite_none_right_eq_some, Option.some.injEq]
  simp only [eq_comm]

/-- Placing an entry keeps the table tidy. -/
theorem tidy_place (h : turn.arena.Tidy turn.reserved) (number : Nat) (item : Text × Entry) :
    (turn.place number item).arena.Tidy (turn.place number item).reserved := by
  rcases turn.place_cases number item.1 item.2 with
    ⟨target, -, hplace⟩ | ⟨-, hfree, hplace⟩ | ⟨-, -, hplace⟩
  · rw [hplace]
    exact h
  · rw [hplace]
    exact h.add (isFree_iff.1 hfree).2
  · rw [hplace]
    exact (h.advance.mono (List.subset_append_left _ _)).add (Arena.allocate_not_mem _ _)

end Turn

/-- What happens to a table. -/
inductive Event
  /-- The turn of a contributor opens. -/
  | opens (number : Nat) (listed : List Text)
  /-- An entry of the contributor is placed. -/
  | places (item : Text × Entry)

/-- A moment in the course of a table. -/
structure Moment where
  /-- The contributor whose turn it is. -/
  number : Nat
  /-- The ids that the contributor lists. -/
  listed : List Text
  /-- The ids that were listed in the turns that are over. -/
  past : List Text
  turn : Turn

/-- An entry at the moment when it is placed. -/
structure Step where
  moment : Moment
  item : Text × Entry

namespace Step

/-- The contributor of the entry. -/
def number (s : Step) : Nat := s.moment.number

/-- What the entry stands for. -/
def identity (s : Step) : Identity := s.item.2.identity

/-- Whether the entry is folded. -/
def folds (s : Step) : Bool := s.moment.turn.folds s.number s.item

/-- The id that the entry gets. -/
def target (s : Step) : Text := s.moment.turn.target s.number s.item

/-- Whether the entry finds its own id free. -/
def isFree (s : Step) : Bool := s.moment.turn.isFree s.item.1

/-- How the entry is placed. -/
def placement (s : Step) : Placement := ⟨s.item.1, s.target, s.folds, s.item.2.count⟩

/-- The contributor, the id that the entry had, and the id that it gets. -/
def record (s : Step) : Nat × Text × Text := (s.number, s.item.1, s.target)

end Step

/-- The events of contributors' turns. -/
def eventsOf (calls : List (Contribution × Nat)) : List Event :=
  calls.flatMap fun call => .opens call.2 call.1.listed :: call.1.entries.map .places

/-- The contributors whose turns open. -/
def Event.opened? : Event → Option Nat
  | opens number _ => some number
  | places _ => none

namespace Moment

/-- The moment before any turn. -/
def first : Moment := ⟨0, [], [], ⟨Arena.empty, [], []⟩⟩

/-- What an event makes of a moment. -/
def next (m : Moment) : Event → Moment
  | .opens number listed => ⟨number, listed, m.past ++ m.listed, ⟨m.turn.close, listed, []⟩⟩
  | .places item => { m with turn := m.turn.place m.number item }

/-- The moment after some events. -/
def after (m : Moment) (events : List Event) : Moment := events.foldl next m

/-- The steps of a course. -/
def steps : Moment → List Event → List Step
  | _, [] => []
  | m, .opens number listed :: rest => steps (m.next (.opens number listed)) rest
  | m, .places item :: rest => ⟨m, item⟩ :: steps (m.next (.places item)) rest

@[simp] theorem steps_nil (m : Moment) : m.steps [] = [] := rfl

@[simp] theorem steps_opens (m : Moment) (number : Nat) (listed : List Text) (rest : List Event) :
    m.steps (.opens number listed :: rest) = (m.next (.opens number listed)).steps rest := rfl

@[simp] theorem steps_places (m : Moment) (item : Text × Entry) (rest : List Event) :
    m.steps (.places item :: rest) = ⟨m, item⟩ :: (m.next (.places item)).steps rest := rfl

@[simp] theorem after_nil (m : Moment) : m.after [] = m := rfl

@[simp] theorem after_cons (m : Moment) (event : Event) (rest : List Event) :
    m.after (event :: rest) = (m.next event).after rest := rfl

theorem after_append (m : Moment) (events rest : List Event) :
    m.after (events ++ rest) = (m.after events).after rest := List.foldl_append

/-- A course goes on where it was. -/
theorem steps_append (events rest : List Event) :
    ∀ m : Moment, m.steps (events ++ rest) = m.steps events ++ (m.after events).steps rest := by
  induction events with
  | nil => exact fun _ => rfl
  | cons event events ih =>
    intro m
    cases event with
    | opens number listed => exact ih _
    | places item => exact congrArg (List.cons _) (ih _)

/-- A step belongs to the contributor whose turn it is or to one whose turn opens. -/
theorem number_mem_of_mem_steps {s : Step} {events : List Event} :
    ∀ {m : Moment}, s ∈ m.steps events →
      s.number = m.number ∨ s.number ∈ events.filterMap Event.opened? := by
  induction events with
  | nil => exact fun h => absurd h List.not_mem_nil
  | cons event events ih =>
    intro m h
    cases event with
    | opens number listed => exact .inr (List.mem_cons.2 (ih h))
    | places item =>
      rcases List.mem_cons.1 h with rfl | h
      · exact .inl rfl
      · exact ih (m := m.next (.places item)) h

/-- What holds at a moment after the steps `done`. -/
structure Sound (done : List Step) (m : Moment) : Prop where
  tidy : m.turn.arena.Tidy m.turn.reserved
  /-- ids of turns that are over are claimed -/
  past_sub : m.past ⊆ m.turn.arena.claimed
  /-- the contributor's ids are held back -/
  listed_sub : m.listed ⊆ m.turn.reserved
  /-- an identity that occurred has an owner -/
  owned : ∀ s ∈ done, (OrderedMap.get? m.turn.arena.owners s.identity).isSome
  /-- an owner is an entry that has the identity -/
  exists_step : ∀ {identity owner},
    OrderedMap.get? m.turn.arena.owners identity = some owner →
      ∃ s ∈ done, s.number = owner.contributor ∧ s.identity = identity ∧ s.target = owner.id
  /-- the ids of the table are those that entries got -/
  mem_locations : ∀ {id},
    id ∈ OrderedMap.keys m.turn.arena.locations ↔ ∃ s ∈ done, s.target = id
  /-- entries with one id have one identity -/
  identity_eq : ∀ {s r}, s ∈ done → r ∈ done → s.target = r.target → s.identity = r.identity

theorem sound_first : Sound [] first where
  tidy := Arena.tidy_empty
  past_sub := List.nil_subset _
  listed_sub := List.nil_subset _
  owned _ h := absurd h List.not_mem_nil
  exists_step h := by cases h
  mem_locations := by simp [first, Arena.empty, OrderedMap.keys]
  identity_eq h := absurd h List.not_mem_nil

namespace Sound

variable {done : List Step} {m : Moment}

/-- Opening a turn claims the ids of the one before. -/
theorem opens (h : Sound done m) (number : Nat) (listed : List Text) :
    Sound done (m.next (.opens number listed)) where
  tidy := h.tidy.close.mono (List.nil_subset _)
  past_sub := List.append_subset.2
    ⟨fun _ hid => List.mem_append_left _ (h.past_sub hid),
      fun _ hid => List.mem_append_right _ (h.listed_sub hid)⟩
  listed_sub := List.Subset.refl _
  owned := h.owned
  exists_step := h.exists_step
  mem_locations := h.mem_locations
  identity_eq := h.identity_eq

/-- An entry that goes where another one went has its identity. -/
theorem identity_eq_of_target_eq (h : Sound done m) (item : Text × Entry) {s : Step} (hs : s ∈ done)
    (htarget : s.target = m.turn.target m.number item) : s.identity = item.2.identity := by
  cases hfolds : m.turn.folds m.number item with
  | true =>
    obtain ⟨owner, howner, -, hid⟩ := Turn.exists_owner_of_folds hfolds
    obtain ⟨r, hr, -, hidentity, hrid⟩ := h.exists_step howner
    exact (h.identity_eq hs hr (htarget.trans (hid.trans hrid.symm))).trans hidentity
  | false =>
    -- the id of an added entry is new
    exact absurd (h.mem_locations.2 ⟨s, hs, htarget⟩) (Turn.target_not_mem hfolds)

/-- Placing an entry. -/
theorem places (h : Sound done m) (item : Text × Entry) :
    Sound (done ++ [⟨m, item⟩]) (m.next (.places item)) where
  tidy := Turn.tidy_place h.tidy m.number item
  past_sub := by
    rw [next, Turn.place_claimed]
    exact h.past_sub
  listed_sub _ hid := Turn.mem_place_reserved.2 (.inl (h.listed_sub hid))
  owned s hs := by
    rw [next, Turn.owners_place, Option.isSome_or, Bool.or_eq_true]
    rcases List.mem_append.1 hs with hs | hs
    · exact .inl (h.owned s hs)
    · rw [List.mem_singleton.1 hs]
      exact .inr (by simp [Step.identity])
  exists_step howner := by
    rcases Turn.owners_place_eq_some.1 howner with howner | ⟨-, rfl, rfl⟩
    · obtain ⟨s, hs, hstep⟩ := h.exists_step howner
      exact ⟨s, List.mem_append_left _ hs, hstep⟩
    · exact ⟨⟨m, item⟩, List.mem_append_right _ List.mem_cons_self, rfl, rfl, rfl⟩
  mem_locations {id} := by
    rw [next, Turn.mem_place_locations h.tidy, h.mem_locations]
    simp only [List.mem_append, List.mem_singleton, or_and_right, exists_or, exists_eq_left]
    exact or_congr_right eq_comm
  identity_eq {s r} hs hr htarget := by
    rcases List.mem_append.1 hs with hs | hs <;> rcases List.mem_append.1 hr with hr | hr
    · exact h.identity_eq hs hr htarget
    · obtain rfl := List.mem_singleton.1 hr
      exact h.identity_eq_of_target_eq item hs htarget
    · obtain rfl := List.mem_singleton.1 hs
      exact (h.identity_eq_of_target_eq item hr htarget.symm).symm
    · rw [List.mem_singleton.1 hs, List.mem_singleton.1 hr]

/-- Every course that begins at a sound moment ends at one. -/
theorem after : ∀ (events : List Event) {done : List Step} {m : Moment}, Sound done m →
    Sound (done ++ m.steps events) (m.after events) := by
  intro events
  induction events with
  | nil =>
    intro done m h
    rwa [steps_nil, List.append_nil]
  | cons event events ih =>
    intro done m h
    cases event with
    | opens number listed => exact ih (h.opens number listed)
    | places item =>
      rw [steps_places, List.append_cons]
      exact ih (h.places item)

end Sound

/-! ### Owners along a course -/

/-- An owner stays the owner. -/
theorem owners_next {identity : Identity} {owner : Owner} {m : Moment}
    (howner : OrderedMap.get? m.turn.arena.owners identity = some owner) (event : Event) :
    OrderedMap.get? (m.next event).turn.arena.owners identity = some owner := by
  cases event with
  | opens number listed => exact howner
  | places item => exact Turn.owners_place_eq_some.2 (.inl howner)

/-- Every later entry of another contributor that has the identity goes to its owner. -/
theorem target_of_owner {identity : Identity} {owner : Owner} {s : Step} (hs : s.identity = identity)
    (hother : owner.contributor ≠ s.number) (events : List Event) :
    ∀ {m : Moment}, OrderedMap.get? m.turn.arena.owners identity = some owner →
      s ∈ m.steps events → s.target = owner.id := by
  induction events with
  | nil => exact fun _ h => absurd h List.not_mem_nil
  | cons event events ih =>
    intro m howner hmem
    cases event with
    | opens number listed => exact ih (owners_next howner (.opens number listed)) hmem
    | places item =>
      rcases List.mem_cons.1 hmem with rfl | hmem
      · obtain rfl := hs
        exact (Turn.folds_of_owner howner hother).2
      · exact ih (owners_next howner (.places item)) hmem

/-! ### Turns as courses -/

/-- A turn goes on by placing entries. -/
theorem after_places (entries : OrderedMap Text Entry) :
    ∀ m : Moment, m.after (entries.map .places) =
      { m with turn := entries.foldl (Turn.place m.number) m.turn } := by
  induction entries with
  | nil => exact fun _ => rfl
  | cons item entries ih => exact fun m => ih (m.next (.places item))

/-- The placements of a turn are those of its steps. -/
theorem placements_places (entries : OrderedMap Text Entry) :
    ∀ m : Moment,
      (entries.foldl (Turn.place m.number) m.turn).placements =
        m.turn.placements ++ (m.steps (entries.map .places)).map Step.placement := by
  induction entries with
  | nil => exact fun _ => (List.append_nil _).symm
  | cons item entries ih =>
    intro m
    refine (ih (m.next (.places item))).trans ?_
    rw [next, Turn.place_placements, List.append_assoc]
    rfl

/-- The steps of a turn are those of its entries. -/
theorem number_eq_of_mem_steps_places {entries : OrderedMap Text Entry} {s : Step} :
    ∀ {m : Moment}, s ∈ m.steps (entries.map .places) → s.number = m.number ∧ s.item ∈ entries := by
  induction entries with
  | nil => exact fun h => absurd h List.not_mem_nil
  | cons item entries ih =>
    intro m h
    rcases List.mem_cons.1 h with rfl | h
    · exact ⟨rfl, List.mem_cons_self⟩
    · obtain ⟨hnumber, hitem⟩ := @ih (m.next (.places item)) h
      exact ⟨hnumber, List.mem_cons_of_mem _ hitem⟩

/-- The turn of a contributor is a part of the course. -/
theorem after_turn (m : Moment) (number : Nat) (c : Contribution) :
    (m.after (.opens number c.listed :: c.entries.map .places)).turn.close =
      (m.turn.close.merge number c).arena := by
  rw [after_cons, after_places]
  rfl

/-- The placements of a contributor's turn are those of its steps. -/
theorem placements_turn (m : Moment) (number : Nat) (c : Contribution) :
    (m.turn.close.merge number c).placements =
      (m.steps (.opens number c.listed :: c.entries.map .places)).map Step.placement :=
  placements_places c.entries (m.next (.opens number c.listed))

/-- The new ids of a turn are those that its steps record. -/
theorem records_turn (m : Moment) (number : Nat) (c : Contribution) :
    (m.turn.close.merge number c).ids.map (Prod.mk number) =
      (m.steps (.opens number c.listed :: c.entries.map .places)).map Step.record := by
  rw [Merged.ids, List.map_map, placements_turn, List.map_map]
  refine List.map_congr_left fun s hs => ?_
  have hnumber : s.number = number := (number_eq_of_mem_steps_places hs).1
  rw [Step.record, hnumber]
  rfl

end Moment

theorem eventsOf_cons (call : Contribution × Nat) (calls : List (Contribution × Nat)) :
    eventsOf (call :: calls) =
      (.opens call.2 call.1.listed :: call.1.entries.map .places) ++ eventsOf calls := rfl

theorem eventsOf_append (calls more : List (Contribution × Nat)) :
    eventsOf (calls ++ more) = eventsOf calls ++ eventsOf more := List.flatMap_append

/-- Placing entries opens no turn. -/
theorem opened_places (entries : OrderedMap Text Entry) :
    (entries.map Event.places).filterMap Event.opened? = [] := by
  simp [Event.opened?]

/-- The turns that open are those of the contributors. -/
theorem opened_eventsOf (calls : List (Contribution × Nat)) :
    (eventsOf calls).filterMap Event.opened? = calls.map Prod.snd := by
  induction calls with
  | nil => rfl
  | cons call calls ih =>
    rw [eventsOf_cons, List.filterMap_append, ih]
    exact congrArg (· ++ calls.map Prod.snd) (congrArg (List.cons call.2) (opened_places _))

/-- Every step is that of an entry of a contributor. -/
theorem exists_call_of_mem_steps {calls : List (Contribution × Nat)} {s : Step} :
    ∀ {m : Moment}, s ∈ m.steps (eventsOf calls) →
      ∃ call ∈ calls, s.number = call.2 ∧ s.item ∈ call.1.entries := by
  induction calls with
  | nil => exact fun h => absurd h List.not_mem_nil
  | cons call calls ih =>
    intro m h
    rw [eventsOf_cons, Moment.steps_append, List.mem_append] at h
    rcases h with h | h
    · exact ⟨call, List.mem_cons_self, Moment.number_eq_of_mem_steps_places h⟩
    · obtain ⟨call', hcall', hstep⟩ := ih h
      exact ⟨call', List.mem_cons_of_mem _ hcall', hstep⟩

/-- Every entry of a contributor has a step. -/
theorem exists_step_of_mem {calls : List (Contribution × Nat)} {call : Contribution × Nat}
    {item : Text × Entry} (hcall : call ∈ calls) (hitem : item ∈ call.1.entries) :
    ∀ m : Moment, ∃ s ∈ m.steps (eventsOf calls), s.number = call.2 ∧ s.item = item := by
  have hplaces : ∀ (entries : OrderedMap Text Entry) (m : Moment), item ∈ entries →
      ∃ s ∈ m.steps (entries.map .places), s.item = item := by
    intro entries
    induction entries with
    | nil => exact fun _ h => absurd h List.not_mem_nil
    | cons first entries ih =>
      intro m h
      rcases List.mem_cons.1 h with rfl | h
      · exact ⟨⟨m, item⟩, List.mem_cons_self, rfl⟩
      · obtain ⟨s, hs, hsitem⟩ := ih (m.next (.places first)) h
        exact ⟨s, List.mem_cons_of_mem _ hs, hsitem⟩
  induction calls with
  | nil => exact absurd hcall List.not_mem_nil
  | cons first calls ih =>
    intro m
    rw [eventsOf_cons, Moment.steps_append]
    rcases List.mem_cons.1 hcall with rfl | hcall
    · obtain ⟨s, hs, hsitem⟩ := hplaces _ (m.next (.opens call.2 call.1.listed)) hitem
      exact ⟨s, List.mem_append_left _ hs, (Moment.number_eq_of_mem_steps_places hs).1, hsitem⟩
    · obtain ⟨s, hs, hstep⟩ := ih hcall _
      exact ⟨s, List.mem_append_right _ hs, hstep⟩

/-- The course leads to the table after the turns. -/
theorem Arena.close_after_eventsOf (calls : List (Contribution × Nat)) :
    ∀ m : Moment, (m.after (eventsOf calls)).turn.close = m.turn.close.afterTurns calls := by
  induction calls with
  | nil => exact fun _ => rfl
  | cons call calls ih =>
    intro m
    rw [eventsOf_cons, Moment.after_append, ih, Moment.after_turn, Arena.afterTurns_cons]

/-- All steps of contributors' turns. -/
def stepsOf (calls : List (Contribution × Nat)) : List Step := Moment.first.steps (eventsOf calls)

end CoverageLift
