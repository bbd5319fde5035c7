import CoverageLift.Proofs.Arena.Allocation
import CoverageLift.Proofs.Pointwise

/-!
# A contributor's turn

A turn places the entries of a contributor one after the other. One entry is placed in one of three
ways (`Turn.place_cases`): it is folded into an owner of another contributor, it keeps its id, or it
gets a free number. Everything else about a turn follows from what one placement does.

`Arena.Tidy` is what the table satisfies at any moment: no location has two ids, owners are entries
of the table, and no two identities share an owner. `Turn.After` says how far a turn has got:

* the table has the locations that it began with and then the added ones, in order;
* owners of earlier contributors are never replaced, so **whether an entry is folded is decided by
  the owners at the beginning of the turn** (`Turn.After.otherOwner?_eq`);
* the ids that the turn holds back are those that its contributor lists and those that it was given.
-/

namespace CoverageLift

namespace Arena

variable {arena : Arena} {number : Nat} {id : Text} {entry : Entry} {reserved : List Text}

/-! ### Adding a location -/

@[simp] theorem add_claimed : (arena.add number id entry).claimed = arena.claimed := rfl

@[simp] theorem add_counts : (arena.add number id entry).counts = arena.counts := rfl

@[simp] theorem add_nextId : (arena.add number id entry).nextId = arena.nextId := rfl

/-- A location under a new id goes to the end of the table. -/
theorem keys_locations_add (number : Nat) (entry : Entry)
    (h : id ∉ OrderedMap.keys arena.locations) :
    OrderedMap.keys (arena.add number id entry).locations =
      OrderedMap.keys arena.locations ++ [id] :=
  OrderedMap.keys_insert_of_not_mem h _

/-- An owner stays the owner; an identity without one gets the new id. -/
theorem owners_add (identity : Identity) :
    OrderedMap.get? (arena.add number id entry).owners identity =
      (OrderedMap.get? arena.owners identity).or
        (if entry.identity = identity then some ⟨id, number⟩ else none) := by
  rcases h : OrderedMap.get? arena.owners entry.identity with _ | owner
  · have hadd : (arena.add number id entry).owners =
        OrderedMap.insert arena.owners entry.identity ⟨id, number⟩ :=
      if_neg (by simp [OrderedMap.contains, h])
    rw [hadd, OrderedMap.get?_insert]
    split
    · next heq => rw [← heq, h, Option.none_or]
    · rw [Option.or_none]
  · have hadd : (arena.add number id entry).owners = arena.owners :=
      if_pos (by simp [OrderedMap.contains, h])
    rw [hadd]
    split
    · next heq => rw [← heq, h, Option.some_or]
    · rw [Option.or_none]

/-- An owner after an entry has been added is an earlier one or that entry. -/
theorem owners_add_eq_some {identity : Identity} {owner : Owner} :
    OrderedMap.get? (arena.add number id entry).owners identity = some owner ↔
      OrderedMap.get? arena.owners identity = some owner ∨
        (OrderedMap.get? arena.owners identity = none ∧ entry.identity = identity ∧
          owner = ⟨id, number⟩) := by
  rw [owners_add, Option.or_eq_some_iff, Option.ite_none_right_eq_some, Option.some.injEq]
  simp only [eq_comm]

/-- What holds of a table at any moment while `reserved` is held back. -/
structure Tidy (arena : Arena) (reserved : List Text) : Prop where
  /-- no id has two locations -/
  nodup : (OrderedMap.keys arena.locations).Nodup
  /-- an owner is an entry of the table -/
  owner_mem : ∀ {identity owner}, OrderedMap.get? arena.owners identity = some owner →
    owner.id ∈ OrderedMap.keys arena.locations
  /-- an entry owns one identity -/
  owner_inj : ∀ {identity identity' owner owner'},
    OrderedMap.get? arena.owners identity = some owner →
    OrderedMap.get? arena.owners identity' = some owner' → owner.id = owner'.id →
    identity = identity'
  /-- every number that the search for a free one has passed is taken -/
  takenBelow : arena.TakenBelow reserved

theorem tidy_empty : empty.Tidy [] where
  nodup := List.nodup_nil
  owner_mem h := by cases h
  owner_inj h := by cases h
  takenBelow _ hm := absurd hm (Nat.not_lt_zero _)

/-- Adding an entry under a new id keeps the table tidy. -/
theorem Tidy.add (h : arena.Tidy reserved) (hid : id ∉ OrderedMap.keys arena.locations) :
    (arena.add number id entry).Tidy reserved where
  nodup := OrderedMap.nodup_keys_insert h.nodup _ _
  owner_mem howner := by
    rw [keys_locations_add _ _ hid]
    rcases owners_add_eq_some.1 howner with howner | ⟨-, -, rfl⟩
    · exact List.mem_append_left _ (h.owner_mem howner)
    · exact List.mem_append_right _ (List.mem_singleton.2 rfl)
  owner_inj howner howner' hsame := by
    rcases owners_add_eq_some.1 howner with howner | ⟨-, rfl, rfl⟩ <;>
      rcases owners_add_eq_some.1 howner' with howner' | ⟨-, rfl, rfl⟩
    · exact h.owner_inj howner howner' hsame
    · have hmem := h.owner_mem howner
      rw [hsame] at hmem
      exact absurd hmem hid
    · have hmem := h.owner_mem howner'
      rw [← hsame] at hmem
      exact absurd hmem hid
    · rfl
  takenBelow m hm := by
    have htaken := isTaken_iff.1 (h.takenBelow m hm)
    rw [isTaken_iff, keys_locations_add _ _ hid]
    exact htaken.imp_left (List.mem_append_left _)

/-- A table is tidy with whatever else is held back. -/
theorem Tidy.mono (h : arena.Tidy reserved) {more : List Text} (hsub : reserved ⊆ more) :
    arena.Tidy more where
  nodup := h.nodup
  owner_mem := h.owner_mem
  owner_inj := h.owner_inj
  takenBelow m hm := by
    rw [isTaken_iff]
    exact (isTaken_iff.1 (h.takenBelow m hm)).imp_right (Or.imp_right fun hr => hsub hr)

/-- The search may go on from the number that it ended at. -/
theorem Tidy.advance (h : arena.Tidy reserved) :
    { arena with nextId := arena.allocate reserved }.Tidy reserved where
  nodup := h.nodup
  owner_mem := h.owner_mem
  owner_inj := h.owner_inj
  takenBelow _ hm := h.takenBelow.isTaken_of_lt hm

/-- The ids that are held back may be claimed instead. -/
theorem Tidy.claim (h : arena.Tidy reserved) (counts : OrderedMap Text Json) :
    { arena with claimed := arena.claimed ++ reserved, counts }.Tidy [] where
  nodup := h.nodup
  owner_mem := h.owner_mem
  owner_inj := h.owner_inj
  takenBelow m hm := by
    have htaken := isTaken_iff.1 (h.takenBelow m hm)
    rw [isTaken_iff]
    simpa [or_assoc] using htaken

end Arena

/-! ### One placement -/

namespace Turn

variable {start : Arena} {number : Nat} {turn : Turn}

theorem isFree_iff {id : Text} :
    turn.isFree id = true ↔
      id ∉ turn.arena.claimed ∧ id ∉ OrderedMap.keys turn.arena.locations := by
  simp [isFree, ← OrderedMap.contains_iff]

/-- The three ways in which an entry is placed. -/
theorem place_cases (number : Nat) (turn : Turn) (id : Text) (entry : Entry) :
    -- folded into the owner of its identity
    (∃ target, turn.arena.otherOwner? number entry.identity = some target ∧
      turn.place number (id, entry) =
        { turn with placements := turn.placements ++ [⟨id, target, true, entry.count⟩] }) ∨
    -- added under its own id
    (turn.arena.otherOwner? number entry.identity = none ∧ turn.isFree id = true ∧
      turn.place number (id, entry) =
        { turn with
          arena := turn.arena.add number id entry
          placements := turn.placements ++ [⟨id, id, false, entry.count⟩] }) ∨
    -- added under a free number
    (turn.arena.otherOwner? number entry.identity = none ∧ turn.isFree id = false ∧
      turn.place number (id, entry) =
        { arena := { turn.arena with nextId := turn.arena.allocate turn.reserved }.add number
            (Text.ofNat (turn.arena.allocate turn.reserved)) entry
          reserved := turn.reserved ++ [Text.ofNat (turn.arena.allocate turn.reserved)]
          placements := turn.placements ++
            [⟨id, Text.ofNat (turn.arena.allocate turn.reserved), false, entry.count⟩] }) := by
  rcases howner : turn.arena.otherOwner? number entry.identity with _ | target
  · cases hfree : turn.isFree id with
    | true => exact .inr (.inl ⟨rfl, rfl, by simp only [place, howner, hfree, if_true]⟩)
    | false =>
      refine .inr (.inr ⟨rfl, rfl, ?_⟩)
      simp only [place, howner, hfree, Bool.false_eq_true, if_false]
  · exact .inl ⟨target, rfl, by simp only [place, howner]⟩

end Turn

/-! ### The course of a turn -/

/-- The ids under which placements added an entry. -/
def addedIds (placements : List Placement) : List Text :=
  (placements.filter fun p => !p.folded).map (·.target)

theorem addedIds_append (ps qs : List Placement) :
    addedIds (ps ++ qs) = addedIds ps ++ addedIds qs := by
  simp [addedIds]

/-- How an entry is placed in a turn that begins with the table `start`: it is folded exactly when
its identity has an owner there, and then it goes to that owner. -/
structure Placed (start : Arena) (item : Text × Entry) (p : Placement) : Prop where
  /-- the placement is that of the entry -/
  id_eq : p.id = item.1
  /-- the count is that of the entry -/
  count_eq : p.count = item.2.count
  /-- entries whose identity has an owner are folded -/
  folded_eq : p.folded = (OrderedMap.get? start.owners item.2.identity).isSome
  /-- a folded entry goes to the owner -/
  target_eq : ∀ owner, OrderedMap.get? start.owners item.2.identity = some owner →
    p.target = owner.id

namespace Turn

/-- What holds when a turn that began with the table `start` has placed the entries `done` of
contributor `number`, who lists the ids `listed`. -/
structure After (start : Arena) (number : Nat) (listed : List Text) (done : OrderedMap Text Entry)
    (turn : Turn) : Prop where
  tidy : turn.arena.Tidy turn.reserved
  claimed : turn.arena.claimed = start.claimed
  counts : turn.arena.counts = start.counts
  /-- the new locations come after the old ones -/
  locations : OrderedMap.keys turn.arena.locations =
    OrderedMap.keys start.locations ++ addedIds turn.placements
  listed_sub : listed ⊆ turn.reserved
  /-- nothing is held back but what is listed or was given -/
  reserved_sub : ∀ id ∈ turn.reserved, id ∈ listed ∨ id ∈ addedIds turn.placements
  /-- owners stay owners -/
  owner_keep : ∀ {identity owner}, OrderedMap.get? start.owners identity = some owner →
    OrderedMap.get? turn.arena.owners identity = some owner
  /-- new owners are entries of this turn -/
  owner_new : ∀ {identity owner}, OrderedMap.get? turn.arena.owners identity = some owner →
    OrderedMap.get? start.owners identity = some owner ∨
      OrderedMap.get? start.owners identity = none ∧ owner.contributor = number
  /-- an identity has an owner when it had one or occurs in this turn -/
  owned : ∀ identity, (OrderedMap.get? turn.arena.owners identity).isSome ↔
    (OrderedMap.get? start.owners identity).isSome ∨ ∃ item ∈ done, item.2.identity = identity
  placed : List.Forall₂ (Placed start) done turn.placements

namespace After

variable {start : Arena} {number : Nat} {listed : List Text} {done : OrderedMap Text Entry}
  {turn : Turn} {id : Text} {entry : Entry}

/-- Nothing has happened at the beginning of a turn. -/
theorem begin (number : Nat) (listed : List Text) (h : start.Tidy []) :
    After start number listed [] ⟨start, listed, []⟩ where
  tidy := h.mono (List.nil_subset _)
  claimed := rfl
  counts := rfl
  locations := (List.append_nil _).symm
  listed_sub := fun _ hid => hid
  reserved_sub := fun _ hid => .inl hid
  owner_keep := fun howner => howner
  owner_new := fun howner => .inl howner
  owned := by simp
  placed := .nil

/-- Every placement of a turn is that of an entry. -/
theorem exists_entry (h : After start number listed done turn) {p : Placement}
    (hp : p ∈ turn.placements) : ∃ item ∈ done, Placed start item p :=
  exists_left_of_mem h.placed hp

/-- Every entry of a turn is placed. -/
theorem exists_placement (h : After start number listed done turn) {item : Text × Entry}
    (hitem : item ∈ done) : ∃ p ∈ turn.placements, Placed start item p :=
  exists_right_of_mem h.placed hitem

/-- Whether an entry is folded, and where, is decided by the owners at the beginning of the turn. -/
theorem otherOwner?_eq (h : After start number listed done turn)
    (hforeign : ∀ {identity owner}, OrderedMap.get? start.owners identity = some owner →
      owner.contributor ≠ number) (identity : Identity) :
    turn.arena.otherOwner? number identity =
      (OrderedMap.get? start.owners identity).map (·.id) := by
  rcases hstart : OrderedMap.get? start.owners identity with _ | owner
  · rcases hturn : OrderedMap.get? turn.arena.owners identity with _ | owner
    · simp [Arena.otherOwner?, hturn]
    · rcases h.owner_new hturn with hold | ⟨-, hnumber⟩
      · rw [hstart] at hold
        cases hold
      · simp [Arena.otherOwner?, hturn, hnumber]
  · simp [Arena.otherOwner?, h.owner_keep hstart, hforeign hstart]

/-- Folding an entry only writes the placement down. -/
theorem fold (h : After start number listed done turn) {owner : Owner}
    (howner : OrderedMap.get? start.owners entry.identity = some owner) :
    After start number listed (done ++ [(id, entry)])
      { turn with placements := turn.placements ++ [⟨id, owner.id, true, entry.count⟩] } where
  tidy := h.tidy
  claimed := h.claimed
  counts := h.counts
  locations := by
    rw [h.locations, addedIds_append]
    simp [addedIds]
  listed_sub := h.listed_sub
  reserved_sub := by
    simpa [addedIds_append, addedIds] using h.reserved_sub
  owner_keep := h.owner_keep
  owner_new := h.owner_new
  owned identity := by
    rw [h.owned]
    constructor
    · rintro (hstart | ⟨item, hitem, heq⟩)
      · exact .inl hstart
      · exact .inr ⟨item, List.mem_append_left _ hitem, heq⟩
    · rintro (hstart | ⟨item, hitem, rfl⟩)
      · exact .inl hstart
      · rcases List.mem_append.1 hitem with hitem | hitem
        · exact .inr ⟨item, hitem, rfl⟩
        · rw [List.mem_singleton.1 hitem, howner]
          exact .inl rfl
  placed := by
    refine List.rel_append h.placed (.cons ⟨rfl, rfl, ?_, ?_⟩ .nil)
    · rw [howner]
      rfl
    · intro owner' howner'
      rw [howner] at howner'
      exact congrArg Owner.id (Option.some.inj howner')

/-- Adding an entry whose identity has no owner, under an id that is not in the table. The numbers
that are searched and the ids that are held back may grow with it. -/
theorem add (h : After start number listed done turn)
    (hnone : OrderedMap.get? start.owners entry.identity = none) {nextId : Nat}
    {reserved : List Text} {target : Text}
    (htidy : { turn.arena with nextId }.Tidy reserved)
    (hfresh : target ∉ OrderedMap.keys turn.arena.locations)
    (hsub : turn.reserved ⊆ reserved) (hnew : ∀ id ∈ reserved, id ∈ turn.reserved ∨ id = target) :
    After start number listed (done ++ [(id, entry)])
      { arena := { turn.arena with nextId }.add number target entry
        reserved
        placements := turn.placements ++ [⟨id, target, false, entry.count⟩] } where
  tidy := htidy.add hfresh
  claimed := h.claimed
  counts := h.counts
  locations := by
    refine (Arena.keys_locations_add number entry hfresh).trans ?_
    rw [h.locations, addedIds_append, ← List.append_assoc]
    rfl
  listed_sub := fun _ hid => hsub (h.listed_sub hid)
  reserved_sub id' hid' := by
    rw [addedIds_append]
    rcases hnew id' hid' with hid' | rfl
    · exact (h.reserved_sub id' hid').imp_right (List.mem_append_left _)
    · exact .inr (List.mem_append_right _ (List.mem_singleton.2 rfl))
  owner_keep howner := Arena.owners_add_eq_some.2 (.inl (h.owner_keep howner))
  owner_new {identity owner} howner := by
    rcases Arena.owners_add_eq_some.1 howner with howner | ⟨-, rfl, rfl⟩
    · exact h.owner_new howner
    · exact .inr ⟨hnone, rfl⟩
  owned identity := by
    rw [Arena.owners_add, Option.isSome_or, Bool.or_eq_true, h.owned, or_assoc]
    refine or_congr_right ?_
    simp [or_and_right, exists_or]
  placed := by
    refine List.rel_append h.placed (.cons ⟨rfl, rfl, ?_, ?_⟩ .nil)
    · rw [hnone]
      rfl
    · intro owner howner
      rw [hnone] at howner
      cases howner

/-- Placing one more entry. -/
theorem place (h : After start number listed done turn)
    (hforeign : ∀ {identity owner}, OrderedMap.get? start.owners identity = some owner →
      owner.contributor ≠ number) (id : Text) (entry : Entry) :
    After start number listed (done ++ [(id, entry)]) (turn.place number (id, entry)) := by
  have howner := h.otherOwner?_eq hforeign entry.identity
  rcases turn.place_cases number id entry with
    ⟨target, hother, hplace⟩ | ⟨hother, hfree, hplace⟩ | ⟨hother, -, hplace⟩
  · rw [hother] at howner
    obtain ⟨owner, hstart, rfl⟩ := Option.map_eq_some_iff.1 howner.symm
    rw [hplace]
    exact h.fold hstart
  · rw [hother] at howner
    rw [hplace]
    exact h.add (Option.map_eq_none_iff.1 howner.symm) h.tidy (isFree_iff.1 hfree).2
      (List.Subset.refl _) fun _ hid => .inl hid
  · rw [hother] at howner
    rw [hplace]
    refine h.add (Option.map_eq_none_iff.1 howner.symm)
      (h.tidy.advance.mono (List.subset_append_left _ _)) (Arena.allocate_not_mem _ _)
      (List.subset_append_left _ _) fun _ hid => ?_
    simpa using hid

/-- Placing all entries that are left. -/
theorem foldl_place (hforeign : ∀ {identity owner},
      OrderedMap.get? start.owners identity = some owner → owner.contributor ≠ number) :
    ∀ (rest : OrderedMap Text Entry) {done : OrderedMap Text Entry} {turn : Turn},
      After start number listed done turn →
        After start number listed (done ++ rest) (rest.foldl (Turn.place number) turn) := by
  intro rest
  induction rest with
  | nil =>
    intro done turn h
    rwa [List.append_nil]
  | cons item rest ih =>
    intro done turn h
    obtain ⟨id, entry⟩ := item
    rw [List.foldl_cons, List.append_cons]
    exact ih (h.place hforeign id entry)

end After

end Turn

end CoverageLift
