import CoverageLift.Coverage.Entry
import CoverageLift.Text.Digits

/-!
# The arena of ids

The entries of one table of a destination come from several contributors: the coverage that is
already there and the files that move to it. They share one space of ids. An entry keeps its id when
the id is free; otherwise it gets the least decimal numeral that is neither used nor claimed. Every
id that a contributor listed stays claimed after its turn, also the ids of entries that were dropped.

An entry whose identity was added by an earlier contributor is **folded** into that entry: it gets
the same id and its hits are added. Entries of one contributor are never folded into each other.
-/

namespace CoverageLift

/-- A location with its identity and its hit count. -/
structure Entry where
  location : Json
  identity : Identity
  count : Json

/-- What a contributor brings to a table: all ids that it lists, and the entries that are left. -/
structure Contribution where
  listed : List Text
  entries : OrderedMap Text Entry

/-- The entry that first had an identity, and the number of its contributor. -/
structure Owner where
  id : Text
  contributor : Nat
  deriving DecidableEq

/-- One table of a destination. -/
structure Arena where
  locations : OrderedMap Text Json
  counts : OrderedMap Text Json
  owners : OrderedMap Identity Owner
  /-- Ids that no later contributor may keep. -/
  claimed : List Text
  /-- Where the search for a free id begins. -/
  nextId : Nat

/-- Where an entry of a contributor went. -/
structure Placement where
  id : Text
  target : Text
  folded : Bool
  count : Json

/-- A contributor's turn while its entries are being placed. -/
structure Turn where
  arena : Arena
  /-- The ids of this contributor, those that it was given included. -/
  reserved : List Text
  placements : List Placement

/-- The outcome of a contributor's turn. -/
structure Merged where
  arena : Arena
  placements : List Placement
  /-- Hit counts that could not be added, the first of each pair being kept. -/
  unsummed : List (Json × Json)

namespace Arena

/-- The empty table. -/
def empty : Arena := ⟨[], [], [], [], 0⟩

/-- Whether an id is used, claimed or reserved. -/
def isTaken (arena : Arena) (reserved : List Text) (id : Text) : Bool :=
  OrderedMap.contains arena.locations id || arena.claimed.contains id || reserved.contains id

/-- The least number from `n` on whose numeral is not taken, within the fuel. -/
def firstFree (taken : Text → Bool) : (fuel n : Nat) → Nat
  | 0, n => n
  | fuel + 1, n => if taken (Text.ofNat n) then firstFree taken fuel (n + 1) else n

/-- The number of the next free id. There are at most as many taken ids as the fuel says. -/
def allocate (arena : Arena) (reserved : List Text) : Nat :=
  firstFree (arena.isTaken reserved)
    (arena.locations.length + arena.claimed.length + reserved.length + 1) arena.nextId

/-- Adds a location under an id and makes it the owner of its identity if there is none. -/
def add (arena : Arena) (contributor : Nat) (id : Text) (entry : Entry) : Arena :=
  { arena with
    locations := OrderedMap.insert arena.locations id entry.location
    owners :=
      if OrderedMap.contains arena.owners entry.identity then arena.owners
      else OrderedMap.insert arena.owners entry.identity ⟨id, contributor⟩ }

/-- The owner of an identity, if it is an entry of another contributor. -/
def otherOwner? (arena : Arena) (contributor : Nat) (identity : Identity) : Option Text :=
  match OrderedMap.get? arena.owners identity with
  | some owner => if owner.contributor ≠ contributor then some owner.id else none
  | none => none

end Arena

namespace Turn

/-- Whether an id can be kept. -/
def isFree (turn : Turn) (id : Text) : Bool :=
  !(turn.arena.claimed.contains id || OrderedMap.contains turn.arena.locations id)

/-- Places an entry. -/
def place (contributor : Nat) (turn : Turn) (item : Text × Entry) : Turn :=
  let (id, entry) := item
  match turn.arena.otherOwner? contributor entry.identity with
  | some target =>
    { turn with placements := turn.placements ++ [⟨id, target, true, entry.count⟩] }
  | none =>
    if turn.isFree id then
      { turn with
        arena := turn.arena.add contributor id entry
        placements := turn.placements ++ [⟨id, id, false, entry.count⟩] }
    else
      let number := turn.arena.allocate turn.reserved
      let target := Text.ofNat number
      { arena := { turn.arena with nextId := number }.add contributor target entry
        reserved := turn.reserved ++ [target]
        placements := turn.placements ++ [⟨id, target, false, entry.count⟩] }

end Turn

namespace Arena

/-- Writes the count of a placement: a new one, or the sum with that of the entry it was folded
into. -/
def writeCount (state : OrderedMap Text Json × List (Json × Json)) (p : Placement) :
    OrderedMap Text Json × List (Json × Json) :=
  let (counts, unsummed) := state
  match p.folded, OrderedMap.get? counts p.target with
  | true, some present =>
    match addCounts? present p.count with
    | some sum => (OrderedMap.insert counts p.target sum, unsummed)
    | none => (counts, unsummed ++ [(present, p.count)])
  | _, _ => (OrderedMap.insert counts p.target p.count, unsummed)

/-- The turn of a contributor: its entries are placed, its ids are claimed, and then the counts are
written. -/
def merge (arena : Arena) (contributor : Nat) (c : Contribution) : Merged :=
  let turn := c.entries.foldl (Turn.place contributor) ⟨arena, c.listed, []⟩
  let (counts, unsummed) := turn.placements.foldl writeCount (turn.arena.counts, [])
  { arena := { turn.arena with claimed := turn.arena.claimed ++ turn.reserved, counts }
    placements := turn.placements
    unsummed }

end Arena

namespace Merged

/-- From the ids of the contributor to the ids in the table. -/
def ids (m : Merged) : List (Text × Text) := m.placements.map fun p => (p.id, p.target)

/-- The ids that changed. -/
def renumbered (m : Merged) : List (Text × Text) := m.ids.filter fun (old, new) => old ≠ new

end Merged

end CoverageLift
