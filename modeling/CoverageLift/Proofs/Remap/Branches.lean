import CoverageLift.Proofs.Arena.Weights
import CoverageLift.Proofs.Remap.Recognition
import CoverageLift.Proofs.Remap.Rows

/-!
# Branch hits stay with their alternatives

A branch has one count for each alternative. Alternatives that cannot be lifted take the place of
the anchor and are never removed, so a lifted branch has as many alternatives as before, and it is
told by its type and their ranges. Branches that are told alike thus have equally many counts and
can be added up position by position (`additive_hitsAtPosition`). Therefore **every branch of a
destination has as many counts as alternatives, and at each position the branches of an identity
have together the hits that the contributors brought** (`branchHits_remap`).
-/

namespace CoverageLift

/-! ### Aligned branches -/

/-- The hits of a branch at a position. -/
def hitsAtPosition (count : Json) (i : Nat) : Int :=
  match count with
  | .arr counts => hits (counts[i]?.getD .null)
  | _ => 0

/-- Whether a branch has as many counts as alternatives. What is no branch with counts is not asked.
-/
def isAligned (location count : Json) : Bool :=
  match location, count with
  | .obj fields, .arr counts =>
    (alternatives? fields).all fun alternatives => counts.length = alternatives.length
  | _, _ => true

/-- Every branch with a valid count has as many counts as alternatives. -/
def Contributor.IsAligned (c : Contributor) : Prop :=
  ∀ location ∈ tableAt c.fields LocationTable.branches.locationsKey,
    ∀ count ∈ OrderedMap.get? (tableAt c.fields LocationTable.branches.countsKey) location.1,
      LocationTable.branches.validCount count = true → isAligned location.2 count = true

instance (c : Contributor) : Decidable c.IsAligned :=
  inferInstanceAs (Decidable (∀ location ∈ tableAt c.fields LocationTable.branches.locationsKey,
    ∀ count ∈ OrderedMap.get? (tableAt c.fields LocationTable.branches.countsKey) location.1,
      LocationTable.branches.validCount count = true → isAligned location.2 count = true))

/-- A branch that is told by its alternatives and has as many counts. -/
def Entry.IsAligned (entry : Entry) : Prop :=
  ∃ type keys counts, entry.identity = .branch type keys ∧
    branchOf? entry.location = some entry.identity ∧ entry.count = .arr counts ∧
    counts.all isHits = true ∧ counts.length = keys.length

theorem exists_of_mem_zipWith {α β γ : Type} {f : α → β → γ} {as : List α} {bs : List β} {v : γ}
    (h : v ∈ List.zipWith f as bs) : ∃ a b, v = f a b := by
  rw [← List.map_uncurry_zip_eq_zipWith] at h
  obtain ⟨⟨a, b⟩, -, rfl⟩ := List.mem_map.1 h
  exact ⟨a, b, rfl⟩

/-- Hits are added up position by position. -/
theorem hitsAtPosition_zipWith {as bs : List Json} (hlength : as.length = bs.length) (i : Nat) :
    hitsAtPosition (.arr (List.zipWith (fun a b => .int (hits a + hits b)) as bs)) i =
      hitsAtPosition (.arr as) i + hitsAtPosition (.arr bs) i := by
  simp only [hitsAtPosition, List.getElem?_zipWith]
  rcases ha : as[i]? with _ | a
  · have hb : bs[i]? = none := by
      rw [List.getElem?_eq_none_iff] at ha ⊢
      omega
    rw [hb]
    rfl
  · obtain ⟨b, hb⟩ : ∃ b, bs[i]? = some b := by
      obtain ⟨hi, -⟩ := List.getElem?_eq_some_iff.1 ha
      exact ⟨bs[i], List.getElem?_eq_getElem (hlength ▸ hi)⟩
    rw [hb]
    rfl

/-- Branches that are told alike have equally many counts, so their hits can be added up. -/
theorem additive_hitsAtPosition (i : Nat) :
    Additive Entry.IsAligned fun entry => hitsAtPosition entry.count i := by
  have hplus : ∀ {row entry : Entry}, row.IsAligned → entry.IsAligned →
      row.identity = entry.identity → ∃ as bs, row.count = .arr as ∧ entry.count = .arr bs ∧
        as.length = bs.length ∧ (row.plus entry).count =
          .arr (List.zipWith (fun a b => .int (hits a + hits b)) as bs) := by
    rintro row entry ⟨type, keys, as, hidentity, -, has, hashits, haslength⟩
      ⟨type', keys', bs, hidentity', -, hbs, hbshits, hbslength⟩ hsame
    rw [hidentity, hidentity'] at hsame
    obtain ⟨rfl, rfl⟩ := Identity.branch.inj hsame
    have hlength : as.length = bs.length := haslength.trans hbslength.symm
    refine ⟨as, bs, has, hbs, hlength, ?_⟩
    simp [Entry.plus, addCounts?, has, hbs, hashits, hbshits, hlength]
  constructor
  · intro row entry hrow hentry hsame
    obtain ⟨as, bs, has, -, hlength, hcount⟩ := hplus hrow hentry hsame
    obtain ⟨type, keys, counts, hidentity, hlocation, hcounts, -, hkeys⟩ := hrow
    obtain rfl := Json.arr.inj (has.symm.trans hcounts)
    refine ⟨type, keys, _, hidentity, hlocation, hcount, List.all_eq_true.2 fun v hv => ?_, ?_⟩
    · obtain ⟨a, b, rfl⟩ := exists_of_mem_zipWith hv
      rfl
    · rw [List.length_zipWith, ← hlength, Nat.min_self, hkeys]
  · intro row entry hrow hentry hsame
    obtain ⟨as, bs, has, hbs, hlength, hcount⟩ := hplus hrow hentry hsame
    rw [hcount, has, hbs, hitsAtPosition_zipWith hlength]

/-! ### The branches of contributors -/

variable {atlas : Atlas Resolver} {enforceBounds : Bool} {report : Report} {destination : Text}

/-- An entry that a contributor brings is aligned when the branch in its file is. -/
theorem isAligned_of_mem_contribution {c : Contributor} {contribution : Contribution}
    (haligned : c.IsAligned)
    (hc : c.contribution destination enforceBounds .branches = .ok contribution)
    {item : Text × Entry} (hitem : item ∈ contribution.entries) : item.2.IsAligned := by
  obtain ⟨-, hentries⟩ := Contributor.contribution_eq_ok_iff.1 hc
  obtain ⟨hcount, hvalid, raw, hraw, hlifted⟩ :=
    exists_location_of_mem_keptEntries hentries hitem
  have hplain : ∀ location range, boundedMap c.resolver destination
      (c.lineBound destination enforceBounds) location = .ok (some range) → range.HasPlainKeys :=
    fun _ _ hrange => (legal_of_boundedMap hrange).hasPlainKeys
  have htold := branchOf?_of_liftBranch hplain hlifted
  obtain ⟨fields, alternatives, written, items, keys, rfl, halternatives, -, hm, -, -, hlength,
    -⟩ := exists_members_of_liftBranch hplain hlifted
  obtain ⟨counts, hcounts, hhits⟩ : ∃ counts, item.2.count = .arr counts ∧
      counts.all isHits = true := by
    cases hitemcount : item.2.count with
    | arr counts =>
      rw [hitemcount] at hvalid
      exact ⟨counts, rfl, hvalid⟩
    | _ =>
      rw [hitemcount] at hvalid
      cases hvalid
  refine ⟨_, keys, counts, (LiftedLocation.mk.inj hm).2, htold, hcounts, hhits, ?_⟩
  have hsame := haligned _ hraw _ hcount hvalid
  rw [hcounts] at hsame
  simp only [isAligned, halternatives, Option.all_some, decide_eq_true_eq] at hsame
  exact hsame.trans hlength.symm

/-- The hits at a position of a contributor's branches of an identity. -/
def Contribution.branchHits (c : Contribution) (identity : Identity) (i : Nat) : Int :=
  ((c.entries.filter fun item => item.2.identity = identity).map
    fun item => hitsAtPosition item.2.count i).sum

theorem Contribution.weightOf_values (c : Contribution) (identity : Identity) (i : Nat) :
    weightOf (fun entry => hitsAtPosition entry.count i) identity (OrderedMap.values c.entries) =
      c.branchHits identity i := by
  rw [weightOf, OrderedMap.values, List.filter_map, List.map_map, branchHits]
  rfl

/-- The hits at a position of the branches of an identity in a table. -/
def branchHits (locations counts : OrderedMap Text Json) (identity : Identity) (i : Nat) : Int :=
  ((locations.filter fun location => branchOf? location.2 = some identity).map fun location =>
    hitsAtPosition ((OrderedMap.get? counts location.1).getD .null) i).sum

/-- The branches of an identity in a table are its rows of that identity. -/
theorem HasRows.branchHits_eq {fields : OrderedMap Text Json} {rows : OrderedMap Text Entry}
    (h : HasRows fields .branches rows) (haligned : ∀ row ∈ OrderedMap.values rows, row.IsAligned)
    (identity : Identity) (i : Nat) :
    branchHits (tableAt fields LocationTable.branches.locationsKey)
        (tableAt fields LocationTable.branches.countsKey) identity i =
      weightOf (fun entry => hitsAtPosition entry.count i) identity (OrderedMap.values rows) := by
  have htold : rows.filter (fun row => branchOf? row.2.location = some identity) =
      rows.filter fun row => row.2.identity = identity := by
    refine List.filter_congr fun row hrow => ?_
    obtain ⟨_, _, _, -, hlocation, -⟩ := haligned row.2 (List.mem_map_of_mem hrow)
    exact decide_eq_decide.2 (by rw [hlocation, Option.some.injEq])
  rw [branchHits, h.locations, weightOf, OrderedMap.values, List.filter_map, List.filter_map,
    List.map_map, List.map_map]
  refine congrArg List.sum ?_
  refine (congrArg (List.map _) htold).trans (List.map_congr_left fun row hrow => ?_)
  exact congrArg (fun count => hitsAtPosition (count.getD .null) i)
    (h.get?_counts (List.mem_filter.1 hrow).1)

/-- A branch of a table of aligned rows has as many counts as alternatives. -/
theorem HasRows.exists_counts {fields : OrderedMap Text Json} {rows : OrderedMap Text Entry}
    (h : HasRows fields .branches rows) (haligned : ∀ row ∈ OrderedMap.values rows, row.IsAligned)
    {id : Text} {location : Json}
    (hlocation : OrderedMap.get? (tableAt fields LocationTable.branches.locationsKey) id =
      some location) :
    ∃ items counts type keys,
      OrderedMap.get? location.fieldsOrEmpty ("locations" : Text) = some (.arr items) ∧
      OrderedMap.get? (tableAt fields LocationTable.branches.countsKey) id = some (.arr counts) ∧
      counts.all isHits = true ∧ counts.length = items.length ∧
      branchOf? location = some (.branch type keys) := by
  rw [h.locations, OrderedMap.get?_map Entry.location] at hlocation
  obtain ⟨row, hrow, rfl⟩ := Option.map_eq_some_iff.1 hlocation
  have hmem := OrderedMap.mem_of_get?_eq_some hrow
  obtain ⟨type, keys, counts, hidentity, htold, hcount, hhits, hlength⟩ :=
    haligned row (List.mem_map_of_mem hmem)
  obtain ⟨items, keys', hitems, hlength', hidentity'⟩ := exists_of_branchOf?_eq_some htold
  obtain ⟨-, rfl⟩ := Identity.branch.inj (hidentity.symm.trans hidentity')
  exact ⟨items, counts, type, keys, hitems, hcount ▸ h.get?_counts hmem, hhits,
    hlength.trans hlength', hidentity ▸ htold⟩

/-- **Branch hits stay with their alternatives**: where a destination has no coverage of its own and
all branches that move there are aligned, its branches are aligned as well, and at every position the
branches of an identity have together the hits of the branches of that identity that the contributors
brought. -/
theorem branchHits_remap (herror : (remap atlas enforceBounds report).error = none)
    (hunseeded : seedAt (stayingOf atlas report) destination = none)
    (haligned : ∀ c ∈ contributorsTo atlas destination report, c.IsAligned) :
    ∃ rest, Brings destination enforceBounds (contributorsTo atlas destination report) rest ∧
      (∀ id location,
        OrderedMap.get? (tableAt (coverageAt (remap atlas enforceBounds report).report destination)
          LocationTable.branches.locationsKey) id = some location →
        ∃ items counts type keys,
          OrderedMap.get? location.fieldsOrEmpty ("locations" : Text) = some (.arr items) ∧
          OrderedMap.get? (tableAt (coverageAt (remap atlas enforceBounds report).report destination)
            LocationTable.branches.countsKey) id = some (.arr counts) ∧
          counts.all isHits = true ∧ counts.length = items.length ∧
          branchOf? location = some (.branch type keys)) ∧
      ∀ identity i,
        branchHits
            (tableAt (coverageAt (remap atlas enforceBounds report).report destination)
              LocationTable.branches.locationsKey)
            (tableAt (coverageAt (remap atlas enforceBounds report).report destination)
              LocationTable.branches.countsKey) identity i =
          (rest.map fun per => (per.get .branches).branchHits identity i).sum := by
  obtain ⟨rest, hrest⟩ := exists_brings herror destination
  obtain ⟨rows, hrows, hvalues⟩ := exists_rows_of_unseeded herror hunseeded hrest .branches
  have hentries : ∀ entries ∈ rest.map fun per => OrderedMap.values (per.get .branches).entries,
      ∀ entry ∈ entries, entry.IsAligned := by
    refine List.forall_mem_map.2 fun per hper => List.forall_mem_map.2 fun item hitem => ?_
    obtain ⟨c, hc, hcontribution⟩ := exists_left_of_mem hrest hper
    exact isAligned_of_mem_contribution (haligned c hc) (hcontribution .branches) hitem
  have hkept : ∀ row ∈ OrderedMap.values rows, row.IsAligned := by
    rw [hvalues]
    exact forall_foldl_absorb (additive_hitsAtPosition 0).holds hentries
  refine ⟨rest, hrest, fun _ _ hlocation => hrows.exists_counts hkept hlocation,
    fun identity i => ?_⟩
  rw [hrows.branchHits_eq hkept, hvalues,
    weightOf_foldl_absorb (additive_hitsAtPosition i) hentries, List.map_map]
  exact congrArg List.sum (List.map_congr_left fun per _ =>
    (per.get .branches).weightOf_values identity i)

/-- Two copies of a branch, in one of which an alternative comes from no line and borrows the range of
the other one. -/
theorem branchHits_remap_of_borrowed_range :
    let atlas : Atlas Resolver := ⟨[("a.js", .copyOf "a.ts"), ("b.js", .copyOf "a.ts")]⟩
    let copy (second : Int) (counts : List Json) : Json := .obj [
      ("branchMap", .obj [("0", .obj [("type", .str "if"),
        ("locations", .arr [onLine 1, onLine second])])]),
      ("b", .obj [("0", .arr counts)])]
    let report : Report := [("a.js", copy 0 [.int 1, .int 2]), ("b.js", copy 1 [.int 10, .int 20])]
    let coverage := coverageAt (remap atlas true report).report "a.ts"
    let region : RangeKey := ⟨1, 0, 1, 0⟩
    (remap atlas true report).error = none ∧
      branchHits (tableAt coverage "branchMap") (tableAt coverage "b")
        (.branch (.str "if") [region, region]) 1 = 22 := by
  intro atlas copy report coverage region
  have herror : (remap atlas true report).error = none := rfl
  have hunseeded : seedAt (stayingOf atlas report) "a.ts" = none := rfl
  obtain ⟨rest, hrest, -, hhits⟩ := branchHits_remap herror hunseeded (by decide)
  obtain ⟨a, others, ha, hothers, rfl⟩ := List.forall₂_cons_left_iff.1 hrest
  obtain ⟨b, others, hb, hnone, rfl⟩ := List.forall₂_cons_left_iff.1 hothers
  obtain rfl := List.forall₂_nil_left_iff.1 hnone
  refine ⟨herror, (hhits _ _).trans ?_⟩
  rw [List.map_cons, List.map_cons, Except.ok.inj ((ha .branches).symm.trans rfl),
    Except.ok.inj ((hb .branches).symm.trans rfl)]
  rfl

end CoverageLift
