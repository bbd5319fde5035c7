import CoverageLift.Proofs.Remap.Lifting
import CoverageLift.Proofs.Remap.Tables

/-!
# Ranges of a destination are legal

A lifted range has a legal start, and the end is legal and not before it, whatever the resolver
answers: illegal positions count as none, and the start stands in for an end that cannot be taken. A
range that leaves the destination or its known lines is refused.

All ranges of a lifted entry are ranges that were lifted (`allRanges_liftEntry`): the body of a
function may be its declaration and an alternative may be the anchor, but those have been lifted
too. So every range that a contributor brings to a destination is legal and within its lines.
-/

namespace CoverageLift

/-! ### Legal ranges -/

/-- The numbers of a range of a source: lines from one and columns from zero, the end not before the
start, and no line after the last one, when that is known. -/
structure RangeKey.Legal (lastLine : Option Int) (key : RangeKey) : Prop where
  startLine_pos : 1 ≤ key.startLine
  startColumn_nonneg : 0 ≤ key.startColumn
  stopLine_pos : 1 ≤ key.stopLine
  stopColumn_nonneg : 0 ≤ key.stopColumn
  ordered : key.startLine < key.stopLine ∨
    key.startLine = key.stopLine ∧ key.startColumn ≤ key.stopColumn
  bounded : ∀ n ∈ lastLine, key.startLine ≤ n ∧ key.stopLine ≤ n

/-- A legal range whose points have no other members. -/
structure Range.Legal (lastLine : Option Int) (r : Range) : Prop where
  start_extras : r.start.extras = []
  stop_extras : r.stopOrStart.extras = []
  key : r.key.Legal lastLine

/-- The object of a point without other members. -/
def pointObject (line column : Int) : Json := .obj [("line", .int line), ("column", .int column)]

/-- An object with the start and the end of a legal range. -/
def IsLegalRange (lastLine : Option Int) (v : Json) : Prop :=
  ∃ (fields : OrderedMap Text Json) (key : RangeKey), v = .obj fields ∧
    OrderedMap.get? fields ("start" : Text) = some (pointObject key.startLine key.startColumn) ∧
    OrderedMap.get? fields ("end" : Text) = some (pointObject key.stopLine key.stopColumn) ∧
    key.Legal lastLine

theorem Point.toJson_of_extras {p : Point} (h : p.extras = []) :
    p.toJson = pointObject p.line p.column := by
  rw [Point.toJson, h]
  rfl

/-- An object that is given a legal range has one. -/
theorem isLegalRange_atRange {lastLine : Option Int} {r : Range} (h : r.Legal lastLine)
    (raw : Json) : IsLegalRange lastLine (atRange raw r) := by
  have hne : ("end" : Text) ≠ "start" := by decide
  refine ⟨_, r.key, rfl, ?_, ?_, h.key⟩
  · rw [OrderedMap.get?_insert, if_neg hne, OrderedMap.get?_insert, if_pos rfl,
      Point.toJson_of_extras h.start_extras]
    rfl
  · rw [OrderedMap.get?_insert, if_pos rfl, Point.toJson_of_extras h.stop_extras]
    rfl

/-! ### Lifted ranges -/

section Lift

variable {r : Resolver} {location : Range}

/-- The position of a point is legal, whatever the resolver answers. -/
theorem legal_of_liftPoint {p : Point} {position : Position}
    (h : liftPoint r p = .ok (some position)) : 1 ≤ position.line ∧ 0 ≤ position.column := by
  rw [liftPoint] at h
  split at h
  · split at h
    · split at h <;> cases h
    · cases h
    · split at h
      · cases h
      · next hlegal =>
        obtain rfl := Option.some.inj (Except.ok.inj h)
        omega
  · cases h

/-- The end that is taken is the start or the end that was lifted, and it is not before the start.
-/
theorem chooseStop_cases (start : Position) (stop : Option Position) :
    (chooseStop start stop = start ∨ stop = some (chooseStop start stop)) ∧
      (chooseStop start stop).before start = false := by
  have hself : start.before start = false := by simp [Position.before]
  rcases stop with _ | p
  · exact ⟨.inl rfl, hself⟩
  · rw [chooseStop]
    split
    · exact ⟨.inl rfl, hself⟩
    · next h => exact ⟨.inr rfl, Bool.eq_false_iff.2 fun hbefore => h (.inr hbefore)⟩

theorem ordered_of_not_before {a b : Position} (h : b.before a = false) :
    a.line < b.line ∨ a.line = b.line ∧ a.column ≤ b.column := by
  simp only [Position.before, Bool.or_eq_false_iff, Bool.and_eq_false_iff,
    decide_eq_false_iff_not] at h
  omega

/-- A lifted range is legal. -/
theorem legal_of_liftRange {lifted : LiftedRange} (h : liftRange r location = .ok (some lifted)) :
    lifted.range.Legal none := by
  obtain ⟨start, stop, hstart, hstop, rfl⟩ := exists_of_liftRange h
  obtain ⟨hcases, hbefore⟩ := chooseStop_cases start stop
  have hstart := legal_of_liftPoint hstart
  -- the end is legal because it is the start or was lifted itself
  have hchosen : 1 ≤ (chooseStop start stop).line ∧ 0 ≤ (chooseStop start stop).column := by
    rcases hcases with heq | heq
    · rwa [heq]
    · obtain ⟨p, hp⟩ := hstop _ heq
      exact legal_of_liftPoint hp
  exact ⟨rfl, rfl, hstart.1, hstart.2, hchosen.1, hchosen.2, ordered_of_not_before hbefore,
    fun _ h => nomatch h⟩

/-- A range that is not refused is legal, and its lines are within the bound. -/
theorem legal_of_boundedMap {destination : Text} {bound : Option Int} {range : Range}
    (h : boundedMap r destination bound location = .ok (some range)) : range.Legal bound := by
  obtain ⟨lifted, hlifted, -, rfl, hlines⟩ := exists_of_boundedMap h
  have hlegal := legal_of_liftRange hlifted
  exact ⟨hlegal.start_extras, hlegal.stop_extras,
    { hlegal.key with bounded := fun n hn => Int.max_le.1 (hlines n hn) }⟩

end Lift

/-! ### The ranges of an entry -/

/-- Whether something holds of all ranges of an entry: of a statement itself, of the body of a
function and of its declaration if it has one, and of the alternatives of a branch and of the whole
if it has one. -/
def LocationTable.AllRanges (P : Json → Prop) : LocationTable → Json → Prop
  | statements, v => P v
  | functions, v => ∃ fields, v = .obj fields ∧
      (∃ loc, OrderedMap.get? fields ("loc" : Text) = some loc ∧ P loc) ∧
      ∀ decl, present? fields "decl" = some decl → P decl
  | branches, v => ∃ fields, v = .obj fields ∧
      (∃ items, OrderedMap.get? fields ("locations" : Text) = some (.arr items) ∧
        ∀ item ∈ items, P item) ∧
      ∀ loc, OrderedMap.get? fields ("loc" : Text) = some loc → P loc

section Entries

variable {P : Range → Prop} {Q : Json → Prop} {remap : RangeMap} {raw : Json} {m : LiftedLocation}
  (hQ : ∀ raw range, P range → Q (atRange raw range))
  (hP : ∀ location range, remap location = .ok (some range) → P range)

section Yields

include hP

/-- A lifted range is one that the map yields. -/
theorem holds_of_remapped {location : Option Range} {range : Range}
    (h : remap.apply? location = .ok (some range)) : P range := by
  cases location with
  | none => cases h
  | some location => exact hP location range h

/-- The ranges of a lifted function are ranges that the map yields: its body is its declaration or
was lifted too. -/
theorem exists_holds_of_liftFunction (h : liftFunction remap raw = .ok (some m)) :
    ∃ fields declaration body, raw = .obj fields ∧ P declaration ∧ P body ∧
      (present? fields "decl" = none → body = declaration) ∧
      m = ⟨functionObject fields declaration body, .function declaration.key body.key⟩ := by
  obtain ⟨fields, declaration, body, hraw, -, hdeclaration, hbody, hm⟩ := exists_of_liftFunction h
  have hdeclaration := holds_of_remapped hP hdeclaration
  refine ⟨fields, declaration, _, hraw, hdeclaration, ?_, fun hnone => ?_, hm⟩
  · cases body with
    | none => exact hdeclaration
    | some range =>
      split at hbody
      · exact holds_of_remapped hP hbody
      · cases hbody
  · rw [hnone] at hbody
    obtain rfl := Except.ok.inj hbody
    rfl

/-- The ranges of a lifted branch are ranges that the map yields: the anchor, which stands in for
those that cannot be lifted, was lifted too. -/
theorem exists_holds_of_liftBranch (h : liftBranch remap raw = .ok (some m)) :
    ∃ fields items ranges whole, raw = .obj fields ∧ alternatives? fields = some items ∧
      isBranch fields = true ∧ ranges.length = items.length ∧ (∀ range ∈ ranges, P range) ∧
      P whole ∧
      m = ⟨branchObject fields (items.zip ranges) whole,
        .branch (branchType fields) (ranges.map Range.key)⟩ := by
  obtain ⟨fields, items, lifted, loc, anchor, hraw, hitems, hbranch, hlifted, hloc, hanchor, hm⟩ :=
    exists_of_liftBranch h
  have hlifted := mapM_eq_ok_iff.1 hlifted
  have halternative : ∀ range, some range ∈ lifted → P range := by
    intro range hmem
    obtain ⟨v, -, hv⟩ := exists_left_of_mem hlifted hmem
    exact holds_of_remapped hP hv
  have hwhole : ∀ range, loc = some range → P range := by
    rintro range rfl
    exact holds_of_remapped hP hloc
  have hanchor : P anchor := by
    rcases Option.or_eq_some_iff.1 hanchor with hfound | ⟨-, hfound⟩
    · obtain ⟨item, hmem, rfl⟩ := List.exists_of_findSome?_eq_some hfound
      exact halternative _ hmem
    · exact hwhole _ hfound
  have hgetD : ∀ option : Option Range, (∀ range, option = some range → P range) →
      P (option.getD anchor) := by
    rintro (_ | range) hrange
    · exact hanchor
    · exact hrange range rfl
  refine ⟨fields, items, _, _, hraw, hitems, hbranch, ?_, fun range hrange => ?_,
    hgetD loc hwhole, hm⟩
  · rw [List.length_map, hlifted.length_eq]
  · obtain ⟨option, hmem, rfl⟩ := List.mem_map.1 hrange
    exact hgetD option fun range hrange => halternative range (hrange ▸ hmem)

end Yields

include hQ

/-- The body and the declaration in the object of a function. -/
theorem allRanges_functionObject (fields : OrderedMap Text Json) {declaration body : Range}
    (hdeclaration : P declaration) (hbody : P body) :
    LocationTable.functions.AllRanges Q (functionObject fields declaration body) := by
  refine ⟨(functionObject fields declaration body).fieldsOrEmpty, rfl, ?_, fun decl hdecl => ?_⟩
  · rw [get?_functionObject, if_neg (by decide), if_pos rfl]
    exact ⟨_, rfl, hQ _ _ hbody⟩
  · rw [present?, get?_functionObject, if_neg (by decide), if_neg (by decide), if_pos rfl] at hdecl
    rcases hpresent : present? fields "decl" with _ | old
    · rw [hpresent] at hdecl
      cases hpresent.symm.trans hdecl
    · rw [hpresent] at hdecl
      obtain rfl := Option.some.inj hdecl
      exact hQ old _ hdeclaration

/-- The alternatives and the whole in the object of a branch. -/
theorem allRanges_branchObject (fields : OrderedMap Text Json)
    {alternatives : List (Json × Range)} {whole : Range}
    (halternatives : ∀ alternative ∈ alternatives, P alternative.2) (hwhole : P whole) :
    LocationTable.branches.AllRanges Q (branchObject fields alternatives whole) := by
  refine ⟨(branchObject fields alternatives whole).fieldsOrEmpty, rfl, ?_, fun loc hloc => ?_⟩
  · rw [get?_branchObject, if_neg (by decide), if_neg (by decide), if_pos rfl]
    refine ⟨_, rfl, fun item hitem => ?_⟩
    obtain ⟨alternative, halternative, rfl⟩ := List.mem_map.1 hitem
    exact hQ _ _ (halternatives _ halternative)
  · rw [get?_branchObject, if_neg (by decide), if_pos rfl] at hloc
    obtain ⟨old, -, rfl⟩ := Option.map_eq_some_iff.1 hloc
    exact hQ _ _ hwhole

include hP

theorem allRanges_liftStatement (h : liftStatement remap raw = .ok (some m)) :
    LocationTable.statements.AllRanges Q m.location := by
  obtain ⟨range, hrange, rfl⟩ := exists_of_liftStatement h
  exact hQ raw range (holds_of_remapped hP hrange)

theorem allRanges_liftFunction (h : liftFunction remap raw = .ok (some m)) :
    LocationTable.functions.AllRanges Q m.location := by
  obtain ⟨fields, declaration, body, -, hdeclaration, hbody, -, rfl⟩ :=
    exists_holds_of_liftFunction hP h
  exact allRanges_functionObject hQ fields hdeclaration hbody

theorem allRanges_liftBranch (h : liftBranch remap raw = .ok (some m)) :
    LocationTable.branches.AllRanges Q m.location := by
  obtain ⟨fields, items, ranges, whole, -, -, -, -, hranges, hwhole, rfl⟩ :=
    exists_holds_of_liftBranch hP h
  exact allRanges_branchObject hQ fields
    (fun _ halternative => hranges _ (List.of_mem_zip halternative).2) hwhole

/-- All ranges of a lifted entry are ranges that the map yields. -/
theorem allRanges_liftEntry {table : LocationTable} (h : table.liftEntry remap raw = .ok (some m)) :
    table.AllRanges Q m.location := by
  cases table with
  | statements => exact allRanges_liftStatement hQ hP h
  | functions => exact allRanges_liftFunction hQ hP h
  | branches => exact allRanges_liftBranch hQ hP h

end Entries

/-! ### The entries of a destination -/

/-- The last line that a contributor may reach in the destination, if there is a bound. -/
def Contributor.lineBound (c : Contributor) (destination : Text) (enforceBounds : Bool) :
    Option Int :=
  if enforceBounds then c.resolver.lastLine destination else none

variable {atlas : Atlas Resolver} {enforceBounds : Bool} {report : Report} {destination : Text}

/-- An entry of a contributor is one of its locations that has been lifted, and all its ranges are
legal. -/
theorem exists_location_of_contribution {c : Contributor} {table : LocationTable}
    {contribution : Contribution} {item : Text × Entry}
    (h : c.contribution destination enforceBounds table = .ok contribution)
    (hitem : item ∈ contribution.entries) :
    ∃ raw, (item.1, raw) ∈ tableAt c.fields table.locationsKey ∧
      table.AllRanges (IsLegalRange (c.lineBound destination enforceBounds)) item.2.location := by
  obtain ⟨-, hentries⟩ := Contributor.contribution_eq_ok_iff.1 h
  obtain ⟨-, -, raw, hraw, hlifted⟩ := exists_location_of_mem_keptEntries hentries hitem
  exact ⟨raw, hraw, allRanges_liftEntry (fun raw _ hlegal => isLegalRange_atRange hlegal raw)
    (fun _ _ hrange => legal_of_boundedMap hrange) hlifted⟩

/-- **Ranges are legal**: a location of coverage that is written at a destination stood in the seed,
or it is that of an entry of a contributor and all its ranges are legal and within the lines of the
destination, as far as bounds are enforced and the resolver of the contributor knows them. -/
theorem allRanges_of_written {fields : OrderedMap Text Json}
    (h : (destination, some fields) ∈ writesOf atlas enforceBounds report) :
    OrderedMap.get? (remap atlas enforceBounds report).report destination = some (.obj fields) ∧
      ∃ brought, contributions destination enforceBounds
          (seedAt (stayingOf atlas report) destination)
          (contributorsTo atlas destination report) = .ok brought ∧
        ∀ (table : LocationTable) (locations : OrderedMap Text Json) (id : Text) (location : Json),
          OrderedMap.get? fields table.locationsKey = some (.obj locations) →
          OrderedMap.get? locations id = some location →
          (∃ old seed, originOf table brought id = some (0, old) ∧
            seedAt (stayingOf atlas report) destination = some seed ∧
            (old, location) ∈ tableAt seed table.locationsKey) ∨
          ∃ n old c raw, originOf table brought id = some (n + 1, old) ∧
            (contributorsTo atlas destination report)[n]? = some c ∧
            (old, raw) ∈ tableAt c.fields table.locationsKey ∧
            table.AllRanges (IsLegalRange (c.lineBound destination enforceBounds)) location := by
  obtain ⟨-, brought, hbrought, hcoverage⟩ := mem_writesOf h
  refine ⟨get?_remap_of_mem h, brought, hbrought, ?_⟩
  intro table locations id location hlocations hid
  obtain rfl := eq_destinationObject_of_coverageOf hcoverage.symm
  rw [(get?_destinationObject _ _ _ table).1] at hlocations
  obtain rfl := Json.obj.inj (Option.some.inj hlocations)
  obtain ⟨number, per, old, entry, horigin, hper, hentry, rfl⟩ := exists_originOf hid
  obtain ⟨first, rest, hfirst, hrest, rfl⟩ := contributions_eq_ok_iff.1 hbrought
  cases number with
  | zero =>
    obtain rfl := Option.some.inj hper
    left
    rcases hseed : seedAt (stayingOf atlas report) destination with _ | seed
    · rw [hseed] at hfirst
      obtain rfl := Except.ok.inj hfirst
      rw [PerTable.get_ofFunction] at hentry
      exact absurd hentry List.not_mem_nil
    · rw [hseed] at hfirst
      obtain ⟨-, hentries⟩ := seedContribution_some_eq_ok_iff.1 hfirst table
      obtain ⟨-, hlocation, -⟩ := exists_location_of_mem_countedEntries hentries hentry
      exact ⟨old, seed, horigin, rfl, hlocation⟩
  | succ n =>
    obtain ⟨c, hc, hcontribution⟩ := exists_left_of_getElem? hrest hper
    obtain ⟨raw, hraw, hlegal⟩ := exists_location_of_contribution (hcontribution table) hentry
    exact .inr ⟨n, old, c, raw, horigin, hc, hraw, hlegal⟩

/-- The range between two positions of a generated file. -/
def rangeObject (startLine startColumn stopLine stopColumn : Int) : Json :=
  .obj [("start", pointObject startLine startColumn), ("end", pointObject stopLine stopColumn)]

/-- A resolver that answers with an illegal position, one of another source, one past the last
line, one before the start of its range and a failure: what is left is legal. -/
theorem allRanges_of_wayward_resolver :
    let resolver := Resolver.ofTable ["a.ts"]
      [((1, 0), .ok ⟨"a.ts", 5, 2⟩), ((1, 9), .ok ⟨"a.ts", 3, 0⟩), ((2, 0), .ok ⟨"a.ts", 0, -1⟩),
        ((3, 0), .error ⟨.badIndex, "3"⟩), ((4, 0), .ok ⟨"b.ts", 1, 0⟩),
        ((5, 0), .ok ⟨"a.ts", 7, 0⟩)] [("a.ts", 6)]
    let atlas : Atlas Resolver := ⟨[("a.js", resolver)]⟩
    let report : Report := [("a.js", .obj [
      ("statementMap", .obj [("0", rangeObject 1 0 1 9), ("1", rangeObject 2 0 2 9),
        ("2", rangeObject 5 0 5 9)]),
      ("s", .obj [("0", .int 1), ("1", .int 1), ("2", .int 1)]),
      ("fnMap", .obj [("0", .obj [("decl", rangeObject 1 0 3 0), ("loc", rangeObject 4 0 4 9)])]),
      ("f", .obj [("0", .int 1)]),
      ("branchMap", .obj [("0", .obj [("loc", rangeObject 1 0 1 9),
        ("locations", .arr [rangeObject 3 0 3 9, .null])])]),
      ("b", .obj [("0", .arr [.int 1, .int 0])])])]
    ∃ fields, (("a.ts" : Text), some fields) ∈ writesOf atlas true report ∧
      ∀ (table : LocationTable) (locations : OrderedMap Text Json) (id : Text) (location : Json),
        OrderedMap.get? fields table.locationsKey = some (.obj locations) →
        OrderedMap.get? locations id = some location →
        table.AllRanges (IsLegalRange (some 6)) location := by
  intro resolver atlas report
  have hwritten : (("a.ts" : Text), some _) ∈ writesOf atlas true report := List.mem_cons_self
  obtain ⟨-, brought, -, hranges⟩ := allRanges_of_written hwritten
  refine ⟨_, hwritten, fun table locations id location hlocations hid => ?_⟩
  rcases hranges table locations id location hlocations hid with
    ⟨old, seed, -, hseed, -⟩ | ⟨n, old, c, raw, -, hc, -, hlegal⟩
  · cases hseed
  · -- there is one contributor
    cases n with
    | zero =>
      obtain rfl := Option.some.inj hc
      exact hlegal
    | succ n => cases hc

end CoverageLift
