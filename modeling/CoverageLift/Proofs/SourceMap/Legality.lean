import CoverageLift.Proofs.SourceMap.Lookup
import CoverageLift.Proofs.SourceMap.RoundTrip
import CoverageLift.Resolver

/-!
# Maps and answers are legal

While mappings are read, every sum is checked, so a map that is built from a payload names only
sources that it has, and its lines are sorted. Beside `resolve` stands a look-up in separate lists of
columns, targets and sources that can leave each of them (`lookUp`): it searches the columns by
halving, takes the target in that place, and then the source of the target. **In a legal map it never
fails and gives the same answer** (`lookUp_eq_resolve`), and an answer lies in a source that the map
lists (`answers_legal`).
-/

namespace CoverageLift

namespace Mappings

/-! ### Lines that are read -/

variable {count : Nat} {totals totals' : Totals} {s : Segment}

/-- The columns of a line. -/
def columns (line : List Segment) : List Nat := line.map (·.column)

/-- What the segments of a line map to. -/
def targets (line : List Segment) : List (Option Target) := line.map (·.target)

/-- The source of a segment that is read is in range: its sum has been checked. -/
theorem source_lt_of_readTarget {text : Text} {column : Nat} {source line sourceColumn : Int}
    (h : readTarget count text totals column source line sourceColumn = .ok (totals', s)) :
    ∀ t, s.target = some t → t.source < count := by
  rw [readTarget] at h
  split at h
  · cases h
  · next hindex =>
    have hrange := Classical.not_not.1 hindex
    split at h
    · obtain ⟨-, rfl⟩ := Prod.mk.inj (Except.ok.inj h)
      intro t ht
      obtain rfl := Option.some.inj ht
      dsimp only
      omega
    · cases h

theorem source_lt_of_readSegment {text : Text}
    (h : readSegment count totals text = .ok (totals', s)) :
    ∀ t, s.target = some t → t.source < count := by
  rw [readSegment] at h
  split at h
  · cases h
  · split at h
    · -- a segment of one number maps to nothing
      split at h
      · cases h
      · obtain ⟨-, rfl⟩ := Prod.mk.inj (Except.ok.inj h)
        intro t ht
        cases ht
    · split at h
      · split at h
        · cases h
        · exact source_lt_of_readTarget h
      · cases h
    · cases h

theorem namesSources_of_readSegments {texts : List Text} :
    ∀ {totals totals' : Totals} {line : List Segment},
      readSegments count totals texts = .ok (totals', line) → NamesSources count line := by
  induction texts with
  | nil =>
    intro totals totals' line h
    obtain ⟨-, rfl⟩ := Prod.mk.inj (Except.ok.inj h)
    exact fun s hs => absurd hs List.not_mem_nil
  | cons text texts ih =>
    intro totals totals' line h
    rw [readSegments] at h
    split at h
    · cases h
    · next hread =>
      obtain ⟨⟨totals₂, rest⟩, hrest, heq⟩ := map_eq_ok_iff.1 h
      obtain ⟨-, rfl⟩ := Prod.mk.inj heq
      exact List.forall_mem_cons.2 ⟨source_lt_of_readSegment hread, ih hrest⟩

theorem namesSources_of_readLines {texts : List Text} :
    ∀ {number : Nat} {totals : Totals} {lines : List (List Segment)},
      readLines count number totals texts = .ok lines →
      ∀ line ∈ lines, NamesSources count line := by
  induction texts with
  | nil =>
    intro number totals lines h
    obtain rfl := Except.ok.inj h
    exact fun line hline => absurd hline List.not_mem_nil
  | cons text texts ih =>
    intro number totals lines h
    rw [readLines] at h
    split at h
    · cases h
    · next hread =>
      obtain ⟨rest, hrest, rfl⟩ := map_eq_ok_iff.1 h
      exact List.forall_mem_cons.2 ⟨namesSources_of_readSegments hread, ih hrest⟩

/-! ### Searching by halving -/

/-- Where a look-up leaves a list. -/
inductive LookupFault
  | column (index : Nat)
  | target (index : Nat)
  | source (index : Nat)

/-- The number of columns up to `column`. The columns in front of `low` are among them, and those
from `high` on are not; the part between is halved until nothing is left of it. -/
def bisect (columns : List Nat) (column low high : Nat) : Except LookupFault Nat :=
  if low < high then
    let middle := (low + high) / 2
    match columns[middle]? with
    | none => .error (.column middle)
    | some c =>
      if column < c then bisect columns column low middle else bisect columns column (middle + 1) high
  else .ok low
termination_by high - low

/-- The search ends at the place that parts the columns, if there is one between its bounds. -/
theorem bisect_eq {columns : List Nat} {column place : Nat}
    (hbefore : ∀ i c, columns[i]? = some c → i < place → c ≤ column)
    (hbehind : ∀ i c, columns[i]? = some c → place ≤ i → column < c) {low high : Nat}
    (hlow : low ≤ place) (hhigh : place ≤ high) (hlength : high ≤ columns.length) :
    bisect columns column low high = .ok place := by
  induction low, high using bisect.induct columns column with
  | case1 low high hlt middle hnone =>
    have hmiddle : middle < columns.length := by omega
    rw [List.getElem?_eq_getElem hmiddle] at hnone
    cases hnone
  | case2 low high hlt middle c hc hcolumn ih =>
    have hplace : place ≤ middle :=
      Nat.not_lt.1 fun hlt => Nat.not_le.2 hcolumn (hbefore middle c hc hlt)
    rw [bisect, if_pos hlt]
    simp only [middle] at hc hplace ih
    simp only [hc, if_pos hcolumn]
    exact ih hlow hplace (by omega)
  | case3 low high hlt middle c hc hcolumn ih =>
    have hplace : middle < place := Nat.not_le.1 fun hle => hcolumn (hbehind middle c hc hle)
    rw [bisect, if_pos hlt]
    simp only [middle] at hc hplace ih
    simp only [hc, if_neg hcolumn]
    exact ih hplace hhigh hlength
  | case4 low high hlt =>
    rw [bisect, if_neg hlt, Nat.le_antisymm hlow (by omega)]

/-- In a sorted line every segment from the first one beyond a column on is beyond it. -/
theorem lt_of_mem_dropWhile {line : List Segment} {column : Nat}
    (hsorted : line.Pairwise fun a b => a.column ≤ b.column) :
    ∀ s ∈ line.dropWhile fun s => s.column ≤ column, column < s.column := by
  induction line with
  | nil => exact fun s hs => absurd hs List.not_mem_nil
  | cons r line ih =>
    obtain ⟨hr, hsorted⟩ := List.pairwise_cons.1 hsorted
    by_cases hcolumn : r.column ≤ column
    · rw [List.dropWhile_cons_of_pos (by simpa using hcolumn)]
      exact ih hsorted
    · rw [List.dropWhile_cons_of_neg (by simpa using hcolumn)]
      have hbeyond := Nat.not_le.1 hcolumn
      exact List.forall_mem_cons.2 ⟨hbeyond, fun s hs => Nat.lt_of_lt_of_le hbeyond (hr s hs)⟩

/-- In sorted columns the search finds how many of them are not beyond the column. -/
theorem bisect_columns {line : List Segment} (hsorted : (columns line).Pairwise (· ≤ ·))
    (column : Nat) :
    bisect (columns line) column 0 (columns line).length =
      .ok (line.takeWhile fun s => s.column ≤ column).length := by
  have hsplit : columns line =
      columns (line.takeWhile fun s => s.column ≤ column) ++
        columns (line.dropWhile fun s => s.column ≤ column) := by
    rw [columns, columns, columns, ← List.map_append, List.takeWhile_append_dropWhile]
  have hlength : (columns (line.takeWhile fun s => s.column ≤ column)).length =
      (line.takeWhile fun s => s.column ≤ column).length := List.length_map _
  refine bisect_eq (fun i c hc hi => ?_) (fun i c hc hi => ?_) (Nat.zero_le _) ?_ (Nat.le_refl _)
  · rw [hsplit, List.getElem?_append_left (by rwa [hlength])] at hc
    obtain ⟨s, hs, rfl⟩ := List.mem_map.1 (List.mem_of_getElem? hc)
    exact of_decide_eq_true (List.all_eq_true.1 List.all_takeWhile s hs)
  · rw [hsplit, List.getElem?_append_right (by rwa [hlength])] at hc
    obtain ⟨s, hs, rfl⟩ := List.mem_map.1 (List.mem_of_getElem? hc)
    exact lt_of_mem_dropWhile (List.pairwise_map.1 hsorted) s hs
  · rw [hsplit, List.length_append, hlength]
    exact Nat.le_add_right _ _

/-- The segment that applies at a column is the last one that is not beyond it. -/
theorem segmentAt?_eq_getElem? (segments : List Segment) (column : Nat) :
    segmentAt? segments column =
      match (segments.takeWhile fun s => s.column ≤ column).length with
      | 0 => none
      | index + 1 => segments[index]? := by
  rw [segmentAt?, List.getLast?_eq_getElem?]
  split
  · next hlength => rw [List.eq_nil_of_length_eq_zero hlength, List.getElem?_nil]
  · next index hlength =>
    have hindex : index < (segments.takeWhile fun s => s.column ≤ column).length := by omega
    rw [hlength, Nat.succ_sub_one, List.getElem?_eq_getElem hindex]
    exact (List.prefix_iff_getElem?.1 (List.takeWhile_prefix _) index hindex).symm

end Mappings

namespace SourceMap

/-! ### Legal maps -/

/-- What the parts of a map promise each other. -/
structure Legal (map : SourceMap) : Prop where
  /-- The columns of a line ascend. -/
  sorted : ∀ line ∈ map.lines, (Mappings.columns line).Pairwise (· ≤ ·)
  /-- A line has as many targets as columns. -/
  aligned : ∀ line ∈ map.lines, (Mappings.columns line).length = (Mappings.targets line).length
  /-- A target names a source of the map, perhaps one without a path. -/
  sources : ∀ line ∈ map.lines, ∀ t, some t ∈ Mappings.targets line → t.source < map.sources.length
  /-- Lines are counted for listed sources only. -/
  counted : ∀ path n, map.lastLine path = some n → path ∈ map.knownSources

variable {map : SourceMap} {payload : Payload} {generated : Text}

theorem mem_knownSources {path : Text} : path ∈ map.knownSources ↔ some path ∈ map.sources := by
  rw [knownSources, List.mem_eraseDups, List.mem_filterMap]
  exact ⟨fun ⟨_, hmem, heq⟩ => heq ▸ hmem, fun hmem => ⟨_, hmem, rfl⟩⟩

/-- A line count belongs to a source, or it was there before. -/
theorem mem_or_of_countContents {sources : List (Option Text)} :
    ∀ {contents : List (Option Text)} {counts : OrderedMap Text Nat} {path : Text} {n : Nat},
      OrderedMap.get? (countContents sources contents counts) path = some n →
      some path ∈ sources ∨ OrderedMap.get? counts path = some n := by
  induction sources with
  | nil => exact fun h => .inr h
  | cons source sources ih =>
    intro contents counts path n h
    rcases contents with _ | ⟨content, contents⟩
    · exact .inr h
    · match source, content with
      | none, _ => exact (ih h).imp_left (List.mem_cons_of_mem _)
      | some _, none => exact (ih h).imp_left (List.mem_cons_of_mem _)
      | some known, some content =>
        obtain hmem | h := ih h
        · exact .inl (List.mem_cons_of_mem _ hmem)
        · rw [OrderedMap.get?_insert] at h
          split at h
          · next heq => exact .inl (heq ▸ List.mem_cons_self)
          · exact .inr h

/-- The line counts of a map that is built from a document. -/
theorem lastLines_of_ofDocument {document : SourceMapDocument}
    (h : ofDocument document generated = .ok map) :
    map.lastLines = countContents map.sources (document.contents.getD []) [] := by
  rw [ofDocument] at h
  split at h
  · cases h
  · dsimp only at h
    split at h
    · cases h
    · obtain rfl := Except.ok.inj h
      rfl

/-- A map that is built from a document is legal. -/
theorem legal_of_ofDocument {document : SourceMapDocument}
    (h : ofDocument document generated = .ok map) : map.Legal := by
  obtain ⟨hsources, lines, hread, hlines⟩ := exists_of_ofDocument h
  have hnames : ∀ line ∈ lines, Mappings.NamesSources map.sources.length line := by
    rw [hsources, List.length_map]
    exact Mappings.namesSources_of_readLines hread
  refine ⟨?_, fun line _ => ?_, ?_, fun path n hn => ?_⟩
  · rw [hlines]
    refine List.forall_mem_map.2 fun line _ => List.pairwise_map.2 ?_
    exact Mappings.pairwise_sortLine line
  · rw [Mappings.columns, Mappings.targets, List.length_map, List.length_map]
  · rw [hlines]
    refine List.forall_mem_map.2 fun line hline t ht => ?_
    obtain ⟨s, hs, htarget⟩ := List.mem_map.1 ht
    exact hnames line hline s (Mappings.mem_sortLine.1 hs) t htarget
  · rw [lastLine, lastLines_of_ofDocument h] at hn
    obtain hmem | hn := mem_or_of_countContents hn
    · exact mem_knownSources.2 hmem
    · cases hn

/-! ### Looking up in separate lists -/

/-- The answer for a generated line (from one) and column (from zero): the columns of the line are
searched, the target is taken from the place before the one that is found, and the path from the
place that the target names. -/
def lookUp (map : SourceMap) (line column : Int) :
    Except Mappings.LookupFault (Option Position) :=
  match map.line? line with
  | none => .ok none
  | some segments =>
    if column < 0 then .ok none
    else
      let columns := Mappings.columns segments
      match Mappings.bisect columns column.toNat 0 columns.length with
      | .error fault => .error fault
      | .ok 0 => .ok none
      | .ok (index + 1) =>
        match (Mappings.targets segments)[index]? with
        | none => .error (.target index)
        | some none => .ok none
        | some (some t) =>
          match map.sources[t.source]? with
          | none => .error (.source t.source)
          | some source => .ok (source.map fun path => ⟨path, t.line + 1, t.column⟩)

/-- **Nothing is left**: in a legal map the look-up does not fail, and finds what `resolve` finds. -/
theorem lookUp_eq_resolve (hlegal : map.Legal) (line column : Int) :
    map.lookUp line column = .ok (map.resolve line column) := by
  rw [lookUp, resolve_eq_bind]
  rcases hline : map.line? line with _ | segments
  · rfl
  · have hmem : segments ∈ map.lines := by
      rw [line?] at hline
      split at hline
      · exact List.mem_of_getElem? hline
      · cases hline
    by_cases hcolumn : column < 0
    · simp only [Option.bind_some, if_pos hcolumn]
    · simp only [Option.bind_some, if_neg hcolumn]
      rw [Mappings.bisect_columns (hlegal.sorted segments hmem), Mappings.segmentAt?_eq_getElem?]
      generalize hcount : (segments.takeWhile fun s => s.column ≤ column.toNat).length = count
      rcases count with _ | index
      · rfl
      · have hindex : index < segments.length := by
          have hle := (List.takeWhile_sublist
            (fun s : Mappings.Segment => decide (s.column ≤ column.toNat)) (l := segments)).length_le
          omega
        have hsegment := List.getElem?_eq_getElem hindex
        have htarget : (Mappings.targets segments)[index]? = some segments[index].target := by
          rw [Mappings.targets, List.getElem?_map, hsegment]
          rfl
        simp only [hsegment, htarget, Option.bind_some]
        rcases hcase : segments[index].target with _ | t
        · simp [position?, hcase]
        · have hmem_targets : some t ∈ Mappings.targets segments :=
            hcase ▸ List.mem_map_of_mem (List.getElem_mem hindex)
          have hlt := hlegal.sources segments hmem t hmem_targets
          simp only [position?, hcase, List.getElem?_eq_getElem hlt, Option.bind_eq_bind,
            Option.bind_some]
          cases map.sources[t.source] <;> rfl

/-- The parts of an answer. -/
theorem exists_of_resolve {line column : Int} {p : Position}
    (h : map.resolve line column = some p) :
    ∃ t : Mappings.Target, map.sources[t.source]? = some (some p.source) ∧
      p.line = t.line + 1 ∧ p.column = t.column := by
  obtain ⟨segments, -, h⟩ := Option.bind_eq_some_iff.1 h
  split at h
  · cases h
  · obtain ⟨s, -, h⟩ := Option.bind_eq_some_iff.1 h
    obtain ⟨t, -, h⟩ := Option.bind_eq_some_iff.1 h
    obtain ⟨path, hpath, h⟩ := Option.bind_eq_some_iff.1 h
    obtain rfl := Option.some.inj h
    exact ⟨t, Option.join_eq_some_iff.1 hpath, rfl, rfl⟩

/-- **Every answer of a map that is built from a payload is legal**, and the map itself is. Looking up
in the separate lists never fails; a position that is found has a listed source, a line from one and
a column from zero. If the map lists one source only, all positions lie in it. -/
theorem answers_legal (h : ofPayload payload generated = .ok map) :
    map.Legal ∧ ∀ line column,
      map.lookUp line column = .ok (map.resolve line column) ∧
      ∀ p, map.resolve line column = some p →
        p.source ∈ map.knownSources ∧ 1 ≤ p.line ∧ 0 ≤ p.column ∧
        ∀ destination, (Resolver.ofSourceMap map).onlySource? = some destination →
          p.source = destination := by
  obtain ⟨document, -, hmap⟩ := exists_document h
  have hlegal := legal_of_ofDocument hmap
  refine ⟨hlegal, fun line column => ⟨lookUp_eq_resolve hlegal line column, fun p hp => ?_⟩⟩
  obtain ⟨t, hsource, hline, hcolumn⟩ := exists_of_resolve hp
  have hknown : p.source ∈ map.knownSources :=
    mem_knownSources.2 (List.mem_of_getElem? hsource)
  refine ⟨hknown, by omega, by omega, fun destination honly => ?_⟩
  rw [Resolver.onlySource?] at honly
  split at honly
  · next source hsources =>
    obtain rfl := Option.some.inj honly
    rw [show map.knownSources = [source] from hsources] at hknown
    exact List.mem_singleton.1 hknown
  · cases honly

/-- A map of one named source and one without a name, whose segments are written out of order, one of
them for the source without a name. -/
theorem answers_legal_of_unnamed_source :
    ∃ map, ofPayload (.value (.obj [("version", .int 3), ("sources", .arr [.str "a.ts", .null]),
        ("sourcesContent", .arr [.str "a\n", .str "b"]),
        ("mappings", .str ";IAAA,AAEE,JAAD,MCAA")])) "b/a.js" = .ok map ∧
      map.Legal ∧ ∀ line column, map.lookUp line column = .ok (map.resolve line column) ∧
        ∀ p, map.resolve line column = some p → p.source = "b/a.ts" ∧ 1 ≤ p.line ∧ 0 ≤ p.column := by
  have hmap : ofPayload (.value (.obj [("version", .int 3), ("sources", .arr [.str "a.ts", .null]),
      ("sourcesContent", .arr [.str "a\n", .str "b"]),
      ("mappings", .str ";IAAA,AAEE,JAAD,MCAA")])) "b/a.js" = .ok _ := rfl
  obtain ⟨hlegal, hanswers⟩ := answers_legal hmap
  refine ⟨_, hmap, hlegal, fun line column => ⟨(hanswers line column).1, fun p hp => ?_⟩⟩
  obtain ⟨-, hline, hcolumn, honly⟩ := (hanswers line column).2 p hp
  exact ⟨honly "b/a.ts" rfl, hline, hcolumn⟩

end SourceMap

end CoverageLift
