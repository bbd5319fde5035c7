import CoverageLift.Proofs.SourceMap.Scan
import CoverageLift.Proofs.SourceMap.Sums
import CoverageLift.SourceMap.Basic

/-!
# Looking up positions

A map answers from lines that were summed up and sorted when it was built. It answers what a plain
scan of its document answers (`SourceMap.resolve_eq_scan`), which goes through the segments of the
generated line as they are written, with their sums, and takes the last one with the greatest column
at or before the column in question. The order of the segments on a line is arbitrary.
-/

namespace CoverageLift

/-! ### The document of a payload -/

/-- The JSON value that a payload stands for. -/
def Payload.json? : Payload → Option Json
  | .value (.str t) => (Json.read (SourceMap.withoutGuard t)).toOption
  | .value v => some v
  | .bytes b => (Utf8.decode b).toOption.bind fun t =>
      (Json.read (SourceMap.withoutGuard t)).toOption

/-- The document that a payload describes. -/
def Payload.document? (payload : Payload) : Option SourceMapDocument :=
  (payload.json?.bind Json.object?).bind fun fields => (SourceMapDocument.ofFields fields).toOption

namespace SourceMap

variable {payload : Payload} {generated : Text} {map : SourceMap}

theorem exists_document_of_ofJson {v : Json} (h : ofJson v generated = .ok map) :
    ∃ fields document, v.object? = some fields ∧ SourceMapDocument.ofFields fields = .ok document ∧
      ofDocument document generated = .ok map := by
  cases v with
  | obj fields =>
    rw [ofJson] at h
    split at h
    · cases h
    · split at h
      · cases h
      · next document hdocument => exact ⟨fields, document, rfl, hdocument, h⟩
  | _ => cases h

theorem exists_json_of_ofText {t : Text} (h : ofText t generated = .ok map) :
    ∃ v, Json.read (withoutGuard t) = .ok v ∧ ofJson v generated = .ok map := by
  rw [ofText] at h
  split at h
  · cases h
  · cases h
  · next v hv => exact ⟨v, hv, mapError_eq_ok_iff.1 h⟩

/-- A map that is built from a payload is built from its document. -/
theorem exists_document (h : ofPayload payload generated = .ok map) :
    ∃ document, payload.document? = some document ∧ ofDocument document generated = .ok map := by
  have hjson : ∃ v, payload.json? = some v ∧ ofJson v generated = .ok map := by
    rcases payload with v | b
    · cases v with
      | str t =>
        obtain ⟨v, hv, hmap⟩ := exists_json_of_ofText h
        exact ⟨v, congrArg Except.toOption hv, hmap⟩
      | _ => exact ⟨_, rfl, mapError_eq_ok_iff.1 h⟩
    · rw [ofPayload] at h
      split at h
      · cases h
      · next t ht =>
        obtain ⟨v, hv, hmap⟩ := exists_json_of_ofText h
        exact ⟨v, by simp [Payload.json?, ht, hv, Except.toOption], hmap⟩
  obtain ⟨v, hv, hmap⟩ := hjson
  obtain ⟨fields, document, hfields, hdocument, hmap⟩ := exists_document_of_ofJson hmap
  exact ⟨document, by simp [Payload.document?, hv, hfields, hdocument, Except.toOption], hmap⟩

/-- The parts of a map that is built from a document. -/
theorem exists_of_ofDocument {document : SourceMapDocument}
    (h : ofDocument document generated = .ok map) :
    map.sources = document.sources.map (·.map (SourcePath.resolve generated document.sourceRoot)) ∧
      ∃ lines, Mappings.read document.sources.length document.mappings = .ok lines ∧
        map.lines = lines.map Mappings.sortLine := by
  rw [ofDocument] at h
  split at h
  · cases h
  · dsimp only at h
    split at h
    · cases h
    · next lines hlines =>
      obtain rfl := Except.ok.inj h
      rw [List.length_map, Mappings.decode] at hlines
      obtain ⟨lines', hread, rfl⟩ := map_eq_ok_iff.1 hlines
      exact ⟨rfl, lines', hread, rfl⟩

/-! ### The scan -/

/-- The position that a segment maps to, if it maps to a source that has a name. -/
def positionOfSpot (sources : List (Option Text)) (spot : Mappings.Spot) : Option Position :=
  spot.target.bind fun (source, line, column) =>
    (sources[source.toNat]?).join.map fun path => ⟨path, line + 1, column⟩

/-- The answer for a generated line (from one) and column (from zero) by a scan of the line: `lines`
are the numbers of the segments of every line. -/
def scan (sources : List (Option Text)) (lines : List (List (List Int))) (line column : Int) :
    Option Position :=
  if line < 1 ∨ column < 0 then none
  else
    let index := (line - 1).toNat
    (lines[index]?).bind fun segments =>
      (Mappings.latest (·.column) column (Mappings.spotsOfLine (lines.take index) segments)).bind
        (positionOfSpot sources)

/-- A segment maps to the position of its sums. -/
theorem positionOfSpot_spot (map : SourceMap) (s : Mappings.Segment) :
    positionOfSpot map.sources s.spot = map.position? s := by
  rcases htarget : s.target with _ | target
  · simp [positionOfSpot, Mappings.Segment.spot, position?, htarget]
  · rcases hsource : (map.sources[target.source]?).join with _ | path
    · simp [positionOfSpot, Mappings.Segment.spot, position?, htarget, hsource]
    · simp [positionOfSpot, Mappings.Segment.spot, position?, htarget, hsource]

theorem resolve_eq_bind (map : SourceMap) (line column : Int) :
    map.resolve line column = (map.line? line).bind fun segments =>
      if column < 0 then none
      else (Mappings.segmentAt? segments column.toNat).bind map.position? := rfl

/-- The answer of a line that was read is that of its segments with their sums. -/
theorem position?_segmentAt?_sortLine (map : SourceMap) (line : List Mappings.Segment)
    (column : Nat) :
    (Mappings.segmentAt? (Mappings.sortLine line) column).bind map.position? =
      (Mappings.latest (·.column) column (line.map Mappings.Segment.spot)).bind
        (positionOfSpot map.sources) := by
  rw [Mappings.segmentAt?_sortLine, Mappings.latest_map, Option.bind_map]
  exact congrArg _ (funext fun s => (positionOfSpot_spot map s).symm)

/-- **Looking up is scanning**: a map that is built from a payload answers for every line and column
what a plain scan of the document answers. -/
theorem resolve_eq_scan (h : ofPayload payload generated = .ok map) :
    ∃ document numbers, payload.document? = some document ∧
      Mappings.numbersOf document.mappings = .ok numbers ∧
      ∀ line column, map.resolve line column =
        scan (document.sources.map (·.map (SourcePath.resolve generated document.sourceRoot)))
          numbers line column := by
  obtain ⟨document, hdocument, hmap⟩ := exists_document h
  obtain ⟨hsources, lines, hread, hlines⟩ := exists_of_ofDocument hmap
  obtain ⟨numbers, hnumbers, hlength, hspots⟩ := Mappings.map_spot_read hread
  refine ⟨document, numbers, hdocument, hnumbers, fun line column => ?_⟩
  rw [← hsources, scan, resolve_eq_bind, line?]
  by_cases hline : line < 1
  · rw [if_neg (by omega), if_pos (.inl hline), Option.bind_none]
  · by_cases hcolumn : column < 0
    · simp [hcolumn]
    · rw [if_pos (by omega), if_neg (by omega), hlines, List.getElem?_map]
      dsimp only
      generalize (line - 1).toNat = index
      rcases hget : lines[index]? with _ | segments
      · -- behind the last line
        have hnone : numbers[index]? = none := by
          rw [List.getElem?_eq_none_iff] at hget ⊢
          omega
        simp [hnone]
      · obtain ⟨fields, hfields, hspot⟩ := hspots _ _ hget
        have hscan := position?_segmentAt?_sortLine map segments column.toNat
        rw [hspot, Int.toNat_of_nonneg (by omega)] at hscan
        simpa [hfields, hcolumn] using hscan

/-- A line whose segments are written out of order, with two at one column and a bare one behind
them: columns 4, 4, 0 and 6. -/
theorem resolve_of_unsorted_line :
    ∃ map, SourceMap.ofPayload (.value (.obj [("version", .int 3),
        ("sources", .arr [.str "a.ts", .null]), ("mappings", .str ";IAAA,AAEE,JAAD,M")])) "b/a.js" =
          .ok map ∧
      map.resolve 2 5 = some ⟨"b/a.ts", 3, 2⟩ ∧ map.resolve 2 3 = some ⟨"b/a.ts", 3, 1⟩ ∧
      map.resolve 2 6 = none ∧ map.resolve 1 5 = none ∧ map.resolve 3 0 = none := by
  have hmap : SourceMap.ofPayload (.value (.obj [("version", .int 3),
      ("sources", .arr [.str "a.ts", .null]), ("mappings", .str ";IAAA,AAEE,JAAD,M")])) "b/a.js" =
        .ok _ := rfl
  obtain ⟨document, numbers, hdocument, hnumbers, hresolve⟩ := resolve_eq_scan hmap
  obtain rfl := Option.some.inj (hdocument.symm.trans rfl)
  obtain rfl := Except.ok.inj (hnumbers.symm.trans rfl)
  refine ⟨_, hmap, ?_⟩
  simp only [hresolve]
  decide

end SourceMap

end CoverageLift
