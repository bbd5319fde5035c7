import CoverageLift.Proofs.Json.LongNumerals
import CoverageLift.Proofs.SourceMap.Lookup

/-!
# How payloads are refused

A payload goes through several stages on its way to a map: bytes are decoded, the text is read as
JSON, the document is checked, its version and its mappings are. A fault of any stage is reported as
a malformed map. What is not reported so are integers beyond the length of numerals: **a payload is
built or reported as malformed exactly when it has no such integer** where one is read or would have
to be shown (`reported_iff`). These are literals of its JSON text, a version other than three, and the
index of a source that the mappings name but the map does not have.
-/

namespace CoverageLift

/-- Integers whose numerals are too long. -/
def Text.ExceedsNumerals (n : Int) : Prop := 10 ^ Text.maxNumeralLength ≤ n.natAbs

theorem Text.length_ofNat_lt_iff {n : Nat} :
    Text.maxNumeralLength < (Text.ofNat n).length ↔ 10 ^ Text.maxNumeralLength ≤ n := by
  rw [Text.ofNat, List.length_map, ← Nat.not_le,
    Nat.length_toDigits_le_iff (by decide) (by decide), Nat.not_lt]

/-- The message about a document would show an integer that is too long: its version, or the index of
a source. -/
inductive SourceMapDocument.HasLongInteger (document : SourceMapDocument) : Prop
  | version (hversion : document.version ≠ 3) (hlong : Text.ExceedsNumerals document.version)
  | source {line : Nat} {index : Int} (hversion : document.version = 3)
      (hread : Mappings.read document.sources.length document.mappings =
        .error ⟨line, .sourceOutOfRange index⟩)
      (hlong : Text.ExceedsNumerals index)

/-- The document of a value that is an object without sections. -/
def Json.plainDocument? (v : Json) : Option SourceMapDocument :=
  v.object?.bind fun fields =>
    if OrderedMap.contains fields ("sections" : Text) then none
    else (SourceMapDocument.ofFields fields).toOption

/-- The text that a payload holds, if it is one. -/
def Payload.text? : Payload → Option Text
  | .value (.str t) => some t
  | .value _ => none
  | .bytes b => (Utf8.decode b).toOption

/-- What a payload is read as, unless its bytes are no text. -/
def Payload.reading? : Payload → Option (Except Json.ReadError Json)
  | .value (.str t) => some (Json.read (SourceMap.withoutGuard t))
  | .value v => some (.ok v)
  | .bytes b => (Utf8.decode b).toOption.map fun t => Json.read (SourceMap.withoutGuard t)

/-- A payload has an integer that is too long: a literal that the reader comes to, or one of its
document. -/
inductive Payload.HasLongInteger (payload : Payload) : Prop
  | literal {n : Nat} (hreading : payload.reading? = some (.error (.longInteger n)))
  | document {v : Json} {document : SourceMapDocument} (hreading : payload.reading? = some (.ok v))
      (hdocument : v.plainDocument? = some document) (hlong : document.HasLongInteger)

namespace SourceMap

variable {generated : Text} {fault : MapFault}

/-! ### The stages -/

/-- The faults whose message would show an integer that is too long. -/
theorem showsLongInteger_iff :
    showsLongInteger fault = true ↔
      (∃ version, fault = .unsupportedVersion version ∧ Text.ExceedsNumerals version) ∨
        ∃ line index, fault = .mappings ⟨line, .sourceOutOfRange index⟩ ∧
          Text.ExceedsNumerals index := by
  unfold showsLongInteger
  split
  · next version =>
    rw [decide_eq_true_iff, gt_iff_lt, Text.length_ofNat_lt_iff]
    constructor
    · exact fun h => .inl ⟨version, rfl, h⟩
    · rintro (⟨_, heq, h⟩ | ⟨_, _, heq, _⟩)
      · cases heq
        exact h
      · cases heq
  · next line index =>
    rw [decide_eq_true_iff, gt_iff_lt, Text.length_ofNat_lt_iff]
    constructor
    · exact fun h => .inr ⟨line, index, rfl, h⟩
    · rintro (⟨_, heq, _⟩ | ⟨_, _, heq, h⟩)
      · cases heq
      · cases heq
        exact h
  · next hversion hindex =>
    refine iff_of_false (by decide) ?_
    rintro (⟨version, heq, _⟩ | ⟨line, index, heq, _⟩)
    · exact hversion version heq
    · exact hindex line index heq

/-- Why a document describes no map. -/
theorem ofDocument_eq_error_iff {document : SourceMapDocument} :
    ofDocument document generated = .error fault ↔
      (document.version ≠ 3 ∧ fault = .unsupportedVersion document.version) ∨
        (document.version = 3 ∧ ∃ error,
          Mappings.read document.sources.length document.mappings = .error error ∧
            fault = .mappings error) := by
  rw [ofDocument]
  by_cases hversion : document.version = 3
  · rw [if_neg (not_not_intro hversion)]
    dsimp only
    rw [List.length_map, Mappings.decode]
    rcases hread : Mappings.read document.sources.length document.mappings with error | lines
    · simp [hversion, Except.map, eq_comm]
    · simp [hversion, Except.map]
  · rw [if_pos hversion]
    simp [hversion, eq_comm]

theorem exists_long_of_ofDocument_iff {document : SourceMapDocument} :
    (∃ fault, ofDocument document generated = .error fault ∧ showsLongInteger fault = true) ↔
      document.HasLongInteger := by
  constructor
  · rintro ⟨fault, hfault, hlong⟩
    rw [showsLongInteger_iff] at hlong
    obtain ⟨hversion, rfl⟩ | ⟨hversion, error, hread, rfl⟩ := ofDocument_eq_error_iff.1 hfault
    · obtain ⟨_, heq, hlong⟩ | ⟨_, _, heq, _⟩ := hlong
      · cases heq
        exact .version hversion hlong
      · cases heq
    · obtain ⟨_, heq, _⟩ | ⟨_, _, heq, hlong⟩ := hlong
      · cases heq
      · cases heq
        exact .source hversion hread hlong
  · rintro (⟨hversion, hlong⟩ | ⟨hversion, hread, hlong⟩)
    · exact ⟨_, ofDocument_eq_error_iff.2 (.inl ⟨hversion, rfl⟩),
        showsLongInteger_iff.2 (.inl ⟨_, rfl, hlong⟩)⟩
    · exact ⟨_, ofDocument_eq_error_iff.2 (.inr ⟨hversion, _, hread, rfl⟩),
        showsLongInteger_iff.2 (.inr ⟨_, _, rfl, hlong⟩)⟩

/-- No value fails in this way before it has a document. -/
theorem exists_long_of_ofJson_iff {v : Json} :
    (∃ fault, ofJson v generated = .error fault ∧ showsLongInteger fault = true) ↔
      ∃ document, v.plainDocument? = some document ∧ document.HasLongInteger := by
  have hno (fault : MapFault) (hshort : showsLongInteger fault = false)
      (hnone : v.plainDocument? = none) (h : ofJson v generated = .error fault) :
      (∃ fault, ofJson v generated = .error fault ∧ showsLongInteger fault = true) ↔
        ∃ document, v.plainDocument? = some document ∧ document.HasLongInteger := by
    rw [h, hnone]
    constructor
    · rintro ⟨_, heq, hlong⟩
      obtain rfl := Except.error.inj heq
      exact Bool.noConfusion (hshort.symm.trans hlong)
    · rintro ⟨_, heq, _⟩
      cases heq
  cases v with
  | obj fields =>
    by_cases hsections : OrderedMap.contains fields ("sections" : Text) = true
    · refine hno .indexed rfl ?_ (by rw [ofJson, if_pos hsections])
      simp [Json.plainDocument?, Json.object?, hsections]
    · rcases hfields : SourceMapDocument.ofFields fields with issues | document
      · refine hno (.invalid issues) rfl ?_ ?_
        · simp [Json.plainDocument?, Json.object?, hfields, Except.toOption]
        · rw [ofJson, if_neg hsections, hfields]
      · have hdocument : Json.plainDocument? (.obj fields) = some document := by
          simp [Json.plainDocument?, Json.object?, hsections, hfields, Except.toOption]
        have hbuilt : ofJson (.obj fields) generated = ofDocument document generated := by
          rw [ofJson, if_neg hsections, hfields]
        rw [hbuilt, hdocument, exists_long_of_ofDocument_iff]
        constructor
        · exact fun h => ⟨document, rfl, h⟩
        · rintro ⟨_, heq, hlong⟩
          obtain rfl := Option.some.inj heq
          exact hlong
  | _ => exact hno .notObject rfl rfl rfl

/-! ### Reports -/

/-- A map is built, or its payload is reported as malformed. -/
def Reported (built : Except PayloadError SourceMap) : Prop :=
  (∃ map, built = .ok map) ∨ ∃ fault, built = .error (.malformed fault)

theorem reported_outcome_iff {built : Except MapFault SourceMap} :
    Reported (outcome built) ↔ ¬ ∃ fault, built = .error fault ∧ showsLongInteger fault = true := by
  rcases built with fault | map
  · by_cases hlong : showsLongInteger fault = true
    · refine iff_of_false ?_ (not_not_intro ⟨fault, rfl, hlong⟩)
      have hfails : outcome (.error fault) = .error .unprintable := by
        rw [outcome, Except.mapError, if_pos hlong]
      rintro (⟨_, h⟩ | ⟨_, h⟩)
      · exact nomatch hfails.symm.trans h
      · exact nomatch hfails.symm.trans h
    · refine iff_of_true (.inr ⟨fault, ?_⟩) fun ⟨_, heq, h⟩ => hlong (Except.error.inj heq ▸ h)
      rw [outcome, Except.mapError, if_neg hlong]
  · exact iff_of_true (.inl ⟨map, rfl⟩) fun ⟨_, heq, _⟩ => nomatch heq

/-- The map that is built from what a payload is read as. -/
def ofReading (reading : Except Json.ReadError Json) (generated : Text) :
    Except PayloadError SourceMap :=
  match reading with
  | .error (.longInteger digits) => .error (.longInteger digits)
  | .error (.malformed problem line column index) =>
    .error (.malformed (.notJson problem line column index))
  | .ok v => outcome (ofJson v generated)

variable {payload : Payload}

/-- A payload whose bytes are no text is malformed; any other is read. -/
theorem ofPayload_cases (payload : Payload) (generated : Text) :
    (∃ error, payload.reading? = none ∧
        ofPayload payload generated = .error (.malformed (.notUtf8 error))) ∨
      ∃ reading, payload.reading? = some reading ∧
        ofPayload payload generated = ofReading reading generated := by
  rcases payload with v | b
  · cases v with
    | str t => exact .inr ⟨_, rfl, rfl⟩
    | _ => exact .inr ⟨_, rfl, rfl⟩
  · rw [Payload.reading?, ofPayload]
    rcases Utf8.decode b with error | t
    · exact .inl ⟨error, rfl, rfl⟩
    · exact .inr ⟨_, rfl, rfl⟩

theorem reported_ofPayload_iff :
    Reported (ofPayload payload generated) ↔ ¬ payload.HasLongInteger := by
  obtain ⟨error, hreading, hbuilt⟩ | ⟨reading, hreading, hbuilt⟩ := ofPayload_cases payload generated
  · rw [hbuilt]
    refine iff_of_true (.inr ⟨_, rfl⟩) ?_
    rintro (h | ⟨h, _, _⟩)
    · exact nomatch hreading.symm.trans h
    · exact nomatch hreading.symm.trans h
  · rw [hbuilt]
    match reading, hreading with
    | .error (.longInteger n), hreading =>
      refine iff_of_false ?_ (not_not_intro (.literal hreading))
      rintro (⟨_, h⟩ | ⟨_, h⟩)
      · cases h
      · cases h
    | .error (.malformed problem line column index), hreading =>
      refine iff_of_true (.inr ⟨_, rfl⟩) ?_
      rintro (h | ⟨h, _, _⟩)
      · exact nomatch Except.error.inj (Option.some.inj (hreading.symm.trans h))
      · exact nomatch Option.some.inj (hreading.symm.trans h)
    | .ok v, hreading =>
      refine reported_outcome_iff.trans (not_congr (exists_long_of_ofJson_iff.trans ⟨?_, ?_⟩))
      · exact fun ⟨_, hdocument, hlong⟩ => .document hreading hdocument hlong
      · rintro (h | ⟨h, hdocument, hlong⟩)
        · exact nomatch Option.some.inj (hreading.symm.trans h)
        · obtain rfl := Except.ok.inj (Option.some.inj (hreading.symm.trans h))
          exact ⟨_, hdocument, hlong⟩

/-- A literal that is too long stands in the text that the payload holds. -/
theorem exists_hasLongNumeral_of_reading? {n : Nat}
    (h : payload.reading? = some (.error (.longInteger n))) :
    ∃ t, payload.text? = some t ∧ Json.HasLongNumeral (withoutGuard t) n := by
  rcases payload with v | b
  · cases v with
    | str t => exact ⟨t, rfl, Json.hasLongNumeral_of_read (Option.some.inj h)⟩
    | _ => exact nomatch Option.some.inj h
  · obtain ⟨t, ht, hread⟩ := Option.map_eq_some_iff.1 h
    exact ⟨t, ht, Json.hasLongNumeral_of_read hread⟩

/-- **A payload is built or reported as malformed exactly when it has no integer that is too long.**
A literal that is too long has its digits one after the other in the text that the payload holds. -/
theorem reported_iff (payload : Payload) (generated : Text) :
    (((∃ map, ofPayload payload generated = .ok map) ∨
        ∃ fault, ofPayload payload generated = .error (.malformed fault)) ↔
      ¬ payload.HasLongInteger) ∧
    ∀ n, payload.reading? = some (.error (.longInteger n)) →
      ∃ t, payload.text? = some t ∧ Json.HasLongNumeral (withoutGuard t) n :=
  ⟨reported_ofPayload_iff, fun _ => exists_hasLongNumeral_of_reading?⟩

/-- A text of 4301 ones is neither built nor reported as malformed. -/
theorem not_reported_ones :
    ¬ ((∃ map, ofPayload (.value (.str (.char '1' :: List.replicate 4300 (.char '1')))) "a.js" =
          .ok map) ∨
        ∃ fault, ofPayload (.value (.str (.char '1' :: List.replicate 4300 (.char '1')))) "a.js" =
          .error (.malformed fault)) := by
  have hread : Json.read (withoutGuard (.char '1' :: List.replicate 4300 (.char '1'))) =
      .error (.longInteger 4301) := by
    have hdigits : ∀ c ∈ List.replicate 4300 (CodePoint.char '1'), c.isDigit = true :=
      fun c hc => List.eq_of_mem_replicate hc ▸ rfl
    have hlength := List.length_replicate (n := 4300) (a := CodePoint.char '1')
    have := Json.read_one_cons hdigits (Nat.le_of_eq hlength.symm)
    rwa [hlength] at this
  exact fun h => reported_ofPayload_iff.1 h (.literal (congrArg some hread))

end SourceMap

end CoverageLift
