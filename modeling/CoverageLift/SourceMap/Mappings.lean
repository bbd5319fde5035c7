import CoverageLift.SourceMap.Vlq
import CoverageLift.Text.Split

/-!
# Mappings

The mappings of a source map are lines separated by `;`, and a line has segments separated by `,`. A
segment tells from which column of the generated line on a position of a source applies. Its numbers
are differences: of the generated column within the line, and of source, line and column over the
whole document. Reading adds them up and checks every sum; a line is then sorted by generated
column, segments of one column staying in document order. The writer stands beside the reader.
-/

namespace CoverageLift.Mappings

/-- A position of a source, all numbers from zero. -/
structure Target where
  source : Nat
  line : Nat
  column : Nat
  deriving DecidableEq, Repr

/-- A segment: the generated column where it begins, and the position that it maps to, if any. -/
structure Segment where
  column : Nat
  target : Option Target
  deriving DecidableEq, Repr

/-- What is wrong with a segment. -/
inductive Fault
  /-- The segment is not base64 VLQ. -/
  | vlq (error : Vlq.DecodeError)
  /-- The segment has neither one nor four nor five numbers. -/
  | fieldCount (segment : Text) (count : Nat)
  /-- The generated column falls below zero. -/
  | negativeColumn (segment : Text)
  /-- The source index leaves the list of sources. -/
  | sourceOutOfRange (index : Int)
  /-- The line or the column of the source falls below zero. -/
  | negativePosition (segment : Text)
  deriving DecidableEq, Repr

/-- The fault of the first segment that cannot be read, and its line from one. -/
structure DecodeError where
  line : Nat
  fault : Fault
  deriving DecidableEq, Repr

/-- The sums of the differences so far. -/
structure Totals where
  column : Nat
  source : Nat
  sourceLine : Nat
  sourceColumn : Nat
  deriving DecidableEq, Repr

/-- The sums at the beginning of a document. -/
def Totals.start : Totals := ⟨0, 0, 0, 0⟩

/-- A sum of a natural number and a difference, unless it is negative. -/
def add? (total : Nat) (difference : Int) : Option Nat :=
  let sum := (total : Int) + difference
  if 0 ≤ sum then some sum.toNat else none

/-- Adds the differences of a position to the sums. -/
def readTarget (sourceCount : Nat) (segment : Text) (totals : Totals) (column : Nat)
    (source line sourceColumn : Int) : Except Fault (Totals × Segment) :=
  let index := (totals.source : Int) + source
  if ¬ (0 ≤ index ∧ index < sourceCount) then .error (.sourceOutOfRange index)
  else
    match add? totals.sourceLine line, add? totals.sourceColumn sourceColumn with
    | some l, some c =>
      .ok (⟨column, index.toNat, l, c⟩, ⟨column, some ⟨index.toNat, l, c⟩⟩)
    | _, _ => .error (.negativePosition segment)

/-- Reads a segment and brings the sums up to date. -/
def readSegment (sourceCount : Nat) (totals : Totals) (segment : Text) :
    Except Fault (Totals × Segment) :=
  match Vlq.decode segment with
  | .error error => .error (.vlq error)
  | .ok fields =>
    match fields with
    | [column] =>
      match add? totals.column column with
      | none => .error (.negativeColumn segment)
      | some c => .ok ({ totals with column := c }, ⟨c, none⟩)
    | column :: source :: line :: sourceColumn :: more =>
      if more.length ≤ 1 then
        match add? totals.column column with
        | none => .error (.negativeColumn segment)
        | some c => readTarget sourceCount segment totals c source line sourceColumn
      else .error (.fieldCount segment fields.length)
    | _ => .error (.fieldCount segment fields.length)

/-- Reads the segments of a line in document order. -/
def readSegments (sourceCount : Nat) : Totals → List Text → Except Fault (Totals × List Segment)
  | totals, [] => .ok (totals, [])
  | totals, text :: rest =>
    match readSegment sourceCount totals text with
    | .error fault => .error fault
    | .ok (totals, segment) =>
      (readSegments sourceCount totals rest).map fun (totals, segments) =>
        (totals, segment :: segments)

/-- Reads lines from the line number `number` on, every line with its segments in document order. -/
def readLines (sourceCount : Nat) : (number : Nat) → Totals → List Text →
    Except DecodeError (List (List Segment))
  | _, _, [] => .ok []
  | number, totals, text :: rest =>
    let segments := (Text.splitOn (.char ',') text).filter fun s => !s.isEmpty
    match readSegments sourceCount { totals with column := 0 } segments with
    | .error fault => .error ⟨number, fault⟩
    | .ok (totals, line) => (readLines sourceCount (number + 1) totals rest).map (line :: ·)

/-- The lines of mappings, segments in document order. -/
def read (sourceCount : Nat) (mappings : Text) : Except DecodeError (List (List Segment)) :=
  readLines sourceCount 1 Totals.start (Text.splitOn (.char ';') mappings)

/-- Segments in ascending order of columns, those of one column in the given order. -/
def sortLine (line : List Segment) : List Segment :=
  line.mergeSort fun a b => a.column ≤ b.column

/-- The lines of mappings, every line sorted by generated column. -/
def decode (sourceCount : Nat) (mappings : Text) : Except DecodeError (List (List Segment)) :=
  (read sourceCount mappings).map fun lines => lines.map sortLine

/-- The segment of a sorted line that applies at a column: the last one that begins at or before
it. -/
def segmentAt? (line : List Segment) (column : Nat) : Option Segment :=
  (line.takeWhile fun s => s.column ≤ column).getLast?

/-! ### Writing -/

/-- The numbers of a segment after the given sums, and the sums after it. -/
def segmentFields (totals : Totals) (s : Segment) : Totals × List Int :=
  let column : Int := s.column - totals.column
  match s.target with
  | none => ({ totals with column := s.column }, [column])
  | some t =>
    (⟨s.column, t.source, t.line, t.column⟩,
      [column, (t.source : Int) - totals.source, (t.line : Int) - totals.sourceLine,
        (t.column : Int) - totals.sourceColumn])

/-- The texts of the segments of a line, and the sums after them. -/
def writeSegments : Totals → List Segment → Totals × List Text
  | totals, [] => (totals, [])
  | totals, s :: rest =>
    let (totals, fields) := segmentFields totals s
    let (totals, texts) := writeSegments totals rest
    (totals, Vlq.encode fields :: texts)

/-- The texts of lines. -/
def writeLines : Totals → List (List Segment) → List Text
  | _, [] => []
  | totals, line :: rest =>
    let (totals, texts) := writeSegments { totals with column := 0 } line
    Text.join [.char ','] texts :: writeLines totals rest

/-- The mappings of lines with their segments in document order. -/
def encode (lines : List (List Segment)) : Text :=
  Text.join [.char ';'] (writeLines Totals.start lines)

/-! ### Messages -/

/-- The message of an error. -/
def DecodeError.message (e : DecodeError) : Text :=
  ("Line " : Text) ++ Text.ofNat e.line ++ (": " : Text) ++
    match e.fault with
    | .vlq error => error.message
    | .fieldCount segment count =>
      ("segment " : Text) ++ Text.quoted segment ++ (" has " : Text) ++ Text.ofNat count
        ++ (" fields; expected 1, 4 or 5." : Text)
    | .negativeColumn segment =>
      ("negative generated column in " : Text) ++ Text.quoted segment ++ ("." : Text)
    | .sourceOutOfRange index =>
      ("source index " : Text) ++ Text.ofInt index ++ (" is out of range." : Text)
    | .negativePosition segment =>
      ("negative original position in " : Text) ++ Text.quoted segment ++ ("." : Text)

end CoverageLift.Mappings
