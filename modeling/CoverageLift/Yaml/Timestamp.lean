import CoverageLift.Text.Digits
import CoverageLift.Text.Quoted
import CoverageLift.Yaml.Cursor

/-!
# Timestamps

A plain scalar of the form `2001-12-14` is a date; one that goes on with a time, and perhaps with an
offset from universal time, is a date with a time. The parts must exist in the calendar and on the
clock.
-/

namespace CoverageLift.Yaml

/-- A time of day with an offset in minutes, if one is given. -/
structure ClockTime where
  hour : Nat
  minute : Nat
  second : Nat
  microsecond : Nat
  offset : Option Int
  deriving DecidableEq

/-- A date, with or without a time. -/
structure Timestamp where
  year : Nat
  month : Nat
  day : Nat
  time : Option ClockTime
  deriving DecidableEq

namespace Timestamp

/-- The number of days of a month. -/
def daysIn (year month : Nat) : Nat :=
  if month = 2 then
    if year % 4 = 0 ∧ (year % 100 ≠ 0 ∨ year % 400 = 0) then 29 else 28
  else if month = 4 ∨ month = 6 ∨ month = 9 ∨ month = 11 then 30
  else 31

/-- The greatest number of minutes of an offset is one less than a day has. -/
def dayMinutes : Nat := 1440

/-- The message for an offset of a day or more, in minutes. It is shown as days and seconds. -/
def offsetMessage (minutes : Int) : Text :=
  let seconds := minutes % dayMinutes * 60
  ("offset must be a timedelta strictly between -timedelta(hours=24) and timedelta(hours=24), not datetime.timedelta(days=" : Text)
    ++ Text.ofInt (minutes / dayMinutes)
    ++ (if seconds = 0 then [] else (", seconds=" : Text) ++ Text.ofInt seconds) ++ (")." : Text)

/-- The timestamp, if its parts exist. -/
def check (t : Timestamp) : Except Error Timestamp :=
  let refuse := fun message : String => Except.error (Error.timestamp (Text.ofString message))
  match (t.time.bind ClockTime.offset).filter fun minutes => minutes.natAbs ≥ dayMinutes with
  | some minutes => .error (.timestamp (offsetMessage minutes))
  | none =>
    if t.year = 0 then refuse "year 0 is out of range"
    else if t.month = 0 ∨ t.month > 12 then refuse "month must be in 1..12"
    else if t.day = 0 ∨ t.day > daysIn t.year t.month then refuse "day is out of range for month"
    else
      match t.time with
      | none => .ok t
      | some c =>
        if c.hour > 23 then refuse "hour must be in 0..23"
        else if c.minute > 59 then refuse "minute must be in 0..59"
        else if c.second > 59 then refuse "second must be in 0..59"
        else .ok t

/-- Between `least` and `most` digits at the head of a text, and what follows them. -/
def digits? (least most : Nat) (t : Text) : Option (Text × Text) :=
  let digits := (t.take most).takeWhile CodePoint.isDigit
  if digits.length < least then none else some (digits, t.drop digits.length)

/-- The number that digits write. -/
def number (digits : Text) : Nat := (Text.toNat? digits).getD 0

/-- The microseconds of a fraction of a second. -/
def microseconds (fraction : Text) : Nat :=
  let kept := fraction.take 6
  number (kept ++ List.replicate (6 - kept.length) (.char '0'))

/-- The offset that a text writes: `Z`, or a sign with hours and perhaps minutes. -/
def offset? (t : Text) : Option Int := do
  match t with
  | [.char 'Z'] => some 0
  | .char sign :: rest =>
    if sign ≠ '+' ∧ sign ≠ '-' then none
    let (hours, rest) ← digits? 1 2 rest
    let minutes ← match rest with
      | [] => some 0
      | .char ':' :: rest => do
        let (minutes, rest) ← digits? 2 2 rest
        if rest.isEmpty then some (number minutes) else none
      | _ => none
    let total : Int := (number hours * 60 + minutes : Nat)
    some (if sign = '-' then -total else total)
  | _ => none

/-- The time after a date. -/
def time? (t : Text) : Option ClockTime := do
  let isBlank := fun x : CodePoint => x = .char ' ' || x = .char '\t'
  let t ← match t with
    | .char 'T' :: rest => some rest
    | .char 't' :: rest => some rest
    | x :: rest => if isBlank x then some (rest.dropWhile isBlank) else none
    | [] => none
  let (hour, t) ← digits? 1 2 t
  let t ← Text.after? ":" t
  let (minute, t) ← digits? 2 2 t
  let t ← Text.after? ":" t
  let (second, t) ← digits? 2 2 t
  let (fraction, t) : Text × Text := match t with
    | .char '.' :: rest => (rest.takeWhile CodePoint.isDigit, rest.dropWhile CodePoint.isDigit)
    | _ => ([], t)
  let offset ← if t.isEmpty then some none else (offset? (t.dropWhile isBlank)).map some
  return ⟨number hour, number minute, number second, microseconds fraction, offset⟩

/-- The parts of a timestamp. A date alone has two digits for month and day. -/
def parse? (t : Text) : Option Timestamp := do
  let (year, t) ← digits? 4 4 t
  let t ← Text.after? "-" t
  let (month, t) ← digits? 1 2 t
  let t ← Text.after? "-" t
  let (day, t) ← digits? 1 2 t
  let date : Timestamp := ⟨number year, number month, number day, none⟩
  if t.isEmpty then
    if month.length = 2 ∧ day.length = 2 then some date else none
  else
    let time ← time? t
    return { date with time := some time }

/-! ### Comparing -/

/-- The number of days of the years before a year. -/
def daysBeforeYear (year : Nat) : Nat :=
  let past := year - 1
  past * 365 + past / 4 - past / 100 + past / 400

/-- The number of days of a year before a month. -/
def daysBeforeMonth (year month : Nat) : Nat :=
  (List.range (month - 1)).foldl (fun days m => days + daysIn year (m + 1)) 0

/-- The number of a day, counted from the first day of the calendar. -/
def dayNumber (t : Timestamp) : Nat :=
  daysBeforeYear t.year + daysBeforeMonth t.year t.month + t.day

/-- The instant of a timestamp with an offset, in microseconds of universal time. -/
def instant? (t : Timestamp) : Option Int := do
  let c ← t.time
  let offset ← c.offset
  let minutes : Int := t.dayNumber * dayMinutes + c.hour * 60 + c.minute - offset
  return (minutes * 60 + c.second) * 1000000 + c.microsecond

/-- Whether two timestamps are the same: two with offsets if they are the same instant, others if
they have the same parts. -/
def same (a b : Timestamp) : Bool :=
  match a.instant?, b.instant? with
  | some m, some n => m = n
  | _, _ => a = b

/-! ### Text -/

/-- The text of the offset of a time. -/
def offsetText (minutes : Int) : Text :=
  if minutes = 0 then "datetime.timezone.utc"
  else
    let days : Int := if minutes < 0 then -1 else 0
    let seconds := (minutes - days * dayMinutes) * 60
    ("datetime.timezone(datetime.timedelta(" : Text)
      ++ (if days = 0 then [] else ("days=-1, " : Text))
      ++ ("seconds=" : Text) ++ Text.ofInt seconds ++ ("))" : Text)

/-- The text of a timestamp in the location of an issue. -/
def display (t : Timestamp) : Text :=
  let numbers := fun parts : List Nat => Text.join ", " (parts.map Text.ofNat)
  match t.time with
  | none => ("datetime.date(" : Text) ++ numbers [t.year, t.month, t.day] ++ (")" : Text)
  | some c =>
    let tail := if c.microsecond ≠ 0 then [c.second, c.microsecond]
      else if c.second ≠ 0 then [c.second] else []
    ("datetime.datetime(" : Text)
      ++ numbers ([t.year, t.month, t.day, c.hour, c.minute] ++ tail)
      ++ (match c.offset with
        | some minutes => (", tzinfo=" : Text) ++ offsetText minutes
        | none => [])
      ++ (")" : Text)

end Timestamp

end CoverageLift.Yaml
