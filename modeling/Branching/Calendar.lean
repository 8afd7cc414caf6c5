import Branching.Text.Quoted

/-!
# Dates, times of day and zones

Calendar dates of the proleptic Gregorian calendar, times of day to the
microsecond, and fixed offsets from universal time, as configuration files
spell them (`2001-12-14`, `2001-12-14 10:00:00.5 +01:00`).

This module checks their fields (years 1 to 9999, months 1 to 12, days within
the month, hours below 24, minutes and seconds below 60, offsets strictly
within a day), writes them in the two forms the library needs (the ISO form a
template prints and the constructor form messages show), and says when two
of them are equal: dates by their fields, times of day with zones by the
instant they name, times of day without zones by their fields, and never one
with a zone and one without.
-/

namespace Branching

/-- A calendar date. -/
structure Date where
  year : Nat
  month : Nat
  day : Nat
  deriving DecidableEq

/-- A fixed offset from universal time, in seconds east, and the name it was
written with. -/
structure Zone where
  offset : Int
  name : String
  deriving DecidableEq

/-- A date with a time of day, and a zone when one was given. -/
structure DateTime where
  date : Date
  hour : Nat
  minute : Nat
  second : Nat
  micro : Nat
  zone : Option Zone
  deriving DecidableEq

namespace Date

/-- Whether a year has a 29th of February. -/
def isLeapYear (y : Nat) : Bool := y % 4 == 0 && (y % 100 != 0 || y % 400 == 0)

/-- The number of days of a month. -/
def monthLength (y m : Nat) : Nat :=
  if m = 2 then (if isLeapYear y then 29 else 28)
  else if m = 4 ∨ m = 6 ∨ m = 9 ∨ m = 11 then 30
  else 31

/-- Why a date's fields name no day, checked year, month, day in turn. -/
def fault? (d : Date) : Option String :=
  if d.year < 1 ∨ 9999 < d.year then some ("year " ++ toString d.year ++ " is out of range")
  else if d.month < 1 ∨ 12 < d.month then some "month must be in 1..12"
  else if d.day < 1 ∨ monthLength d.year d.month < d.day then some "day is out of range for month"
  else none

/-- The day after a date, within the years the calendar has. -/
def next (d : Date) : Date :=
  if d.day < monthLength d.year d.month then { d with day := d.day + 1 }
  else if d.month < 12 then { d with month := d.month + 1, day := 1 }
  else { year := d.year + 1, month := 1, day := 1 }

/-- The number of days from 1 January of year 1 to a date. -/
def ordinal (d : Date) : Nat :=
  let y := d.year - 1
  let before := y * 365 + y / 4 - y / 100 + y / 400
  let months := (List.range (d.month - 1)).foldl (fun acc m => acc + monthLength d.year (m + 1)) 0
  before + months + (d.day - 1)

end Date

/-- Digits of a number, padded with zeros to `width`. -/
def padded (width n : Nat) : String :=
  let ds := Nat.toDigits 10 n
  String.ofList (List.replicate (width - ds.length) '0' ++ ds)

/-- The written form of an integer. -/
def signedText (n : Int) : String :=
  if n < 0 then "-" ++ toString n.natAbs else toString n.natAbs

/-- A span of seconds as days, seconds within the day and microseconds, the
way the standard constructor form writes it: `datetime.timedelta(0)`, or the
nonzero fields among `days=`, `seconds=`. -/
def spanText (seconds : Int) : String :=
  let days := seconds / 86400
  let rest := seconds % 86400
  let parts := (if days = 0 then [] else ["days=" ++ signedText days]) ++
    (if rest = 0 then [] else ["seconds=" ++ signedText rest])
  "datetime.timedelta(" ++ (if parts.isEmpty then "0" else ", ".intercalate parts) ++ ")"

namespace Zone

/-- Why an offset is no zone: it must lie strictly within one day. -/
def fault? (seconds : Int) : Option String :=
  if -86400 < seconds ∧ seconds < 86400 then none
  else some ("offset must be a timedelta strictly between -timedelta(hours=24) and " ++
    "timedelta(hours=24), not " ++ spanText seconds ++ ".")

/-- The constructor form of a zone. -/
def written (z : Zone) : String :=
  "datetime.timezone(" ++ spanText z.offset ++ ", " ++ Text.quoteString z.name ++ ")"

/-- The ISO form of an offset: a sign, hours and minutes, and seconds when
there are any. -/
def isoText (z : Zone) : String :=
  let sign := if z.offset < 0 then "-" else "+"
  let s := z.offset.natAbs
  let hm := padded 2 (s / 3600) ++ ":" ++ padded 2 (s / 60 % 60)
  sign ++ (if s % 60 = 0 then hm else hm ++ ":" ++ padded 2 (s % 60))

end Zone

namespace Date

/-- The ISO form of a date, `YYYY-MM-DD`. -/
def isoText (d : Date) : String :=
  padded 4 d.year ++ "-" ++ padded 2 d.month ++ "-" ++ padded 2 d.day

/-- The constructor form of a date. -/
def written (d : Date) : String :=
  "datetime.date(" ++ toString d.year ++ ", " ++ toString d.month ++ ", " ++ toString d.day ++ ")"

end Date

namespace DateTime

/-- Why a time of day's fields name no time, checked hour, minute, second,
microsecond in turn. -/
def timeFault? (t : DateTime) : Option String :=
  if 23 < t.hour then some "hour must be in 0..23"
  else if 59 < t.minute then some "minute must be in 0..59"
  else if 59 < t.second then some "second must be in 0..59"
  else if 999999 < t.micro then some "microsecond must be in 0..999999"
  else none

/-- The same moment one second later. -/
def nextSecond (t : DateTime) : DateTime :=
  if t.second < 59 then { t with second := t.second + 1 }
  else if t.minute < 59 then { t with second := 0, minute := t.minute + 1 }
  else if t.hour < 23 then { t with second := 0, minute := 0, hour := t.hour + 1 }
  else { t with second := 0, minute := 0, hour := 0, date := t.date.next }

/-- The ISO form with a space between date and time: microseconds when there
are any, and the zone's offset when there is one. -/
def isoText (t : DateTime) : String :=
  let time := padded 2 t.hour ++ ":" ++ padded 2 t.minute ++ ":" ++ padded 2 t.second
  let frac := if t.micro = 0 then "" else "." ++ padded 6 t.micro
  t.date.isoText ++ " " ++ time ++ frac ++ (t.zone.map Zone.isoText).getD ""

/-- The constructor form: the fields up to the last nonzero one of second and
microsecond (year to minute always), then the zone. -/
def written (t : DateTime) : String :=
  let base := [t.date.year, t.date.month, t.date.day, t.hour, t.minute]
  let fields := if t.micro ≠ 0 then base ++ [t.second, t.micro]
    else if t.second ≠ 0 then base ++ [t.second] else base
  let zone := match t.zone with
    | some z => ", tzinfo=" ++ z.written
    | none => ""
  "datetime.datetime(" ++ ", ".intercalate (fields.map toString) ++ zone ++ ")"

/-- The instant in microseconds from the calendar's start, as written, before
any zone is taken off. -/
def localMicros (t : DateTime) : Int :=
  (((t.date.ordinal * 24 + t.hour) * 60 + t.minute) * 60 + t.second : Nat) * 1000000 + t.micro

/-- Equality of two times of day: by instant when both have zones, by fields
when neither has, and never otherwise. -/
def same (a b : DateTime) : Bool :=
  match a.zone, b.zone with
  | some z, some w => a.localMicros - z.offset * 1000000 == b.localMicros - w.offset * 1000000
  | none, none => a.localMicros == b.localMicros
  | _, _ => false

end DateTime

end Branching
