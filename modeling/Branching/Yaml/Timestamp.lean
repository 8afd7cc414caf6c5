import Branching.Yaml.Resolve

/-!
# Timestamps

A timestamp text is a date `YYYY-M-D` (months and days of one or two digits),
optionally followed by a `T` or blanks and a time of day `H:MM:SS` (hours of
one or two digits) with an optional fraction of a second after a `.` and an
optional zone after blanks: `Z`, or a sign, hours of one or two digits and
optionally `:` and two digits of minutes. The text may end in one line feed.

A date alone is a date value. With a time of day the fraction is cut to six
digits (microseconds), rounded up when the seventh digit is 5 or more; a
fraction that rounds up to a whole second becomes zero and the moment moves
one second on. A zone is a fixed offset named by the text it was written as.

The zone is checked first, then the date, then the time of day; moving on
past the last day of the calendar is an error of its own.
-/

namespace Branching.Yaml.Timestamp

open Resolve

/-- The fields of a timestamp text. -/
structure Fields where
  year : List Char
  month : List Char
  day : List Char
  /-- Hours, minutes, seconds and the fraction's digits. -/
  time : Option (List Char × List Char × List Char × List Char)
  /-- The zone's text, and its sign, hours and minutes unless it is `Z`. -/
  zone : Option (List Char × Option (Bool × List Char × List Char))

/-- One digit and an optional second one at the front, and the rest. -/
def takeOneOrTwo : List Char → Option (List Char × List Char)
  | a :: b :: rest =>
    if isDigit a then some (if isDigit b then ([a, b], rest) else ([a], b :: rest)) else none
  | [a] => if isDigit a then some ([a], []) else none
  | [] => none

/-- Exactly `n` digits at the front, and the rest. -/
def takeExactly (n : Nat) (cs : List Char) : Option (List Char × List Char) :=
  if (cs.take n).length = n && (cs.take n).all isDigit then some (cs.take n, cs.drop n) else none

/-- The zone at the end of a time of day: nothing, or blanks and a zone. -/
def zoneFields (cs : List Char) :
    Option (Option (List Char × Option (Bool × List Char × List Char))) :=
  if cs.isEmpty then some none else
  match cs.dropWhile fun c => c = ' ' || c = '\t' with
  | ['Z'] => some (some (['Z'], none))
  | s :: rest =>
    if s = '-' || s = '+' then
      match takeOneOrTwo rest with
      | some (hours, []) => some (some (s :: hours, some (s = '-', hours, [])))
      | some (hours, ':' :: more) =>
        match takeExactly 2 more with
        | some (minutes, []) => some (some (s :: hours ++ ':' :: minutes, some (s = '-', hours, minutes)))
        | _ => none
      | _ => none
    else none
  | [] => none

/-- The time of day after a date. -/
def timeFields (cs : List Char) :
    Option ((List Char × List Char × List Char × List Char) ×
      Option (List Char × Option (Bool × List Char × List Char))) := do
  let afterSeparator ← match cs with
    | c :: rest =>
      if c = 'T' || c = 't' then some rest
      else if c = ' ' || c = '\t' then some (rest.dropWhile fun c => c = ' ' || c = '\t')
      else none
    | [] => none
  let (hour, rest) ← takeOneOrTwo afterSeparator
  let rest ← literal ':' rest
  let (minute, rest) ← takeExactly 2 rest
  let rest ← literal ':' rest
  let (second, rest) ← takeExactly 2 rest
  let (fraction, rest) := match rest with
    | '.' :: more => (more.takeWhile isDigit, more.dropWhile isDigit)
    | more => ([], more)
  let zone ← zoneFields rest
  return ((hour, minute, second, fraction), zone)

/-- The fields of a whole timestamp text, without a final line feed. -/
def fieldsOf (cs : List Char) : Option Fields := do
  let (year, rest) ← takeExactly 4 cs
  let rest ← literal '-' rest
  let (month, rest) ← takeOneOrTwo rest
  let rest ← literal '-' rest
  let (day, rest) ← takeOneOrTwo rest
  if rest.isEmpty then return ⟨year, month, day, none, none⟩
  let (time, zone) ← timeFields rest
  return ⟨year, month, day, some time, zone⟩

/-- The fields of a timestamp text, which may end in a line feed. -/
def read? (cs : List Char) : Option Fields :=
  match fieldsOf cs with
  | some f => some f
  | none => if cs.getLast? = some '\n' then fieldsOf cs.dropLast else none

/-- The number that ASCII digits spell. -/
def number (cs : List Char) : Nat :=
  cs.foldl (fun acc c => acc * 10 + (c.toNat - '0'.toNat)) 0

/-- The microseconds of a fraction's digits: the first six, padded with
zeros, rounded up by a seventh digit of 5 or more. -/
def micros (fraction : List Char) : Nat :=
  let six := number (fraction.take 6 ++ List.replicate (6 - fraction.length) '0')
  match fraction.drop 6 with
  | d :: _ => if '4' < d then six + 1 else six
  | [] => six

/-- The value of timestamp fields. -/
def value (f : Fields) : Except Error Value := do
  let date : Date := ⟨number f.year, number f.month, number f.day⟩
  match f.time with
  | none =>
    match date.fault? with
    | some r => throw (.badCalendar r)
    | none => return .date date
  | some (hour, minute, second, fraction) =>
    let rounded := micros fraction
    let zone : Option Zone ← match f.zone with
      | some (text, some (negative, hours, minutes)) =>
        let span : Int := number hours * 3600 + number minutes * 60
        let offset := if negative then -span else span
        match Zone.fault? offset with
        | some r => throw (.badCalendar r)
        | none => pure (some ⟨offset, String.ofList text⟩)
      | some (text, none) => pure (some ⟨0, String.ofList text⟩)
      | none => pure none
    let t : DateTime :=
      ⟨date, number hour, number minute, number second, if rounded > 999999 then 0 else rounded, zone⟩
    if let some r := date.fault? then throw (.badCalendar r)
    if let some r := t.timeFault? then throw (.badCalendar r)
    if rounded > 999999 then
      let later := t.nextSecond
      if 9999 < later.date.year then throw .pastLastDate
      return .dateTime later
    return .dateTime t

end Branching.Yaml.Timestamp
