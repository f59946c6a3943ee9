import Scaffold.Decimal.Shortest

/-!
# `Scaffold.Calendar` — dates and times of day

Dates of the proleptic Gregorian calendar from year 1 to 9999, alone or with a time of day and an
offset from universal time.

## Contents
- **Types.** `Date`, `Time`, `Moment`.
- **Checks.** `Date.check`, `Time.check`: the first part out of range.
- **Equality.** `Moment.same`: moments at the same time, whatever their offsets.
- **Texts.** `Date.text`, `Moment.text` (ISO 8601) and the constructor forms `Date.shown`,
  `Moment.shown`.
-/

namespace Scaffold

open Decimal (digitsOf intText)

/-- A day. -/
structure Date where
  year : Nat
  month : Nat
  day : Nat
  deriving DecidableEq, Repr

/-- A time of day, in microseconds below the second. -/
structure Time where
  hour : Nat
  minute : Nat
  second : Nat
  micro : Nat
  deriving DecidableEq, Repr

/-- A day with a time; `offset` is the distance from universal time in minutes, if one is given. -/
structure Moment where
  date : Date
  time : Time
  offset : Option Int
  deriving DecidableEq, Repr

/-- The ways in which parts of a date or time are out of range. -/
inductive CalendarFault
  | year (n : Nat)
  | month
  | day
  | hour
  | minute
  | second
  | offset (minutes : Int)
  deriving DecidableEq, Repr

namespace Date

/-- A year with a 29th of February. -/
def isLeap (year : Nat) : Bool := year % 4 == 0 && (year % 100 != 0 || year % 400 == 0)

/-- The number of days in a month. -/
def daysIn (year month : Nat) : Nat :=
  if month = 2 then (if isLeap year then 29 else 28)
  else if month = 4 ∨ month = 6 ∨ month = 9 ∨ month = 11 then 30
  else 31

/-- The first part out of range, if any. -/
def check (d : Date) : Option CalendarFault :=
  if d.year = 0 ∨ 9999 < d.year then some (.year d.year)
  else if d.month = 0 ∨ 12 < d.month then some .month
  else if d.day = 0 ∨ daysIn d.year d.month < d.day then some .day
  else none

end Date

namespace Time

/-- The first part out of range, if any. -/
def check (t : Time) : Option CalendarFault :=
  if 23 < t.hour then some .hour
  else if 59 < t.minute then some .minute
  else if 59 < t.second then some .second
  else none

end Time

/-- The number of days before a date, from a fixed day on. -/
def Date.ordinal (d : Date) : Nat :=
  let y := d.year - 1
  y * 365 + y / 4 - y / 100 + y / 400 +
    (List.range (d.month - 1)).foldl (fun n m => n + Date.daysIn d.year (m + 1)) 0 + d.day

/-- The microseconds since midnight. -/
def Time.micros (t : Time) : Nat :=
  ((t.hour * 60 + t.minute) * 60 + t.second) * 1000000 + t.micro

/-- Microseconds in universal time, from a fixed moment on. -/
def Moment.instant (m : Moment) (offset : Int) : Int :=
  (m.date.ordinal * 86400000000 + m.time.micros : Nat) - offset * 60000000

/-- Two moments are the same point in time. One with an offset is never the same as one without. -/
def Moment.same (a b : Moment) : Bool :=
  match a.offset, b.offset with
  | none, none => a.date == b.date && a.time == b.time
  | some x, some y => a.instant x == b.instant y
  | _, _ => false

/-- A number in decimal with zeros on the left up to `width` digits. -/
def zeroPadded (width n : Nat) : String :=
  let ds := digitsOf n
  String.ofList (List.replicate (width - ds.length) '0') ++ ds

/-- The span of `minutes` as it is constructed: whole days, then seconds of a day. -/
def spanShown (minutes : Int) : String :=
  let days := minutes / 1440
  let seconds := (minutes % 1440) * 60
  let parts :=
    (if days = 0 then [] else ["days=" ++ intText days]) ++
    (if seconds = 0 then [] else ["seconds=" ++ intText seconds])
  "datetime.timedelta(" ++ (if parts.isEmpty then "0" else Text.joinWith ", " parts) ++ ")"

/-- What is out of range. -/
def CalendarFault.message : CalendarFault → String
  | .year n => s!"year {digitsOf n} is out of range"
  | .month => "month must be in 1..12"
  | .day => "day is out of range for month"
  | .hour => "hour must be in 0..23"
  | .minute => "minute must be in 0..59"
  | .second => "second must be in 0..59"
  | .offset m =>
    "offset must be a timedelta strictly between -timedelta(hours=24) and timedelta(hours=24), not " ++
      spanShown m ++ "."

/-- Year, month and day with hyphens between them. -/
def Date.text (d : Date) : String :=
  zeroPadded 4 d.year ++ "-" ++ zeroPadded 2 d.month ++ "-" ++ zeroPadded 2 d.day

/-- The date as it is constructed. -/
def Date.shown (d : Date) : String :=
  s!"datetime.date({digitsOf d.year}, {digitsOf d.month}, {digitsOf d.day})"

/-- Hour, minute and second with colons, microseconds only if there are any. -/
def Time.text (t : Time) : String :=
  zeroPadded 2 t.hour ++ ":" ++ zeroPadded 2 t.minute ++ ":" ++ zeroPadded 2 t.second ++
    (if t.micro = 0 then "" else "." ++ zeroPadded 6 t.micro)

/-- A sign, hours and minutes. -/
def offsetText (minutes : Int) : String :=
  (if minutes < 0 then "-" else "+") ++ zeroPadded 2 (minutes.natAbs / 60) ++ ":" ++
    zeroPadded 2 (minutes.natAbs % 60)

/-- Date and time joined by `between`, then the offset. -/
def Moment.textWith (between : String) (m : Moment) : String :=
  m.date.text ++ between ++ m.time.text ++
    (match m.offset with | none => "" | some o => offsetText o)

/-- Date and time in the ISO form. -/
def Moment.text (m : Moment) : String := m.textWith "T"

/-- The moment as it is constructed; zero seconds and microseconds at the end are left out. -/
def Moment.shown (m : Moment) : String :=
  let t := m.time
  let head := [m.date.year, m.date.month, m.date.day, t.hour, t.minute]
  let tail := if t.micro = 0 then (if t.second = 0 then [] else [t.second]) else [t.second, t.micro]
  let zone := match m.offset with
    | none => []
    | some 0 => ["tzinfo=datetime.timezone.utc"]
    | some o => ["tzinfo=datetime.timezone(" ++ spanShown o ++ ")"]
  "datetime.datetime(" ++ Text.joinWith ", " ((head ++ tail).map digitsOf ++ zone) ++ ")"

end Scaffold
