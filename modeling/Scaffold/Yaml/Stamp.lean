import Scaffold.Calendar
import Scaffold.Decimal.Numeral

/-!
# `Scaffold.Yaml.Stamp` — dates and times as YAML writes them

A date is `2001-12-14`; a time may follow after a `T` or blanks, then a fraction of the second, then
`Z` or an offset.

## Contents
- **Parts.** `Clock`, `Stamp`: the digits as they stand.
- **Reading.** `read?`.
- **Meaning.** `Stamp.value`.
-/

namespace Scaffold.Yaml

open Text (isDigit)
open Decimal (natOf)

/-- The digits of a time of day; the offset is a sign, hours and minutes. -/
structure Clock where
  hour : List Char
  minute : List Char
  second : List Char
  fraction : List Char
  utc : Bool
  offset : Option (Bool × List Char × List Char)

/-- The digits of a date, with a time if there is one. -/
structure Stamp where
  year : List Char
  month : List Char
  day : List Char
  clock : Option Clock

namespace Stamp

/-- At least `low` and at most `high` digits at the front. -/
def readDigits? (low high : Nat) (cs : List Char) : Option (List Char × List Char) :=
  let ds := (cs.take high).takeWhile isDigit
  if ds.length < low then none else some (ds, cs.drop ds.length)

/-- The character `c` at the front. -/
def readChar? (c : Char) : List Char → Option (List Char)
  | d :: r => if d = c then some r else none
  | [] => none

/-- A point and digits, if they are there. -/
def readFraction : List Char → List Char × List Char
  | '.' :: r => (r.takeWhile isDigit, r.dropWhile isDigit)
  | r => ([], r)

/-- Spaces and tabs. -/
def skipBlanks (cs : List Char) : List Char := cs.dropWhile fun c => c = ' ' || c = '\t'

/-- A sign, hours and, after a colon, minutes, up to the end. -/
def readOffset? (cs : List Char) : Option (Bool × List Char × List Char) :=
  match cs with
  | sign :: r =>
    if sign = '-' ∨ sign = '+' then do
      let (hours, r) ← readDigits? 1 2 r
      match r with
      | [] => some (sign = '-', hours, [])
      | _ => do
        let r ← readChar? ':' r
        let (minutes, r) ← readDigits? 2 2 r
        if r.isEmpty then some (sign = '-', hours, minutes) else none
    else none
  | [] => none

/-- What follows the seconds: nothing, `Z`, or an offset. -/
def readZone? (cs : List Char) : Option (Bool × Option (Bool × List Char × List Char)) :=
  if cs.isEmpty then some (false, none)
  else match skipBlanks cs with
    | ['Z'] => some (true, none)
    | r => (readOffset? r).map fun o => (false, some o)

/-- A time of day with what goes before it. -/
def readClock? (cs : List Char) : Option Clock := do
  let r ← match cs with
    | c :: r => if c = 'T' ∨ c = 't' then some r
                else if c = ' ' ∨ c = '\t' then some (skipBlanks r) else none
    | [] => none
  let (hour, r) ← readDigits? 1 2 r
  let r ← readChar? ':' r
  let (minute, r) ← readDigits? 2 2 r
  let r ← readChar? ':' r
  let (second, r) ← readDigits? 2 2 r
  let (fraction, r) := readFraction r
  let (utc, offset) ← readZone? r
  return ⟨hour, minute, second, fraction, utc, offset⟩

/-- A date, with a time or without. -/
def read? (cs : List Char) : Option Stamp := do
  let (year, r) ← readDigits? 4 4 cs
  let r ← readChar? '-' r
  let (month, r) ← readDigits? 1 2 r
  let r ← readChar? '-' r
  let (day, r) ← readDigits? 1 2 r
  if r.isEmpty then return ⟨year, month, day, none⟩
  else
    let clock ← readClock? r
    return ⟨year, month, day, some clock⟩

/-- Without a time, month and day need two digits each to be taken for a date. -/
def isPlain (s : Stamp) : Bool :=
  s.clock.isSome || (s.month.length = 2 && s.day.length = 2)

/-- The date that the digits give. -/
def date (s : Stamp) : Date := ⟨natOf s.year, natOf s.month, natOf s.day⟩

/-- The microseconds that a fraction gives; digits after the sixth do not count. -/
def micros (fraction : List Char) : Nat :=
  let ds := fraction.take 6
  natOf ds * Nat.pow 10 (6 - ds.length)

/-- The offset in minutes. A whole day or more is a fault. -/
def Clock.minutes (c : Clock) : Except CalendarFault (Option Int) :=
  match c.offset with
  | none => .ok (if c.utc then some 0 else none)
  | some (negative, hours, minutes) =>
    let n : Int := natOf hours * 60 + natOf minutes
    let n := if negative then -n else n
    if n.natAbs < 1440 then .ok (some n) else .error (.offset n)

/-- The moment that date and clock give. -/
def moment (s : Stamp) (c : Clock) : Except CalendarFault Moment := do
  let offset ← Clock.minutes c
  let time : Time := ⟨natOf c.hour, natOf c.minute, natOf c.second, micros c.fraction⟩
  match s.date.check.or time.check with
  | some fault => .error fault
  | none => return ⟨s.date, time, offset⟩

end Stamp

end Scaffold.Yaml
