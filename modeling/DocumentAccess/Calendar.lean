/-!
# Calendar

Dates of the proleptic Gregorian calendar and points in time. A moment carries calendar fields
and perhaps an offset from universal time; without one it is local to nowhere. Days are numbered
from 1 January of year 1.
-/

namespace DocumentAccess

/-! ## Days -/

namespace Calendar

/-- Whether a year has 366 days. -/
def isLeap (year : Nat) : Bool := year % 4 == 0 && (year % 100 != 0 || year % 400 == 0)

/-- The number of days before 1 January of a year. -/
def daysBeforeYear (year : Nat) : Nat :=
  let y := year - 1
  y * 365 + y / 4 - y / 100 + y / 400

/-- The number of days of a month. -/
def daysInMonth (year month : Nat) : Nat :=
  match month with
  | 2 => if isLeap year then 29 else 28
  | 4 | 6 | 9 | 11 => 30
  | _ => 31

theorem daysInMonth_le (year month : Nat) : daysInMonth year month ≤ 31 := by
  fun_cases daysInMonth year month <;> decide

/-- The number of days of a year before the first of a month. -/
def daysBeforeMonth (year : Nat) : Nat → Nat
  | 0 => 0
  | 1 => 0
  | month + 1 => daysBeforeMonth year month + daysInMonth year month

/-- The number of a day; day 1 is 1 January of year 1. -/
def dayNumber (year month day : Nat) : Nat :=
  daysBeforeYear year + daysBeforeMonth year month + day

/-- The latest year, not after `guess`, that starts before the end of day `n`. -/
def yearFrom (n : Nat) : Nat → Nat
  | 0 => 0
  | guess + 1 => if daysBeforeYear (guess + 1) < n then guess + 1 else yearFrom n guess

/-- The latest month, not after `guess`, that starts before the end of a day of the year. -/
def monthFrom (year dayOfYear : Nat) : Nat → Nat
  | 0 => 0
  | guess + 1 =>
    if daysBeforeMonth year (guess + 1) < dayOfYear then guess + 1
    else monthFrom year dayOfYear guess

/-- The year, month and day of a day number. -/
def ofDayNumber (n : Nat) : Nat × Nat × Nat :=
  let year := yearFrom n (n / 365 + 1)
  let dayOfYear := n - daysBeforeYear year
  let month := monthFrom year dayOfYear 12
  (year, month, dayOfYear - daysBeforeMonth year month)

/-- The day number of 1 January 1970. -/
def epochDay : Nat := 719163

end Calendar

/-! ## Moments -/

/-- Calendar fields with an optional offset from universal time, in microseconds. -/
structure Moment where
  year : Nat
  month : Nat
  day : Nat
  hour : Nat
  minute : Nat
  second : Nat
  microsecond : Nat
  offset : Option Int
deriving DecidableEq, Inhabited

namespace Moment

/-- The number of microseconds in a day. -/
def dayLength : Int := 86400000000

/-- Whether the fields name a day and a time of day, and the offset is shorter than a day. -/
def isValid (m : Moment) : Bool :=
  1 ≤ m.year && m.year ≤ 9999 && 1 ≤ m.month && m.month ≤ 12 && 1 ≤ m.day &&
    m.day ≤ Calendar.daysInMonth m.year m.month && m.hour < 24 && m.minute < 60 &&
    m.second < 60 && m.microsecond < 1000000 &&
    (match m.offset with
      | none => true
      | some o => -dayLength < o && o < dayLength)

/-- Microseconds of the day. -/
def timeOfDay (m : Moment) : Int :=
  ((m.hour * 3600 + m.minute * 60 + m.second) * 1000000 + m.microsecond : Nat)

/-- Microseconds since the start of 1970, the fields taken at an offset. -/
def sinceEpoch (m : Moment) (offset : Int) : Int :=
  ((Calendar.dayNumber m.year m.month m.day : Int) - Calendar.epochDay) * dayLength +
    m.timeOfDay - offset

/-- Microseconds since the start of 1970; fields without an offset are read as universal time. -/
def instant (m : Moment) : Int := m.sinceEpoch (m.offset.getD 0)

/-- The moment in universal time at an instant; none outside the years 1 to 9999. -/
def ofInstant? (t : Int) : Option Moment :=
  let day := t.fdiv dayLength + Calendar.epochDay
  let time := (t.fmod dayLength).toNat
  let seconds := time / 1000000
  if day < 1 ∨ (Calendar.dayNumber 9999 12 31 : Int) < day then none
  else
    let (year, month, dayOfMonth) := Calendar.ofDayNumber day.toNat
    some
      { year := year
        month := month
        day := dayOfMonth
        hour := seconds / 3600
        minute := seconds / 60 % 60
        second := seconds % 60
        microsecond := time % 1000000
        offset := some 0 }

/-- Two moments are the same if both have an offset and one instant, or neither has one and all
fields agree. -/
def same (a b : Moment) : Bool :=
  match a.offset, b.offset with
  | none, none => a == b
  | some _, some _ => a.instant == b.instant
  | _, _ => false

end Moment

end DocumentAccess
