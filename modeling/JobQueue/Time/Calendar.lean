/-!
# The calendar

Dates of the Gregorian calendar, extended to all years, and their count in days
from the start of 1970.

The count splits the time line into eras of 400 years, which all have the same
number of days, and lets a year start in March, so that the leap day is the last
day of its year.  `Date.toDay` and `Date.ofDay` go back and forth.
-/

namespace JobQueue

/-- A year, a month from 1 and a day from 1. -/
structure Date where
  /-- The year; 0 is the year before 1. -/
  year : Int
  /-- The month of the year. -/
  month : Nat
  /-- The day of the month. -/
  day : Nat
deriving DecidableEq, Repr

namespace Date

/-- Every fourth year is a leap year, but of the full centuries only every fourth. -/
def isLeap (year : Int) : Bool :=
  year % 4 = 0 && (year % 100 ≠ 0 || year % 400 = 0)

/-- The number of days in a month; 0 where there is no such month. -/
def monthLength (year : Int) (month : Nat) : Nat :=
  match month with
  | 1 | 3 | 5 | 7 | 8 | 10 | 12 => 31
  | 4 | 6 | 9 | 11 => 30
  | 2 => if isLeap year then 29 else 28
  | _ => 0

/-- Whether the calendar has this date. -/
def isValid (d : Date) : Bool := 1 ≤ d.day && d.day ≤ monthLength d.year d.month

/-- The days of an era of 400 years. -/
abbrev eraDays : Int := 146097

/-- The days from the first of March of the year 0 to the start of 1970. -/
abbrev epochDays : Int := 719468

/-- The days from the start of 1970 to a date, negative before it. -/
def toDay (d : Date) : Int :=
  let year := if d.month ≤ 2 then d.year - 1 else d.year
  let era := year / 400
  let yearOfEra := year % 400
  let monthFromMarch : Int := (d.month + 9) % 12
  let dayOfYear := (153 * monthFromMarch + 2) / 5 + d.day - 1
  let dayOfEra := yearOfEra * 365 + yearOfEra / 4 - yearOfEra / 100 + dayOfYear
  era * eraDays + dayOfEra - epochDays

/-- The date that many days from the start of 1970. -/
def ofDay (n : Int) : Date :=
  let era := (n + epochDays) / eraDays
  let dayOfEra := ((n + epochDays) % eraDays).toNat
  let yearOfEra := (dayOfEra - dayOfEra / 1460 + dayOfEra / 36524 - dayOfEra / 146096) / 365
  let dayOfYear := dayOfEra - (365 * yearOfEra + yearOfEra / 4 - yearOfEra / 100)
  let monthFromMarch := (5 * dayOfYear + 2) / 153
  let month := if monthFromMarch < 10 then monthFromMarch + 3 else monthFromMarch - 9
  let year := era * 400 + yearOfEra
  { year := if month ≤ 2 then year + 1 else year
    month := month
    day := dayOfYear - (153 * monthFromMarch + 2) / 5 + 1 }

example : ofDay 0 = ⟨1970, 1, 1⟩ := by decide
example : toDay ⟨2024, 2, 29⟩ = 19782 := by decide
example : ofDay (-1) = ⟨1969, 12, 31⟩ := by decide
example : toDay (ofDay (-96465293)) = -96465293 := by decide

end Date

end JobQueue
