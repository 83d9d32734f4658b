import JobQueue.Time.Calendar
import Mathlib.Tactic.IntervalCases

/-!
# Days and dates

The count of days and the calendar go back and forth: every day has a date that the
calendar has (`Date.isValid_ofDay`) and that is counted as that day (`Date.toDay_ofDay`).

The division that finds the year of a day is right because an era is centuries, quads of
four years, years and days (`Date.DayOfEra`), each but the last of its kind of the same length:
in these parts both the division and the days before a year are linear.
-/

namespace JobQueue

namespace Date

/-! ## Days of an era -/

/-- Whether an era has a day in these parts; the last year of a quad has a day more, unless a
century ends with it that does not end the era. -/
structure DayOfEra (century quad year day : Nat) : Prop where
  century_le : century ≤ 3
  quad_le : quad ≤ 24
  year_le : year ≤ 3
  day_le : day ≤ 365
  leap : day = 365 → year = 3 ∧ (quad < 24 ∨ century = 3)

/-- Every day of an era is in some parts. -/
theorem exists_dayOfEra {n : Nat} (inside : n < 146097) :
    ∃ century quad year day, DayOfEra century quad year day ∧
      n = 36524 * century + 1461 * quad + 365 * year + day := by
  let century := min (n / 36524) 3
  let quad := (n - 36524 * century) / 1461
  let dayOfQuad := (n - 36524 * century) % 1461
  let year := min (dayOfQuad / 365) 3
  refine ⟨century, quad, year, dayOfQuad - 365 * year, ⟨?_, ?_, ?_, ?_, ?_⟩, ?_⟩ <;> omega

/-- The year of an era in which a day is. -/
def yearAt (n : Nat) : Nat := (n - n / 1460 + n / 36524 - n / 146096) / 365

/-- The days of an era before a year of it. -/
def daysBefore (year : Nat) : Nat := 365 * year + year / 4 - year / 100

namespace DayOfEra

variable {century quad year day : Nat}

theorem daysBefore_eq (parts : DayOfEra century quad year day) :
    daysBefore (100 * century + 4 * quad + year) =
      36524 * century + 1461 * quad + 365 * year := by
  obtain ⟨hc, hq, hy, -, -⟩ := parts
  unfold daysBefore
  omega

/-- Of the days that the division takes off, one is for each quad, and one for each century
that is put back. -/
theorem yearAt_eq (parts : DayOfEra century quad year day) {n : Nat}
    (eq : n = 36524 * century + 1461 * quad + 365 * year + day) :
    yearAt n = 100 * century + 4 * quad + year := by
  obtain ⟨hc, hq, hy, hd, leap⟩ := parts
  unfold yearAt
  obtain rfl | before : n = 146096 ∨ n < 146096 := by omega
  · omega
  · have centuries : n / 36524 = century := by omega
    have eras : n / 146096 = 0 := by omega
    have quads : n / 1460 =
        25 * century + quad + (24 * century + quad + 365 * year + day) / 1460 := by omega
    have extra : (24 * century + quad + 365 * year + day) / 1460 = 0 ∨
        (24 * century + quad + 365 * year + day) / 1460 = 1 ∧ year = 3 := by omega
    rw [centuries, eras, quads]
    omega

/-- A day more is one of a leap year, which ends in the calendar's next year. -/
theorem isLeap (parts : DayOfEra century quad year day) (last : day = 365) (era : Int) :
    Date.isLeap (era * 400 + (100 * century + 4 * quad + year : Nat) + 1) := by
  obtain ⟨hc, hq, hy, -, leap⟩ := parts
  obtain ⟨rfl, whole⟩ := leap last
  simp only [Date.isLeap, Bool.and_eq_true, Bool.or_eq_true, decide_eq_true_eq]
  omega

end DayOfEra

/-! ## Days of a year -/

/-- The date of a day of a year that starts in March, by the number of its month from there. -/
def ofMonth (year : Int) (monthFromMarch day : Nat) : Date :=
  let month := if monthFromMarch < 10 then monthFromMarch + 3 else monthFromMarch - 9
  { year := if month ≤ 2 then year + 1 else year
    month := month
    day := day - (153 * monthFromMarch + 2) / 5 + 1 }

/-- The date of a day of a year that starts in March. -/
def ofYearDay (year : Int) (day : Nat) : Date := ofMonth year ((5 * day + 2) / 153) day

section YearDay

variable {year : Int} {day : Nat}

/-- From the first of January on, a year that starts in March is in the next one. -/
theorem year_ofYearDay (short : day ≤ 365) :
    (ofYearDay year day).year = if day < 306 then year else year + 1 := by
  simp only [ofYearDay, ofMonth]
  split <;> split <;> split <;> omega

theorem isValid_ofYearDay (short : day ≤ 365) (leap : day = 365 → isLeap (year + 1)) :
    (ofYearDay year day).isValid := by
  have month : (5 * day + 2) / 153 ≤ 11 := by omega
  have inside : 5 * day + 2 < 153 * ((5 * day + 2) / 153) + 153 := by omega
  rw [ofYearDay]
  generalize (5 * day + 2) / 153 = m at month inside
  simp only [isValid, Bool.and_eq_true]
  refine ⟨decide_eq_true (Nat.le_add_left 1 _), decide_eq_true ?_⟩
  interval_cases m
  case «11» =>
    show day - 337 + 1 ≤ if isLeap (year + 1) then 29 else 28
    by_cases last : day = 365
    · rw [if_pos (leap last)]
      omega
    · split <;> omega
  all_goals
    simp only [ofMonth, monthLength, Nat.reduceLT, Nat.reduceAdd, Nat.reduceSub, if_true, if_false]
    omega

/-- A day of a year is counted from the first of March of the year 0. -/
theorem toDay_ofYearDay (short : day ≤ 365) :
    (ofYearDay year day).toDay =
      365 * year + year / 4 - year / 100 + year / 400 + day - 719468 := by
  have month : (5 * day + 2) / 153 ≤ 11 := by omega
  have inside : 153 * ((5 * day + 2) / 153) ≤ 5 * day + 2 := by omega
  rw [ofYearDay]
  generalize (5 * day + 2) / 153 = m at month inside
  interval_cases m <;>
    simp only [ofMonth, toDay, eraDays, epochDays, Nat.reduceLT, Nat.reduceLeDiff, Nat.reduceAdd,
      Nat.reduceSub, Nat.reduceMul, Nat.reduceDiv, if_true, if_false] <;>
    omega

end YearDay

/-! ## Days -/

/-- A day is one of a year of an era. -/
theorem ofDay_eq (n : Int) : ∃ era : Int, ∃ century quad year day : Nat,
    DayOfEra century quad year day ∧
    n + 719468 = era * 146097 + (36524 * century + 1461 * quad + 365 * year + day : Nat) ∧
    ofDay n = ofYearDay (era * 400 + (100 * century + 4 * quad + year : Nat)) day := by
  have inside : ((n + 719468) % 146097).toNat < 146097 := by omega
  obtain ⟨century, quad, year, day, parts, eq⟩ := exists_dayOfEra inside
  refine ⟨(n + 719468) / 146097, century, quad, year, day, parts, by omega, ?_⟩
  have yearEq := parts.yearAt_eq eq
  have rest : ((n + 719468) % 146097).toNat - daysBefore (100 * century + 4 * quad + year) =
      day := by
    rw [parts.daysBefore_eq]
    omega
  show ofYearDay ((n + 719468) / 146097 * 400 + (yearAt ((n + 719468) % 146097).toNat : Nat))
    (((n + 719468) % 146097).toNat - daysBefore (yearAt ((n + 719468) % 146097).toNat)) = _
  rw [yearEq, rest]

/-- Every day has a date. -/
theorem isValid_ofDay (n : Int) : (ofDay n).isValid := by
  obtain ⟨era, century, quad, year, day, parts, -, eq⟩ := ofDay_eq n
  rw [eq]
  exact isValid_ofYearDay parts.day_le fun last => parts.isLeap last era

/-- The date of a day is counted as that day. -/
theorem toDay_ofDay (n : Int) : (ofDay n).toDay = n := by
  obtain ⟨era, century, quad, year, day, parts, count, eq⟩ := ofDay_eq n
  obtain ⟨hc, hq, hy, hd, -⟩ := parts
  rw [eq, toDay_ofYearDay hd]
  omega

/-- The days of the time line are in the years that have a timestamp. -/
theorem year_ofDay_bounds {n : Int} (first : -96465292 ≤ n) (last : n ≤ 95026236) :
    -262143 ≤ (ofDay n).year ∧ (ofDay n).year ≤ 262142 := by
  obtain ⟨era, century, quad, year, day, parts, -, eq⟩ := ofDay_eq n
  have count := toDay_ofDay n
  rw [eq, toDay_ofYearDay parts.day_le] at count
  rw [eq, year_ofYearDay parts.day_le]
  generalize era * 400 + (100 * century + 4 * quad + year : Nat) = y at count
  have short := parts.day_le
  -- at the ends of the time line only the year itself tells the quotients in `count`
  have outside : y ≤ -262146 ∨ y = -262145 ∨ y = -262144 ∨ -262143 ≤ y ∧ y ≤ 262141 ∨
      y = 262142 ∨ 262143 ≤ y := by omega
  split <;> omega

/-! ## Parts of dates -/

theorem monthLength_le (year : Int) (month : Nat) : monthLength year month ≤ 31 := by
  unfold monthLength
  split <;> first | omega | (split <;> omega)

/-- What the calendar has is in one of twelve months. -/
theorem bounds_of_isValid {d : Date} (valid : d.isValid) :
    (1 ≤ d.month ∧ d.month ≤ 12) ∧ 1 ≤ d.day ∧ d.day ≤ 31 := by
  simp only [isValid, Bool.and_eq_true, decide_eq_true_eq] at valid
  have short := monthLength_le d.year d.month
  refine ⟨?_, by omega, by omega⟩
  by_contra outside
  have none : monthLength d.year d.month = 0 := by
    unfold monthLength
    split <;> first | rfl | omega
  omega

end Date

end JobQueue
