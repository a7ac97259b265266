/-!
Dates of the proleptic Gregorian calendar, counted in days.

Day 0 is the first of January of year 1. `Date.ofDay` finds the year by cycles of 400, 100, 4 and 1
years and the month by walking the month lengths; `Date.toDay` adds the lengths up again.
-/

namespace Settler.Calendar

/-- Years with a 29th of February. -/
def isLeap (year : Nat) : Bool := year % 4 == 0 && (year % 100 != 0 || year % 400 == 0)

/-- The lengths of the months of a year, in order. -/
def monthLengths (leap : Bool) : List Nat :=
  [31, if leap then 29 else 28, 31, 30, 31, 30, 31, 31, 30, 31, 30, 31]

/-- A calendar date; months and days count from 1. -/
structure Date where
  year : Nat
  month : Nat
  day : Nat
  deriving DecidableEq, Repr

/-- The days before the first day of a year. -/
def daysBeforeYear (year : Nat) : Nat :=
  let past := year - 1
  past * 365 + past / 4 - past / 100 + past / 400

/-- The days of a year before the first day of a month. -/
def daysBeforeMonth (leap : Bool) (month : Nat) : Nat :=
  ((monthLengths leap).take (month - 1)).foldl (· + ·) 0

/-- The day's number, 0 for the first day of year 1. -/
def Date.toDay (d : Date) : Nat :=
  daysBeforeYear d.year + daysBeforeMonth (isLeap d.year) d.month + (d.day - 1)

/-- A date whose month and day exist, in the years 1 to 9999. -/
def Date.isValid (d : Date) : Bool :=
  1 ≤ d.year && d.year ≤ 9999 && 1 ≤ d.month && d.month ≤ 12 && 1 ≤ d.day
    && d.day ≤ (monthLengths (isLeap d.year)).getD (d.month - 1) 0

/-- The year of a day and the days since its first day. -/
def yearPlace (day : Nat) : Nat × Nat :=
  let (n400, r) := (day / 146097, day % 146097)
  let n100 := min 3 (r / 36524)
  let r := r - n100 * 36524
  let (n4, r) := (r / 1461, r % 1461)
  let n1 := min 3 (r / 365)
  (n400 * 400 + n100 * 100 + n4 * 4 + n1 + 1, r - n1 * 365)

/-- Where a day stands in its month. -/
structure MonthPlace where
  month : Nat
  /-- The days of the month before this one. -/
  index : Nat
  length : Nat
  deriving DecidableEq, Repr

/-- Walks a list of month lengths, of months numbered from the given one. -/
def monthPlace (month : Nat) : Nat → List Nat → MonthPlace
  | index, [] => ⟨month, index, index + 1⟩
  | index, length :: rest =>
    if index < length then ⟨month, index, length⟩ else monthPlace (month + 1) (index - length) rest

/-- Where a day stands in its month. -/
def placeOf (day : Nat) : MonthPlace :=
  let (year, index) := yearPlace day
  monthPlace 1 index (monthLengths (isLeap year))

/-- The date of a day's number. -/
def Date.ofDay (day : Nat) : Date :=
  let p := placeOf day
  ⟨(yearPlace day).1, p.month, p.index + 1⟩

/-- The first day of the month after a day's own. -/
def nextMonthStart (day : Nat) : Nat :=
  let p := placeOf day
  day - p.index + p.length

/-- The day of the week, 0 for Sunday: day 0 was a Monday. -/
def weekday (day : Nat) : Nat := (day + 1) % 7

/-- The number of days in the years 1 to 9999. -/
def dayCount : Nat := 3652059

theorem monthPlace_index_lt (month index : Nat) (lengths : List Nat) :
    (monthPlace month index lengths).index < (monthPlace month index lengths).length := by
  induction lengths generalizing month index with
  | nil => simp [monthPlace]
  | cons length rest ih =>
    by_cases h : index < length
    · simp [monthPlace, h]
    · simpa [monthPlace, h] using ih (month + 1) (index - length)

/-- The next month starts later. -/
theorem lt_nextMonthStart (day : Nat) : day < nextMonthStart day := by
  have := monthPlace_index_lt 1 (yearPlace day).2 (monthLengths (isLeap (yearPlace day).1))
  simp only [nextMonthStart, placeOf]
  omega

end Settler.Calendar
