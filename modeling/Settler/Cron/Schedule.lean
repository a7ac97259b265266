import Settler.Calendar.Moment

/-!
Cron schedules: the minutes that five fields pick out.

Each field is a set of values. Days have two fields, of the month and of the week; where both are
restricted a day matches if either field has it, else if both have it.
-/

namespace Settler.Cron

open Settler.Calendar

/-- The five fields, in the order they are written. -/
inductive Field where
  | minute
  | hour
  | dayOfMonth
  | month
  | dayOfWeek
  deriving DecidableEq, Repr

namespace Field

/-- The fields in the order they are written. -/
def all : List Field := [.minute, .hour, .dayOfMonth, .month, .dayOfWeek]

/-- The field's name in messages. -/
def name : Field → String
  | .minute => "minute"
  | .hour => "hour"
  | .dayOfMonth => "day_of_month"
  | .month => "month"
  | .dayOfWeek => "day_of_week"

/-- The least value that may be written. -/
def low : Field → Nat
  | .minute => 0
  | .hour => 0
  | .dayOfMonth => 1
  | .month => 1
  | .dayOfWeek => 0

/-- The greatest value that may be written; 7 is a second way to write Sunday. -/
def high : Field → Nat
  | .minute => 59
  | .hour => 23
  | .dayOfMonth => 31
  | .month => 12
  | .dayOfWeek => 7

end Field

/-- A schedule: its expression, the values of each field in order, and whether each of the two day
fields was written as anything but a star. -/
structure Schedule where
  expression : String
  minutes : List Nat
  hours : List Nat
  daysOfMonth : List Nat
  months : List Nat
  daysOfWeek : List Nat
  dayOfMonthRestricted : Bool
  dayOfWeekRestricted : Bool
  deriving DecidableEq, Repr

namespace Schedule

/-- A day with its place in its month matches the two day fields. -/
def matchesDay (s : Schedule) (day : Nat) : Bool :=
  let ofMonth := s.daysOfMonth.contains ((placeOf day).index + 1)
  let ofWeek := s.daysOfWeek.contains (weekday day)
  if s.dayOfMonthRestricted && s.dayOfWeekRestricted then ofMonth || ofWeek else ofMonth && ofWeek

/-- A minute, counted from the start of year 1, matches every field. -/
def matchesMinute (s : Schedule) (m : Nat) : Bool :=
  let day := m / 1440
  s.minutes.contains (m % 60) && s.hours.contains (m / 60 % 24)
    && s.months.contains (placeOf day).month && s.matchesDay day

/-- A moment is in a minute that matches; seconds and the offset do not count. -/
def matchesMoment (s : Schedule) (m : Moment) : Bool := s.matchesMinute m.minuteNumber

end Schedule

end Settler.Cron
