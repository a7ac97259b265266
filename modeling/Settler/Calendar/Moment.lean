import Settler.Calendar.Date

/-!
Moments: wall-clock readings to the microsecond, with or without an offset from UTC.

Arithmetic is on the wall clock and keeps the offset; a result outside the years 1 to 9999 is
refused. Two moments can be ordered when both have an offset or neither has, and then by the
instant that they stand for.
-/

namespace Settler.Calendar

/-- Microseconds in a second. -/
def second : Nat := 1000000

/-- Microseconds in a minute. -/
def minute : Nat := 60 * second

/-- Microseconds in a day. -/
def wholeDay : Nat := 1440 * minute

/-- A wall-clock reading: microseconds since the start of year 1, and the offset from UTC in
microseconds if one is known. -/
structure Moment where
  wall : Nat
  offset : Option Int
  deriving DecidableEq, Repr, Inhabited

namespace Moment

/-- A reading moved by a number of microseconds stays in the years 1 to 9999. The bounds are moved
and the reading is left as it is, so the test of an unknown reading does not count microseconds. -/
def staysInRange (wall : Nat) (span : Int) : Bool :=
  (-span).toNat ≤ wall && wall < ((dayCount * wholeDay : Nat) - span).toNat

/-- The moment later by a number of microseconds, if it is in range. -/
def add? (m : Moment) (span : Int) : Option Moment :=
  if staysInRange m.wall span then some { m with wall := (m.wall + span).toNat } else none

/-- The moment at the start of its minute. -/
def startOfMinute (m : Moment) : Moment := { m with wall := m.wall / minute * minute }

/-- The number of the minute, counted from the start of year 1. -/
def minuteNumber (m : Moment) : Nat := m.wall / minute

/-- The instant that the reading stands for; without an offset, the reading itself. -/
def instant (m : Moment) : Int := m.wall - m.offset.getD 0

/-- The order of two moments; none if only one has an offset. -/
def compare? (a b : Moment) : Option Ordering :=
  if a.offset.isSome == b.offset.isSome then some (compare a.instant b.instant) else none

/-- The date of a moment. -/
def date (m : Moment) : Date := Date.ofDay (m.wall / wholeDay)

/-- A number in at least `width` digits. -/
def padded (width n : Nat) : String :=
  let s := toString n
  String.ofList (List.replicate (width - s.length) '0') ++ s

/-- Hours, minutes, and the seconds and microseconds that are not zero, of an offset. -/
def offsetText (offset : Int) : String :=
  let size := offset.natAbs
  let whole := size / second
  let rest := size % second
  (if offset < 0 then "-" else "+") ++ padded 2 (whole / 3600) ++ ":" ++ padded 2 (whole / 60 % 60)
    ++ (if whole % 60 != 0 || rest != 0 then ":" ++ padded 2 (whole % 60) else "")
    ++ (if rest != 0 then "." ++ padded 6 rest else "")

/-- The moment as `YYYY-MM-DDThh:mm:ss`, microseconds if there are any, and the offset if known. -/
def text (m : Moment) : String :=
  let d := m.date
  let time := m.wall % wholeDay
  let s := time / second
  let micros := time % second
  padded 4 d.year ++ "-" ++ padded 2 d.month ++ "-" ++ padded 2 d.day
    ++ "T" ++ padded 2 (s / 3600) ++ ":" ++ padded 2 (s / 60 % 60) ++ ":" ++ padded 2 (s % 60)
    ++ (if micros != 0 then "." ++ padded 6 micros else "")
    ++ (match m.offset with
        | some o => offsetText o
        | none => "")

end Moment

end Settler.Calendar
