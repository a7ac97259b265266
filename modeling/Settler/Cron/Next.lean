import Settler.Cron.Schedule
import Settler.Fault.Basic

/-!
The next minute that a schedule matches.

The search goes up from the minute after the given moment and skips a whole month, day or hour
whose field does not match. It gives up past a horizon of five years of 366 days.
-/

namespace Settler.Cron

open Settler.Calendar

/-- How far ahead of a moment the search looks, in microseconds. -/
def searchSpan : Nat := 1830 * wholeDay

/-- The minutes of the years 1 to 9999. -/
def minuteCount : Nat := dayCount * 1440

/-- A minute to go on from, if it is in the calendar. -/
def within (m : Nat) : Except Fault Nat := if m < minuteCount then .ok m else .error .dateRange

namespace Schedule

/-- Where the search goes on from a minute that does not match, or none if it matches. -/
def skip (s : Schedule) (m : Nat) : Option (Except Fault Nat) :=
  let day := m / 1440
  if !s.months.contains (placeOf day).month then
    let next := nextMonthStart day
    some (if next < dayCount then .ok (next * 1440) else .error (.yearRange 10000))
  else if !s.matchesDay day then some (within ((day + 1) * 1440))
  else if !s.hours.contains (m / 60 % 24) then some (within ((m / 60 + 1) * 60))
  else if !s.minutes.contains (m % 60) then some (within (m + 1))
  else none

/-- The first match from a minute up to the last one, in at most the given number of skips. -/
def search (s : Schedule) (last : Nat) : Nat → Nat → Except Fault (Option Nat)
  | 0, _ => .ok none
  | fuel + 1, m =>
    if last < m then .ok none
    else
      match s.skip m with
      | none => .ok (some m)
      | some (.ok next) => search s last fuel next
      | some (.error f) => .error f

/-- The first minute after a moment that matches, with the moment's offset; none if there is none
before the horizon. -/
def nextAfter (s : Schedule) (m : Moment) : Except Fault (Option Moment) := do
  let first ← within (m.minuteNumber + 1)
  if !Moment.staysInRange m.wall searchSpan then .error .dateRange
  else
    let last := (m.wall + searchSpan) / minute
    -- every skip goes at least one minute up
    let found ← s.search last (last + 1 - first) first
    .ok (found.map fun n => ⟨n * minute, m.offset⟩)

end Schedule

end Settler.Cron
