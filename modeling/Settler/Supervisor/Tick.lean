import Settler.Cron.Next
import Settler.Supervisor.State

/-!
Ticks: every minute since the last tick is held against the schedules.

A tick evaluates the minutes after the last one up to its own, but no more than `catchUp` before
its own. A job fires at most once in a tick, however many of the minutes its schedule matches.
-/

namespace Settler.Supervisor.State

open Settler.Calendar

variable {ω δ : Type} (su : Setup δ)

/-- How far before its own minute a tick looks back. -/
def catchUp : Int := 59 * minute

/-- A slot with the next run of its job, if the job has a schedule. -/
def refreshSlot (after : Moment) (t : Slot ω) : Except Fault (Slot ω) :=
  match t.job.schedule with
  | none => .ok t
  | some s => (s.nextAfter after).map fun m => { t with health.nextRun := m }

/-- Sets the next run of every scheduled job, in order, up to the first one that has none to give. -/
def refreshSlots (after : Moment) : List (Slot ω) → List (Slot ω) × Except Fault Unit
  | [] => ([], .ok ())
  | t :: rest =>
    match refreshSlot after t with
    | .error f => (t :: rest, .error f)
    | .ok t =>
      let (rest, result) := refreshSlots after rest
      (t :: rest, result)

/-- `refreshSlots` on the state. -/
def refresh (after : Moment) (s : State ω) : State ω × Except Fault Unit :=
  let (slots, result) := refreshSlots after s.slots
  ({ s with slots }, result)

/-- A tick under way: the state, the jobs whose schedules matched, and those that got a run. -/
structure Firing (ω : Type) where
  state : State ω
  seen : List String := []
  fired : List String := []

/-- Holds a minute against the schedule of one job. -/
def consider (candidate : Moment) (f : Firing ω) (name : String) : Firing ω :=
  match f.state.slot? name with
  | none => f
  | some t =>
    match t.job.schedule with
    | none => f
    | some schedule =>
      if f.seen.contains name || !schedule.matchesMoment candidate then f
      else
        let (state, fired) := f.state.fire su ("schedule '" ++ schedule.expression ++ "'") t
        { state, seen := f.seen ++ [name], fired := if fired then f.fired ++ [name] else f.fired }

/-- Holds a number of minutes, from one on, against every schedule. -/
def considerAll : Nat → Moment → Firing ω → Firing ω × Option Fault
  | 0, _, f => (f, none)
  | n + 1, candidate, f =>
    let f := f.state.names.foldl (consider su candidate) f
    match candidate.add? minute with
    | none => (f, some .dateRange)
    | some next => considerAll n next f

/-- The first minute that a tick evaluates. -/
def firstMinute (last own : Moment) : Except Fault Moment :=
  match last.add? minute, own.add? (-catchUp) with
  | some next, some floor => .ok (if next.instant < floor.instant then floor else next)
  | _, _ => .error .dateRange

/-- How many minutes there are from one to another, both included. -/
def minutesTo (first own : Moment) : Nat :=
  if own.instant < first.instant then 0 else ((own.instant - first.instant) / minute).toNat + 1

/-- The minute of the last tick, or the one before this tick's if there was none. -/
def lastOr (own : Moment) (s : State ω) : Except Fault Moment :=
  match s.lastTick with
  | some m => .ok m
  | none =>
    match own.add? (-minute) with
    | some m => .ok m
    | none => .error .dateRange

/-- A tick at a minute after the last one. -/
def evaluate (last own : Moment) (s : State ω) : State ω × Except Fault (List String) :=
  match firstMinute last own with
  | .error f => (s, .error f)
  | .ok first =>
    let (f, fault) := considerAll su (minutesTo first own) first { state := s }
    match fault with
    | some e => (f.state, .error e)
    | none =>
      let (s, result) := { f.state with lastTick := some own }.refresh own
      (s, result.map fun () => f.fired)

/-- A tick at a moment: the jobs that got a run. A tick whose minute is not later than the last
one's does nothing. -/
def tick (m : Moment) (s : State ω) : State ω × Except Fault (List String) :=
  let own := m.startOfMinute
  match s.lastOr own with
  | .error f => (s, .error f)
  | .ok last =>
    match Moment.compare? own last with
    | none => (s, .error .mixedOffsets)
    | some .gt => s.evaluate su last own
    | some _ => (s, .ok [])

/-- A tick at the present moment. -/
def tickNow (s : State ω) : State ω × Except Fault (List String) :=
  match su.moment s.now with
  | .error f => (s, .error f)
  | .ok m => s.tick su m

end Settler.Supervisor.State
