import Settler.Calendar.Moment
import Settler.Cron.Schedule
import Settler.Fault.Basic
import Settler.Worker.Machine

/-!
Jobs and their health.

A job builds a fresh worker for every start and every restart, so nothing survives a stop.
-/

namespace Settler.Supervisor

open Settler.Calendar

/-- Something to run, and when. -/
structure Job (ω : Type) where
  name : String
  /-- The worker of a number, counted from 0. -/
  build : Nat → Except Fault ω
  schedule : Option Cron.Schedule := none
  runsOnStartup : Bool := false

/-- The schedule as health reports show it; empty without one. -/
def Job.scheduleText {ω : Type} (j : Job ω) : String :=
  match j.schedule with
  | some s => s.expression
  | none => ""

/-- What is known of a job's runs. -/
structure Health where
  running : Bool := false
  runs : Nat := 0
  restarts : Nat := 0
  skippedTriggers : Nat := 0
  lastExit : Option Exit := none
  /-- The fault that the last run was cut short by; empty without one. -/
  lastError : Str := ""
  lastStarted : Option Moment := none
  lastFinished : Option Moment := none
  nextRun : Option Moment := none
  deriving DecidableEq, Repr

end Settler.Supervisor
