import Settler.Json.Value
import Settler.Supervisor.State

/-!
Health reports.
-/

namespace Settler.Supervisor

open Settler.Calendar

variable {ω : Type}

/-- A moment in a report. -/
def reportedMoment : Option Moment → Json
  | some m => .text m.text
  | none => .null

/-- The report on one job. -/
def Slot.report (s : Slot ω) : Json :=
  let h := s.health
  .object [("name", .text s.job.name), ("schedule", .text s.job.scheduleText),
    ("running", .bool h.running), ("runs", .int h.runs), ("restarts", .int h.restarts),
    ("skipped_triggers", .int h.skippedTriggers),
    ("last_exit", match h.lastExit with
      | some e => .text e.label
      | none => .null),
    ("last_error", .text h.lastError), ("last_started_at", reportedMoment h.lastStarted),
    ("last_finished_at", reportedMoment h.lastFinished), ("next_run_at", reportedMoment h.nextRun)]

/-- The report on the supervisor: whether its schedule loop is live, and its jobs. -/
def State.report (s : State ω) : Json.Members :=
  [("running", .bool s.isLooping), ("jobs", .list (s.slots.map Slot.report))]

end Settler.Supervisor
