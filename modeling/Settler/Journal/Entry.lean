import Settler.Time.Seconds
import Settler.Worker.Machine
import Settler.Worker.Services

/-!
The journal: what happened, when, and on whose behalf, the newest first.

Everything that can be told about the past is read off the journal: the log lines, the metrics, and
what went out to the services. `Event.notes` words each event.
-/

namespace Settler

open Settler.Settlement

/-- A worker instance: its job, and which of the job's instances it is. -/
structure Instance where
  job : String
  number : Nat
  deriving DecidableEq, Repr

/-- Something that happened. -/
inductive Event where
  /-- A worker or one of its services left a note. -/
  | note (n : Note)
  /-- Something went out. -/
  | sent (owner : Instance) (o : Outbound)
  /-- The outcome of what went out came in. -/
  | heard (owner : Instance) (outcome : Except Fault Reply)
  /-- A job was triggered; the trigger is skipped if the job has a live run. -/
  | triggered (job reason : String) (accepted : Bool)
  /-- An instance began. -/
  | began (i : Instance)
  /-- A fault cut an instance short. -/
  | crashed (i : Instance)
  /-- An instance ended. -/
  | ended (i : Instance) (e : Exit)
  /-- A job is to be restarted, for the n-th time in all. -/
  | restarting (job : String) (n : Nat)
  /-- A job's run was given up: there were too many restarts in the window. -/
  | gaveUp (job : String) (limit : Int) (window : String)
  | tickFailed
  | started (jobs : List String)
  | stopped

namespace Event

/-- A log line of the supervisor. -/
def line (level : Level) (text : String) : Note := .log level ("supervisor." ++ text)

/-- The notes on an event, in order. -/
def notes : Event → List Note
  | .note n => [n]
  | .sent _ _ => []
  | .heard _ _ => []
  | .triggered job reason true => [line .info ("trigger job=" ++ job ++ " reason=" ++ reason)]
  | .triggered job reason false =>
    [line .info ("trigger_skipped job=" ++ job ++ " reason=" ++ reason ++ " already_running=true")]
  | .began i => [.event i.job "start"]
  | .crashed i => [line .error ("worker_crashed job=" ++ i.job)]
  | .ended i e =>
    .event i.job ("exit_" ++ e.label) ::
      (match e with
        | .normal => [line .info ("worker_exited job=" ++ i.job ++ " exit=normal")]
        | .faulted => [line .warning ("worker_exited job=" ++ i.job ++ " exit=faulted")]
        | .crashed => [])
  | .restarting job n => [line .warning ("restarting job=" ++ job ++ " restarts=" ++ toString n)]
  | .gaveUp job limit window =>
    [line .error ("restart_intensity_exceeded job=" ++ job ++ " max_restarts=" ++ toString limit
        ++ " window_seconds=" ++ window),
     .event job "gave_up"]
  | .tickFailed => [line .error "tick_failed"]
  | .started jobs => [line .info ("started jobs=" ++ ",".intercalate jobs)]
  | .stopped => [line .info "stopped"]

end Event

/-- Something that happened, and when. -/
structure Entry where
  time : Instant
  event : Event

/-- Entries, the newest first. -/
abbrev Journal := List Entry

namespace Journal

/-- Adds events, the oldest of them first. -/
def record (j : Journal) (time : Instant) (events : List Event) : Journal :=
  (events.map (Entry.mk time)).reverse ++ j

/-- What an entry says went out. -/
def sent? (e : Entry) : Option Outbound :=
  match e.event with
  | .sent _ o => some o
  | _ => none

/-- What went out, the newest first. -/
def outbound (j : Journal) : List Outbound := j.filterMap sent?

/-- The notes, the oldest first. -/
def notes (j : Journal) : List Note := j.reverse.flatMap fun e => e.event.notes

/-- The metrics. -/
def registry (j : Journal) : Registry := Note.recordAll .empty j.notes

end Journal

end Settler
