import Settler.Cron.Parser
import Settler.Settings.Basic
import Settler.Supervisor.Drive
import Settler.Worker.Basic

/-!
The daemon's jobs: which workers run, and when.

The sweep, the initializer and the calculator always have a job; the collector has one only if its
schedule is not blank.
-/

namespace Settler.Settings

open Settler.Supervisor Settler.Calendar

/-- The job of a worker that every instance begins as. -/
def workerJob (name : String) (w : Worker Number) (schedule : Option Cron.Schedule) :
    Job (Worker Number) :=
  { name, build := fun _ => .ok w, schedule }

/-- Reads a schedule setting; a blank one is no schedule. -/
def readSchedule (text : String) : Except Fault (Option Cron.Schedule) :=
  (Cron.Schedule.parseOptional text).mapError .scheduler

/-- The jobs for settings, in order. -/
def jobs (s : Settings) : Except Fault (List (Job (Worker Number))) := do
  let delay ← s.stepDelay
  let sweep := Sweep.fresh s.genesisEpoch (Number.real delay)
  let pay ← readSchedule s.paySchedule
  let opening ← readSchedule s.initializeSchedule
  let calculate ← readSchedule s.calculateSchedule
  let collect ← readSchedule s.collectSchedule
  return [{ workerJob Sweep.name (.sweep sweep) pay with runsOnStartup := s.payOnStartup },
      workerJob Initializer.name (.initializer {}) opening,
      workerJob Calculator.name (.calculator .resolving) calculate]
    ++ (if collect.isSome then [workerJob Collector.name (.collector {}) collect] else [])

/-- The supervisor for settings. -/
def supervisor (s : Settings) : Except Fault (State (Worker Number)) := s.jobs.bind State.ofJobs

/-- How settings set the supervisor up, given the moment at which the clock starts, the services, and
how the event loop orders timers. -/
def setup (s : Settings) (origin : Moment) (services : Services Number) (ties : Ties := .setOrder) :
    Setup Number where
  maxRestarts := s.maxRestarts
  window := s.restartWindow
  restartDelay := s.restartDelay
  tickDelay := s.tickSeconds
  origin
  services
  ties

/-- The far sides that settings name. -/
def remote (s : Settings) (library : Http.Library)
    (exchange : List Http.Request → Http.Request → Pending Number Http.Response) :
    Except Fault (Remote Number) :=
  (library.base s.settlementUrl).map fun base =>
    { library, wire := ⟨base, s.ledgerRpc, s.solanaRpc⟩, webhook := ⟨s.webhookUrl⟩, exchange }

end Settler.Settings
