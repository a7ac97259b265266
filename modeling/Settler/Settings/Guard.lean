import Settler.Settings.Basic
import Settler.Cron.Parser
import Settler.Text.Case

/-!
Guard rails: what settings must satisfy before anything starts.

The genesis epoch is checked first, then every schedule at once, then the ledger endpoints, which
only the safe environments may leave out.
-/

namespace Settler.Settings

open Settler.Text

/-- The environments that may run without ledger endpoints. -/
def safeEnvironments : List String := ["dev", "development", "test", "testing"]

/-- The schedule settings, by name, in order. -/
def schedules (s : Settings) : List (String × String) :=
  [("PAY_DEBT_SCHEDULE", s.paySchedule),
   ("INITIALIZE_DISTRIBUTION_SCHEDULE", s.initializeSchedule),
   ("CALCULATE_DISTRIBUTION_SCHEDULE", s.calculateSchedule),
   ("COLLECT_ALL_DEBT_SCHEDULE", s.collectSchedule)]

/-- The problem with a schedule setting, if it has one. -/
def scheduleProblem? (entry : String × String) : Option Str :=
  match Cron.Schedule.parseOptional entry.2 with
  | .ok _ => none
  | .error e => some (entry.1 ++ " (" ++ e.message ++ ")")

/-- The environment is one that may run without ledger endpoints. -/
def isSafe (s : Settings) : Bool :=
  safeEnvironments.contains (lower (trimmed s.environment))

/-- The names of the ledger endpoints that are blank. -/
def missingEndpoints (s : Settings) : List String :=
  ([("LEDGER_RPC", s.ledgerRpc), ("SOLANA_RPC", s.solanaRpc)].filter fun e => isBlankText e.2).map
    (·.1)

/-- What the guard rails object to. -/
inductive Objection where
  | negativeGenesis (epoch : Int)
  | badSchedules (problems : List Str)
  | noEndpoints (missing : List String) (environment : String)
  deriving DecidableEq, Repr

/-- The objection in words. -/
def Objection.message : Objection → Str
  | .negativeGenesis epoch => "GENESIS_EPOCH must be non-negative, got " ++ toString epoch
  | .badSchedules problems => "Invalid schedule expression(s): " ++ .intercalate "; " problems
  | .noEndpoints missing environment =>
    "Refusing to start without RPC endpoints outside dev/test: " ++ ", ".intercalate missing
      ++ ". Got ENV=" ++ quoted environment
      ++ ". Set them via environment variables (LEDGER_RPC / SOLANA_RPC), or run with ENV=dev/test."

/-- The first objection to the settings. -/
def objection? (s : Settings) : Option Objection :=
  let problems := s.schedules.filterMap scheduleProblem?
  let missing := s.missingEndpoints
  if s.genesisEpoch < 0 then some (.negativeGenesis s.genesisEpoch)
  else if !problems.isEmpty then some (.badSchedules problems)
  else if !s.isSafe && !missing.isEmpty then some (.noEndpoints missing s.environment)
  else none

/-- The settings if nothing is objected to, else the error for the first objection. -/
def guarded (s : Settings) : Except SchedulerError Settings :=
  match s.objection? with
  | none => .ok s
  | some o => .error (.make .configuration o.message [])

end Settler.Settings
