import Settler.Settings.Guard
import Settler.Validation.Lenient

/-!
Loading settings from given values and from the environment.

A setting may have a second name. A given value comes before one of the environment, and the first
name before the second. Names that no setting has are ignored.
-/

namespace Settler.Settings

open Settler.Validation

/-- Where settings come from: values given outright, and environment variables. -/
structure Sources where
  given : List (String × Json)
  environment : List (String × String)

/-- The value of a setting and the name that an issue with it is filed under. -/
def Sources.find? (s : Sources) (names : List String) : Option (String × Json) :=
  match names.findSome? fun n => s.given.lookup n with
  | some j => some (names.headD "", j)
  | none => names.findSome? fun n => (s.environment.lookup n).map fun v => (n, Json.text v)

/-- Reads one setting; its default stands in where it is not set. -/
def Sources.read {α : Type} (s : Sources) (reader : Json → Except Complaint α) (default : α)
    (names : List String) : Checked α :=
  match s.find? names with
  | none => pure default
  | some (name, j) => .ofField default name j (reader j)

/-- Reads a span of seconds. -/
def seconds (j : Json) : Except Complaint Number := (real j).map .real

/-- Reads every setting, in order. -/
def Sources.settings (s : Sources) : Checked Settings := do
  let d : Settings := {}
  let logLevel ← s.read text d.logLevel ["LOG_LEVEL"]
  let environment ← s.read text d.environment ["ENV"]
  let ledgerRpc ← s.read text d.ledgerRpc ["LEDGER_RPC", "DZ_LEDGER_RPC"]
  let solanaRpc ← s.read text d.solanaRpc ["SOLANA_RPC"]
  let settlementUrl ← s.read text d.settlementUrl ["SETTLEMENT_API_URL"]
  let settlementTimeout ← s.read real d.settlementTimeout ["SETTLEMENT_TIMEOUT_SECONDS"]
  let webhookUrl ← s.read text d.webhookUrl ["SLACK_WEBHOOK_URL", "VALIDATOR_SLACK_WEBHOOK"]
  let webhookTimeout ← s.read real d.webhookTimeout ["SLACK_TIMEOUT_SECONDS"]
  let genesisEpoch ← s.read integer d.genesisEpoch ["GENESIS_EPOCH"]
  let stepDelayMillis ← s.read integer d.stepDelayMillis ["PAY_DEBT_STEP_DELAY_MS"]
  let payOnStartup ← s.read truth d.payOnStartup ["PAY_DEBT_ON_STARTUP"]
  let paySchedule ← s.read text d.paySchedule ["PAY_DEBT_SCHEDULE"]
  let initializeSchedule ← s.read text d.initializeSchedule ["INITIALIZE_DISTRIBUTION_SCHEDULE"]
  let calculateSchedule ← s.read text d.calculateSchedule ["CALCULATE_DISTRIBUTION_SCHEDULE"]
  let collectSchedule ← s.read text d.collectSchedule ["COLLECT_ALL_DEBT_SCHEDULE"]
  let schedulerEnabled ← s.read truth d.schedulerEnabled ["SCHEDULER_ENABLED"]
  let tickSeconds ← s.read seconds d.tickSeconds ["SUPERVISOR_TICK_SECONDS"]
  let maxRestarts ← s.read integer d.maxRestarts ["SUPERVISOR_MAX_RESTARTS"]
  let restartWindow ← s.read seconds d.restartWindow ["SUPERVISOR_RESTART_WINDOW_SECONDS"]
  let restartDelay ← s.read seconds d.restartDelay ["SUPERVISOR_RESTART_DELAY_SECONDS"]
  let httpPort ← s.read integer d.httpPort ["HTTP_PORT", "SCHEDULER_HTTP_PORT"]
  let metricsEnabled ← s.read truth d.metricsEnabled ["METRICS_ENABLED"]
  return { logLevel, environment, ledgerRpc, solanaRpc, settlementUrl, settlementTimeout
           webhookUrl, webhookTimeout, genesisEpoch, stepDelayMillis, payOnStartup, paySchedule
           initializeSchedule, calculateSchedule, collectSchedule, schedulerEnabled, tickSeconds
           maxRestarts, restartWindow, restartDelay, httpPort, metricsEnabled }

/-- Loads the settings: every value must have the form of its setting, and nothing may be objected
to. -/
def load (s : Sources) : Except Fault Settings := do
  let settings ← (s.settings.result "Settings").mapError fun r => .invalid r.message
  settings.guarded.mapError .scheduler

end Settler.Settings
