import Settler.Settings.Basic
import Settler.Json.Value

/-!
The settings by name.
-/

namespace Settler.Settings

/-- A number as a JSON value. -/
def number : Number → Json
  | .int n => .int n
  | .real x => .real x

/-- Every setting with its name. -/
def entries (s : Settings) : List (String × Json) :=
  [("LOG_LEVEL", .text s.logLevel), ("ENV", .text s.environment),
   ("LEDGER_RPC", .text s.ledgerRpc), ("SOLANA_RPC", .text s.solanaRpc),
   ("SETTLEMENT_API_URL", .text s.settlementUrl),
   ("SETTLEMENT_TIMEOUT_SECONDS", .real s.settlementTimeout),
   ("SLACK_WEBHOOK_URL", .text s.webhookUrl), ("SLACK_TIMEOUT_SECONDS", .real s.webhookTimeout),
   ("GENESIS_EPOCH", .int s.genesisEpoch), ("PAY_DEBT_STEP_DELAY_MS", .int s.stepDelayMillis),
   ("PAY_DEBT_ON_STARTUP", .bool s.payOnStartup), ("PAY_DEBT_SCHEDULE", .text s.paySchedule),
   ("INITIALIZE_DISTRIBUTION_SCHEDULE", .text s.initializeSchedule),
   ("CALCULATE_DISTRIBUTION_SCHEDULE", .text s.calculateSchedule),
   ("COLLECT_ALL_DEBT_SCHEDULE", .text s.collectSchedule),
   ("SCHEDULER_ENABLED", .bool s.schedulerEnabled),
   ("SUPERVISOR_TICK_SECONDS", number s.tickSeconds), ("SUPERVISOR_MAX_RESTARTS", .int s.maxRestarts),
   ("SUPERVISOR_RESTART_WINDOW_SECONDS", number s.restartWindow),
   ("SUPERVISOR_RESTART_DELAY_SECONDS", number s.restartDelay),
   ("HTTP_PORT", .int s.httpPort), ("METRICS_ENABLED", .bool s.metricsEnabled)]

/-- Second names of settings. -/
def secondNames : List String := ["DZ_LEDGER_RPC", "VALIDATOR_SLACK_WEBHOOK", "SCHEDULER_HTTP_PORT"]

/-- Every name that a setting may have. -/
def names : List String := (({} : Settings).entries.map (·.1)) ++ secondNames

end Settler.Settings
