import Settler.Decimal.Number
import Settler.Fault.Basic

/-!
The daemon's settings and their defaults.
-/

namespace Settler

/-- The settings. A schedule that is blank has no trigger. -/
structure Settings where
  logLevel : String := "INFO"
  environment : String := "dev"
  ledgerRpc : String := ""
  solanaRpc : String := ""
  settlementUrl : String := "http://localhost:8899"
  settlementTimeout : Binary64 := .nearest 120
  webhookUrl : String := ""
  webhookTimeout : Binary64 := .nearest 10
  genesisEpoch : Int := 31
  stepDelayMillis : Int := 10
  payOnStartup : Bool := true
  paySchedule : String := "0 */2 * * *"
  initializeSchedule : String := "*/2 * * * *"
  calculateSchedule : String := "15 * * * *"
  collectSchedule : String := ""
  schedulerEnabled : Bool := true
  tickSeconds : Number := .real (.nearest 1)
  maxRestarts : Int := 3
  restartWindow : Number := .real (.nearest 5)
  restartDelay : Number := .real (.nearest 1)
  httpPort : Int := 4001
  metricsEnabled : Bool := true
  deriving DecidableEq, Repr

namespace Settings

/-- The pause between two payments in seconds; a negative setting counts as zero. -/
def stepDelay (s : Settings) : Except Fault Binary64 :=
  match Binary64.ofInt? (max 0 s.stepDelayMillis) with
  | some x => .ok (x.divNat 1000)
  | none => .error .hugeInteger

end Settings

end Settler
