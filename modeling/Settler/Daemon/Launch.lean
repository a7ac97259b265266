import Settler.Settings.Basic
import Settler.Json.Value
import Settler.Text.Case

/-!
The launch plan: how the HTTP surface is served.
-/

namespace Settler

/-- How the HTTP surface is served. -/
structure Launch where
  app : String
  host : String
  port : Int
  logLevel : String
  deriving DecidableEq, Repr

namespace Launch

/-- The application that is served. -/
def application : String := "debt_scheduler.main:app"

/-- The name under which the program is run, rather than read in. -/
def runName : String := "__main__"

/-- The log level; an empty one counts as the usual one. -/
def level (s : Settings) : String := if s.logLevel = "" then "INFO" else s.logLevel

/-- The plan for settings. -/
def plan (s : Settings) : Launch where
  app := application
  host := "0.0.0.0"
  port := s.httpPort
  logLevel := Text.lower (level s)

/-- What is launched when the program is loaded under a name. -/
def plans (name : String) (s : Settings) : List Launch := if name = runName then [plan s] else []

/-- The plan by field. -/
def entries (l : Launch) : Json.Members :=
  [("app", .text l.app), ("host", .text l.host), ("port", .int l.port), ("log_level", .text l.logLevel)]

end Launch

end Settler
