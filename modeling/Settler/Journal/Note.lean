import Settler.Json.Display
import Settler.Metrics.Registry

/-!
Notes: what the daemon's parts write down as they work.

A note is a log line or a change to the metrics. Parts return their notes; nothing is written while
they work, so a part's notes are a value like any other.
-/

namespace Settler

/-- How much a log line matters. -/
inductive Level where
  | debug
  | info
  | warning
  | error
  deriving DecidableEq, Repr

/-- The level's name. -/
def Level.name : Level → String
  | .debug => "DEBUG"
  | .info => "INFO"
  | .warning => "WARNING"
  | .error => "ERROR"

/-- A log line or a change to the metrics. -/
inductive Note where
  | log (level : Level) (text : Str)
  /-- An exchange ended: its name and parameters. -/
  | timing (exchange : String) (fields : Json.Members)
  | count (metric : Metric) (labels : List (String × String))
  | gauge (metric : Metric) (value : Json)
  deriving Repr

namespace Note

/-- A log line of a level. -/
def info (text : Str) : Note := .log .info text

/-- A log line about something that was put up with. -/
def warning (text : Str) : Note := .log .warning text

/-- A log line about a failure. -/
def error (text : Str) : Note := .log .error text

/-- An event in a worker's life. -/
def event (worker event : String) : Note :=
  .count .workerEvents [("worker", worker), ("event", event)]

/-- The name and value of a field in a log line. -/
def fieldText (f : Str × Json) : Str := f.1 ++ "=" ++ f.2.plain

/-- The note's log line, if it has one. How long an exchange took differs from run to run, and a
star stands for it. -/
def line? : Note → Option Str
  | .log level text => some (level.name ++ " " ++ text)
  | .timing exchange fields =>
    some (.intercalate " " (↑("DEBUG op=" ++ exchange) :: ↑"duration_ms=*" :: fields.map fieldText))
  | _ => none

/-- The log lines of notes, in order. -/
def lines (notes : List Note) : List Str := notes.filterMap line?

/-- The metrics after a note. -/
def record (r : Registry) : Note → Registry
  | .count metric labels => r.increment metric labels
  | .gauge metric value => r.set metric value
  | _ => r

/-- The metrics after notes, in order. -/
def recordAll (r : Registry) (notes : List Note) : Registry := notes.foldl record r

end Note

end Settler
