import Settler.Daemon.Launch
import Settler.Daemon.Jobs
import Settler.Metrics.Exposition
import Settler.Supervisor.Report

/-!
The daemon and its HTTP surface: health reports and metrics.

Starting the daemon sets the log level and, if the scheduler is enabled, starts the supervisor.
Answers to requests do not depend on the clock. A request is counted after it is answered, by its
route; what has no route is counted as unmatched.
-/

namespace Settler

open Settler.Supervisor Settler.Http

/-- A running daemon: its supervisor if it has one, with its setup, the clock, and the surface's own
notes in order. -/
structure Daemon where
  settings : Settings
  /-- The environment that health reports name, if one is set. -/
  environment : Option String
  /-- The variables of the environment. -/
  vars : List (String × String)
  supervised : Option (Setup Number × State (Worker Number)) := none
  clock : Instant := 0
  notes : List Note := []

namespace Daemon

/-! ### Start and stop -/

/-- The log levels by name, with their numbers. -/
def levels : List (String × Nat) :=
  [("CRITICAL", 50), ("FATAL", 50), ("ERROR", 40), ("WARN", 30), ("WARNING", 30), ("INFO", 20),
   ("DEBUG", 10), ("NOTSET", 0)]

/-- The number of the level before the daemon starts. -/
def initialLevel : Nat := 30

/-- The number of the log level in settings. -/
def level (s : Settings) : Except Fault Nat :=
  let name := Text.upper (Launch.level s)
  match levels.lookup name with
  | some n => .ok n
  | none => .error (.unknownLevel name)

/-- Starts the daemon, given the moment at which its clock starts, the HTTP library and what the far
sides give: the number of its log level, and the daemon. -/
def start (d : Daemon) (origin : Calendar.Moment) (library : Library)
    (exchange : List Request → Request → Pending Number Response) : Except Fault (Nat × Daemon) := do
  let n ← level d.settings
  if d.settings.schedulerEnabled then
    let remote ← d.settings.remote library exchange
    let setup := d.settings.setup origin remote.services
    let s ← d.settings.supervisor
    let (s, started) := s.start setup
    let _ ← started
    return (n, { d with supervised := some (setup, s) })
  else return (n, { d with notes := d.notes ++ [.info "lifespan.scheduler_disabled"] })

/-- The supervisor. -/
def supervisor? (d : Daemon) : Option (State (Worker Number)) := d.supervised.map (·.2)

/-- The daemon with its supervisor changed. -/
def change (d : Daemon) (f : Setup Number → State (Worker Number) → State (Worker Number)) : Daemon :=
  { d with supervised := d.supervised.map fun (setup, s) => (setup, f setup s) }

/-- Lets everything happen that can happen now. -/
def settle (d : Daemon) (fuel : Nat) : Daemon := d.change fun su s => s.settle su fuel

/-- Lets a span of time pass, and everything happen that can happen then. -/
def advance (d : Daemon) (fuel : Nat) (span : Number) : Daemon :=
  { d with clock := if Seconds.takesTime span then (Seconds.wake? d.clock span).getD d.clock else d.clock
  }.change fun su s => (s.advance su fuel span).settle su fuel

/-- Every note: the supervisor's, then the surface's own. -/
def allNotes (d : Daemon) : List Note :=
  (match d.supervisor? with
    | some s => s.journal.notes
    | none => []) ++ d.notes

/-- The metrics. -/
def registry (d : Daemon) : Registry := Note.recordAll .empty d.allNotes

/-! ### Answers -/

/-- The body of an answer. -/
inductive Body where
  | text (s : String)
  | json (j : Json)
  | metrics (lines : List String)
  | empty

/-- An answer to a request. -/
structure Answer where
  status : Nat := 200
  contentType : Option String := some "application/json"
  location : Option String := none
  allow : Option String := none
  body : Body

/-- A route of the surface. -/
inductive Route where
  | legacyHealth
  | liveness
  | health
  | metrics
  deriving DecidableEq, Repr

/-- The routes by path. -/
def routes : List (String × Route) :=
  [("/health_check", .legacyHealth), ("/healthz", .liveness), ("/health", .health),
   ("/metrics", .metrics)]

/-- The version: the first variable of two that is set, or a stand-in if it is blank. -/
def version (d : Daemon) : String :=
  let setting := (["SCHEDULER_APP_VERSION", "APP_VERSION"].filterMap fun n => d.vars.lookup n).find?
    (· != "")
  let text := Text.trimmed (setting.getD "")
  if text = "" then "dev" else text

/-- The health report. -/
def health (d : Daemon) : Json :=
  .object [("status", .text "ok"), ("version", .text d.version),
    ("environment", match d.environment with
      | some e => .text e
      | none => .null),
    ("scheduler", .object (match d.supervisor? with
      | some s => s.report
      | none => [("running", .bool false), ("jobs", .list [])]))]

/-- The answer of a route. -/
def respond (d : Daemon) : Route → Answer
  | .legacyHealth => { contentType := some "text/plain; charset=utf-8", body := .text ":ok" }
  | .liveness => { body := .json (.object [("status", .text "ok")]) }
  | .health => { body := .json d.health }
  | .metrics => { contentType := some "text/plain", body := .metrics d.registry.lines }

/-- An answer that gives a reason in words. -/
def refusal (status : Nat) (reason : String) : Answer :=
  { status, body := .json (.object [("detail", .text reason)]) }

/-- The path without the slashes at its end. -/
def withoutSlashes (path : List Char) : List Char := (path.reverse.dropWhile (· = '/')).reverse

/-- The answer to a request for a place on the surface, and the route's path for the count. -/
def answer (d : Daemon) (method : String) (url : Url) : Answer × Option String :=
  let path := Url.unquote url.path.toList
  match routes.lookup path with
  | some route =>
    if method = "GET" then (d.respond route, some path)
    else ({ refusal 405 "Method Not Allowed" with allow := some "GET" }, some path)
  | none =>
    let shorter := withoutSlashes path.toList
    if path.toList.getLast? = some '/' && (routes.lookup (String.ofList shorter)).isSome then
      ({ status := 307, contentType := none, body := .empty
         location := some { url with path := String.ofList shorter }.place }, none)
    else (refusal 404 "Not Found", none)

/-- The path under which requests without a route are counted. -/
def unmatched : String := "__unmatched__"

/-- The answer as it is sent: one to a request for the head alone has no body. -/
def Answer.sent (a : Answer) (method : String) : Answer :=
  if method = "HEAD" then { a with body := .empty } else a

/-- Answers a request, and counts it if the settings say so. -/
def serve (d : Daemon) (method : String) (url : Url) : Answer × Daemon :=
  let (a, route) := d.answer method url
  let count := Note.count .httpRequests
    [("method", method), ("path", route.getD unmatched), ("status", toString a.status)]
  (a.sent method, if d.settings.metricsEnabled then { d with notes := d.notes ++ [count] } else d)

end Daemon

end Settler
