import Settler.Json.Value
import Settler.Decimal.Reading

/-!
The metrics that the daemon keeps: counters with labels, and gauges.

Recording never fails: an increment with the wrong labels, of the wrong kind of metric, or a gauge
value that is no number, changes nothing.
-/

namespace Settler

/-- The metrics. -/
inductive Metric where
  | httpRequests
  | workerEvents
  | settlementCalls
  | sweepEpoch
  | sweepDebt
  | sweepPaid
  deriving DecidableEq, Repr

namespace Metric

/-- Every metric, in order. -/
def all : List Metric :=
  [.httpRequests, .workerEvents, .settlementCalls, .sweepEpoch, .sweepDebt, .sweepPaid]

/-- The name under which a metric is exposed. -/
def name : Metric → String
  | .httpRequests => "scheduler_http_requests_total"
  | .workerEvents => "scheduler_worker_events_total"
  | .settlementCalls => "scheduler_settlement_calls_total"
  | .sweepEpoch => "scheduler_sweep_current_epoch"
  | .sweepDebt => "scheduler_sweep_total_debt"
  | .sweepPaid => "scheduler_sweep_total_paid"

/-- A counter's label names, in alphabetical order; a gauge has none. -/
def labels : Metric → List String
  | .httpRequests => ["method", "path", "status"]
  | .workerEvents => ["event", "worker"]
  | .settlementCalls => ["operation", "result"]
  | _ => []

/-- A metric that is incremented; the others are set. -/
def isCounter (m : Metric) : Bool := !m.labels.isEmpty

/-- The gauges, in order. -/
def gauges : List Metric := all.filter fun m => !m.isCounter

end Metric

/-- The series of a counter: the values of its labels, in the order of their names. -/
structure Series where
  metric : Metric
  values : List String
  deriving DecidableEq, Repr

/-- The counts and gauges so far. -/
structure Registry where
  counts : List (Series × Nat)
  gauges : List (Metric × Binary64)
  deriving DecidableEq, Repr

namespace Registry

/-- No counts, and every gauge at zero. -/
def empty : Registry := ⟨[], Metric.gauges.map fun m => (m, .zero false)⟩

/-- The count of a series. -/
def count (r : Registry) (s : Series) : Nat := (r.counts.lookup s).getD 0

/-- The series of a counter for labels given by name, if they are the counter's own. -/
def seriesOf? (m : Metric) (labels : List (String × String)) : Option Series :=
  if m.isCounter && labels.length == m.labels.length then
    (m.labels.mapM fun l => labels.lookup l).map (⟨m, ·⟩)
  else none

/-- Adds one to the count of a series. -/
def bump (s : Series) : List (Series × Nat) → List (Series × Nat)
  | [] => [(s, 1)]
  | (t, n) :: rest => if t = s then (t, n + 1) :: rest else (t, n) :: bump s rest

/-- Adds one to a counter. -/
def increment (r : Registry) (m : Metric) (labels : List (String × String)) : Registry :=
  match seriesOf? m labels with
  | some s => { r with counts := bump s r.counts }
  | none => r

/-- The binary number that a gauge is set to by a value, if the value has one. -/
def gaugeValue? : Json → Option Binary64
  | .int n => Binary64.ofInt? n
  | .real x => some x
  | .bool b => some (.nearest (if b then 1 else 0))
  | .text s => s.string?.bind fun t => Decimal.read? t.toList
  | _ => none

/-- Sets a gauge. -/
def set (r : Registry) (m : Metric) (value : Json) : Registry :=
  match gaugeValue? value with
  | some x => { r with gauges := r.gauges.map fun (g, old) => (g, if g = m then x else old) }
  | none => r

end Registry

end Settler
