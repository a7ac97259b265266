import Settler.Worker.Machine
import Settler.Settlement.Failure

/-!
Workers of a single question: the initializer and the collector.

The initializer counts every answer as a normal end, for the next trigger is the retry. The
collector counts a refusal as a failure.
-/

namespace Settler

open Settler.Settlement

/-- Asks once to initialize the next distribution. -/
structure Initializer where
  deriving DecidableEq, Repr

namespace Initializer

/-- The worker's name. -/
def name : String := "initialize_distribution"

/-- The first turn. -/
def begin {δ : Type} (w : Initializer) : Turn Initializer δ :=
  { worker := w, next := .ask .initializeDistribution }

/-- The turn after a reply. -/
def resume {δ : Type} (w : Initializer) : Reply → Turn Initializer δ
  | .answered (.error reason) =>
    let kind := (initializationFailure reason).label
    { worker := w
      notes := [.error ("initialize_distribution.failed kind=" ++ kind ++ " err=" ++ Text.quoted reason),
        .event name kind]
      next := .exit .normal }
  | .answered (.ok (.message value)) =>
    { worker := w
      notes := [.info ("initialize_distribution.completed msg=" ++ value.plain), .event name "completed"]
      next := .exit .normal }
  | _ => { worker := w, next := .fail .misfit }

end Initializer

/-- Asks once to collect the debt of every completed epoch. -/
structure Collector where
  deriving DecidableEq, Repr

namespace Collector

/-- The worker's name. -/
def name : String := "collect_all_debt"

/-- The first turn. -/
def begin {δ : Type} (w : Collector) : Turn Collector δ := { worker := w, next := .ask .collectAllDebt }

/-- The turn after a reply. -/
def resume {δ : Type} (w : Collector) : Reply → Turn Collector δ
  | .answered (.error reason) =>
    { worker := w
      notes := [.error ("collect_all_debt.failed err=" ++ Text.quoted reason), .event name "error"]
      next := .exit .faulted }
  | .answered (.ok _) =>
    { worker := w, notes := [.info "collect_all_debt.completed", .event name "completed"]
      next := .exit .normal }
  | _ => { worker := w, next := .fail .misfit }

end Collector

end Settler
