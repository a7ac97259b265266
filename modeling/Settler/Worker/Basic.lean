import Settler.Worker.Sweep
import Settler.Worker.Single
import Settler.Worker.Calculator

/-!
The workers of the daemon, of every kind.
-/

namespace Settler

/-- A turn of a worker of one kind as a turn of a worker of any kind. -/
def Turn.map {α β δ : Type} (f : α → β) (t : Turn α δ) : Turn β δ :=
  { worker := f t.worker, notes := t.notes, next := t.next }

/-- A worker. -/
inductive Worker (δ : Type) where
  | sweep (w : Sweep δ)
  | initializer (w : Initializer)
  | calculator (w : Calculator)
  | collector (w : Collector)
  /-- A worker without a way to run. -/
  | blank
  deriving Repr

namespace Worker

variable {δ : Type}

/-- The worker's name. -/
def name : Worker δ → String
  | .sweep _ => Sweep.name
  | .initializer _ => Initializer.name
  | .calculator _ => Calculator.name
  | .collector _ => Collector.name
  | .blank => "worker"

/-- The first turn. -/
def begin : Worker δ → Turn (Worker δ) δ
  | .sweep w => w.begin.map .sweep
  | .initializer w => w.begin.map .initializer
  | .calculator w => w.begin.map .calculator
  | .collector w => w.begin.map .collector
  | .blank => { worker := .blank, next := .fail .notImplemented }

/-- The turn after a reply. -/
def resume : Worker δ → Reply → Turn (Worker δ) δ
  | .sweep w, r => (w.resume r).map .sweep
  | .initializer w, r => (w.resume r).map .initializer
  | .calculator w, r => (w.resume r).map .calculator
  | .collector w, r => (w.resume r).map .collector
  | .blank, _ => { worker := .blank, next := .fail .notImplemented }

instance : Machine (Worker δ) δ := ⟨begin, resume⟩

end Worker

end Settler
