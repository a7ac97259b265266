import Settler.Supervisor.Job

/-!
Scripted workers: runs laid down in advance, for rehearsals.

A run may begin with a delay; then it exits, fails, or never ends. Each instance of a job takes the
next run of its script, and the last one is repeated.
-/

namespace Settler.Script

/-- How a scripted run ends. -/
inductive Ending where
  | exit (e : Exit)
  | fail (f : Fault)
  | never

/-- A scripted run. -/
structure Part (δ : Type) where
  delay : Option δ := none
  ending : Ending := .exit .normal

namespace Part

variable {δ : Type}

/-- The end of the run. -/
def close (p : Part δ) : Turn (Part δ) δ where
  worker := p
  next := match p.ending with
    | .exit e => .exit e
    | .fail f => .fail f
    | .never => .hold

/-- The first turn: the delay, if there is one. -/
def begin (p : Part δ) : Turn (Part δ) δ :=
  match p.delay with
  | some d => { worker := p, next := .pause d }
  | none => p.close

instance : Machine (Part δ) δ := ⟨begin, fun p _ => p.close⟩

end Part

/-- The instances of a script's runs by number; a run that cannot be built is a fault. -/
def instances {δ : Type} (runs : List (Except Fault (Part δ))) (n : Nat) : Except Fault (Part δ) :=
  runs[min n (runs.length - 1)]?.getD (.ok {})

end Settler.Script
