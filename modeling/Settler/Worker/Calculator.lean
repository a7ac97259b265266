import Settler.Worker.Machine

/-!
The distribution calculator: calculates the epoch that closed last, and finalizes it.

The live epoch is never calculated. Finalizing cannot be undone, so it is asked for only after
`requiredRuns` calculations of the same epoch succeeded in this run; the last of them is announced.
A refusal before that ends the run, and the next trigger is the retry.
-/

namespace Settler

open Settler.Settlement

/-- The calculations of one epoch that succeeded so far. -/
structure Calculation where
  target : Int
  runs : Int := 0
  deriving DecidableEq, Repr

namespace Calculation

/-- How many calculations must succeed before the epoch is finalized. -/
def requiredRuns : Int := 3

/-- The next calculation is the last one. -/
def isLast (c : Calculation) : Bool := c.runs = requiredRuns - 1

/-- Enough calculations succeeded. -/
def isConfirmed (c : Calculation) : Bool := requiredRuns ≤ c.runs

end Calculation

/-- A calculator, by how far its run has come. -/
inductive Calculator where
  | resolving
  | calculating (c : Calculation)
  | finalizing (c : Calculation)
  | stopped (c : Option Calculation)
  deriving DecidableEq, Repr

namespace Calculator

/-- The worker's name. -/
def name : String := "calculate_distribution"

/-- The name of the phase. -/
def phase : Calculator → String
  | .resolving => "resolve_epoch"
  | .calculating _ => "calculating"
  | .finalizing _ => "finalizing"
  | .stopped _ => "stopped"

/-- The calculation, once its epoch is known. -/
def calculation? : Calculator → Option Calculation
  | .resolving => none
  | .calculating c => some c
  | .finalizing c => some c
  | .stopped c => c

variable {δ : Type}

/-- The first turn: which epoch is live? -/
def begin (w : Calculator) : Turn Calculator δ := { worker := w, next := .ask .currentEpoch }

/-- Stops the run on a failure. -/
def halt (c : Option Calculation) (text : Str) (event : String) : Turn Calculator δ where
  worker := .stopped c
  notes := [.error ("calculate_distribution." ++ text), .event name event]
  next := .exit .faulted

/-- Ends the run after the question to finalize. -/
def finish (c : Calculation) (note : Note) (event : String) : Turn Calculator δ where
  worker := .stopped (some c)
  notes := [note, .event name event]
  next := .exit .normal

/-- The epoch of a calculation, as log lines show it. -/
def target (c : Calculation) : String := " epoch=" ++ toString c.target

/-- Asks for the next calculation, or to finalize if there were enough; the notes come first. -/
def proceed (c : Calculation) (notes : List Note) : Turn Calculator δ :=
  if c.isConfirmed then
    { worker := .finalizing c
      notes := notes ++ [.info ("calculate_distribution.finalizing" ++ target c)]
      next := .ask (.finalizeDistribution c.target) }
  else { worker := .calculating c, notes, next := .ask (.calculateDistribution c.target c.isLast) }

/-- The turn after the answer on the live epoch. -/
def resolve : Answer → Turn Calculator δ
  | .error reason => halt none ("epoch_unavailable err=" ++ Text.quoted reason) "epoch_unavailable"
  | .ok (.epoch n) =>
    if n < 1 then halt none ("no_closed_epoch current_epoch=" ++ toString n) "no_closed_epoch"
    else proceed { target := n - 1 } []
  | .ok _ => { worker := .resolving, next := .fail .misfit }

/-- The turn after the answer to a calculation. -/
def calculated (c : Calculation) : Answer → Turn Calculator δ
  | .error reason =>
    halt (some c) ("failed" ++ target c ++ " run=" ++ toString (c.runs + 1) ++ " err="
      ++ Text.quoted reason) "calculation_failed"
  | .ok _ =>
    let next := { c with runs := c.runs + 1 }
    proceed next [.info ("calculate_distribution.run_completed" ++ target next ++ " run="
      ++ toString next.runs)]

/-- The turn after the answer to the question to finalize. -/
def finalized (c : Calculation) : Answer → Turn Calculator δ
  | .error reason =>
    finish c (.error ("calculate_distribution.finalize_failed" ++ target c ++ " err="
      ++ Text.quoted reason)) "finalize_failed"
  | .ok _ => finish c (.info ("calculate_distribution.finalized" ++ target c)) "finalized"

/-- The turn after a reply. -/
def resume : Calculator → Reply → Turn Calculator δ
  | .resolving, .answered a => resolve a
  | .calculating c, .answered a => calculated c a
  | .finalizing c, .answered a => finalized c a
  | w, _ => { worker := w, next := .fail .misfit }

end Calculator

end Settler
