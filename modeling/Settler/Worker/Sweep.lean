import Settler.Worker.Machine
import Settler.Settlement.Failure

/-!
The debt sweep: pays epoch after epoch, from the genesis epoch until no record is left.

There is no telling in advance how many epochs can be paid, so the sweep goes on until the service
says that the next record does not exist; then it posts the totals. A transient failure is tried
again at the same epoch, without limit; any other ends the sweep and nothing is posted.
-/

namespace Settler

open Settler.Settlement

/-- How far a sweep has come: the next epoch to pay, and the totals of the epochs paid. -/
structure Progress where
  genesis : Int
  epoch : Int
  totalDebt : Nat := 0
  totalPaid : Nat := 0
  insufficientFunds : Nat := 0
  deriving DecidableEq, Repr

namespace Progress

/-- Nothing paid yet. -/
def startingAt (genesis : Int) : Progress := { genesis, epoch := genesis }

/-- Adds a paid epoch to the totals and goes on to the next one. -/
def absorb (p : Progress) (c : Collection) : Progress :=
  { p with
    epoch := p.epoch + 1
    totalDebt := p.totalDebt + c.totalDebt
    totalPaid := p.totalPaid + c.totalPaid
    insufficientFunds := p.insufficientFunds + c.insufficientFunds }

/-- The totals. -/
def summary (p : Progress) : Summary := ⟨p.insufficientFunds, p.totalDebt, p.totalPaid⟩

end Progress

/-- A sweep: the pause before each payment, how far it has come, and how often it tried again. -/
structure Sweep (δ : Type) where
  delay : δ
  progress : Progress
  retries : Nat := 0
  deriving Repr

namespace Sweep

variable {δ : Type}

/-- The worker's name. -/
def name : String := "pay_debt"

/-- A fresh sweep. -/
def fresh (genesis : Int) (delay : δ) : Sweep δ := { delay, progress := .startingAt genesis }

/-- The first turn: a pause before the first payment. -/
def begin (s : Sweep δ) : Turn (Sweep δ) δ where
  worker := s
  notes := [.info ("sweep.start genesis_epoch=" ++ toString s.progress.genesis)]
  next := .pause s.delay

/-- Asks to pay the current epoch. -/
def pay (s : Sweep δ) : Turn (Sweep δ) δ where
  worker := s
  notes := [.gauge .sweepEpoch (.int s.progress.epoch)]
  next := .ask (.payDebt s.progress.epoch)

/-- The notes on a paid epoch, given the progress after it. -/
def paidNotes (epoch : Int) (c : Collection) (p : Progress) : List Note :=
  [.gauge .sweepDebt (.int p.totalDebt), .gauge .sweepPaid (.int p.totalPaid),
   .info ("sweep.epoch_completed epoch=" ++ toString epoch ++ " validators="
     ++ toString c.validators ++ " insufficient_funds=" ++ toString c.insufficientFunds
     ++ " total_debt=" ++ toString p.totalDebt ++ " total_paid=" ++ toString p.totalPaid)]

/-- The turn after the answer to a payment. -/
def hear (s : Sweep δ) (a : Answer) : Turn (Sweep δ) δ :=
  let epoch := s.progress.epoch
  match Outcome.ofPayment a with
  | .success (.batch c) =>
    let progress := s.progress.absorb c
    { worker := { s with progress }, notes := paidNotes epoch c progress, next := .pause s.delay }
  | .success _ => { worker := s, next := .fail .misfit }
  | .retryable reason =>
    let retries := s.retries + 1
    { worker := { s with retries }
      notes := [.warning ("sweep.retry epoch=" ++ toString epoch ++ " retries=" ++ toString retries
          ++ " err=" ++ reason),
        .event name "retry"]
      next := .pause s.delay }
  | .terminal _ =>
    { worker := s, notes := [.info ("sweep.completed epoch=" ++ toString epoch)]
      next := .post s.progress.summary }
  | .unexpected reason =>
    { worker := s
      notes := [.error ("sweep.unexpected_error epoch=" ++ toString epoch ++ " err="
          ++ Text.quoted reason),
        .event name "unexpected_error"]
      next := .exit .faulted }

/-- The turn after a reply. -/
def resume (s : Sweep δ) : Reply → Turn (Sweep δ) δ
  | .rested => s.pay
  | .answered a => s.hear a
  | .posted => { worker := s, notes := [.event name "exhausted"], next := .exit .normal }

instance : Machine (Sweep δ) δ := ⟨begin, resume⟩

end Sweep

end Settler
