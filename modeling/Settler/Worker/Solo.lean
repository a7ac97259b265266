import Settler.Worker.Machine
import Settler.Worker.Services
import Settler.Time.Seconds

/-!
One worker on its own, against its services and a clock.

Nobody else runs beside it, so a wait only moves the clock. `work` goes on to the next pause or to
the end; `run` rests at every pause and goes on.
-/

namespace Settler

/-- A worker on its own: the clock, what it sent out, the newest first, and the notes in order. -/
structure Solo (ω : Type) where
  worker : ω
  clock : Instant := 0
  sent : List Outbound := []
  notes : List Note := []

/-- How a stretch of work ended. -/
inductive Stop (δ : Type) where
  | paused (span : δ)
  | exited (e : Exit)
  | failed (f : Fault)
  /-- It waits for something that never comes. -/
  | stuck

namespace Solo

variable {ω δ : Type} [Machine ω δ] [Seconds δ]

/-- The clock after a pause, if the pause ends. -/
def rest? (s : Solo ω) (span : δ) : Option (Solo ω) :=
  if Seconds.takesTime span then (Seconds.wake? s.clock span).map fun t => { s with clock := t }
  else some s

/-- The clock after waiting for an outcome, if it comes. -/
def await? (s : Solo ω) : Latency δ → Option (Solo ω)
  | .immediate => some s
  | .after span => s.rest? span
  | .never => none

/-- Waits for an outcome: the fault that it is, or the reply that it gives. -/
def hear {α : Type} (s : Solo ω) (p : Pending δ α) (reply : α → Reply) :
    Option (Solo ω × Except Fault Reply) :=
  (s.await? p.latency).map fun s => ({ s with notes := s.notes ++ p.notes }, p.outcome.map reply)

/-- Works on from a turn to the next pause or the end, in at most so many turns. -/
def work (services : Services δ) : Nat → Solo ω → Turn ω δ → Stop δ × Solo ω
  | 0, s, _ => (.stuck, s)
  | fuel + 1, s, turn =>
    let s := { s with worker := turn.worker, notes := s.notes ++ turn.notes }
    let goOn : Option (Solo ω × Except Fault Reply) → Stop δ × Solo ω
      | none => (.stuck, s)
      | some (s, .error f) => (.failed f, s)
      | some (s, .ok reply) => work services fuel s (Machine.resume s.worker reply)
    match turn.next with
    | .pause span => (.paused span, s)
    | .hold => (.stuck, s)
    | .ask op =>
      goOn (({ s with sent := .asked op :: s.sent }).hear (services.settle s.sent op) .answered)
    | .post totals =>
      goOn (({ s with sent := .posted totals :: s.sent }).hear (services.post s.sent totals)
        fun () => .posted)
    | .exit e => (.exited e, s)
    | .fail f => (.failed f, s)

/-- Works on after a rest. -/
def step (services : Services δ) (fuel : Nat) (s : Solo ω) : Stop δ × Solo ω :=
  work services fuel s (Machine.resume s.worker .rested)

/-- Rests at every pause and works on, at most so often. -/
def go (services : Services δ) (turns : Nat) : Nat → Stop δ × Solo ω → Stop δ × Solo ω
  | 0, (_, s) => (.stuck, s)
  | fuel + 1, (.paused span, s) =>
    match s.rest? span with
    | some s => go services turns fuel (s.step services turns)
    | none => (.stuck, s)
  | _, ended => ended

/-- A whole run. -/
def run (services : Services δ) (turns rests : Nat) (s : Solo ω) : Stop δ × Solo ω :=
  go services turns rests (work services turns s (Machine.begin s.worker))

end Solo

end Settler
