import Settler.Worker.Solo

/-!
Working on from one want to the next.

Nobody runs beside a worker on its own, so all that its waits do is to move the clock: `restFrom?`
and `awaitFrom?` say to where. Each lemma on `work` gives one want effect.
-/

namespace Settler.Solo

variable {ω δ : Type} [Seconds δ]

/-- The clock after a pause that starts at an instant, if the pause ends. -/
def restFrom? (t : Instant) (span : δ) : Option Instant :=
  if Seconds.takesTime span then Seconds.wake? t span else some t

/-- The clock when an outcome that is asked for at an instant comes in, if it does. -/
def awaitFrom? (t : Instant) : Latency δ → Option Instant
  | .immediate => some t
  | .after span => restFrom? t span
  | .never => none

theorem rest_eq (s : Solo ω) (span : δ) :
    s.rest? span = (restFrom? s.clock span).map fun t => { s with clock := t } := by
  unfold rest? restFrom?
  split <;> rfl

theorem await_eq (s : Solo ω) (latency : Latency δ) :
    s.await? latency = (awaitFrom? s.clock latency).map fun t => { s with clock := t } := by
  cases latency with
  | immediate => rfl
  | after span => exact rest_eq s span
  | never => rfl

variable [Machine ω δ] (services : Services δ) (fuel : Nat) (s : Solo ω)

theorem work_pause {turn : Turn ω δ} {span : δ} (next : turn.next = .pause span) :
    work services (fuel + 1) s turn
      = (.paused span, { s with worker := turn.worker, notes := s.notes ++ turn.notes }) := by
  rw [work, next]

theorem work_exit {turn : Turn ω δ} {e : Exit} (next : turn.next = .exit e) :
    work services (fuel + 1) s turn
      = (.exited e, { s with worker := turn.worker, notes := s.notes ++ turn.notes }) := by
  rw [work, next]

/-- An answer that comes in is what the worker goes on with. -/
theorem work_ask {turn : Turn ω δ} {op : Settlement.Operation} {a : Settlement.Answer} {t : Instant}
    (next : turn.next = .ask op)
    (comes : awaitFrom? s.clock (services.settle s.sent op).latency = some t)
    (outcome : (services.settle s.sent op).outcome = .ok a) :
    work services (fuel + 1) s turn
      = work services fuel
          { worker := turn.worker, clock := t, sent := .asked op :: s.sent
            notes := s.notes ++ turn.notes ++ (services.settle s.sent op).notes }
          (Machine.resume turn.worker (.answered a)) := by
  rw [work, next]
  simp only [hear, await_eq, comes, outcome, Option.map_some, Except.map]

/-- Totals that arrive are what the worker goes on with. -/
theorem work_post {turn : Turn ω δ} {sums : Summary} {t : Instant} (next : turn.next = .post sums)
    (comes : awaitFrom? s.clock (services.post s.sent sums).latency = some t)
    (outcome : (services.post s.sent sums).outcome = .ok ()) :
    work services (fuel + 1) s turn
      = work services fuel
          { worker := turn.worker, clock := t, sent := .posted sums :: s.sent
            notes := s.notes ++ turn.notes ++ (services.post s.sent sums).notes }
          (Machine.resume turn.worker .posted) := by
  rw [work, next]
  simp only [hear, await_eq, comes, outcome, Option.map_some, Except.map]

/-- A pause that ends is followed by more work. -/
theorem go_paused {turns : Nat} {span : δ} {t : Instant} (ends : restFrom? s.clock span = some t) :
    go services turns (fuel + 1) (.paused span, s)
      = go services turns fuel (({ s with clock := t } : Solo ω).step services turns) := by
  rw [go, rest_eq, ends]
  rfl

end Settler.Solo
