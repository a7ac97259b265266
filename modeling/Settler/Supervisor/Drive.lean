import Settler.Supervisor.Tick

/-!
Letting time pass, and what can be asked of a supervisor.

The clock goes on only when nobody is ready. `runTo` moves everyone that gets ready up to an
instant; `settle` does not let the clock go on. The number of moves is bounded, as nothing else
bounds it: workers may go on for ever.
-/

namespace Settler.Supervisor.State

open Settler.Calendar

variable {ω δ : Type} [Machine ω δ] [Seconds δ] (su : Setup δ)

/-- The loop's move: it starts to wait, or ticks and waits again. A tick that fails is noted. -/
def moveLoop (l : Loop) (s : State ω) : State ω :=
  let s :=
    if l.started then
      match s.tickNow su with
      | (s, .ok _) => s
      | (s, .error _) => s.record [.tickFailed]
    else s
  { s with turn := s.turn + 1, loop := some ⟨true, .afterPause s.now s.turn su.tickDelay⟩ }

/-- The move of a job's live run, in a turn. -/
def moveJob (present : Nat) (t : Slot ω) (l : Live ω) (s : State ω) : State ω :=
  let (t, events) := t.move su ⟨s.now, present, s.turn, s.journal.outbound⟩ l
  ({ s with turn := s.turn + 1 }.put t).record events

/-- The move of whoever is ready, in a turn. -/
def move (m : Nat × Mover) (s : State ω) : State ω :=
  match m.2 with
  | .loop =>
    match s.loop with
    | some l => s.moveLoop su l
    | none => s
  | .job name =>
    match s.slot? name with
    | none => s
    | some t =>
      match t.live? with
      | some l => s.moveJob su m.1 t l
      | none => s

/-- The next thing to happen: a move, or else the clock goes on to the next instant that is waited
for, if there is one up to the limit. -/
def next? (limit : Option Instant) (s : State ω) : Option (State ω) :=
  match first? s.ready with
  | some m => some (s.move su m)
  | none =>
    match s.times.min? with
    | some t => if limit.all (t ≤ ·) then some (s.arrive su.ties (max s.now t)) else none
    | none => none

/-- Lets everything happen up to an instant, and sets the clock to it. -/
def runTo (limit : Instant) : Nat → State ω → State ω
  | 0, s => s
  | fuel + 1, s =>
    match s.next? su (some limit) with
    | some s => runTo limit fuel s
    | none => { s with now := max s.now limit }

/-- Lets everything happen that can happen now. -/
def settle (fuel : Nat) (s : State ω) : State ω := s.runTo su s.now fuel

/-- Lets those move that are ready now, once each. -/
def pass (bound : Nat) : Nat → State ω → State ω
  | 0, s => s
  | fuel + 1, s =>
    match first? s.ready with
    | some m => if m.1 < bound then pass bound fuel (s.move su m) else s
    | none => s

/-- Lets a span of time pass. A span that takes no time lets everyone move once. -/
def advance (fuel : Nat) (span : δ) (s : State ω) : State ω :=
  if Seconds.takesTime span then
    match Seconds.wake? s.now span with
    | some t => s.runTo su t fuel
    | none => s
  else s.pass su s.turn fuel

/-- Lets everything happen until a job has no live run. -/
def runUntilEnded (name : String) : Nat → State ω → State ω
  | 0, s => s
  | fuel + 1, s =>
    if s.isRunning name then
      match s.next? su none with
      | some s => runUntilEnded name fuel s
      | none => s
    else s

/-- The result of a job's last run, if it had one since the last stop. -/
def result (s : State ω) (name : String) : Except Fault (Option Exit) :=
  match (s.slot? name).bind (·.run) with
  | some (.ended (.ok e)) => .ok (some e)
  | some (.ended (.error f)) => .error f
  | _ => .ok none

/-- Starts the schedule loop, unless it is live. The minute of the start itself is still due. -/
def start (s : State ω) : State ω × Except Fault Unit :=
  if s.isLooping then (s, .ok ())
  else
    match (su.moment s.now).map Moment.startOfMinute with
    | .error f => (s, .error f)
    | .ok m =>
      match m.add? (-minute) with
      | none => (s, .error .dateRange)
      | some last =>
        match { s with lastTick := some last }.refresh last with
        | (s, .error f) => (s, .error f)
        | (s, .ok ()) =>
          let startups := (s.slots.filter (·.job.runsOnStartup)).map (·.job.name)
          let s := startups.foldl (fun s name => (s.trigger su name "startup").1) s
          let s := { s with turn := s.turn + 1, loop := some ⟨false, .ready s.turn⟩ }
          (s.record [.started s.names], .ok ())

/-- What is noted when a slot's run is given up. -/
def abandonedNotes (t : Slot ω) : List Note :=
  match t.live? with
  | none => []
  | some l =>
    match l.phase with
    | .awaiting _ _ _ abandoned => abandoned
    | _ => []

/-- The slots with live runs, in the order in which their runs are told to stop: those that are
ready by their turns, then those that wait by their places. -/
def stopOrder (s : State ω) : List (Slot ω) :=
  let turn (t : Slot ω) : Option Nat := t.live?.bind fun l => l.wake.turn?
  let ready := s.slots.filter fun t => (turn t).isSome
  let waiting := s.slots.filter fun t => t.isRunning && (turn t).isNone
  ready.mergeSort (fun a b => (turn a).getD 0 ≤ (turn b).getD 0)
    ++ waiting.mergeSort fun a b => a.place ≤ b.place

/-- A slot after a stop: no run. -/
def stopped (t : Slot ω) : Slot ω := { t with run := none, health.running := false }

/-- Stops the schedule loop and every run. -/
def stop (s : State ω) : State ω :=
  let notes := s.stopOrder.flatMap abandonedNotes
  { s with loop := none, slots := s.slots.map stopped }.record (notes.map Event.note ++ [Event.stopped])

/-- What can be asked of a supervisor. -/
inductive Command (δ : Type) where
  | start
  | stop
  | trigger (name reason : String)
  /-- A tick at a moment, or at the present one. -/
  | tick (m : Option Moment)
  | isRunning (name : String)
  | wait (name : String)
  | advance (span : δ)
  /-- Lets everything happen that can happen now. -/
  | settle
  | names

/-- What a command gives. -/
inductive Result where
  | done
  | truth (b : Bool)
  | jobs (names : List String)
  | exit (e : Option Exit)
  deriving DecidableEq, Repr

/-- Carries out a command. -/
def perform (fuel : Nat) (s : State ω) : Command δ → State ω × Except Fault Result
  | .start =>
    let (s, r) := s.start su
    (s, r.map fun () => .done)
  | .stop => (s.stop, .ok .done)
  | .trigger name reason =>
    let (s, r) := s.trigger su name reason
    (s, r.map .truth)
  | .tick m =>
    let (s, r) := match m with
      | some m => s.tick su m
      | none => s.tickNow su
    (s, r.map .jobs)
  | .isRunning name => (s, .ok (.truth (s.isRunning name)))
  | .wait name =>
    let s := s.runUntilEnded su name fuel
    (s, (s.result name).map .exit)
  | .advance span => (s.advance su fuel span, .ok .done)
  | .settle => (s.settle su fuel, .ok .done)
  | .names => (s, .ok (.jobs s.names))

end Settler.Supervisor.State
