import Settler.Supervisor.Slot

/-!
The supervisor's state, triggers, and the order of moves.

Whoever is ready moves in the order of turns; those whose timers fall due together get theirs from
the event loop (`Ties`). There is one slot for each job, and at most one schedule loop.
-/

namespace Settler.Supervisor

open Settler.Calendar

/-- The schedule loop: whether it has begun to wait, and for what it waits. -/
structure Loop where
  started : Bool
  wake : Wake
  deriving DecidableEq, Repr

/-- The supervisor: a slot for each job, the schedule loop, the clock, the next fresh turn, the
minute of the last tick, and the journal. -/
structure State (ω : Type) where
  slots : List (Slot ω)
  loop : Option Loop := none
  now : Instant := 0
  turn : Nat := 0
  lastTick : Option Moment := none
  journal : Journal := []

namespace State

variable {ω δ : Type}

/-- The first name that repeats an earlier one, or one of the names before them all. -/
def repeated? (before : List String) : List String → Option String
  | [] => none
  | n :: rest => if before.contains n then some n else repeated? (n :: before) rest

/-- A supervisor of jobs; no two may have one name. -/
def ofJobs (jobs : List (Job ω)) : Except Fault (State ω) :=
  match repeated? [] (jobs.map (·.name)) with
  | some name => .error (.duplicateJob name)
  | none => .ok { slots := jobs.map fun j => { job := j } }

/-! ### Views -/

/-- The names of the jobs, in order. -/
def names (s : State ω) : List String := s.slots.map (·.job.name)

/-- The slot of a job. -/
def slot? (s : State ω) (name : String) : Option (Slot ω) := s.slots.find? fun t => t.job.name == name

/-- A job has a live run. -/
def isRunning (s : State ω) (name : String) : Bool := (s.slot? name).any Slot.isRunning

/-- The schedule loop is live. -/
def isLooping (s : State ω) : Bool := s.loop.isSome

/-! ### Changes -/

/-- The state with more events. -/
def record (s : State ω) (events : List Event) : State ω :=
  { s with journal := s.journal.record s.now events }

/-- The state with a slot in place of the one of its name. -/
def put (s : State ω) (t : Slot ω) : State ω :=
  { s with slots := s.slots.map fun u => if u.job.name = t.job.name then t else u }

/-- Triggers the job of a slot: it gets a new run, unless it has a live one. -/
def fire (su : Setup δ) (reason : String) (s : State ω) (t : Slot ω) : State ω × Bool :=
  if t.isRunning then
    ((s.put { t with health.skippedTriggers := t.health.skippedTriggers + 1 }).record
      [.triggered t.job.name reason false], false)
  else
    let place := if t.run.isSome then t.place else s.turn
    let run : Run ω :=
      .live { phase := .created, budget := { limit := su.maxRestarts }, wake := .ready s.turn }
    (({ s with turn := s.turn + 1 }.put { t with run := some run, place }).record
      [.triggered t.job.name reason true], true)

/-- Triggers a job by name: whether it got a new run. -/
def trigger (su : Setup δ) (name reason : String) (s : State ω) : State ω × Except Fault Bool :=
  match s.slot? name with
  | none => (s, .error (.unknownJob name))
  | some t =>
    let (s, fired) := s.fire su reason t
    (s, .ok fired)

/-! ### The order of moves -/

/-- Those that are ready, with their turns. -/
def ready (s : State ω) : List (Nat × Mover) :=
  (s.loop.bind fun l => l.wake.turn?).toList.map (·, .loop)
    ++ s.slots.filterMap fun t => (t.live?.bind fun l => l.wake.turn?).map (·, .job t.job.name)

/-- The one whose turn is first. -/
def first? : List (Nat × Mover) → Option (Nat × Mover)
  | [] => none
  | m :: rest =>
    match first? rest with
    | none => some m
    | some n => some (if n.1 < m.1 then n else m)

/-- The instants that are waited for. -/
def times (s : State ω) : List Instant :=
  (s.loop.bind fun l => l.wake.time?).toList
    ++ s.slots.filterMap fun t => t.live?.bind fun l => l.wake.time?

/-- A slot whose run is ready if it was due by an instant. -/
def arriveSlot (turn : Mover → Nat → Nat) (now : Instant) (t : Slot ω) : Slot ω :=
  match t.run with
  | some (.live l) =>
    { t with run := some (.live { l with wake := l.wake.arrive (turn (.job t.job.name)) now }) }
  | _ => t

/-- The state when the clock has come to an instant. -/
def arrive (ties : Ties) (now : Instant) (s : State ω) : State ω :=
  { s with
    now
    loop := s.loop.map fun l => { l with wake := l.wake.arrive (ties.turn now s.turn .loop) now }
    slots := s.slots.map (arriveSlot (ties.turn now s.turn) now) }

end State

end Settler.Supervisor
