import Settler.Journal.Entry
import Settler.Supervisor.Budget
import Settler.Supervisor.Job

/-!
A job's slot, and the moves of the run that it holds.

A slot holds at most one run, so no job ever runs twice at once. A run that is live has one next
move and waits for it: for its turn among those that are ready, for an instant, or for ever. A move
takes the run to its next wait or to its end. It changes nothing but the slot, and it depends on
nothing but the slot, the clock, and what the services say.
-/

namespace Settler.Supervisor

open Settler.Calendar

/-- Who can move. -/
inductive Mover where
  | loop
  | job (name : String)
  deriving DecidableEq, Repr

/-- How the event loop orders the timers that fall due together: by the instant, the next fresh turn,
whose timer it is, and the turn in which it was set, it gives each a turn before the fresh one. An
event loop need not promise any order, and the order may change with all that happened before; any
order of theirs comes of some such turns. -/
structure Ties where
  turn : Instant → Nat → Mover → Nat → Nat
  lt : ∀ {now fresh mover set}, set < fresh → turn now fresh mover set < fresh

/-- The order in which they were set. -/
def Ties.setOrder : Ties := ⟨fun _ _ _ set => set, id⟩

/-- How the supervisor is set up: the restart limit and its window, the pause before a restart, the
pause between ticks, the moment at which the clock starts, and how the event loop orders timers. -/
structure Setup (δ : Type) where
  maxRestarts : Int
  window : δ
  restartDelay : δ
  tickDelay : δ
  origin : Moment
  services : Services δ
  ties : Ties := .setOrder

/-- The moment at an instant, if it is in the calendar. -/
def Setup.moment {δ : Type} (su : Setup δ) (now : Instant) : Except Fault Moment :=
  match su.origin.add? now with
  | some m => .ok m
  | none => .error .dateRange

/-- What a next move waits for. Turns order those that are ready; a timer has the turn in which it was
set. -/
inductive Wake where
  | ready (turn : Nat)
  | due (time : Instant) (turn : Nat)
  | never
  deriving DecidableEq, Repr

namespace Wake

/-- The turn, if the move can be made now. -/
def turn? : Wake → Option Nat
  | .ready n => some n
  | _ => none

/-- The instant that is waited for. -/
def time? : Wake → Option Instant
  | .due t _ => some t
  | _ => none

/-- A move that was due by an instant is ready, and gets its turn. -/
def arrive (turn : Nat → Nat) (now : Instant) : Wake → Wake
  | .due t n => if t ≤ now then .ready (turn n) else .due t n
  | w => w

variable {δ : Type} [Seconds δ]

/-- The end of a pause that starts now, with a fresh turn. -/
def afterPause (now : Instant) (turn : Nat) (span : δ) : Wake :=
  if Seconds.takesTime span then
    match Seconds.wake? now span with
    | some t => .due t turn
    | none => .never
  else .ready turn

/-- The arrival of an outcome; one that comes at once leaves the run its present turn. -/
def afterLatency (now : Instant) (fresh present : Nat) : Latency δ → Wake
  | .immediate => .ready present
  | .after span => afterPause now fresh span
  | .never => .never

end Wake

/-- What a live run is in the middle of. -/
inductive Phase (ω : Type) where
  /-- It has not made a move yet. -/
  | created
  /-- Its worker rests. -/
  | resting (w : ω)
  /-- Its worker waits for an outcome, with the notes for when it comes and for when it is given
  up. -/
  | awaiting (w : ω) (outcome : Except Fault Reply) (notes abandoned : List Note)
  /-- Its worker crashed, and the next one is not there yet. -/
  | backingOff

/-- A run that is live. -/
structure Live (ω : Type) where
  phase : Phase ω
  budget : Budget Instant
  wake : Wake

/-- A run, live or with its result. -/
inductive Run (ω : Type) where
  | live (l : Live ω)
  | ended (result : Except Fault Exit)

/-- A job, its health, how many workers it built, its run, and the place of the run among all that
were triggered since the last stop. -/
structure Slot (ω : Type) where
  job : Job ω
  health : Health := {}
  built : Nat := 0
  run : Option (Run ω) := none
  place : Nat := 0

namespace Slot

variable {ω δ : Type}

/-- The slot's live run. -/
def live? (s : Slot ω) : Option (Live ω) :=
  match s.run with
  | some (.live l) => some l
  | _ => none

/-- The slot has a live run. -/
def isRunning (s : Slot ω) : Bool := s.live?.isSome

/-- The instance that the slot built last. -/
def current (s : Slot ω) : Instance := ⟨s.job.name, s.built⟩

/-- The slot with its run ended. -/
def ended (s : Slot ω) (result : Except Fault Exit) : Slot ω := { s with run := some (.ended result) }

/-- The slot with its run waiting in a phase. -/
def waiting (s : Slot ω) (l : Live ω) (phase : Phase ω) (wake : Wake) : Slot ω :=
  { s with run := some (.live { l with phase, wake }) }

/-- What a move depends on beside the slot: the instant, the turn in which it is made, a fresh turn,
and what went out before, the newest first. -/
structure Occasion where
  now : Instant
  present : Nat
  fresh : Nat
  earlier : List Outbound

variable [Seconds δ] (su : Setup δ) (o : Occasion)

/-- After a crash: another restart if the budget grants one, else the end. -/
def recover (s : Slot ω) (l : Live ω) : Slot ω × List Event :=
  let outside (now earlier : Instant) : Bool := Seconds.exceeds now earlier su.window
  match l.budget.request outside o.now with
  | (false, _) =>
    (s.ended (.ok .crashed), [.gaveUp s.job.name su.maxRestarts (Seconds.text su.window)])
  | (true, budget) =>
    let s := { s with health.restarts := s.health.restarts + 1 }
    (s.waiting { l with budget } .backingOff (.afterPause o.now o.fresh su.restartDelay),
     [.restarting s.job.name s.health.restarts])

/-- Ends the instance: by an exit, or by the fault that it crashed with. -/
def finish (s : Slot ω) (l : Live ω) (e : Exit) (error : Str) : Slot ω × List Event :=
  let s := { s with health.running := false, health.lastExit := some e, health.lastError := error }
  match su.moment o.now with
  | .error f => (s.ended (.error f), [])
  | .ok m =>
    let s := { s with health.lastFinished := some m }
    let (t, events) : Slot ω × List Event := match e with
      | .crashed => s.recover su o l
      | e => (s.ended (.ok e), [])
    (t, .ended s.current e :: events)

/-- Ends the instance by a fault. One that was told to stop ends the run as it is; any other is a
crash. -/
def fail (s : Slot ω) (l : Live ω) : Fault → Slot ω × List Event
  | .cancelled => (s.ended (.error .cancelled), [])
  | f =>
    let (t, events) := s.finish su o l .crashed f.describe
    (t, .crashed s.current :: events)

/-- Gives a worker's turn effect: its notes, then what it wants. -/
def follow (s : Slot ω) (l : Live ω) (t : Turn ω δ) : Slot ω × List Event :=
  let await {α : Type} (p : Pending δ α) (reply : α → Reply) : Slot ω :=
    s.waiting l (.awaiting t.worker (p.outcome.map reply) p.notes p.abandoned)
      (.afterLatency o.now o.fresh o.present p.latency)
  let (s, events) : Slot ω × List Event := match t.next with
    | .pause span => (s.waiting l (.resting t.worker) (.afterPause o.now o.fresh span), [])
    | .hold => (s.waiting l (.resting t.worker) .never, [])
    | .ask op => (await (su.services.settle o.earlier op) .answered, [.sent s.current (.asked op)])
    | .post totals =>
      (await (su.services.post o.earlier totals) fun () => .posted, [.sent s.current (.posted totals)])
    | .exit e => s.finish su o l e ""
    | .fail f => s.fail su o l f
  (s, t.notes.map Event.note ++ events)

variable [Machine ω δ]

/-- Starts a fresh instance. -/
def launch (s : Slot ω) (l : Live ω) : Slot ω × List Event :=
  match s.job.build s.built with
  | .error f => ({ s with built := s.built + 1 }.ended (.error f), [])
  | .ok w =>
    let s := { s with built := s.built + 1, health.running := true, health.runs := s.health.runs + 1 }
    match su.moment o.now with
    | .error f => (s.ended (.error f), [])
    | .ok m =>
      let s := { s with health.lastStarted := some m }
      let (t, events) := s.follow su o l (Machine.begin w)
      (t, .began s.current :: events)

/-- The next move of a live run. -/
def move (s : Slot ω) (l : Live ω) : Slot ω × List Event :=
  match l.phase with
  | .created => s.launch su o l
  | .backingOff => s.launch su o l
  | .resting w => s.follow su o l (Machine.resume w .rested)
  | .awaiting w outcome notes _ =>
    let (t, events) : Slot ω × List Event := match outcome with
      | .error f => s.fail su o l f
      | .ok reply => s.follow su o l (Machine.resume w reply)
    (t, notes.map Event.note ++ .heard s.current outcome :: events)

end Slot

end Settler.Supervisor
