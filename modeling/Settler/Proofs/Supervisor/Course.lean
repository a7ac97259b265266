import Settler.Proofs.Supervisor.Accounts

/-!
The course of a run, in full.

As long as the clock is in the calendar, a move leaves a slot and events that can be told exactly: how an
instance ends (`Slot.Closes`), what a turn of its worker leads to (`Slot.Goes`), and what the whole move
is (`Slot.Moves`).
-/

namespace Settler.Supervisor

open Settler.Calendar

variable {ω δ : Type}

/-- What the services have for something that goes out. -/
def Setup.echo (su : Setup δ) (earlier : List Outbound) : Outbound → Pending δ Reply
  | .asked op =>
    let p := su.services.settle earlier op
    { p with outcome := p.outcome.map .answered }
  | .posted totals =>
    let p := su.services.post earlier totals
    { p with outcome := p.outcome.map fun () => .posted }

/-- What is recorded first of an instance that ends: that a fault cut it short, if one did. -/
def Ending.cry (i : Instance) : Ending → List Event
  | .exit _ => []
  | .fault _ => [.crashed i]

namespace Slot

/-- The slot with its instance closed: its health tells how the instance ended. -/
def closed (s : Slot ω) (m : Moment) (ending : Ending) : Slot ω :=
  { s with
    health.running := false
    health.lastExit := some ending.toExit
    health.lastError := ending.error
    health.lastFinished := some m }

/-- The slot with a fresh instance begun. -/
def begun (s : Slot ω) (m : Moment) : Slot ω :=
  { s with
    built := s.built + 1
    health.running := true
    health.runs := s.health.runs + 1
    health.lastStarted := some m }

variable [Seconds δ] (su : Setup δ) (o : Occasion) (m : Moment)

/-- How an instance ends, and what is recorded of it. -/
inductive Closes (s : Slot ω) (l : Live ω) : Ending → Slot ω → List Event → Prop where
  /-- It was told to stop, and the run ends with it. -/
  | told : Closes s l (.fault .cancelled) (s.ended (.error .cancelled)) []
  | exits {e : Exit} (final : e ≠ .crashed) :
      Closes s l (.exit e) ((s.closed m (.exit e)).ended (.ok e)) [.ended s.current e]
  | restarts {ending : Ending} {b : Budget Instant} (untold : ending ≠ .fault .cancelled)
      (crash : ending.toExit = .crashed) (granted : l.budget.request su.outside o.now = (true, b)) :
      Closes s l ending
        ({ s.closed m ending with health.restarts := s.health.restarts + 1 }.waiting
          { l with budget := b } .backingOff (.afterPause o.now o.fresh su.restartDelay))
        (ending.cry s.current
          ++ [.ended s.current .crashed, .restarting s.job.name (s.health.restarts + 1)])
  | givesUp {ending : Ending} (untold : ending ≠ .fault .cancelled)
      (crash : ending.toExit = .crashed)
      (refused : (l.budget.request su.outside o.now).1 = false) :
      Closes s l ending ((s.closed m ending).ended (.ok .crashed))
        (ending.cry s.current
          ++ [.ended s.current .crashed, .gaveUp s.job.name su.maxRestarts (Seconds.text su.window)])

/-- What a turn of the worker at work leads to, and what is recorded of that after the worker's own
notes. -/
inductive Goes (s : Slot ω) (l : Live ω) (t : Turn ω δ) : Slot ω → List Event → Prop where
  | rests {wake : Wake} (rest : t.next.isRest) : Goes s l t (s.waiting l (.resting t.worker) wake) []
  | awaits {out : Outbound} {wake : Wake} (wants : t.next.outbound? = some out) :
      Goes s l t
        (s.waiting l (.awaiting t.worker (su.echo o.earlier out).outcome (su.echo o.earlier out).notes
          (su.echo o.earlier out).abandoned) wake)
        [.sent s.current out]
  | ends {ending : Ending} {s' : Slot ω} {events : List Event}
      (ending_eq : Supervisor.ending? t = some ending)
      (closes : Closes su o m s l ending s' events) : Goes s l t s' events

variable {su o m} (clock : su.moment o.now = .ok m)
include clock

theorem closes_crash {ending : Ending} (untold : ending ≠ .fault .cancelled)
    (crash : ending.toExit = .crashed) (s : Slot ω) (l : Live ω) :
    Closes su o m s l ending (s.finish su o l .crashed ending.error).1
      (ending.cry s.current ++ (s.finish su o l .crashed ending.error).2) := by
  have closed : ∀ c : Slot ω, c = s.closed m ending →
      s.finish su o l .crashed ending.error
        = ((c.recover su o l).1, .ended s.current .crashed :: (c.recover su o l).2) := by
    rintro c rfl
    rw [finish, clock, Slot.closed, crash]
    rfl
  rw [closed _ rfl, recover]
  cases asked : l.budget.request su.outside o.now with
  | mk grant b =>
    have same : l.budget.request (fun now earlier => Seconds.exceeds now earlier su.window) o.now
        = (grant, b) := asked
    cases grant with
    | false =>
      simp only [same]
      exact .givesUp untold crash (by rw [asked])
    | true =>
      simp only [same]
      exact .restarts untold crash asked

theorem closes_exit (e : Exit) (s : Slot ω) (l : Live ω) :
    Closes su o m s l (.exit e) (s.finish su o l e "").1 (s.finish su o l e "").2 := by
  cases e with
  | crashed =>
    have untold : Ending.exit .crashed ≠ .fault .cancelled := nofun
    exact closes_crash clock untold rfl s l
  | normal =>
    rw [finish, clock]
    show Closes su o m s l _ ((s.closed m (.exit .normal)).ended (.ok .normal)) [.ended s.current .normal]
    exact .exits nofun
  | faulted =>
    rw [finish, clock]
    show Closes su o m s l _ ((s.closed m (.exit .faulted)).ended (.ok .faulted)) [.ended s.current .faulted]
    exact .exits nofun

theorem closes_fail (f : Fault) (s : Slot ω) (l : Live ω) :
    Closes su o m s l (.fault f) (s.fail su o l f).1 (s.fail su o l f).2 := by
  unfold fail
  split
  · exact .told
  · next other => exact closes_crash clock (fun same => other (Ending.fault.inj same)) rfl s l

theorem goes_follow (s : Slot ω) (l : Live ω) (t : Turn ω δ) :
    ∃ events, (s.follow su o l t).2 = t.notes.map Event.note ++ events ∧
      Goes su o m s l t (s.follow su o l t).1 events := by
  unfold follow
  refine ⟨_, rfl, ?_⟩
  dsimp only
  cases next : t.next with
  | pause span => exact .rests (by rw [next]; rfl)
  | hold => exact .rests (by rw [next]; rfl)
  | ask op =>
    have wants : t.next.outbound? = some (.asked op) := by rw [next]; rfl
    exact .awaits wants
  | post totals =>
    have wants : t.next.outbound? = some (.posted totals) := by rw [next]; rfl
    exact .awaits wants
  | exit e => exact .ends (by rw [Supervisor.ending?, next]) (closes_exit clock e s l)
  | fail f => exact .ends (by rw [Supervisor.ending?, next]) (closes_fail clock f s l)

end Slot

namespace Slot

/-- The reply with which a run goes on, and what is recorded of it. -/
inductive Hears (s : Slot ω) (l : Live ω) : ω → Reply → List Event → Prop where
  | rested {w : ω} (phase : l.phase = .resting w) : Hears s l w .rested []
  | heard {w : ω} {r : Reply} {notes abandoned : List Note}
      (phase : l.phase = .awaiting w (.ok r) notes abandoned) :
      Hears s l w r (notes.map Event.note ++ [.heard s.current (.ok r)])

variable [Machine ω δ] [Seconds δ] (su : Setup δ) (o : Occasion) (m : Moment)

/-- What a move of a live run is, and what is recorded of it. -/
inductive Moves (s : Slot ω) (l : Live ω) : Slot ω → List Event → Prop where
  /-- No worker could be built, and the run ends with that. -/
  | unbuilt {f : Fault} (fresh : l.phase.isBusy = false) (build : s.job.build s.built = .error f) :
      Moves s l ({ s with built := s.built + 1 }.ended (.error f)) []
  /-- A fresh instance takes its first turn. -/
  | launched {w : ω} {s' : Slot ω} {events : List Event} (fresh : l.phase.isBusy = false)
      (build : s.job.build s.built = .ok w)
      (goes : Goes su o m (s.begun m) l (Machine.begin w) s' events) :
      Moves s l s'
        ([.began (s.begun m).current] ++ ((Machine.begin w).notes.map Event.note ++ events))
  /-- The instance at work takes its next turn. -/
  | resumed {w : ω} {r : Reply} {s' : Slot ω} {before events : List Event}
      (hears : s.Hears l w r before) (goes : Goes su o m s l (Machine.resume w r) s' events) :
      Moves s l s' (before ++ ((Machine.resume w r).notes.map Event.note ++ events))
  /-- A fault comes in for what the instance at work waits for. -/
  | failed {w : ω} {f : Fault} {notes abandoned : List Note} {s' : Slot ω} {events : List Event}
      (phase : l.phase = .awaiting w (.error f) notes abandoned)
      (closes : Closes su o m s l (.fault f) s' events) :
      Moves s l s' (notes.map Event.note ++ .heard s.current (.error f) :: events)

variable {su o m} (clock : su.moment o.now = .ok m)
include clock

theorem moves_launch (s : Slot ω) {l : Live ω} (fresh : l.phase.isBusy = false) :
    Moves su o m s l (s.launch su o l).1 (s.launch su o l).2 := by
  unfold launch
  cases build : s.job.build s.built with
  | error f => exact .unbuilt fresh build
  | ok w =>
    dsimp only
    obtain ⟨events, noted, goes⟩ := goes_follow clock (s.begun m) l (Machine.begin w)
    have launched := Moves.launched fresh build goes
    rw [← noted] at launched
    rw [clock]
    exact launched

/-- A move of a live run. -/
theorem moves_move (s : Slot ω) (l : Live ω) :
    Moves su o m s l (s.move su o l).1 (s.move su o l).2 := by
  unfold move
  cases phase : l.phase with
  | created => exact moves_launch clock s (by rw [phase]; rfl)
  | backingOff => exact moves_launch clock s (by rw [phase]; rfl)
  | resting w =>
    obtain ⟨events, noted, goes⟩ := goes_follow clock s l (Machine.resume w .rested)
    have rested := Moves.resumed (.rested phase) goes
    rwa [← noted] at rested
  | awaiting w outcome notes abandoned =>
    cases outcome with
    | error f => exact .failed phase (closes_fail clock f s l)
    | ok r =>
      obtain ⟨events, noted, goes⟩ := goes_follow clock s l (Machine.resume w r)
      have heard := Moves.resumed (.heard phase) goes
      rwa [← noted, List.append_assoc] at heard

end Slot

end Settler.Supervisor
