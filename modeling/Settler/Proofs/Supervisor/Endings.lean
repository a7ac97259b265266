import Settler.Proofs.Supervisor.Transcript

/-!
How a move of a run ends.

A move starts a fresh instance or goes on with the one at work, and then the instance goes on, exits, or
is cut short by a fault (`Slot.Outcome`). The journal has a mark for each of these that counts for the
restart policy (`Event.mark?`).
-/

namespace Settler

/-- What counts for the restart policy. -/
inductive Mark where
  /-- A trigger was accepted. -/
  | fired
  | began
  | ended (e : Exit)
  | gaveUp
  deriving DecidableEq, Repr

/-- The mark that an event leaves, and the job for which it does. -/
def Event.mark? : Event → Option (String × Mark)
  | .triggered job _ true => some (job, .fired)
  | .began i => some (i.job, .began)
  | .ended i e => some (i.job, .ended e)
  | .gaveUp job _ _ => some (job, .gaveUp)
  | _ => none

/-- Notes leave no marks. -/
theorem Event.mark_notes (notes : List Note) : (notes.map Event.note).filterMap Event.mark? = [] := by
  refine List.filterMap_eq_nil_iff.mpr fun e mem => ?_
  obtain ⟨n, -, rfl⟩ := List.mem_map.mp mem
  rfl

end Settler

namespace Settler.Supervisor

variable {ω δ : Type}

/-- How an instance ends: it exits, or a fault escapes from it. -/
inductive Ending where
  | exit (e : Exit)
  | fault (f : Fault)

/-- The exit that is reported. -/
def Ending.toExit : Ending → Exit
  | .exit e => e
  | .fault _ => .crashed

/-- The error that is reported. -/
def Ending.error : Ending → Str
  | .exit _ => ""
  | .fault f => f.describe

/-- How the instance ends after a turn, if it does. -/
def ending? (t : Turn ω δ) : Option Ending :=
  match t.next with
  | .exit e => some (.exit e)
  | .fail f => some (.fault f)
  | _ => none

/-- An earlier instant lies outside the window that ends now. -/
def Setup.outside [Seconds δ] (su : Setup δ) (now earlier : Instant) : Bool :=
  Seconds.exceeds now earlier su.window

namespace Slot

/-- How the instance ends in the next move of its run, if it does. -/
def ending? [Machine ω δ] (s : Slot ω) (l : Live ω) : Option Ending :=
  match l.phase with
  | .resting w => Supervisor.ending? (Machine.resume w .rested)
  | .awaiting _ (.error f) _ _ => some (.fault f)
  | .awaiting w (.ok reply) _ _ => Supervisor.ending? (Machine.resume w reply)
  | _ =>
    match s.job.build s.built with
    | .ok w => Supervisor.ending? (Machine.begin w)
    | .error _ => none

variable [Seconds δ] (su : Setup δ) (o : Occasion)

/-- What becomes of a run in a move, given how its instance ends, and the marks of that. -/
inductive Outcome (l : Live ω) : Option Ending → Slot ω → List Mark → Prop where
  | goesOn {t : Slot ω} {k : Live ω} (run : t.run = some (.live k)) (busy : k.phase.isBusy)
      (budget : k.budget = l.budget) : Outcome l none t []
  /-- It was told to stop, or the clock has left the calendar. -/
  | cutShort {ending : Ending} {t : Slot ω} {f : Fault} (run : t.run = some (.ended (.error f)))
      (cause : ending = .fault .cancelled ∧ f = .cancelled ∨ su.moment o.now = .error f) :
      Outcome l (some ending) t []
  | exits {e : Exit} {t : Slot ω} (final : e ≠ .crashed) (run : t.run = some (.ended (.ok e))) :
      Outcome l (some (.exit e)) t [.ended e]
  | restarts {ending : Ending} {t : Slot ω} {b : Budget Instant} (crash : ending.toExit = .crashed)
      (granted : l.budget.request su.outside o.now = (true, b))
      (run : t.run
        = some (.live ⟨.backingOff, b, .afterPause o.now o.fresh su.restartDelay⟩))
      (told : t.health.lastExit = some .crashed ∧ t.health.lastError = ending.error) :
      Outcome l (some ending) t [.ended .crashed]
  | givesUp {ending : Ending} {t : Slot ω} (crash : ending.toExit = .crashed)
      (refused : (l.budget.request su.outside o.now).1 = false)
      (run : t.run = some (.ended (.ok .crashed)))
      (told : t.health.lastExit = some .crashed ∧ t.health.lastError = ending.error) :
      Outcome l (some ending) t [.ended .crashed, .gaveUp]

/-- The events leave some marks for the job, and none for another. -/
def Leaves (name : String) (events : List Event) (marks : List Mark) : Prop :=
  events.filterMap Event.mark? = marks.map (name, ·)

theorem Leaves.append {name : String} {events events' : List Event} {marks marks' : List Mark}
    (h : Leaves name events marks) (h' : Leaves name events' marks') :
    Leaves name (events ++ events') (marks ++ marks') := by
  unfold Leaves at *
  rw [List.filterMap_append, h, h', List.map_append]

theorem leaves_notes (name : String) (notes : List Note) : Leaves name (notes.map Event.note) [] :=
  Event.mark_notes notes

/-- An instance ends. -/
theorem outcome_finish (s : Slot ω) (l : Live ω) (ending : Ending) :
    ∃ marks, Leaves s.job.name (s.finish su o l ending.toExit ending.error).2 marks ∧
      Outcome su o l (some ending) (s.finish su o l ending.toExit ending.error).1 marks := by
  unfold finish
  dsimp only
  split
  · next f failed => exact ⟨[], rfl, .cutShort rfl (.inr failed)⟩
  · cases exit : ending.toExit with
    | normal =>
      cases ending with
      | exit e =>
        cases exit
        exact ⟨[.ended .normal], rfl, .exits (by decide) rfl⟩
      | fault f => cases exit
    | faulted =>
      cases ending with
      | exit e =>
        cases exit
        exact ⟨[.ended .faulted], rfl, .exits (by decide) rfl⟩
      | fault f => cases exit
    | crashed =>
      unfold recover
      dsimp only
      cases asked : l.budget.request su.outside o.now with
      | mk grant b =>
        have same : l.budget.request (fun now earlier => Seconds.exceeds now earlier su.window) o.now
            = (grant, b) := asked
        rw [same]
        cases grant with
        | false => exact ⟨[.ended .crashed, .gaveUp], rfl, .givesUp exit (by rw [asked]) rfl ⟨rfl, rfl⟩⟩
        | true => exact ⟨[.ended .crashed], rfl, .restarts exit asked rfl ⟨rfl, rfl⟩⟩

/-- A fault escapes from an instance. -/
theorem outcome_fail (s : Slot ω) (l : Live ω) (f : Fault) :
    ∃ marks, Leaves s.job.name (s.fail su o l f).2 marks ∧
      Outcome su o l (some (.fault f)) (s.fail su o l f).1 marks := by
  unfold fail
  split
  · exact ⟨[], rfl, .cutShort rfl (.inl ⟨rfl, rfl⟩)⟩
  · exact outcome_finish su o s l (.fault _)

/-- A turn of a worker takes effect. -/
theorem outcome_follow (s : Slot ω) (l : Live ω) (t : Turn ω δ) :
    ∃ marks, Leaves s.job.name (s.follow su o l t).2 marks ∧
      Outcome su o l (Supervisor.ending? t) (s.follow su o l t).1 marks := by
  have noted := leaves_notes s.job.name t.notes
  unfold follow Supervisor.ending?
  dsimp only
  cases t.next with
  | pause span => exact ⟨[], noted.append rfl, .goesOn rfl rfl rfl⟩
  | hold => exact ⟨[], noted.append rfl, .goesOn rfl rfl rfl⟩
  | ask op => exact ⟨[], noted.append rfl, .goesOn rfl rfl rfl⟩
  | post totals => exact ⟨[], noted.append rfl, .goesOn rfl rfl rfl⟩
  | exit e =>
    obtain ⟨marks, left, outcome⟩ := outcome_finish su o s l (.exit e)
    exact ⟨_, noted.append left, outcome⟩
  | fail f =>
    obtain ⟨marks, left, outcome⟩ := outcome_fail su o s l f
    exact ⟨_, noted.append left, outcome⟩

variable [Machine ω δ]

/-- What becomes of a slot in a move of its live run, and the marks of that. -/
inductive Moved (s : Slot ω) (l : Live ω) : Slot ω → List Mark → Prop where
  /-- No instance comes about. -/
  | unbuilt {t : Slot ω} {f : Fault} (fresh : l.phase.isBusy = false)
      (run : t.run = some (.ended (.error f)))
      (cause : s.job.build s.built = .error f ∨ su.moment o.now = .error f) : Moved s l t []
  | launched {t : Slot ω} {marks : List Mark} (fresh : l.phase.isBusy = false)
      (outcome : Outcome su o l (s.ending? l) t marks) : Moved s l t (.began :: marks)
  | wentOn {t : Slot ω} {marks : List Mark} (busy : l.phase.isBusy)
      (outcome : Outcome su o l (s.ending? l) t marks) : Moved s l t marks

theorem moved_launch (s : Slot ω) {l : Live ω} (fresh : l.phase.isBusy = false) :
    ∃ marks, Leaves s.job.name (s.launch su o l).2 marks ∧
      Moved su o s l (s.launch su o l).1 marks := by
  have ending : s.ending? l = match s.job.build s.built with
      | .ok w => Supervisor.ending? (Machine.begin w)
      | .error _ => none := by
    unfold Slot.ending?
    cases phase : l.phase with
    | created => rfl
    | backingOff => rfl
    | resting w =>
      rw [phase] at fresh
      cases fresh
    | awaiting w outcome notes abandoned =>
      rw [phase] at fresh
      cases fresh
  unfold launch
  cases build : s.job.build s.built with
  | error f => exact ⟨[], rfl, .unbuilt fresh rfl (.inl build)⟩
  | ok w =>
    dsimp only
    cases clock : su.moment o.now with
    | error f => exact ⟨[], rfl, .unbuilt fresh rfl (.inr clock)⟩
    | ok m =>
      obtain ⟨marks, left, outcome⟩ := outcome_follow su o { s with
        built := s.built + 1, health.running := true, health.runs := s.health.runs + 1,
        health.lastStarted := some m } l (Machine.begin w)
      have began : Leaves s.job.name [.began ⟨s.job.name, s.built + 1⟩] [.began] := rfl
      refine ⟨.began :: marks, began.append left, .launched fresh ?_⟩
      rw [ending, build]
      exact outcome

/-- A move of a live run leaves marks for its own job only. -/
theorem moved_move (s : Slot ω) (l : Live ω) :
    ∃ marks, Leaves s.job.name (s.move su o l).2 marks ∧ Moved su o s l (s.move su o l).1 marks := by
  unfold move
  cases phase : l.phase with
  | created => exact moved_launch su o s (by rw [phase]; rfl)
  | backingOff => exact moved_launch su o s (by rw [phase]; rfl)
  | resting w =>
    obtain ⟨marks, left, outcome⟩ := outcome_follow su o s l (Machine.resume w .rested)
    refine ⟨marks, left, .wentOn (by rw [phase]; rfl) ?_⟩
    rw [Slot.ending?, phase]
    exact outcome
  | awaiting w result notes abandoned =>
    have busy : l.phase.isBusy := by rw [phase]; rfl
    have heard : Leaves s.job.name (notes.map Event.note ++ [.heard s.current result]) [] :=
      (leaves_notes s.job.name notes).append rfl
    dsimp only
    cases result with
    | error f =>
      obtain ⟨marks, left, outcome⟩ := outcome_fail su o s l f
      refine ⟨marks, ?_, .wentOn busy ?_⟩
      · have both := heard.append left
        rwa [List.append_assoc] at both
      · rw [Slot.ending?, phase]
        exact outcome
    | ok reply =>
      obtain ⟨marks, left, outcome⟩ := outcome_follow su o s l (Machine.resume w reply)
      refine ⟨marks, ?_, .wentOn busy ?_⟩
      · have both := heard.append left
        rwa [List.append_assoc] at both
      · rw [Slot.ending?, phase]
        exact outcome

end Slot

end Settler.Supervisor
