import Mathlib.Logic.Relation
import Settler.Supervisor.Drive

/-!
What a supervisor does, one change at a time.

Every command, and everything that happens while time passes, is a sequence of turns (`Turn`): a call
by name, or else what happens without one (`Drift`), which is a move of whoever is first among those
that are ready, or time that passes while nobody is.
A turn is a sequence of acts (`Act`), which take a tick or a start apart into what they do to one job
at a time; what the clock and the order of moves allow is still said of each. `Step` forgets that.

`drive` carries out a script of commands, each with the number of moves that it may take; a property
that every `Step` keeps holds after every script (`drive_keeps`).
-/

namespace Settler.Supervisor.State

open Settler.Calendar Relation

variable {ω δ : Type} (su : Setup δ)

section

variable [Machine ω δ] [Seconds δ]

/-- One change of a supervisor's state. -/
inductive Step : State ω → State ω → Prop where
  /-- The live run of a job makes its next move. -/
  | move {s : State ω} {name : String} {t : Slot ω} {l : Live ω} (present : Nat)
      (found : s.slot? name = some t) (live : t.live? = some l) :
      Step s (s.moveJob su present t l)
  /-- A job is triggered. -/
  | fire {s : State ω} {name : String} {t : Slot ω} (reason : String)
      (found : s.slot? name = some t) : Step s (s.fire su reason t).1
  /-- The next runs of the jobs are looked up. -/
  | refresh {s : State ω} (after : Moment) : Step s (s.refresh after).1
  /-- The clock comes to an instant, and what was due by then is ready. -/
  | arrive {s : State ω} {now : Instant} (later : s.now ≤ now) : Step s (s.arrive su.ties now)
  /-- The clock, the turns, the schedule loop or the minute of the last tick change, and nothing
  else. -/
  | adjust {s s' : State ω} (slots : s'.slots = s.slots) (journal : s'.journal = s.journal)
      (later : s.now ≤ s'.now) : Step s s'
  /-- A failed tick is noted. -/
  | noteTick {s : State ω} : Step s (s.record [.tickFailed])
  /-- The start is noted. -/
  | noteStart {s : State ω} : Step s (s.record [.started s.names])
  /-- Everything is stopped. -/
  | stop {s : State ω} : Step s s.stop

end

/-! ### Triggers and ticks -/

/-- What a trigger or a tick does, one thing at a time. -/
inductive Deed : State ω → State ω → Prop where
  /-- A job is triggered. -/
  | fire {s : State ω} {name : String} {t : Slot ω} (reason : String)
      (found : s.slot? name = some t) : Deed s (s.fire su reason t).1
  /-- The next runs of the jobs are looked up. -/
  | refresh {s : State ω} (after : Moment) : Deed s (s.refresh after).1
  /-- The minute of the last tick is kept. -/
  | mark {s : State ω} (own : Moment) : Deed s { s with lastTick := some own }

/-- A sequence of deeds. -/
abbrev Deeds : State ω → State ω → Prop := ReflTransGen (Deed su)

theorem deeds_trigger (name reason : String) (s : State ω) :
    Deeds su s (s.trigger su name reason).1 := by
  unfold trigger
  split
  · exact .refl
  · next found => exact .single (.fire reason found)

theorem deeds_consider (candidate : Moment) (f : Firing ω) (name : String) :
    Deeds su f.state (consider su candidate f name).state := by
  unfold consider
  split
  · exact .refl
  · next t found =>
    split
    · exact .refl
    · split
      · exact .refl
      · exact .single (.fire _ found)

theorem deeds_consider_foldl (candidate : Moment) (names : List String) (f : Firing ω) :
    Deeds su f.state (names.foldl (consider su candidate) f).state := by
  induction names generalizing f with
  | nil => exact .refl
  | cons name rest ih =>
    rw [List.foldl_cons]
    exact (deeds_consider su candidate f name).trans (ih _)

theorem deeds_considerAll (count : Nat) (candidate : Moment) (f : Firing ω) :
    Deeds su f.state (considerAll su count candidate f).1.state := by
  induction count generalizing candidate f with
  | zero =>
    rw [considerAll]
  | succ count ih =>
    have held := deeds_consider_foldl su candidate f.state.names f
    rw [considerAll]
    split
    · exact held
    · next later _ => exact held.trans (ih later _)

theorem deeds_evaluate (last own : Moment) (s : State ω) :
    Deeds su s (s.evaluate su last own).1 := by
  unfold evaluate
  split
  · exact .refl
  · next first _ =>
    have held := deeds_considerAll su (minutesTo first own) first { state := s }
    generalize considerAll su (minutesTo first own) first { state := s } = outcome at held
    obtain ⟨f, fault⟩ := outcome
    cases fault with
    | some e => exact held
    | none => exact (held.tail (.mark own)).tail (.refresh own)

theorem deeds_tick (m : Moment) (s : State ω) : Deeds su s (s.tick su m).1 := by
  unfold tick
  dsimp only
  split
  · exact .refl
  · next last _ =>
    split
    · exact .refl
    · exact deeds_evaluate su last _ s
    · exact .refl

/-- A tick at the present moment is a tick, or the clock has left the calendar. -/
theorem tickNow_eq (s : State ω) :
    s.tickNow su = match su.moment s.now with
      | .ok m => s.tick su m
      | .error f => (s, .error f) := by
  unfold tickNow
  cases su.moment s.now <;> rfl

theorem deeds_tickNow (s : State ω) : Deeds su s (s.tickNow su).1 := by
  rw [tickNow_eq]
  split
  · exact deeds_tick su _ s
  · exact .refl

theorem deeds_trigger_foldl (reason : String) (names : List String) (s : State ω) :
    Deeds su s (names.foldl (fun s name => (s.trigger su name reason).1) s) := by
  induction names generalizing s with
  | nil => exact .refl
  | cons name rest ih =>
    rw [List.foldl_cons]
    exact (deeds_trigger su name reason s).trans (ih _)

theorem fire_loop (reason : String) (s : State ω) (t : Slot ω) :
    (s.fire su reason t).1.loop = s.loop := by
  unfold fire
  split <;> rfl

theorem fire_now (reason : String) (s : State ω) (t : Slot ω) :
    (s.fire su reason t).1.now = s.now := by
  unfold fire
  split <;> rfl

/-- Triggers and ticks leave the schedule loop and the clock alone. -/
theorem frame_of_deeds {s s' : State ω} (h : Deeds su s s') :
    s'.loop = s.loop ∧ s'.now = s.now := by
  induction h with
  | refl => exact ⟨rfl, rfl⟩
  | tail _ deed ih =>
    cases deed with
    | fire reason _ => rwa [fire_loop, fire_now]
    | refresh after => exact ih
    | mark own => exact ih

/-! ### Acts and turns -/

variable [Machine ω δ] [Seconds δ]

/-- What happens without a call, the schedule loop apart. -/
inductive Motion : State ω → State ω → Prop where
  /-- The live run of the job that is first among those that are ready makes its next move. -/
  | move {s : State ω} {name : String} {t : Slot ω} {l : Live ω} {present : Nat}
      (first : first? s.ready = some (present, .job name)) (found : s.slot? name = some t)
      (live : t.live? = some l) : Motion s (s.moveJob su present t l)
  /-- Nobody is ready, and the clock comes to the first instant that is waited for. -/
  | arrive {s : State ω} {time : Instant} (idle : first? s.ready = none)
      (least : s.times.min? = some time) : Motion s (s.arrive su.ties (max s.now time))
  /-- Nobody is ready, and the clock comes to an instant before any that is waited for. -/
  | elapse {s : State ω} {limit : Instant} (idle : first? s.ready = none)
      (early : ∀ t ∈ s.times, limit < t) : Motion s { s with now := max s.now limit }

/-- The schedule loop as it is opened. -/
def opened (s : State ω) : State ω :=
  { s with turn := s.turn + 1, loop := some ⟨false, .ready s.turn⟩ }

/-- The schedule loop as it goes on to wait for its next tick. -/
def looped (s : State ω) : State ω :=
  { s with turn := s.turn + 1, loop := some ⟨true, .afterPause s.now s.turn su.tickDelay⟩ }

/-- One thing that a supervisor does, or that happens to it. -/
inductive Act : State ω → State ω → Prop where
  | deed {s s' : State ω} (deed : Deed su s s') : Act s s'
  | motion {s s' : State ω} (motion : Motion su s s') : Act s s'
  /-- The schedule loop is opened. -/
  | openLoop {s : State ω} (closed : s.loop = none) : Act s s.opened
  /-- The schedule loop goes on to wait. -/
  | turnLoop {s : State ω} {l : Loop} (live : s.loop = some l) : Act s (s.looped su)
  /-- A failed tick is noted. -/
  | noteTick {s : State ω} : Act s (s.record [.tickFailed])
  /-- The start is noted. -/
  | noteStart {s : State ω} : Act s (s.record [.started s.names])
  /-- Everything is stopped. -/
  | stop {s : State ω} : Act s s.stop

/-- One thing that a supervisor does, or that happens to it, but for a stop. -/
inductive Going : State ω → State ω → Prop where
  | deed {s s' : State ω} (deed : Deed su s s') : Going s s'
  | motion {s s' : State ω} (motion : Motion su s s') : Going s s'
  | openLoop {s : State ω} (closed : s.loop = none) : Going s s.opened
  | turnLoop {s : State ω} {l : Loop} (live : s.loop = some l) : Going s (s.looped su)
  | noteTick {s : State ω} : Going s (s.record [.tickFailed])
  | noteStart {s : State ω} : Going s (s.record [.started s.names])

/-- One thing that happens without a call. -/
inductive Drift : State ω → State ω → Prop where
  | motion {s s' : State ω} (motion : Motion su s s') : Drift s s'
  /-- The schedule loop makes its move. -/
  | beat {s : State ω} {l : Loop} (live : s.loop = some l) : Drift s (s.moveLoop su l)

/-- One call, or one thing that happens without a call. -/
inductive Turn : State ω → State ω → Prop where
  | drift {s s' : State ω} (drift : Drift su s s') : Turn s s'
  | trigger {s : State ω} (name reason : String) : Turn s (s.trigger su name reason).1
  | tick {s : State ω} (m : Moment) : Turn s (s.tick su m).1
  | start {s : State ω} : Turn s (s.start su).1
  | stop {s : State ω} : Turn s s.stop

/-- A sequence of acts. -/
abbrev Acts : State ω → State ω → Prop := ReflTransGen (Act su)

/-- A sequence of acts without a stop. -/
abbrev Goings : State ω → State ω → Prop := ReflTransGen (Going su)

/-- What happens without calls. -/
abbrev Drifts : State ω → State ω → Prop := ReflTransGen (Drift su)

/-- A sequence of turns. -/
abbrev Turns : State ω → State ω → Prop := ReflTransGen (Turn su)

theorem Going.act {s s' : State ω} (h : Going su s s') : Act su s s' := by
  cases h with
  | deed deed => exact .deed deed
  | motion motion => exact .motion motion
  | openLoop closed => exact .openLoop closed
  | turnLoop live => exact .turnLoop live
  | noteTick => exact .noteTick
  | noteStart => exact .noteStart

theorem Act.going_or_stop {s s' : State ω} (h : Act su s s') : Going su s s' ∨ s' = s.stop := by
  cases h with
  | deed deed => exact .inl (.deed deed)
  | motion motion => exact .inl (.motion motion)
  | openLoop closed => exact .inl (.openLoop closed)
  | turnLoop live => exact .inl (.turnLoop live)
  | noteTick => exact .inl .noteTick
  | noteStart => exact .inl .noteStart
  | stop => exact .inr rfl

theorem acts_of_goings {s s' : State ω} (h : Goings su s s') : Acts su s s' := by
  induction h with
  | refl => exact .refl
  | tail _ going ih => exact ih.tail (going.act su)

theorem goings_of_deeds {s s' : State ω} (h : Deeds su s s') : Goings su s s' := by
  induction h with
  | refl => exact .refl
  | tail _ deed ih => exact ih.tail (.deed deed)

/-! ### From turns to acts to steps -/

theorem goings_moveLoop {s : State ω} {l : Loop} (live : s.loop = some l) :
    Goings su s (s.moveLoop su l) := by
  have now := deeds_tickNow su s
  unfold moveLoop
  generalize s.tickNow su = outcome at now ⊢
  obtain ⟨s₁, result⟩ := outcome
  have live₁ : s₁.loop = some l := (frame_of_deeds su now).1.trans live
  split
  · cases result with
    | ok fired => exact (goings_of_deeds su now).tail (.turnLoop live₁)
    | error f => exact ((goings_of_deeds su now).tail .noteTick).tail (.turnLoop (s := s₁.record _) live₁)
  · exact .single (.turnLoop live)

theorem goings_start (s : State ω) : Goings su s (s.start su).1 := by
  unfold start
  split
  · exact .refl
  · next idle =>
    have closed : s.loop = none := Option.not_isSome_iff_eq_none.mp idle
    split
    · exact .refl
    · next m _ =>
      split
      · exact .refl
      · next last _ =>
        have prepared : Deeds su s ({ s with lastTick := some last }.refresh last).1 :=
          (ReflTransGen.single (.mark last)).tail (.refresh last)
        generalize { s with lastTick := some last }.refresh last = outcome at prepared
        obtain ⟨s₁, result⟩ := outcome
        cases result with
        | error f => exact goings_of_deeds su prepared
        | ok u =>
          have fired := prepared.trans (deeds_trigger_foldl su "startup"
            ((s₁.slots.filter (·.job.runsOnStartup)).map (·.job.name)) s₁)
          have closed' := (frame_of_deeds su fired).1.trans closed
          exact ((goings_of_deeds su fired).tail (.openLoop closed')).tail .noteStart

/-- A turn is a sequence of acts. -/
theorem Turn.acts {s s' : State ω} (h : Turn su s s') : Acts su s s' := by
  cases h with
  | drift drift =>
    cases drift with
    | motion motion => exact .single (.motion motion)
    | beat live => exact acts_of_goings su (goings_moveLoop su live)
  | trigger name reason => exact acts_of_goings su (goings_of_deeds su (deeds_trigger su name reason s))
  | tick m => exact acts_of_goings su (goings_of_deeds su (deeds_tick su m s))
  | start => exact acts_of_goings su (goings_start su s)
  | stop => exact .single .stop

theorem Act.step {s s' : State ω} (h : Act su s s') : Step su s s' := by
  cases h with
  | deed deed =>
    cases deed with
    | fire reason found => exact .fire reason found
    | refresh after => exact .refresh after
    | mark own => exact .adjust rfl rfl (Nat.le_refl _)
  | motion motion =>
    cases motion with
    | move first found live => exact .move _ found live
    | arrive idle least => exact .arrive (Nat.le_max_left _ _)
    | elapse idle early => exact .adjust rfl rfl (Nat.le_max_left _ _)
  | openLoop closed => exact .adjust rfl rfl (Nat.le_refl _)
  | turnLoop live => exact .adjust rfl rfl (Nat.le_refl _)
  | noteTick => exact .noteTick
  | noteStart => exact .noteStart
  | stop => exact .stop

/-! ### Moves and time -/

theorem drifts_move {s : State ω} {m : Nat × Mover} (first : first? s.ready = some m) :
    Drifts su s (s.move su m) := by
  obtain ⟨present, who⟩ := m
  unfold move
  cases who with
  | loop =>
    dsimp only
    split
    · next live => exact .single (.beat live)
    · exact .refl
  | job name =>
    dsimp only
    split
    · exact .refl
    · next found =>
      split
      · next live => exact .single (.motion (.move first found live))
      · exact .refl

/-- If nothing happens by itself up to a limit, nobody is ready and nobody is due by then. -/
theorem idle_of_next {limit : Option Instant} {s : State ω} (h : s.next? su limit = none) :
    first? s.ready = none ∧ ∀ l ∈ limit, ∀ t ∈ s.times, l < t := by
  unfold next? at h
  split at h
  · cases h
  · next idle =>
    refine ⟨idle, ?_⟩
    intro l hl t ht
    obtain rfl := Option.mem_def.mp hl
    cases least : s.times.min? with
    | none =>
      rw [List.min?_eq_none_iff.mp least] at ht
      cases ht
    | some time =>
      rw [least] at h
      have late : ¬ time ≤ l := by
        intro le
        simp [le] at h
      exact Nat.lt_of_lt_of_le (Nat.lt_of_not_le late) ((List.min?_eq_some_iff.mp least).2 t ht)

theorem drifts_next {limit : Option Instant} {s s' : State ω} (h : s.next? su limit = some s') :
    Drifts su s s' := by
  unfold next? at h
  split at h
  · next m first =>
    cases h
    exact drifts_move su first
  · next idle =>
    split at h
    · next least =>
      split at h
      · cases h
        exact .single (.motion (.arrive idle least))
      · cases h
    · cases h

theorem drifts_runTo (limit : Instant) (fuel : Nat) (s : State ω) :
    Drifts su s (s.runTo su limit fuel) := by
  induction fuel generalizing s with
  | zero => exact .refl
  | succ fuel ih =>
    rw [runTo]
    split
    · next s₁ h => exact (drifts_next su h).trans (ih s₁)
    · next h =>
      obtain ⟨idle, early⟩ := idle_of_next su h
      exact .single (.motion (.elapse idle (early limit rfl)))

theorem drifts_pass (bound fuel : Nat) (s : State ω) : Drifts su s (s.pass su bound fuel) := by
  induction fuel generalizing s with
  | zero => exact .refl
  | succ fuel ih =>
    rw [pass]
    split
    · next m first =>
      split
      · exact (drifts_move su first).trans (ih _)
      · exact .refl
    · exact .refl

theorem drifts_advance (fuel : Nat) (span : δ) (s : State ω) :
    Drifts su s (s.advance su fuel span) := by
  unfold advance
  split
  · split
    · next t _ => exact drifts_runTo su t fuel s
    · exact .refl
  · exact drifts_pass su s.turn fuel s

theorem drifts_runUntilEnded (name : String) (fuel : Nat) (s : State ω) :
    Drifts su s (s.runUntilEnded su name fuel) := by
  induction fuel generalizing s with
  | zero => exact .refl
  | succ fuel ih =>
    rw [runUntilEnded]
    split
    · split
      · next s₁ h => exact (drifts_next su h).trans (ih s₁)
      · exact .refl
    · exact .refl

/-! ### Commands -/

theorem turns_of_drifts {s s' : State ω} (h : Drifts su s s') : Turns su s s' := by
  induction h with
  | refl => exact .refl
  | tail _ drift ih => exact ih.tail (.drift drift)

theorem turns_tickNow (s : State ω) : Turns su s (s.tickNow su).1 := by
  rw [tickNow_eq]
  split
  · exact .single (.tick _)
  · exact .refl

/-- A command is a sequence of turns. -/
theorem turns_perform (fuel : Nat) (s : State ω) (c : Command δ) :
    Turns su s (s.perform su fuel c).1 := by
  cases c with
  | start => exact .single .start
  | stop => exact .single .stop
  | trigger name reason => exact .single (.trigger name reason)
  | tick m =>
    cases m with
    | none => exact turns_tickNow su s
    | some m => exact .single (.tick m)
  | isRunning name => exact .refl
  | wait name => exact turns_of_drifts su (drifts_runUntilEnded su name fuel s)
  | advance span => exact turns_of_drifts su (drifts_advance su fuel span s)
  | settle => exact turns_of_drifts su (drifts_runTo su s.now fuel s)
  | names => exact .refl

theorem goings_of_drifts {s s' : State ω} (h : Drifts su s s') : Goings su s s' := by
  induction h with
  | refl => exact .refl
  | tail _ drift ih =>
    cases drift with
    | motion motion => exact ih.tail (.motion motion)
    | beat live => exact ih.trans (goings_moveLoop su live)

/-- A command that is no stop. -/
theorem goings_perform (fuel : Nat) (s : State ω) {c : Command δ} (going : c ≠ .stop) :
    Goings su s (s.perform su fuel c).1 := by
  cases c with
  | start => exact goings_start su s
  | stop => exact absurd rfl going
  | trigger name reason => exact goings_of_deeds su (deeds_trigger su name reason s)
  | tick m =>
    cases m with
    | none => exact goings_of_deeds su (deeds_tickNow su s)
    | some m => exact goings_of_deeds su (deeds_tick su m s)
  | isRunning name => exact .refl
  | wait name => exact goings_of_drifts su (drifts_runUntilEnded su name fuel s)
  | advance span => exact goings_of_drifts su (drifts_advance su fuel span s)
  | settle => exact goings_of_drifts su (drifts_runTo su s.now fuel s)
  | names => exact .refl

/-! ### Scripts -/

/-- Carries out commands in order, each in at most so many moves. -/
def drive (script : List (Nat × Command δ)) (s : State ω) : State ω :=
  script.foldl (fun s c => (s.perform su c.1 c.2).1) s

theorem turns_drive (script : List (Nat × Command δ)) (s : State ω) :
    Turns su s (s.drive su script) := by
  induction script generalizing s with
  | nil => exact .refl
  | cons c rest ih => exact (turns_perform su c.1 s c.2).trans (ih _)

theorem acts_drive (script : List (Nat × Command δ)) (s : State ω) :
    Acts su s (s.drive su script) := by
  have turns := turns_drive su script s
  generalize s.drive su script = last at turns
  induction turns with
  | refl => exact .refl
  | tail _ turn ih => exact ih.trans (turn.acts su)

/-- A script in which nothing is stopped. -/
theorem goings_drive {script : List (Nat × Command δ)} (going : ∀ c ∈ script, c.2 ≠ .stop)
    (s : State ω) : Goings su s (s.drive su script) := by
  induction script generalizing s with
  | nil => exact .refl
  | cons c rest ih =>
    rw [List.forall_mem_cons] at going
    exact (goings_perform su c.1 s going.1).trans (ih going.2 _)

/-- What every change keeps, every script keeps. -/
theorem drive_keeps {P : State ω → Prop} (keeps : ∀ {s s' : State ω}, Step su s s' → P s → P s')
    (script : List (Nat × Command δ)) {s : State ω} (h : P s) : P (s.drive su script) := by
  have acts := acts_drive su script s
  generalize s.drive su script = last at acts
  induction acts with
  | refl => exact h
  | tail _ act ih => exact keeps (act.step su) ih

end Settler.Supervisor.State
