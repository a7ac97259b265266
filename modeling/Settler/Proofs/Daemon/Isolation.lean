import Settler.Proofs.Daemon.Verdicts
import Settler.Proofs.Supervisor.Interleaving
import Settler.Supervisor.Report

/-!
Jobs are isolated from each other.

Drive two supervisors for the same settings by the same commands, with services that have the same for one
job and whatever they like for all others: crashes, delays, answers that never come. After each command,
what is known of that job is the same of both (`isolated_of_script`).

All jobs share one event loop, and it is for that loop to say who goes first of those whose timers fall due
at one instant (`Ties`). To a job it matters only where the job and the schedule loop meet, both due at one
instant (`State.Meets`): there, both event loops have to let the same of them go first (`Ties.AlikeAt`). A
loop of virtual time, which keeps timers in the order in which they are set, does (`Ties.alikeAt_setOrder`);
one that lets other jobs decide there is itself a way from them to the job.
-/

namespace Settler

open Settler.Calendar

namespace Supervisor.State

section

variable {ω δ : Type} [Seconds δ]

/-- The commands that drive a supervisor from an instant on: nothing is stopped, and a span of time does
not end before it begins. -/
inductive Drives (now : Instant) : Command δ → Prop where
  | start : Drives now .start
  | trigger (name reason : String) : Drives now (.trigger name reason)
  | tick (m : Option Moment) : Drives now (.tick m)
  | isRunning (name : String) : Drives now (.isRunning name)
  | advance {span : δ}
      (forward : Seconds.takesTime span = true → ∀ t, Seconds.wake? now span = some t → now ≤ t) :
      Drives now (.advance span)
  | settle : Drives now .settle
  | names : Drives now .names

variable [Machine ω δ] (su : Setup δ)

/-- Every command of a script drives the supervisor, and gets done within its moves: more of them would
change nothing. -/
inductive Driven : State ω → List (Nat × Command δ) → Prop where
  | nil {s : State ω} : Driven s []
  | cons {s : State ω} {fuel : Nat} {c : Command δ} {rest : List (Nat × Command δ)}
      (drives : Drives s.now c) (done : ∀ more, s.perform su (fuel + more) c = s.perform su fuel c)
      (later : Driven (s.perform su fuel c).1 rest) : Driven s ((fuel, c) :: rest)

/-- A script leads a supervisor through a state: after some of the commands, and some of the moves of the next
one. -/
def Passes (s : State ω) (script : List (Nat × Command δ)) (s' : State ω) : Prop :=
  ∃ n fuel command, (script.map (·.2))[n]? = some command ∧
    s' = ((s.drive su (script.take n)).perform su fuel command).1

/-- What is known of a job is the same of two supervisors: its report, whether it runs, what went out for it
and when, and what its workers count. -/
structure SameFor (name : String) (s₁ s₂ : State ω) : Prop where
  health : (s₁.slot? name).map (·.health) = (s₂.slot? name).map (·.health)
  report : (s₁.slot? name).map Slot.report = (s₂.slot? name).map Slot.report
  running : s₁.isRunning name = s₂.isRunning name
  sent : s₁.journal.sentFor name = s₂.journal.sentFor name
  counters : ∀ event, s₁.journal.counter name event = s₂.journal.counter name event

/-! ### Scripts that are checked by running them -/

/-- A command is seen to drive the supervisor and to get done within its moves. -/
def getsDone (fuel : Nat) (s : State ω) : Command δ → Bool
  | .stop => false
  | .wait _ => false
  | .settle => restsWithin (next? su (some s.now)) fuel s
  | .advance span =>
    if Seconds.takesTime span then
      match Seconds.wake? s.now span with
      | some t => s.now ≤ t && restsWithin (next? su (some t)) fuel s
      | none => true
    else restsWithin (passStep su s.turn) fuel s
  | _ => true

/-- Every command of a script is seen to get done. -/
def isDriven : List (Nat × Command δ) → State ω → Bool
  | [], _ => true
  | (fuel, c) :: rest, s => s.getsDone su fuel c && isDriven rest (s.perform su fuel c).1

theorem done_of_getsDone {fuel : Nat} {s : State ω} {c : Command δ} (checked : s.getsDone su fuel c = true) :
    Drives s.now c ∧ ∀ more, s.perform su (fuel + more) c = s.perform su fuel c := by
  cases c with
  | start => exact ⟨.start, fun _ => rfl⟩
  | stop => cases checked
  | trigger name reason => exact ⟨.trigger name reason, fun _ => rfl⟩
  | tick m => exact ⟨.tick m, fun _ => rfl⟩
  | isRunning name => exact ⟨.isRunning name, fun _ => rfl⟩
  | wait name => cases checked
  | settle =>
    have enough := (bounded_runTo su s.now).enough_of_rests checked
    exact ⟨.settle, fun more => Prod.ext (enough more) rfl⟩
  | names => exact ⟨.names, fun _ => rfl⟩
  | advance span =>
    by_cases takes : Seconds.takesTime span = true
    · simp only [getsDone, takes, if_true] at checked
      cases wake : Seconds.wake? s.now span with
      | none =>
        refine ⟨.advance fun _ t ends => ?_, fun more => ?_⟩
        · rw [wake] at ends
          cases ends
        · simp only [perform, advance, takes, wake, if_true]
      | some t =>
        rw [wake, Bool.and_eq_true] at checked
        have enough := (bounded_runTo su t).enough_of_rests checked.2
        refine ⟨.advance fun _ t' ends => ?_, fun more => ?_⟩
        · obtain rfl := Option.some.inj (wake.symm.trans ends)
          exact of_decide_eq_true checked.1
        · simp only [perform, advance, takes, wake, if_true, enough]
    · simp only [getsDone, takes, if_false, Bool.false_eq_true] at checked
      have enough := (bounded_pass su s.turn).enough_of_rests checked
      refine ⟨.advance fun taken => absurd taken takes, fun more => ?_⟩
      simp only [perform, advance, takes, if_false, Bool.false_eq_true, enough]

/-- A script that is seen to get done does. -/
theorem driven_of_isDriven {script : List (Nat × Command δ)} {s : State ω}
    (checked : isDriven su script s = true) : Driven su s script := by
  induction script generalizing s with
  | nil => exact .nil
  | cons c rest ih =>
    obtain ⟨first, later⟩ := (Bool.and_eq_true _ _).mp checked
    obtain ⟨drives, done⟩ := done_of_getsDone su first
    exact .cons drives done (ih later)

end

section

variable {δ : Type} {jobs : List (Job (Worker δ))} {name : String} {b₁ b₂ : Nat}
  {s₁ s₂ : State (Worker δ)}

/-- Two supervisors abreast are the same for the job. -/
theorem Abreast.sameFor (h : Abreast jobs name b₁ b₂ s₁ s₂) : SameFor name s₁ s₂ := by
  have slots : (s₁.slot? name).map (Slot.seen (s₁.labels b₁))
      = (s₂.slot? name).map (Slot.seen (s₂.labels b₂)) := congrArg Outlook.slot h.seen
  have about : s₁.journal.about name = s₂.journal.about name := congrArg Outlook.journal h.seen
  -- What is read off the slot and does not depend on turns is read off the slot as it is seen.
  have told : ∀ {α : Type} (f : Slot (Worker δ) → α), (∀ g t, f (t.seen g) = f t) →
      (s₁.slot? name).map f = (s₂.slot? name).map f := by
    intro α f turnless
    have mapped := congrArg (Option.map f) slots
    simp only [Option.map_map, Function.comp_def, turnless] at mapped
    exact mapped
  refine ⟨told _ fun _ _ => rfl, told _ fun _ _ => rfl, ?_, ?_, fun event => ?_⟩
  · have running := told Slot.isRunning Slot.isRunning_seen
    have viewed : ∀ s : State (Worker δ),
        s.isRunning name = ((s.slot? name).map Slot.isRunning).any id := by
      intro s
      rw [isRunning]
      cases s.slot? name <;> rfl
    rw [viewed, running, ← viewed]
  · rw [← Journal.sentFor_about, about, Journal.sentFor_about]
  · rw [← Journal.counter_about, about, Journal.counter_about]

variable [Seconds δ] (su : Setup δ) {σ₁ σ₂ : Services δ} {τ₁ τ₂ : Ties}

/-- A command that both carry out, and get done with, keeps them abreast. -/
theorem Abreast.perform (h : Abreast jobs name 0 0 s₁ s₂) (c : Comparable jobs name σ₁ σ₂)
    {command : Command δ} {fuel₁ fuel₂ : Nat} (drives : Drives s₁.now command)
    (alike : ∀ n now, (s₁.perform (su.serving σ₁ τ₁) n command).1.Meets name now →
      Ties.AlikeAt name now τ₁ τ₂)
    (done₁ : ∀ more, s₁.perform (su.serving σ₁ τ₁) (fuel₁ + more) command
      = s₁.perform (su.serving σ₁ τ₁) fuel₁ command)
    (done₂ : ∀ more, s₂.perform (su.serving σ₂ τ₂) (fuel₂ + more) command
      = s₂.perform (su.serving σ₂ τ₂) fuel₂ command) :
    Abreast jobs name 0 0 (s₁.perform (su.serving σ₁ τ₁) fuel₁ command).1
      (s₂.perform (su.serving σ₂ τ₂) fuel₂ command).1 := by
  have enough₁ := fun more => congrArg Prod.fst (done₁ more)
  have enough₂ := fun more => congrArg Prod.fst (done₂ more)
  cases drives with
  | start => exact h.start su τ₁ τ₂ c.mute₁ c.mute₂
  | trigger other reason => exact h.trigger su τ₁ τ₂ c.mute₁ c.mute₂ other reason
  | tick m =>
    cases m with
    | none => exact (h.tickNow su τ₁ τ₂ c.mute₁ c.mute₂).1
    | some m => exact (h.tick su τ₁ τ₂ c.mute₁ c.mute₂ m).1
  | isRunning other => exact h
  | names => exact h
  | settle =>
    dsimp only [State.perform, settle] at enough₁ enough₂ ⊢
    rw [← h.now] at enough₂ ⊢
    exact h.runTo su c (Nat.le_refl _) alike enough₁ enough₂
  | @advance span forward =>
    dsimp only [State.perform, State.advance] at enough₁ enough₂ ⊢
    rw [← h.now] at enough₂ ⊢
    split
    · next takes =>
      cases wake : Seconds.wake? s₁.now span with
      | none => exact h
      | some t =>
        simp only [takes, wake, if_true] at enough₁ enough₂
        refine h.runTo su c (forward takes t wake) (fun n now meets => alike n now ?_) enough₁ enough₂
        simpa only [State.perform, State.advance, takes, wake, if_true] using meets
    · next instant =>
      simp only [instant, Bool.false_eq_true, if_false] at enough₁ enough₂
      exact h.pass su c enough₁ enough₂

/-- Two scripts of the same commands keep them abreast. -/
theorem Abreast.drive (h : Abreast jobs name 0 0 s₁ s₂) (c : Comparable jobs name σ₁ σ₂)
    {script₁ script₂ : List (Nat × Command δ)} (same : script₁.map (·.2) = script₂.map (·.2))
    (alike : ∀ s now, Passes (su.serving σ₁ τ₁) s₁ script₁ s → s.Meets name now → Ties.AlikeAt name now τ₁ τ₂)
    (driven₁ : Driven (su.serving σ₁ τ₁) s₁ script₁) (driven₂ : Driven (su.serving σ₂ τ₂) s₂ script₂)
    (n : Nat) :
    Abreast jobs name 0 0 (s₁.drive (su.serving σ₁ τ₁) (script₁.take n))
      (s₂.drive (su.serving σ₂ τ₂) (script₂.take n)) := by
  induction n generalizing s₁ s₂ script₁ script₂ with
  | zero => exact h
  | succ n ih =>
    cases driven₁ with
    | nil =>
      obtain rfl := List.map_eq_nil_iff.mp same.symm
      exact h
    | cons drives₁ done₁ later₁ =>
      cases driven₂ with
      | nil => cases same
      | cons drives₂ done₂ later₂ =>
        obtain ⟨rfl, others⟩ := List.cons.inj same
        have first := h.perform su c drives₁ (fun fuel now => alike _ now ⟨0, fuel, _, rfl, rfl⟩) done₁ done₂
        refine ih first others (fun s now passes => alike s now ?_) later₁ later₂
        obtain ⟨n, fuel, command, listed, rfl⟩ := passes
        exact ⟨n + 1, fuel, command, listed, rfl⟩

end

end Supervisor.State

open Settler.Supervisor State

/-- A service that has one outcome for all payments, and refuses everything else. -/
def Services.paying (outcome : Pending Number Settlement.Answer) : Services Number where
  settle _ op :=
    match op with
    | .payDebt _ => outcome
    | _ => .now (.ok (.error "No new epoch"))
  post _ _ := .now (.ok ())

theorem Services.isMute_paying {outcome : Pending Number Settlement.Answer} (mute : outcome.IsMute) :
    (Services.paying outcome).IsMute where
  settle := by
    intro earlier op
    cases op with
    | payDebt epoch => exact mute
    | _ => exact ⟨List.forall_mem_nil _, List.forall_mem_nil _⟩
  post := fun _ _ => ⟨List.forall_mem_nil _, List.forall_mem_nil _⟩

/-- The initializer is served alike, whatever comes of payments. -/
theorem Services.agreeOn_paying (outcome outcome' : Pending Number Settlement.Answer) :
    (Services.paying outcome).AgreeOn Initializer.name (Services.paying outcome') where
  settle := by
    intro before₁ before₂ _ op own
    cases op with
    | payDebt epoch => exact absurd own (by decide : Sweep.name ≠ Initializer.name)
    | _ => exact ⟨rfl, rfl⟩
  post := fun _ _ _ => ⟨rfl, rfl⟩

end Settler
