import Settler.Proofs.Supervisor.Rounds
import Settler.Proofs.Supervisor.Scripts

/-!
Scripts go by in rounds.

Triggers, moves, stops and the passing of time leave the timetable alone (`timetable_motion`). So what a
script does, as long as it does not start the supervisor anew, is rounds of ticks: those that it calls
for, and those of the schedule loop.
-/

namespace Settler.Supervisor.Slot

open Settler.Calendar

variable {ω δ : Type} [Seconds δ] (su : Setup δ) (o : Occasion)

theorem nextRun_finish (s : Slot ω) (l : Live ω) (e : Exit) (error : Str) :
    (s.finish su o l e error).1.health.nextRun = s.health.nextRun := by
  unfold finish
  dsimp only
  split
  · rfl
  · cases e with
    | normal => rfl
    | faulted => rfl
    | crashed =>
      unfold recover
      dsimp only
      split <;> rfl

theorem nextRun_fail (s : Slot ω) (l : Live ω) (f : Fault) :
    (s.fail su o l f).1.health.nextRun = s.health.nextRun := by
  unfold fail
  split
  · rfl
  · exact nextRun_finish su o s l .crashed _

theorem nextRun_follow (s : Slot ω) (l : Live ω) (t : Turn ω δ) :
    (s.follow su o l t).1.health.nextRun = s.health.nextRun := by
  unfold follow
  cases t.next with
  | exit e => exact nextRun_finish su o s l e ""
  | fail f => exact nextRun_fail su o s l f
  | _ => rfl

variable [Machine ω δ]

theorem nextRun_launch (s : Slot ω) (l : Live ω) :
    (s.launch su o l).1.health.nextRun = s.health.nextRun := by
  unfold launch
  split
  · rfl
  · dsimp only
    split
    · rfl
    · exact nextRun_follow su o _ l _

/-- No move touches the next run. -/
theorem nextRun_move (s : Slot ω) (l : Live ω) :
    (s.move su o l).1.health.nextRun = s.health.nextRun := by
  unfold move
  split
  · exact nextRun_launch su o s l
  · exact nextRun_launch su o s l
  · exact nextRun_follow su o s l _
  · next outcome _ _ _ =>
    cases outcome with
    | error f => exact nextRun_fail su o s l f
    | ok reply => exact nextRun_follow su o s l _

end Settler.Supervisor.Slot

namespace Settler.Supervisor.State

open Settler.Calendar Relation

variable {ω δ : Type} {su : Setup δ}

theorem timetable_put {s : State ω} (distinct : s.names.Nodup) {t t' : Slot ω} (mem : t ∈ s.slots)
    (job : t'.job = t.job) (nextRun : t'.health.nextRun = t.health.nextRun) :
    (s.put t').timetable = s.timetable := by
  refine congrArg (Prod.mk s.lastTick) ?_
  unfold put
  rw [List.map_map]
  refine List.map_congr_left ?_
  intro u memU
  rw [Function.comp_apply]
  split
  · next same =>
    rw [List.inj_on_of_nodup_map distinct memU mem (by rw [same, job]), job, nextRun]
  · rfl

theorem timetable_map (s : State ω) {f : Slot ω → Slot ω}
    (same : ∀ t, (f t).job = t.job ∧ (f t).health.nextRun = t.health.nextRun) :
    timetable { s with slots := s.slots.map f } = s.timetable := by
  refine congrArg (Prod.mk s.lastTick) ?_
  rw [List.map_map]
  refine List.map_congr_left fun t _ => ?_
  rw [Function.comp_apply, (same t).1, (same t).2]

theorem timetable_trigger {s : State ω} (distinct : s.names.Nodup) (name reason : String) :
    (s.trigger su name reason).1.timetable = s.timetable := by
  unfold trigger
  split
  · rfl
  · next t found =>
    obtain ⟨t', turn, attempted, fired⟩ := fire_spec su reason s t
    rw [fired]
    exact timetable_put (s := { s with turn }) distinct (mem_of_slot found) attempted.job
      attempted.nextRun

theorem timetable_trigger_foldl (reason : String) (names : List String) {s : State ω}
    (distinct : s.names.Nodup) :
    (names.foldl (fun s name => (s.trigger su name reason).1) s).timetable = s.timetable := by
  induction names generalizing s with
  | nil => rfl
  | cons name rest ih =>
    have same : (s.trigger su name reason).1.timetable = s.timetable :=
      timetable_trigger distinct name reason
    rw [List.foldl_cons, ih (names_eq_of_timetable same ▸ distinct), same]

theorem timetable_stop (s : State ω) : s.stop.timetable = s.timetable :=
  timetable_map s fun _ => ⟨rfl, rfl⟩

theorem arriveSlot_frame (turn : Mover → Nat → Nat) (now : Instant) (t : Slot ω) :
    (arriveSlot turn now t).job = t.job ∧ (arriveSlot turn now t).health.nextRun = t.health.nextRun := by
  unfold arriveSlot
  split <;> exact ⟨rfl, rfl⟩

/-! ### Rounds of a script -/

theorem names_refresh (after : Moment) (s : State ω) : (s.refresh after).1.names = s.names := by
  have jobs := congrArg (List.map Job.name) (jobs_refreshSlots after s.slots)
  rwa [List.map_map, List.map_map] at jobs

theorem names_of_deeds {s s' : State ω} (h : Deeds su s s') : s'.names = s.names := by
  induction h with
  | refl => rfl
  | tail _ deed ih =>
    rw [← ih]
    cases deed with
    | @fire name t reason found =>
      obtain ⟨t', turn, -, fired⟩ := fire_spec su reason _ t
      rw [fired]
      exact names_put _ t'
    | refresh after => exact names_refresh after _
    | mark own => rfl

theorem names_of_rounds {s s' : State ω} {ms : List Moment} (h : Rounds su s ms s') :
    s'.names = s.names := by
  induction h with
  | nil s => rfl
  | aside same rest ih => exact ih.trans (names_eq_of_timetable same)
  | tick m rest ih => exact ih.trans (names_of_deeds (deeds_tick su m _))

/-- A stretch of time with calls for ticks at some moments: it goes by in rounds, which are the ticks that
were called for, in order, and between them ticks at moments that the clock came to. -/
structure Course (su : Setup δ) (s : State ω) (calls : List Moment) (s' : State ω) : Prop where
  now : s.now ≤ s'.now
  rounds : ∃ ms, Rounds su s ms s' ∧ calls.Sublist ms ∧
    ∀ m ∈ ms, m ∈ calls ∨ ∃ now ≤ s'.now, su.moment now = .ok m

namespace Course

theorem of_same {s s' : State ω} (same : s'.timetable = s.timetable) (now : s.now ≤ s'.now) :
    Course su s [] s' :=
  ⟨now, [], .of_same same, .slnil, by simp⟩

theorem trans {s s' s'' : State ω} {calls calls' : List Moment} (h : Course su s calls s')
    (h' : Course su s' calls' s'') : Course su s (calls ++ calls') s'' := by
  obtain ⟨now, ms, rounds, made, came⟩ := h
  obtain ⟨now', ms', rounds', made', came'⟩ := h'
  refine ⟨Nat.le_trans now now', ms ++ ms', rounds.trans rounds', made.append made', ?_⟩
  intro m mem
  rcases List.mem_append.mp mem with mem | mem
  · rcases came m mem with called | ⟨n, le, clock⟩
    · exact .inl (List.mem_append_left _ called)
    · exact .inr ⟨n, Nat.le_trans le now', clock⟩
  · rcases came' m mem with called | clock
    · exact .inl (List.mem_append_right _ called)
    · exact .inr clock

/-- A tick that is called for. -/
theorem tick (s : State ω) (m : Moment) : Course su s [m] (s.tick su m).1 :=
  ⟨Nat.le_of_eq (frame_of_deeds su (deeds_tick su m s)).2.symm, [m], .tick m (.nil _), .refl _,
    fun _ mem => .inl mem⟩

/-- A tick at the present moment. -/
theorem tickNow (s : State ω) : Course su s [] (s.tickNow su).1 := by
  rw [tickNow_eq]
  split
  · next m clock =>
    have now := (frame_of_deeds su (deeds_tick su m s)).2
    refine ⟨Nat.le_of_eq now.symm, [m], .tick m (.nil _), List.nil_sublist _, ?_⟩
    intro m' mem
    obtain rfl := List.mem_singleton.mp mem
    exact .inr ⟨s.now, Nat.le_of_eq now.symm, clock⟩
  · exact of_same rfl (Nat.le_refl _)

theorem distinct {s s' : State ω} {calls : List Moment} (h : Course su s calls s')
    (distinct : s.names.Nodup) : s'.names.Nodup := by
  obtain ⟨-, ms, rounds, -⟩ := h
  exact names_of_rounds rounds ▸ distinct

end Course

variable [Machine ω δ] [Seconds δ]

theorem timetable_motion {s s' : State ω} (distinct : s.names.Nodup) (h : Motion su s s') :
    s'.timetable = s.timetable := by
  cases h with
  | @move name t l present first found live =>
    have job := (Slot.own_move su ⟨s.now, present, s.turn, s.journal.outbound⟩ t l).job
    exact timetable_put (s := { s with turn := s.turn + 1 }) distinct (mem_of_slot found) job
      (Slot.nextRun_move su _ t l)
  | arrive idle least => exact timetable_map s (arriveSlot_frame _ _)
  | elapse idle early => rfl

theorem course_of_drift {s s' : State ω} (distinct : s.names.Nodup) (h : Drift su s s') :
    Course su s [] s' := by
  cases h with
  | motion motion =>
    refine .of_same (timetable_motion distinct motion) ?_
    cases motion with
    | move first found live => exact Nat.le_refl _
    | arrive idle least => exact Nat.le_max_left _ _
    | elapse idle early => exact Nat.le_max_left _ _
  | beat live =>
    have ticked : Course su s [] (s.tickNow su).1 := .tickNow s
    unfold moveLoop
    split
    · generalize s.tickNow su = outcome at ticked ⊢
      obtain ⟨s₁, result⟩ := outcome
      cases result <;> exact ticked.trans (.of_same rfl (Nat.le_refl _))
    · exact .of_same rfl (Nat.le_refl _)

theorem course_of_drifts {s s' : State ω} (distinct : s.names.Nodup) (h : Drifts su s s') :
    Course su s [] s' := by
  induction h with
  | refl => exact .of_same rfl (Nat.le_refl _)
  | tail _ drift ih => exact ih.trans (course_of_drift (ih.distinct distinct) drift)

/-- The moment of a tick that a command calls for. -/
def Command.tick? : Command δ → Option Moment
  | .tick m => m
  | _ => none

/-- The command starts the supervisor. -/
def Command.isStart : Command δ → Bool
  | .start => true
  | _ => false

theorem course_perform {s : State ω} (distinct : s.names.Nodup) (fuel : Nat) {c : Command δ}
    (restart : c.isStart = false) : Course su s c.tick?.toList (s.perform su fuel c).1 := by
  have drifts : ∀ s', Drifts su s s' → Course su s [] s' := fun _ h => course_of_drifts distinct h
  cases c with
  | start => cases restart
  | stop => exact .of_same (timetable_stop s) (Nat.le_refl _)
  | trigger name reason =>
    exact .of_same (timetable_trigger distinct name reason)
      (Nat.le_of_eq (frame_of_deeds su (deeds_trigger su name reason s)).2.symm)
  | tick m =>
    cases m with
    | none => exact .tickNow s
    | some m => exact .tick s m
  | isRunning name => exact .of_same rfl (Nat.le_refl _)
  | wait name => exact drifts _ (drifts_runUntilEnded su name fuel s)
  | advance span => exact drifts _ (drifts_advance su fuel span s)
  | settle => exact drifts _ (drifts_runTo su s.now fuel s)
  | names => exact .of_same rfl (Nat.le_refl _)

/-- A script that does not start the supervisor anew goes by in rounds. -/
theorem course_drive {s : State ω} (distinct : s.names.Nodup) {script : List (Nat × Command δ)}
    (restarts : ∀ c ∈ script, c.2.isStart = false) :
    Course su s (script.filterMap (·.2.tick?)) (s.drive su script) := by
  induction script generalizing s with
  | nil => exact .of_same rfl (Nat.le_refl _)
  | cons c rest ih =>
    have first : Course su s c.2.tick?.toList (s.perform su c.1 c.2).1 :=
      course_perform distinct c.1 (restarts c List.mem_cons_self)
    have later := ih (first.distinct distinct) fun c mem => restarts c (List.mem_cons_of_mem _ mem)
    have calls : (c :: rest).filterMap (·.2.tick?)
        = c.2.tick?.toList ++ rest.filterMap (·.2.tick?) := by
      rw [List.filterMap_cons]
      cases c.2.tick? <;> rfl
    rw [calls]
    exact first.trans later

end Settler.Supervisor.State
