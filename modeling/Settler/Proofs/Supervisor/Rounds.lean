import Settler.Proofs.Supervisor.CatchUp

/-!
Ticks in the course of time.

Between two ticks anything may happen that leaves alone what a tick goes by: the jobs, their next runs,
and the minute of the last tick (`Rounds`). So ticks follow each other as if nothing happened between
them: each accepted one takes up where the one before it left off.
-/

namespace Settler.Supervisor.State

open Settler.Calendar Relation

variable {ω δ : Type}

/-! ### Accepted ticks -/

/-- The ticks at some moments that are accepted, each with the minute of the last one before it. -/
def accepted (last : Moment) : List Moment → List (Moment × Moment)
  | [] => []
  | m :: rest =>
    if last.instant < m.startOfMinute.instant then
      (last, m.startOfMinute) :: accepted m.startOfMinute rest
    else accepted last rest

/-- The minute of the last tick after ticks at some moments. -/
def lastOf (last : Moment) : List Moment → Moment
  | [] => last
  | m :: rest => lastOf (if last.instant < m.startOfMinute.instant then m.startOfMinute else last) rest

/-- All minutes that ticks at some moments evaluate, in order. -/
def evaluatedAll (last : Moment) (ms : List Moment) : List Moment :=
  (accepted last ms).flatMap fun r => evaluated r.1 r.2

theorem instant_firstOf (last own : Moment) : last.instant < (firstOf last own).instant := by
  have next := last.instant_later 1
  have pos := Moment.minute_pos
  unfold firstOf
  split <;> omega

/-- The minutes of a tick lie after the last tick's, up to its own. -/
theorem instant_of_mem_evaluated {last own c : Moment} (mem : c ∈ evaluated last own) :
    last.instant < c.instant ∧ c.instant ≤ own.instant := by
  obtain ⟨k, rfl, le⟩ := mem_evaluated.mp mem
  have first := instant_firstOf last own
  have later := (firstOf last own).instant_later k
  have grows : (0 : Int) ≤ k * minute := Int.mul_nonneg (Int.natCast_nonneg k) (Int.natCast_nonneg _)
  exact ⟨by omega, le⟩

theorem pairwise_evaluated (last own : Moment) :
    (evaluated last own).Pairwise fun a b => a.instant < b.instant := by
  unfold evaluated
  rw [List.pairwise_map]
  refine List.pairwise_lt_range.imp ?_
  intro i j lt
  rw [Moment.instant_later, Moment.instant_later]
  have pos := Moment.minute_pos
  have grows : (i * minute : Int) < j * minute := by
    exact_mod_cast (Nat.mul_lt_mul_right pos).mpr lt
  omega

/-- No minute is evaluated twice: those of a tick lie after all those of the ticks before it. -/
theorem pairwise_evaluatedAll (last : Moment) (ms : List Moment) :
    (evaluatedAll last ms).Pairwise (fun a b => a.instant < b.instant) ∧
      ∀ c ∈ evaluatedAll last ms, last.instant < c.instant := by
  induction ms generalizing last with
  | nil => exact ⟨List.Pairwise.nil, by simp [evaluatedAll, accepted]⟩
  | cons m rest ih =>
    unfold evaluatedAll at ih ⊢
    rw [accepted]
    split
    · next later =>
      obtain ⟨increasing, after⟩ := ih m.startOfMinute
      rw [List.flatMap_cons]
      refine ⟨List.pairwise_append.mpr ⟨pairwise_evaluated _ _, increasing, ?_⟩, ?_⟩
      · intro a ha b hb
        exact Int.lt_of_le_of_lt (instant_of_mem_evaluated ha).2 (after b hb)
      · intro c mem
        rcases List.mem_append.mp mem with mem | mem
        · exact (instant_of_mem_evaluated mem).1
        · exact Int.lt_trans later (after c mem)
    · exact ih last

/-- A tick up to an hour after the last one goes from the minute after it, on the clock of the last
tick. -/
theorem firstOf_near {last own : Moment} (late : 59 * minute ≤ own.wall)
    (near : own.instant - last.instant ≤ 60 * minute) : firstOf last own = last.later 1 := by
  have floor := Moment.instant_earlier late
  have next := last.instant_later 1
  unfold firstOf
  rw [if_neg]
  push_cast at floor next
  omega

/-- A tick up to an hour after the last one evaluates every minute in between. -/
theorem evaluated_near {last own : Moment} (late : 59 * minute ≤ own.wall) {k : Nat} (near : k ≤ 60)
    (apart : own.instant = last.instant + k * minute) :
    evaluated last own = (List.range k).map fun i => last.later (i + 1) := by
  have pos := Moment.minute_pos
  have hour : (k * minute : Int) ≤ 60 * minute := by
    exact_mod_cast Nat.mul_le_mul_right minute near
  have first := firstOf_near late (by omega : own.instant - last.instant ≤ 60 * minute)
  have reached : ∀ j : Nat, j < minutesTo (last.later 1) own ↔ j < k := by
    intro j
    rw [lt_minutesTo_iff, Moment.later_later, Moment.instant_later, apart]
    have monotone : ((1 + j : Nat) * minute : Int) ≤ k * minute ↔ 1 + j ≤ k := by
      exact_mod_cast Nat.mul_le_mul_right_iff pos
    omega
  have count : minutesTo (last.later 1) own = k := by
    have a := reached k
    have b := reached (minutesTo (last.later 1) own)
    omega
  unfold evaluated
  rw [first, count]
  refine List.map_congr_left ?_
  intro i _
  rw [Moment.later_later, Nat.add_comm]

/-- If no two accepted ticks are more than an hour apart, the evaluated minutes have no gap. -/
theorem evaluatedAll_near {last : Moment} {ms : List Moment} (charted : ∀ m ∈ ms, m.Charted 59)
    (near : ∀ r ∈ accepted last ms, ∃ k : Nat, k ≤ 60 ∧ r.2.instant = r.1.instant + k * minute) :
    ∃ n : Nat, (lastOf last ms).instant = last.instant + n * minute ∧
      (evaluatedAll last ms).map (·.instant)
        = (List.range n).map fun i : Nat => last.instant + (i + 1) * minute := by
  induction ms generalizing last with
  | nil => exact ⟨0, by rw [lastOf]; omega, rfl⟩
  | cons m rest ih =>
    unfold evaluatedAll at ih ⊢
    rw [accepted] at near ⊢
    rw [lastOf]
    have charted' : ∀ m ∈ rest, m.Charted 59 := fun m mem => charted m (List.mem_cons_of_mem _ mem)
    by_cases later : last.instant < m.startOfMinute.instant
    · rw [if_pos later] at near ⊢
      rw [if_pos later]
      obtain ⟨k, hour, apart⟩ := near _ List.mem_cons_self
      obtain ⟨n, reaches, minutes⟩ := ih charted' fun r mem => near r (List.mem_cons_of_mem _ mem)
      have each := evaluated_near (charted m List.mem_cons_self).late_minute hour apart
      refine ⟨k + n, ?_, ?_⟩
      · rw [reaches, apart]
        push_cast
        rw [Int.add_mul]
        omega
      · rw [List.flatMap_cons, List.map_append, minutes, each, List.range_add, List.map_append,
          List.map_map, List.map_map]
        refine congrArg₂ _ (List.map_congr_left fun i _ => ?_) (List.map_congr_left fun i _ => ?_)
        · rw [Function.comp_apply, Moment.instant_later]
          push_cast
          rfl
        · rw [Function.comp_apply, apart]
          push_cast
          rw [Int.add_assoc, ← Int.add_mul, Int.add_assoc]
    · rw [if_neg later] at near ⊢
      rw [if_neg later]
      exact ih charted' near

/-- If the clocks differ by whole minutes, an accepted tick is whole minutes later than the last. -/
theorem whole_of_mem_accepted {last : Moment} {ms : List Moment}
    (whole : ∀ m ∈ ms, (minute : Int) ∣ m.startOfMinute.instant - last.instant) :
    ∀ r ∈ accepted last ms, ∃ k : Nat, r.2.instant = r.1.instant + k * minute := by
  induction ms generalizing last with
  | nil => simp [accepted]
  | cons m rest ih =>
    rw [accepted]
    have own := whole m List.mem_cons_self
    split
    · next later =>
      intro r mem
      rcases List.mem_cons.mp mem with rfl | mem
      · obtain ⟨q, apart⟩ := own
        have pos := Moment.minute_pos
        have positive : 0 ≤ q := by
          by_contra negative
          have := Int.mul_neg_of_pos_of_neg (a := (minute : Int)) (by omega) (Int.not_le.mp negative)
          omega
        refine ⟨q.toNat, ?_⟩
        rw [Int.toNat_of_nonneg positive, Int.mul_comm, ← apart]
        dsimp only
        omega
      · refine ih (fun m' mem' => ?_) r mem
        have both := Int.dvd_sub (whole m' (List.mem_cons_of_mem _ mem')) own
        have difference : m'.startOfMinute.instant - m.startOfMinute.instant
            = m'.startOfMinute.instant - last.instant - (m.startOfMinute.instant - last.instant) := by
          omega
        rw [difference]
        exact both
    · exact ih fun m' mem' => whole m' (List.mem_cons_of_mem _ mem')

/-! ### Rounds -/

/-- What ticks go by: the minute of the last one, and the jobs with their next runs. -/
def timetable (s : State ω) : Option Moment × List (Job ω × Option Moment) :=
  (s.lastTick, s.slots.map fun t => (t.job, t.health.nextRun))

variable (su : Setup δ)

/-- Ticks at some moments, one after the other, and between them anything that leaves alone what they go
by. -/
inductive Rounds : State ω → List Moment → State ω → Prop where
  | nil (s : State ω) : Rounds s [] s
  | aside {s s' last : State ω} {ms : List Moment} (same : s'.timetable = s.timetable)
      (rest : Rounds s' ms last) : Rounds s ms last
  | tick {s last : State ω} {ms : List Moment} (m : Moment) (rest : Rounds (s.tick su m).1 ms last) :
      Rounds s (m :: ms) last

/-- The state keeps time: it knows the minute of the last tick, and the next run of every scheduled job
is the next match of its schedule after that minute. -/
structure KeepsTime (last : Moment) (s : State ω) : Prop where
  distinct : s.names.Nodup
  lastTick : s.lastTick = some last
  horizon : last.HasHorizon
  nextRuns : ∀ t ∈ s.slots, ∀ schedule, t.job.schedule = some schedule →
    schedule.nextAfter last = .ok t.health.nextRun

variable {su}

theorem names_eq_of_timetable {s s' : State ω} (same : s'.timetable = s.timetable) :
    s'.names = s.names := by
  have jobs := congrArg (List.map fun p : Job ω × Option Moment => p.1.name) (congrArg Prod.snd same)
  simpa [timetable, names, List.map_map, Function.comp_def] using jobs

theorem KeepsTime.aside {last : Moment} {s s' : State ω} (h : s.KeepsTime last)
    (same : s'.timetable = s.timetable) : s'.KeepsTime last where
  distinct := names_eq_of_timetable same ▸ h.distinct
  lastTick := (congrArg Prod.fst same).trans h.lastTick
  horizon := h.horizon
  nextRuns := by
    intro t' mem' schedule scheduled
    have listed : (t'.job, t'.health.nextRun) ∈ s'.timetable.2 := List.mem_map_of_mem mem'
    rw [same] at listed
    obtain ⟨t, mem, eq⟩ := List.mem_map.mp listed
    obtain ⟨job, nextRun⟩ := Prod.mk.inj eq
    rw [← nextRun]
    exact h.nextRuns t mem schedule (by rw [job, scheduled])

/-- A tick keeps time. -/
theorem KeepsTime.tick {last m : Moment} {s : State ω} (h : s.KeepsTime last) (charted : m.Charted 59)
    (clocks : m.offset.isSome = last.offset.isSome) :
    (s.tick su m).1.KeepsTime
      (if last.instant < m.startOfMinute.instant then m.startOfMinute else last) := by
  split
  · next later =>
    have ticked := tick_later su h.distinct h.lastTick h.horizon charted clocks later
    have horizon := charted.toHasHorizon.startOfMinute
    refine ⟨ticked.names ▸ h.distinct, ticked.lastTick, horizon, ?_⟩
    intro t mem schedule scheduled
    rw [ticked.held, refresh_eq horizon] at mem
    obtain ⟨u, -, rfl⟩ := List.mem_map.mp mem
    exact nextAfter_planned horizon scheduled
  · next stale =>
    rw [tick_stale su h.lastTick clocks (Int.not_lt.mp stale)]
    exact h

/-- Ticks keep time, whatever happens between them. -/
theorem KeepsTime.rounds {last : Moment} {ms : List Moment} {s s' : State ω} (h : s.KeepsTime last)
    (rounds : Rounds su s ms s') (charted : ∀ m ∈ ms, m.Charted 59)
    (clocks : ∀ m ∈ ms, m.offset.isSome = last.offset.isSome) : s'.KeepsTime (lastOf last ms) := by
  induction rounds generalizing last with
  | nil s => exact h
  | aside same rest ih => exact ih (h.aside same) charted clocks
  | tick m rest ih =>
    have clock := clocks m List.mem_cons_self
    refine ih (h.tick (charted m List.mem_cons_self) clock)
      (fun m mem => charted m (List.mem_cons_of_mem _ mem)) ?_
    intro m' mem
    rw [clocks m' (List.mem_cons_of_mem _ mem)]
    split
    · rw [Moment.startOfMinute_offset, clock]
    · rfl

theorem Rounds.trans {s s' s'' : State ω} {ms ms' : List Moment} (h : Rounds su s ms s')
    (h' : Rounds su s' ms' s'') : Rounds su s (ms ++ ms') s'' := by
  induction h with
  | nil s => exact h'
  | aside same rest ih => exact .aside same (ih h')
  | tick m rest ih => exact .tick m (ih h')

theorem Rounds.of_same {s s' : State ω} (same : s'.timetable = s.timetable) : Rounds su s [] s' :=
  .aside same (.nil s')

end Settler.Supervisor.State
