import Settler.Proofs.Supervisor.Timetable
import Settler.Script.Peer
import Settler.Script.Worker

/-!
No minute is lost, and none is evaluated twice.

The start sets the last tick's minute to the one before its own, so that the minute of the start is still
due. From then on every tick takes up where the last accepted one left off.
-/

namespace Settler.Supervisor

open Settler.Calendar

namespace State

variable {ω δ : Type} {su : Setup δ}

/-- The minute of the last tick as the start sets it. -/
def bootMinute (boot : Moment) : Moment := boot.startOfMinute.earlier 1

theorem hasHorizon_bootMinute {boot : Moment} (h : boot.Charted 1) : (bootMinute boot).HasHorizon := by
  have le := boot.startOfMinute_le
  refine h.toHasHorizon.of_le ?_ ?_
  · rw [bootMinute, Moment.earlier_wall]
    omega
  · rw [bootMinute, Moment.earlier_offset, Moment.startOfMinute_offset]

theorem offset_bootMinute (boot : Moment) : (bootMinute boot).offset = boot.offset := by
  rw [bootMinute, Moment.earlier_offset, Moment.startOfMinute_offset]

/-- A look-up of the next runs after a minute, with the minute as the last tick's, makes the state keep
time. -/
theorem keepsTime_planned {s : State ω} (distinct : s.names.Nodup) {last : Moment}
    (h : last.HasHorizon) :
    KeepsTime last { s with lastTick := some last, slots := s.slots.map (planned last) } := by
  refine ⟨?_, rfl, h, ?_⟩
  · have names := names_refresh last s
    rw [refresh_eq h] at names
    exact names ▸ distinct
  · intro t mem schedule scheduled
    obtain ⟨u, -, rfl⟩ := List.mem_map.mp mem
    exact nextAfter_planned h scheduled

/-- A start in the calendar keeps time. -/
theorem keepsTime_start {s : State ω} (distinct : s.names.Nodup) (idle : s.isLooping = false)
    {boot : Moment} (clock : su.moment s.now = .ok boot) (h : boot.Charted 1) :
    (s.start su).2 = .ok () ∧ (s.start su).1.KeepsTime (bootMinute boot) := by
  have horizon := hasHorizon_bootMinute h
  have late := h.late_minute
  have inside := h.toHasHorizon.startOfMinute.lt
  have before : boot.startOfMinute.add? (-minute) = some (bootMinute boot) :=
    Moment.add?_minute_back (by omega) (by omega)
  unfold start
  split
  · next looping =>
    rw [idle] at looping
    cases looping
  · split
    · next failed =>
      rw [clock] at failed
      cases failed
    · next m found =>
      rw [clock] at found
      obtain rfl := Except.ok.inj found
      split
      · next failed =>
        rw [before] at failed
        cases failed
      · next last found =>
        rw [before] at found
        obtain rfl := Option.some.inj found
        rw [refresh_eq horizon]
        have planned := keepsTime_planned distinct horizon
        generalize bootMinute boot = last at planned ⊢
        exact ⟨rfl, planned.aside (timetable_trigger_foldl "startup" _ planned.distinct)⟩

/-! ### From the start on -/

/-- What holds after ticks at some moments since the start at a moment. The last accepted minute is
known; no minute was evaluated twice, and none was left out if the clocks differ by whole minutes and no
accepted tick came more than an hour after the one before it. A tick that is not later than the last one
does nothing. A later one evaluates the minutes in between, as far back as it looks, and attempts the
jobs whose schedules match one of them. -/
structure DueOnce (su : Setup δ) (boot : Moment) (ms : List Moment) (s : State ω) : Prop where
  lastTick : s.lastTick = some (lastOf (bootMinute boot) ms)
  once : (evaluatedAll (bootMinute boot) ms).Pairwise fun a b => a.instant < b.instant
  noGap : (∀ m ∈ ms, (minute : Int) ∣ m.offset.getD 0 - boot.offset.getD 0) →
    (∀ r ∈ accepted (bootMinute boot) ms, r.2.instant - r.1.instant ≤ 60 * minute) →
    ∃ n : Nat, (lastOf (bootMinute boot) ms).instant = boot.startOfMinute.instant + (n - 1) * minute ∧
      (evaluatedAll (bootMinute boot) ms).map (·.instant)
        = (List.range n).map fun i : Nat => boot.startOfMinute.instant + i * minute
  stale : ∀ m : Moment, m.offset.isSome = boot.offset.isSome →
    m.startOfMinute.instant ≤ (lastOf (bootMinute boot) ms).instant → s.tick su m = (s, .ok [])
  later : ∀ m : Moment, m.Charted 59 → m.offset.isSome = boot.offset.isSome →
    (lastOf (bootMinute boot) ms).instant < m.startOfMinute.instant →
    Ticked su (evaluated (lastOf (bootMinute boot) ms) m.startOfMinute) m.startOfMinute s (s.tick su m)
  attempted : ∀ minutes name, name ∈ s.attempts minutes ↔ ∃ t schedule, s.slot? name = some t ∧
    t.job.schedule = some schedule ∧ ∃ c ∈ minutes, schedule.matchesMoment c

theorem offset_lastOf {clock : Bool} {last : Moment} {ms : List Moment}
    (clocks : ∀ m ∈ ms, m.offset.isSome = clock) (before : last.offset.isSome = clock) :
    (lastOf last ms).offset.isSome = clock := by
  induction ms generalizing last with
  | nil => exact before
  | cons m rest ih =>
    refine ih (fun m' mem => clocks m' (List.mem_cons_of_mem _ mem)) ?_
    split
    · rw [Moment.startOfMinute_offset, clocks m List.mem_cons_self]
    · exact before

/-- The starts of minutes of clocks that differ by whole minutes are whole minutes apart. -/
theorem whole_apart {boot m : Moment} (h : boot.Charted 1)
    (whole : (minute : Int) ∣ m.offset.getD 0 - boot.offset.getD 0) :
    (minute : Int) ∣ m.startOfMinute.instant - (bootMinute boot).instant := by
  have late := h.late_minute
  have first : (bootMinute boot).instant = boot.startOfMinute.instant - minute := by
    rw [bootMinute, Moment.instant_earlier (by omega)]
    omega
  have starts : ∀ n : Moment, (minute : Int) ∣ n.startOfMinute.instant + n.offset.getD 0 := by
    intro n
    refine ⟨(n.wall / minute : Nat), ?_⟩
    unfold Moment.instant Moment.startOfMinute
    dsimp only
    rw [Int.sub_add_cancel, Int.natCast_mul, Int.mul_comm]
  have sum : m.startOfMinute.instant - (bootMinute boot).instant
      = m.startOfMinute.instant + m.offset.getD 0
        - (boot.startOfMinute.instant + boot.offset.getD 0)
        - (m.offset.getD 0 - boot.offset.getD 0) + minute := by omega
  rw [sum]
  exact Int.dvd_add (Int.dvd_sub (Int.dvd_sub (starts m) (starts boot)) whole) (Int.dvd_refl _)

theorem KeepsTime.dueOnce {boot : Moment} (boots : boot.Charted 1) {ms : List Moment} {s : State ω}
    (h : s.KeepsTime (lastOf (bootMinute boot) ms)) (charted : ∀ m ∈ ms, m.Charted 59)
    (clocks : ∀ m ∈ ms, m.offset.isSome = boot.offset.isSome) : DueOnce su boot ms s := by
  have clock : (lastOf (bootMinute boot) ms).offset.isSome = boot.offset.isSome :=
    offset_lastOf clocks (by rw [offset_bootMinute])
  refine ⟨h.lastTick, (pairwise_evaluatedAll _ ms).1, ?_, ?_, ?_, ?_⟩
  · intro whole near
    have late := boots.late_minute
    have first : (bootMinute boot).instant = boot.startOfMinute.instant - minute := by
      rw [bootMinute, Moment.instant_earlier (by omega)]
      omega
    have apart := whole_of_mem_accepted fun m mem => whole_apart boots (whole m mem)
    obtain ⟨n, reaches, minutes⟩ := evaluatedAll_near charted fun r mem => by
      obtain ⟨k, later⟩ := apart r mem
      have hour := near r mem
      refine ⟨k, ?_, later⟩
      have pos := Moment.minute_pos
      have bound : (k * minute : Int) ≤ (60 : Nat) * minute := by
        push_cast
        omega
      exact Nat.le_of_mul_le_mul_right (by exact_mod_cast bound) pos
    refine ⟨n, ?_, ?_⟩
    · rw [reaches, first, Int.sub_mul]
      omega
    · rw [minutes, first]
      refine List.map_congr_left fun i _ => ?_
      rw [Int.add_mul]
      omega
  · intro m comparable stale
    exact tick_stale su h.lastTick (comparable.trans clock.symm) stale
  · intro m charted comparable later
    exact tick_later su h.distinct h.lastTick h.horizon charted (comparable.trans clock.symm) later
  · intro minutes name
    rw [mem_attempts h.distinct]
    constructor
    · rintro ⟨t, found, c, mem, due⟩
      obtain ⟨schedule, scheduled, matched⟩ := (Option.any_eq_true _ _).mp due
      exact ⟨t, schedule, found, scheduled, c, mem, matched⟩
    · rintro ⟨t, schedule, found, scheduled, c, mem, matched⟩
      exact ⟨t, found, c, mem, by rw [Slot.isDue, scheduled, Option.any_some, matched]⟩

variable [Machine ω δ] [Seconds δ]

/-- After a start in the calendar, whatever happens, no minute is lost and none is evaluated twice. -/
theorem dueOnce_of_start {jobs : List (Job ω)} {st : State ω} (h : ofJobs jobs = .ok st)
    (before : List (Nat × Command δ)) (idle : (st.drive su before).isLooping = false) {boot : Moment}
    (clock : su.moment (st.drive su before).now = .ok boot) (boots : boot.Charted 1) :
    ((st.drive su before).start su).2 = .ok () ∧
      (∀ script, (∀ c ∈ script, c.2.isStart = false) →
        Course su ((st.drive su before).start su).1 (script.filterMap (·.2.tick?))
          (((st.drive su before).start su).1.drive su script)) ∧
      ∀ ms s, Rounds su ((st.drive su before).start su).1 ms s → (∀ m ∈ ms, m.Charted 59) →
        (∀ m ∈ ms, m.offset.isSome = boot.offset.isSome) → DueOnce su boot ms s := by
  have distinct := (documented_drive su h before).nodup_slots
  obtain ⟨started, keeps⟩ := keepsTime_start distinct idle clock boots
  refine ⟨started, fun script restarts => course_drive keeps.distinct restarts, ?_⟩
  intro ms s rounds charted clocks
  refine (keeps.rounds rounds charted ?_).dueOnce boots charted clocks
  intro m mem
  rw [clocks m mem, offset_bootMinute]

end State

/-- A job at the start of every hour. -/
def Job.hourly : Job (Script.Part Micros) where
  name := "hourly"
  build := Script.instances []
  schedule := some
    { expression := "0 * * * *", minutes := [0], hours := List.range 24,
      daysOfMonth := List.range' 1 31, months := List.range' 1 12, daysOfWeek := List.range 7,
      dayOfMonthRestricted := false, dayOfWeekRestricted := false }

/-- The clock starts half a minute into the year 2024. -/
def Setup.newYear : Setup Micros where
  maxRestarts := 0
  window := ⟨0⟩
  restartDelay := ⟨0⟩
  tickDelay := ⟨second⟩
  origin := ⟨(Date.mk 2024 1 1).toDay * wholeDay + 30 * second, some 0⟩
  services := ⟨Script.settle [], Script.post (.ok ())⟩

/-- A minute of that day. -/
def newYearAt (k : Nat) : Moment := ⟨((Date.mk 2024 1 1).toDay * 1440 + k) * minute, some 0⟩

theorem charted_newYear : Setup.newYear.origin.Charted 1 :=
  ⟨⟨by decide +kernel, by decide +kernel⟩, by decide +kernel⟩

/-- The first hour of the year is in the calendar. -/
theorem charted_newYearAt {k : Nat} (le : k ≤ 60) : (newYearAt k).Charted 59 := by
  have first : (newYearAt 0).wall ≤ (newYearAt k).wall :=
    Nat.mul_le_mul_right _ (Nat.add_le_add_left (Nat.zero_le k) _)
  have hour : (newYearAt k).wall ≤ (newYearAt 60).wall :=
    Nat.mul_le_mul_right _ (Nat.add_le_add_left le _)
  have late : 59 * minute ≤ (newYearAt 0).wall := by decide +kernel
  have horizon : (newYearAt 60).HasHorizon := ⟨by decide +kernel, by decide +kernel⟩
  exact ⟨horizon.of_le hour rfl, Nat.le_trans late first⟩

/-- The job fires in the minute of the start. An hour later it is due again, and skipped as it still
runs. Then the clock is set back by half an hour, and the tick does nothing. -/
theorem State.dueOnce_of_start_hourly :
    ∃ st, State.ofJobs [Job.hourly] = .ok st ∧
      let s₁ := (st.start Setup.newYear).1
      let s := ((s₁.tick Setup.newYear (newYearAt 0)).1.tick Setup.newYear (newYearAt 60)).1
      (s₁.tick Setup.newYear (newYearAt 0)).2.toOption = some ["hourly"] ∧
        (s.slot? "hourly").map (·.health.skippedTriggers) = some 1 ∧
        State.DueOnce Setup.newYear Setup.newYear.origin [newYearAt 0, newYearAt 60] s ∧
        s.tick Setup.newYear (newYearAt 30) = (s, .ok []) := by
  have charted : ∀ m ∈ [newYearAt 0, newYearAt 60], m.Charted 59 := by
    intro m mem
    rcases List.mem_pair.mp mem with rfl | rfl
    · exact charted_newYearAt (Nat.zero_le _)
    · exact charted_newYearAt (Nat.le_refl _)
  have clock : Setup.newYear.moment (0 : Nat) = .ok Setup.newYear.origin := by rfl
  obtain ⟨-, -, told⟩ :=
    State.dueOnce_of_start (rfl : State.ofJobs [Job.hourly] = .ok _) [] rfl clock charted_newYear
  have once := told _ _ (.tick (newYearAt 0) (.tick (newYearAt 60) (.nil _))) charted (by decide)
  exact ⟨_, rfl, by decide +kernel, by decide +kernel, once,
    once.stale (newYearAt 30) (by decide) (by decide +kernel)⟩

end Settler.Supervisor
