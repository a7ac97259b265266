import Settler.Proofs.Supervisor.DueOnce

/-!
The published next runs, and what ticks attempt.

A tick holds one minute after the other against a schedule, and the look-up of a next run skips ahead;
both find the same minute first, as long as it lies before the look-up's horizon. Past the horizon a job
has no next run and is attempted all the same.
-/

namespace Settler.Supervisor

open Settler.Calendar

variable {ω δ : Type} {su : Setup δ}

/-- The first match in a list that goes up is the least match. -/
theorem find?_eq_of_least {l : List Moment} (up : l.Pairwise fun a b => a.instant < b.instant)
    {p : Moment → Bool} {c : Moment} (mem : c ∈ l) (hit : p c)
    (least : ∀ d ∈ l, p d → c.instant ≤ d.instant) : l.find? p = some c := by
  induction l with
  | nil => cases mem
  | cons a rest ih =>
    obtain ⟨first, up⟩ := List.pairwise_cons.mp up
    cases now : p a with
    | true =>
      rw [List.find?_cons_of_pos now]
      rcases List.mem_cons.mp mem with rfl | mem
      · rfl
      · have before := first c mem
        have after := least a List.mem_cons_self now
        omega
    | false =>
      rw [List.find?_cons_of_neg (by simp [now])]
      rcases List.mem_cons.mp mem with rfl | mem
      · rw [hit] at now
        cases now
      · exact ih up mem fun d memD => least d (List.mem_cons_of_mem _ memD)

namespace State

/-! ### An hour ahead -/

/-- The whole minutes after a minute, on its clock. -/
theorem exists_later {last c : Moment} (whole : minute ∣ last.wall) (wholeC : minute ∣ c.wall)
    (offset : c.offset = last.offset) (after : last.wall < c.wall) : ∃ k, c = last.later (k + 1) := by
  obtain ⟨a, ha⟩ := whole
  obtain ⟨b, hb⟩ := wholeC
  have lt : a < b := by
    rw [ha, hb] at after
    exact Nat.lt_of_mul_lt_mul_left after
  refine ⟨b - a - 1, ?_⟩
  have wall : c.wall = last.wall + (b - a - 1 + 1) * minute := by
    have count : b - a - 1 + 1 = b - a := by omega
    rw [count, ha, hb, Nat.mul_comm (b - a), Nat.mul_sub]
    have le : minute * a ≤ minute * b := Nat.mul_le_mul_left _ (Nat.le_of_lt lt)
    omega
  obtain ⟨w, o⟩ := c
  dsimp only at wall offset
  rw [wall, offset, Moment.later]

theorem mem_evaluated_near {last own c : Moment} (late : 59 * minute ≤ own.wall)
    (near : own.instant - last.instant ≤ 60 * minute) :
    c ∈ evaluated last own ↔ ∃ k, c = last.later (k + 1) ∧ c.instant ≤ own.instant := by
  rw [mem_evaluated, firstOf_near late near]
  simp only [Moment.later_later, Nat.add_comm 1]

theorem instant_le_iff {c d : Moment} (offset : c.offset = d.offset) :
    c.instant ≤ d.instant ↔ c.wall ≤ d.wall := by
  unfold Moment.instant
  rw [offset]
  omega

theorem later_after (last : Moment) (k : Nat) : last.wall < last.wall + (k + 1) * minute :=
  Nat.lt_add_of_pos_right (Nat.mul_pos (Nat.succ_pos k) Moment.minute_pos)

/-- What a schedule has next is not later than any minute after the last one that it matches. -/
theorem next_le {schedule : Cron.Schedule} {last n : Moment} (isNext : schedule.IsNext last (some n))
    (whole : minute ∣ last.wall) {k : Nat} (matched : schedule.matchesMoment (last.later (k + 1))) :
    n.instant ≤ (last.later (k + 1)).instant := by
  cases isNext with
  | found later near wholeN offset hit least =>
    have le := least _ (later_after last k) (Nat.dvd_add whole (Nat.dvd_mul_left _ _)) matched
    rw [instant_le_iff (by rw [offset, Moment.later_offset]), Moment.later_wall]
    exact le

/-- A schedule that has no next match within the horizon matches none of the minutes up to it. -/
theorem horizon_lt {schedule : Cron.Schedule} {last : Moment} (isNext : schedule.IsNext last none)
    (whole : minute ∣ last.wall) {k : Nat} (matched : schedule.matchesMoment (last.later (k + 1))) :
    last.wall + Cron.searchSpan < last.wall + (k + 1) * minute := by
  cases isNext with
  | none misses =>
    by_contra near
    have missed := misses _ (later_after last k) (Nat.le_of_not_lt near)
      (Nat.dvd_add whole (Nat.dvd_mul_left _ _))
    exact Bool.false_ne_true (missed.symm.trans matched)

/-- Up to an hour ahead, what is due first in the evaluated minutes is the next match, if that is not
later than the tick; and nothing is due if it is, or if there is none. -/
theorem firstDue_near {last own : Moment} {t : Slot ω} {schedule : Cron.Schedule}
    (scheduled : t.job.schedule = some schedule) {next : Option Moment}
    (isNext : schedule.IsNext last next) (whole : minute ∣ last.wall)
    (late : 59 * minute ≤ own.wall) (near : own.instant - last.instant ≤ 60 * minute) :
    t.firstDue (evaluated last own) = next.filter (·.instant ≤ own.instant) := by
  have due : ∀ c, t.isDue c = schedule.matchesMoment c := fun c => by
    rw [Slot.isDue, scheduled, Option.any_some]
  cases next with
  | none =>
    refine List.find?_eq_none.mpr ?_
    intro c mem matched
    obtain ⟨k, rfl, le⟩ := (mem_evaluated_near late near).mp mem
    have far := horizon_lt isNext whole (due _ ▸ matched)
    have hour := last.instant_later (k + 1)
    have span : 60 * minute ≤ Cron.searchSpan := by decide +kernel
    push_cast at hour
    have steps : ((k + 1 : Nat) * minute : Int) = (k + 1) * minute := by push_cast; rfl
    omega
  | some n =>
    have least : ∀ c ∈ evaluated last own, t.isDue c → n.instant ≤ c.instant := by
      intro c mem matched
      obtain ⟨k, rfl, -⟩ := (mem_evaluated_near late near).mp mem
      exact next_le isNext whole (due _ ▸ matched)
    rw [Option.filter_some]
    split
    · next le =>
      have le : n.instant ≤ own.instant := by simpa using le
      cases isNext with
      | found later horizon wholeN offset hit _ =>
        refine find?_eq_of_least (pairwise_evaluated last own) ?_ ((due n).trans hit) least
        obtain ⟨k, same⟩ := exists_later whole wholeN offset later
        exact (mem_evaluated_near late near).mpr ⟨k, same, le⟩
    · next late =>
      have late : ¬ n.instant ≤ own.instant := by simpa using late
      refine List.find?_eq_none.mpr ?_
      intro c mem matched
      exact late (Int.le_trans (least c mem matched) (instant_of_mem_evaluated mem).2)

/-! ### Any time ahead -/

theorem mem_attempts_iff_firstDue {s : State ω} (distinct : s.names.Nodup) {t : Slot ω}
    (mem : t ∈ s.slots) (minutes : List Moment) :
    t.job.name ∈ s.attempts minutes ↔ ∃ c, t.firstDue minutes = some c := by
  rw [mem_attempts distinct, ← Option.isSome_iff_exists, Slot.firstDue, List.find?_isSome,
    slot_of_mem distinct mem]
  constructor
  · rintro ⟨u, same, due⟩
    cases same
    exact due
  · exact fun due => ⟨t, rfl, due⟩

/-- On one clock the evaluated minutes are whole minutes after the last tick's. -/
theorem exists_later_of_mem {last own c : Moment} (whole : minute ∣ last.wall)
    (wholeOwn : minute ∣ own.wall) (clock : own.offset = last.offset) (mem : c ∈ evaluated last own) :
    ∃ k, c = last.later (k + 1) := by
  have after := (instant_of_mem_evaluated mem).1
  obtain ⟨k, rfl, -⟩ := mem_evaluated.mp mem
  have first : minute ∣ (firstOf last own).wall ∧ (firstOf last own).offset = last.offset := by
    unfold firstOf
    split
    · rw [Moment.earlier_wall, Moment.earlier_offset]
      exact ⟨Nat.dvd_sub wholeOwn (Nat.dvd_mul_left _ _), clock⟩
    · rw [Moment.later_wall, Moment.later_offset]
      exact ⟨Nat.dvd_add whole (Nat.dvd_mul_left _ _), rfl⟩
  have offset : ((firstOf last own).later k).offset = last.offset := by
    rw [Moment.later_offset, first.2]
  refine exists_later whole ?_ offset ?_
  · rw [Moment.later_wall]
    exact Nat.dvd_add first.1 (Nat.dvd_mul_left _ _)
  · by_contra le
    have := (instant_le_iff offset).mpr (Nat.le_of_not_lt le)
    omega

/-- What the next runs that are published say of the next tick. They are the next matches after the last
accepted minute. A later tick is accepted, and attempts the jobs that are due in the minutes that it
evaluates. If it comes up to an hour later it attempts a job if and only if the next run is not later
than the tick, and then the next run is the first minute in which the job is due. A tick after a longer
time attempts a job only if the next run is not later than the tick, or lies past the horizon of the
look-up, and then none is published. -/
structure Foretells (su : Setup δ) (last : Moment) (s : State ω) : Prop where
  ticked : ∀ m : Moment, m.Charted 59 → m.offset.isSome = last.offset.isSome →
    last.instant < m.startOfMinute.instant →
    Ticked su (evaluated last m.startOfMinute) m.startOfMinute s (s.tick su m)
  published : ∀ t ∈ s.slots, ∀ schedule, t.job.schedule = some schedule →
    schedule.nextAfter last = .ok t.health.nextRun
  near : ∀ m : Moment, m.Charted 59 → m.startOfMinute.instant - last.instant ≤ 60 * minute →
    ∀ t ∈ s.slots, t.job.schedule.isSome →
      (t.job.name ∈ s.attempts (evaluated last m.startOfMinute) ↔
        ∃ n, t.health.nextRun = some n ∧ n.instant ≤ m.startOfMinute.instant) ∧
      (t.job.name ∈ s.attempts (evaluated last m.startOfMinute) →
        t.firstDue (evaluated last m.startOfMinute) = t.health.nextRun)
  far : ∀ m : Moment, m.Charted 59 → m.offset = last.offset → ∀ t ∈ s.slots,
    t.job.name ∈ s.attempts (evaluated last m.startOfMinute) →
      (∃ n, t.health.nextRun = some n ∧ n.instant ≤ m.startOfMinute.instant) ∨
        t.health.nextRun = none ∧ last.wall + Cron.searchSpan < m.startOfMinute.wall

theorem KeepsTime.foretells {last : Moment} {s : State ω} (h : s.KeepsTime last)
    (whole : minute ∣ last.wall) : s.Foretells su last := by
  have isNext : ∀ t ∈ s.slots, ∀ schedule, t.job.schedule = some schedule →
      schedule.IsNext last t.health.nextRun := by
    intro t mem schedule scheduled
    obtain ⟨found, searched, isNext⟩ := schedule.exists_isNext h.horizon.wall
    rw [h.nextRuns t mem schedule scheduled] at searched
    cases searched
    exact isNext
  refine ⟨fun m charted clocks later =>
    tick_later su h.distinct h.lastTick h.horizon charted clocks later, h.nextRuns, ?_, ?_⟩
  · intro m charted hour t mem scheduled
    obtain ⟨schedule, scheduled⟩ := Option.isSome_iff_exists.mp scheduled
    have first := firstDue_near scheduled (isNext t mem schedule scheduled) whole charted.late_minute hour
    rw [mem_attempts_iff_firstDue h.distinct mem, first]
    constructor
    · simp [Option.filter_eq_some_iff]
    · rintro ⟨c, picked⟩
      rw [picked]
      exact (Option.filter_eq_some_iff.mp picked).1.symm
  · intro m charted clock t mem attempted
    obtain ⟨c, first⟩ := (mem_attempts_iff_firstDue h.distinct mem _).mp attempted
    have listed := List.mem_of_find?_eq_some first
    have due := List.find?_some first
    obtain ⟨schedule, scheduled, matched⟩ := (Option.any_eq_true _ _).mp due
    have upTo := (instant_of_mem_evaluated listed).2
    have wholeOwn : minute ∣ m.startOfMinute.wall := Nat.dvd_mul_left _ _
    obtain ⟨k, rfl⟩ := exists_later_of_mem whole wholeOwn
      (by rw [Moment.startOfMinute_offset, clock]) listed
    have next := isNext t mem schedule scheduled
    cases nextRun : t.health.nextRun with
    | some n =>
      rw [nextRun] at next
      exact .inl ⟨n, rfl, Int.le_trans (next_le next whole matched) upTo⟩
    | none =>
      rw [nextRun] at next
      have past := horizon_lt next whole matched
      have offset : (last.later (k + 1)).offset = m.startOfMinute.offset := by
        rw [Moment.later_offset, Moment.startOfMinute_offset, clock]
      have le := (instant_le_iff offset).mp upTo
      rw [Moment.later_wall] at le
      exact .inr ⟨rfl, by omega⟩

theorem whole_lastOf {last : Moment} (whole : minute ∣ last.wall) (ms : List Moment) :
    minute ∣ (lastOf last ms).wall := by
  induction ms generalizing last with
  | nil => exact whole
  | cons m rest ih =>
    refine ih ?_
    split
    · exact Nat.dvd_mul_left _ _
    · exact whole

theorem whole_bootMinute (boot : Moment) : minute ∣ (bootMinute boot).wall := by
  rw [bootMinute, Moment.earlier_wall]
  exact Nat.dvd_sub (Nat.dvd_mul_left _ _) (Nat.dvd_mul_left _ _)

variable [Machine ω δ] [Seconds δ]

/-- After a start in the calendar the next runs that are published foretell what the next tick attempts,
short of the horizon of the look-up. -/
theorem foretells_of_start {jobs : List (Job ω)} {st : State ω} (h : ofJobs jobs = .ok st)
    (before : List (Nat × Command δ)) (idle : (st.drive su before).isLooping = false) {boot : Moment}
    (clock : su.moment (st.drive su before).now = .ok boot) (boots : boot.Charted 1) :
    ∀ ms s, Rounds su ((st.drive su before).start su).1 ms s → (∀ m ∈ ms, m.Charted 59) →
      (∀ m ∈ ms, m.offset.isSome = boot.offset.isSome) →
      s.lastTick = some (lastOf (bootMinute boot) ms) ∧
        s.Foretells su (lastOf (bootMinute boot) ms) := by
  have distinct := (documented_drive su h before).nodup_slots
  obtain ⟨-, keeps⟩ := keepsTime_start distinct idle clock boots
  intro ms s rounds charted clocks
  have kept := keeps.rounds rounds charted fun m mem => by rw [clocks m mem, offset_bootMinute]
  exact ⟨kept.lastTick, kept.foretells (whole_lastOf (whole_bootMinute boot) ms)⟩

end State

/-- After the first tick the next run is an hour ahead. A tick an hour later attempts the job, and the
next run is the first minute in which it is due. -/
theorem State.foretells_of_start_hourly :
    ∃ st, State.ofJobs [Job.hourly] = .ok st ∧
      let s := ((st.start Setup.newYear).1.tick Setup.newYear (newYearAt 0)).1
      s.lastTick = some (newYearAt 0) ∧ s.Foretells Setup.newYear (newYearAt 0) ∧
        ∀ t ∈ s.slots, t.health.nextRun = some (newYearAt 60) ∧
          t.job.name ∈ s.attempts (State.evaluated (newYearAt 0) (newYearAt 60)) ∧
          t.firstDue (State.evaluated (newYearAt 0) (newYearAt 60)) = some (newYearAt 60) := by
  refine ⟨_, rfl, ?_⟩
  intro s
  have clock : Setup.newYear.moment (0 : Nat) = .ok Setup.newYear.origin := by rfl
  have last : State.lastOf (State.bootMinute Setup.newYear.origin) [newYearAt 0] = newYearAt 0 := by
    decide +kernel
  have own : (newYearAt 60).startOfMinute = newYearAt 60 := by decide +kernel
  have hour : (newYearAt 60).instant - (newYearAt 0).instant ≤ 60 * minute := by decide +kernel
  obtain ⟨lastTick, foretells⟩ :=
    State.foretells_of_start (rfl : State.ofJobs [Job.hourly] = .ok _) [] rfl clock charted_newYear
      [newYearAt 0] s (.tick (newYearAt 0) (.nil _))
      (fun m mem => List.mem_singleton.mp mem ▸ charted_newYearAt (Nat.zero_le 60)) (by decide)
  rw [last] at lastTick foretells
  refine ⟨lastTick, foretells, ?_⟩
  intro t mem
  have nextRun : ∀ t ∈ s.slots, t.job.schedule.isSome ∧ t.health.nextRun = some (newYearAt 60) := by
    decide +kernel
  obtain ⟨scheduled, nextRun⟩ := nextRun t mem
  obtain ⟨attempted, first⟩ := foretells.near (newYearAt 60) (charted_newYearAt (Nat.le_refl 60))
    (by rwa [own]) t mem scheduled
  rw [own] at attempted first
  have due := attempted.mpr ⟨_, nextRun, Int.le_refl _⟩
  exact ⟨nextRun, due, (first due).trans nextRun⟩

/-- A job on every leap day. -/
def Job.leap : Job (Script.Part Micros) where
  name := "leap"
  build := Script.instances []
  schedule := some Cron.Schedule.leapDay

/-- The clock starts after the leap day of the year 2096. -/
def Setup.turnOfCentury : Setup Micros := { Setup.newYear with
  origin := ⟨(Date.mk 2096 3 1).toDay * wholeDay, some 0⟩ }

/-- The year 2100 has no leap day, so the next one lies past the horizon. None is published, and the tick
on that day attempts the job. -/
theorem attempted_past_horizon :
    ∃ st, State.ofJobs [Job.leap] = .ok st ∧
      let s := (st.start Setup.turnOfCentury).1
      let m : Moment := ⟨(Date.mk 2104 2 29).toDay * wholeDay, some 0⟩
      Setup.turnOfCentury.origin.Charted 1 ∧ m.Charted 59 ∧
        (s.tick Setup.turnOfCentury m).2.toOption = some ["leap"] ∧
        ∀ t ∈ s.slots, t.job.name = "leap" ∧ ¬ ∃ n ∈ t.health.nextRun, n.instant ≤ m.instant := by
  refine ⟨_, rfl, ?_⟩
  intro s m
  have none : ∀ t ∈ s.slots, t.job.name = "leap" ∧ t.health.nextRun = none := by decide +kernel
  refine ⟨⟨⟨by decide +kernel, by decide +kernel⟩, by decide +kernel⟩,
    ⟨⟨by decide +kernel, by decide +kernel⟩, by decide +kernel⟩, by decide +kernel, ?_⟩
  intro t mem
  obtain ⟨name, nextRun⟩ := none t mem
  refine ⟨name, ?_⟩
  rintro ⟨n, published, -⟩
  rw [nextRun] at published
  cases published

end Settler.Supervisor
