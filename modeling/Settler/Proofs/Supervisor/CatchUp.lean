import Settler.Proofs.Calendar.Minutes
import Settler.Proofs.Cron.Next
import Settler.Proofs.Supervisor.Ticking

/-!
Which minutes a tick evaluates.

A tick that is later than the last one evaluates the minutes after it up to its own, as far back as it
looks (`evaluated`); any other does nothing. In the calendar nothing can fail: every step of a minute
stays in range, and every schedule has a next match to look up. So a tick is one of the two
(`tick_stale`, `tick_later`).
-/

namespace Settler.Calendar.Moment

open Cron

/-- A search for a next match from the moment stays in the calendar, and the offset is less than a
day. -/
structure HasHorizon (m : Moment) : Prop where
  wall : m.wall + searchSpan < (Date.mk 9999 12 1).toDay * wholeDay
  offset : (m.offset.getD 0).natAbs < wholeDay

/-- So many minutes before the moment are in the calendar, and so is its horizon. -/
structure Charted (back : Nat) (m : Moment) : Prop extends HasHorizon m where
  late : back * minute ≤ m.wall

theorem HasHorizon.lt {m : Moment} (h : m.HasHorizon) : m.wall + 4 * wholeDay < dayCount * wholeDay := by
  have lastMonth : (Date.mk 9999 12 1).toDay = 3652028 := by decide +kernel
  have wall := h.wall
  rw [lastMonth] at wall
  simp only [wholeDay, minute, second, searchSpan, dayCount] at wall ⊢
  omega

theorem HasHorizon.of_le {m n : Moment} (h : m.HasHorizon) (wall : n.wall ≤ m.wall)
    (offset : n.offset = m.offset) : n.HasHorizon where
  wall := by
    have := h.wall
    omega
  offset := offset ▸ h.offset

theorem HasHorizon.startOfMinute {m : Moment} (h : m.HasHorizon) : m.startOfMinute.HasHorizon :=
  h.of_le m.startOfMinute_le m.startOfMinute_offset

theorem Charted.late_minute {back : Nat} {m : Moment} (h : m.Charted back) :
    back * minute ≤ m.startOfMinute.wall :=
  Nat.mul_le_mul_right minute ((Nat.le_div_iff_mul_le Moment.minute_pos).mpr h.late)

end Settler.Calendar.Moment

namespace Settler.Supervisor.State

open Settler.Calendar

variable {ω δ : Type}

/-! ### The minutes of a tick -/

/-- The first minute that a tick evaluates: the one after the last tick's, if it does not lie too far
back. -/
def firstOf (last own : Moment) : Moment :=
  if (last.later 1).instant < (own.earlier 59).instant then own.earlier 59 else last.later 1

/-- The minutes that a tick evaluates, in order. -/
def evaluated (last own : Moment) : List Moment :=
  (List.range (minutesTo (firstOf last own) own)).map (firstOf last own).later

theorem firstMinute_eq {last own : Moment} (before : last.HasHorizon) (h : own.HasHorizon)
    (late : 59 * minute ≤ own.wall) : firstMinute last own = .ok (firstOf last own) := by
  have inside := before.lt
  have inside' := h.lt
  have next : last.add? minute = some (last.later 1) :=
    Moment.add?_minute (by unfold wholeDay at inside ⊢; omega)
  have floor : own.add? (-catchUp) = some (own.earlier 59) :=
    Moment.add?_earlier late (by omega)
  unfold firstMinute firstOf
  rw [next, floor]

theorem nodup_evaluated (last own : Moment) : (evaluated last own).Nodup := by
  refine List.Nodup.map ?_ List.nodup_range
  intro i j same
  have wall := congrArg Moment.wall same
  unfold Moment.later at wall
  exact Nat.eq_of_mul_eq_mul_right Moment.minute_pos (Nat.add_left_cancel wall)

theorem lt_minutesTo_iff (first own : Moment) (k : Nat) :
    k < minutesTo first own ↔ (first.later k).instant ≤ own.instant := by
  have pos : (0 : Int) < minute := by exact_mod_cast Moment.minute_pos
  have fits := Int.le_ediv_iff_mul_le (a := k) (b := own.instant - first.instant) pos
  have grows : (0 : Int) ≤ k * minute := Int.mul_nonneg (Int.natCast_nonneg k) (Int.le_of_lt pos)
  rw [Moment.instant_later]
  unfold minutesTo
  split
  · omega
  · next le =>
    have quotient := Int.ediv_nonneg (Int.sub_nonneg.mpr (Int.not_lt.mp le)) (Int.le_of_lt pos)
    omega

/-- The evaluated minutes are those from the first one on, up to the tick's own. -/
theorem mem_evaluated {last own c : Moment} :
    c ∈ evaluated last own ↔ ∃ k, c = (firstOf last own).later k ∧ c.instant ≤ own.instant := by
  unfold evaluated
  simp only [List.mem_map, List.mem_range, lt_minutesTo_iff]
  constructor
  · rintro ⟨k, le, rfl⟩
    exact ⟨k, rfl, le⟩
  · rintro ⟨k, rfl, le⟩
    exact ⟨k, le, rfl⟩

/-- The first evaluated minute is on the clock of one of the two ticks, and in the calendar. -/
theorem firstOf_inside {last own : Moment} (before : last.HasHorizon) (h : own.HasHorizon) :
    (firstOf last own).wall < dayCount * wholeDay ∧
      ((firstOf last own).offset.getD 0).natAbs < wholeDay := by
  have inside := before.lt
  have inside' := h.lt
  unfold firstOf
  split
  · refine ⟨?_, by simpa only [Moment.earlier_offset] using h.offset⟩
    rw [Moment.earlier_wall]
    omega
  · refine ⟨?_, by simpa only [Moment.later_offset] using before.offset⟩
    rw [Moment.later_wall]
    unfold wholeDay at inside ⊢
    omega

/-- The minute after the last evaluated one is in the calendar. -/
theorem evaluated_inside {last own : Moment} (before : last.HasHorizon) (h : own.HasHorizon) :
    (firstOf last own).wall + minutesTo (firstOf last own) own * minute < dayCount * wholeDay := by
  have inside := h.lt
  have offset := h.offset
  obtain ⟨firstInside, firstOffset⟩ := firstOf_inside before h
  generalize firstOf last own = first at *
  cases count : minutesTo first own with
  | zero => omega
  | succ n =>
    have reached := (lt_minutesTo_iff first own n).mp (by omega)
    rw [Moment.instant_later] at reached
    unfold Moment.instant at reached
    rw [Nat.succ_mul]
    unfold wholeDay at *
    omega

/-! ### One minute after the other -/

variable (su : Setup δ)

/-- In the calendar, to hold a number of minutes against the schedules is to do so one by one. -/
theorem considerAll_eq {n : Nat} {c : Moment} (f : Firing ω)
    (inside : c.wall + n * minute < dayCount * wholeDay) :
    considerAll su n c f = (hold su ((List.range n).map c.later) f, none) := by
  induction n generalizing c f with
  | zero => rfl
  | succ n ih =>
    rw [Nat.succ_mul] at inside
    have walks : (List.range (n + 1)).map c.later = c :: (List.range n).map (c.later 1).later := by
      rw [List.range_succ_eq_map, List.map_cons, List.map_map, Moment.later_zero]
      refine congrArg _ (List.map_congr_left ?_)
      intro k _
      rw [Function.comp_apply, Moment.later_later, Nat.add_comm]
    have inside' : (c.later 1).wall + n * minute < dayCount * wholeDay := by
      rw [Moment.later_wall]
      omega
    rw [considerAll, Moment.add?_minute (by omega)]
    dsimp only
    rw [ih _ inside', walks]
    rfl

/-! ### The next runs -/

/-- A slot whose next run was looked up after a moment. -/
def planned (after : Moment) (t : Slot ω) : Slot ω :=
  match t.job.schedule with
  | none => t
  | some schedule =>
    match schedule.nextAfter after with
    | .ok found => { t with health.nextRun := found }
    | .error _ => t

theorem planned_job (after : Moment) (t : Slot ω) : (planned after t).job = t.job := by
  unfold planned
  split
  · rfl
  · split <;> rfl

/-- In the calendar the next run of every scheduled job is found. -/
theorem refreshSlot_eq {after : Moment} (h : after.HasHorizon) (t : Slot ω) :
    refreshSlot after t = .ok (planned after t) := by
  unfold refreshSlot planned
  cases t.job.schedule with
  | none => rfl
  | some schedule =>
    obtain ⟨found, searched, -⟩ := schedule.exists_isNext h.wall
    dsimp only
    rw [searched]
    rfl

theorem refresh_eq {after : Moment} (h : after.HasHorizon) (s : State ω) :
    s.refresh after = ({ s with slots := s.slots.map (planned after) }, .ok ()) := by
  have all : ∀ slots : List (Slot ω), refreshSlots after slots = (slots.map (planned after), .ok ()) := by
    intro slots
    induction slots with
    | nil => rfl
    | cons t rest ih =>
      rw [refreshSlots, refreshSlot_eq h]
      dsimp only
      rw [ih]
      rfl
  unfold refresh
  rw [all]

/-- After a look-up the next run of a scheduled job is the next match of its schedule. -/
theorem nextAfter_planned {after : Moment} (h : after.HasHorizon) {t : Slot ω}
    {schedule : Cron.Schedule} (scheduled : (planned after t).job.schedule = some schedule) :
    schedule.nextAfter after = .ok (planned after t).health.nextRun := by
  rw [planned_job] at scheduled
  obtain ⟨found, searched, -⟩ := schedule.exists_isNext h.wall
  unfold planned
  rw [scheduled]
  dsimp only
  rw [searched]

/-! ### A tick -/

/-- A tick that is accepted: the jobs that are due in one of the minutes are attempted, once each; those
that did not run get a run, and are what the tick gives; the next runs are looked up, and the minute of
the tick is the last one. Nothing else happens. -/
structure Ticked (minutes : List Moment) (own : Moment) (s : State ω)
    (r : State ω × Except Fault (List String)) : Prop where
  held : r.1 = ({ (hold su minutes { state := s }).state with lastTick := some own }.refresh own).1
  result : r.2 = .ok ((s.attempts minutes).filter fun name => !s.isRunning name)
  distinct : (s.attempts minutes).Nodup
  tried : ∀ name ∈ s.attempts minutes, ∃ t t', s.slot? name = some t ∧ t.Attempted su t' ∧
    r.1.slot? name = some (planned own t')
  others : ∀ name, name ∉ s.attempts minutes → r.1.slot? name = (s.slot? name).map (planned own)
  names : r.1.names = s.names
  journal : r.1.journal = s.journal.record s.now ((s.attempts minutes).map s.attemptNote)
  now : r.1.now = s.now
  loop : r.1.loop = s.loop
  lastTick : r.1.lastTick = some own

/-- Minutes are held against the schedules, and the next runs are looked up. -/
theorem ticked_hold {s : State ω} (distinct : s.names.Nodup) {minutes : List Moment}
    (each : minutes.Nodup) {own : Moment} (h : own.HasHorizon) :
    Ticked su minutes own s
      (({ (hold su minutes { state := s }).state with lastTick := some own }.refresh own).1,
        .ok (hold su minutes { state := s }).fired) := by
  obtain ⟨⟨distinct, fired, tried, others, names, journal, now, loop⟩, seen⟩ :=
    fires_hold su distinct each
  rw [seen] at distinct fired tried others journal
  have held := refresh_eq h { (hold su minutes { state := s }).state with lastTick := some own }
  have slot := slot_map (hold su minutes { state := s }).state (planned_job own)
  refine ⟨rfl, congrArg Except.ok fired, distinct, ?_, ?_, ?_, ?_, ?_, ?_, ?_⟩ <;>
    simp only [held]
  · intro name mem
    obtain ⟨t, t', found, attempted, after⟩ := tried name mem
    exact ⟨t, t', found, attempted, (slot name).trans (by rw [after, Option.map_some])⟩
  · intro name unseen
    exact (slot name).trans (by rw [others name unseen])
  · rw [← names]
    unfold State.names
    dsimp only
    rw [List.map_map]
    exact List.map_congr_left fun t _ => congrArg Job.name (planned_job own t)
  · exact journal
  · exact now
  · exact loop

theorem evaluate_spec {s : State ω} (distinct : s.names.Nodup) {last own : Moment}
    (before : last.HasHorizon) (h : own.HasHorizon) (late : 59 * minute ≤ own.wall) :
    Ticked su (evaluated last own) own s (s.evaluate su last own) := by
  have all := considerAll_eq su { state := s } (evaluated_inside before h)
  rw [← evaluated] at all
  have ticked := ticked_hold su distinct (nodup_evaluated last own) h
  unfold evaluate
  rw [firstMinute_eq before h late]
  dsimp only
  rw [all]
  dsimp only
  rw [refresh_eq h] at ticked ⊢
  exact ticked

theorem tick_eq {s : State ω} {last m : Moment} (lastTick : s.lastTick = some last)
    (clocks : m.offset.isSome = last.offset.isSome) :
    s.tick su m = if last.instant < m.startOfMinute.instant
      then s.evaluate su last m.startOfMinute else (s, .ok []) := by
  have order : Moment.compare? m.startOfMinute last
      = some (compare m.startOfMinute.instant last.instant) := by
    rw [Moment.compare?, Moment.startOfMinute_offset, clocks, if_pos (beq_self_eq_true _)]
  unfold tick lastOr
  rw [lastTick]
  dsimp only
  rw [order]
  generalize m.startOfMinute = own
  split
  · next h => cases h
  · next h => rw [if_pos (Std.compare_eq_gt.mp (Option.some.inj h))]
  · next other h =>
    have le : ¬ last.instant < own.instant := fun later =>
      other ((Option.some.inj h).symm.trans (Std.compare_eq_gt.mpr later))
    rw [if_neg le]

/-- A tick that is not later than the last one changes nothing. -/
theorem tick_stale {s : State ω} {last m : Moment} (lastTick : s.lastTick = some last)
    (clocks : m.offset.isSome = last.offset.isSome)
    (stale : m.startOfMinute.instant ≤ last.instant) : s.tick su m = (s, .ok []) := by
  rw [tick_eq su lastTick clocks, if_neg (Int.not_lt.mpr stale)]

/-- A tick that is later than the last one is accepted. -/
theorem tick_later {s : State ω} (distinct : s.names.Nodup) {last m : Moment}
    (lastTick : s.lastTick = some last) (before : last.HasHorizon) (h : m.Charted 59)
    (clocks : m.offset.isSome = last.offset.isSome)
    (later : last.instant < m.startOfMinute.instant) :
    Ticked su (evaluated last m.startOfMinute) m.startOfMinute s (s.tick su m) := by
  rw [tick_eq su lastTick clocks, if_pos later]
  exact evaluate_spec su distinct before h.toHasHorizon.startOfMinute h.late_minute

end Settler.Supervisor.State
