import Settler.Cron.Next
import Settler.Proofs.Calendar.Months

/-!
The next match of a schedule is the least one.

Every skip goes up, stays in the calendar, and passes no match (`skip_spec`): while a month, a day or
an hour lasts, its fields do not change. So the search finds the first match if there is one, in at
most as many skips as there are minutes to look at (`search_spec`).
-/

namespace Settler.Cron.Schedule

open Settler.Calendar

variable (s : Schedule)

/-! ### One skip -/

/-- A month that the schedule does not have holds no match. -/
theorem not_matches_of_month {m k : Nat} (h : s.months.contains (placeOf (m / 1440)).month = false)
    (le : m ≤ k) (lt : k < nextMonthStart (m / 1440) * 1440) : s.matchesMinute k = false := by
  have month : (placeOf (k / 1440)).month = (placeOf (m / 1440)).month :=
    month_eq_of_lt_nextMonthStart (Nat.div_le_div_right le) (Nat.div_lt_of_lt_mul (by omega))
  simp only [matchesMinute, month, h, Bool.and_false, Bool.false_and]

/-- A day that the schedule does not have holds no match. -/
theorem not_matches_of_day {m k : Nat} (h : s.matchesDay (m / 1440) = false) (le : m ≤ k)
    (lt : k < (m / 1440 + 1) * 1440) : s.matchesMinute k = false := by
  have day : k / 1440 = m / 1440 := by omega
  simp only [matchesMinute, day, h, Bool.and_false]

/-- An hour that the schedule does not have holds no match. -/
theorem not_matches_of_hour {m k : Nat} (h : s.hours.contains (m / 60 % 24) = false) (le : m ≤ k)
    (lt : k < (m / 60 + 1) * 60) : s.matchesMinute k = false := by
  have hour : k / 60 = m / 60 := by omega
  simp only [matchesMinute, hour, h, Bool.and_false, Bool.false_and]

/-- A minute that the schedule does not have is no match. -/
theorem not_matches_of_minute {m : Nat} (h : s.minutes.contains (m % 60) = false) :
    s.matchesMinute m = false := by
  simp only [matchesMinute, h, Bool.false_and]

/-- What a skip from a minute does: there is none from a match, any other goes up and passes no match,
and only from the last month does one leave the calendar. -/
inductive Skips (m : Nat) : Option (Except Fault Nat) → Prop where
  | none (hit : s.matchesMinute m) : Skips m none
  | some {next : Nat} (up : m < next)
      (misses : ∀ k, m ≤ k → k < next → s.matchesMinute k = false) : Skips m (some (.ok next))
  | out {f : Fault} (late : dayCount ≤ m / 1440 + 31) : Skips m (some (.error f))

theorem within_eq {m : Nat} (h : m < minuteCount) : within m = .ok m := if_pos h

/-- A skip to a minute of the same day or to the start of the next one. -/
theorem skips_within {m next : Nat} (up : m < next) (near : next ≤ (m / 1440 + 1) * 1440)
    (misses : ∀ k, m ≤ k → k < next → s.matchesMinute k = false) :
    s.Skips m (some (within next)) := by
  unfold within
  split
  · exact .some up misses
  · next late =>
    unfold minuteCount at late
    exact .out (by omega)

theorem skip_spec (m : Nat) : s.Skips m (s.skip m) := by
  unfold skip
  dsimp only
  cases month : s.months.contains (placeOf (m / 1440)).month with
  | false =>
    have up := lt_nextMonthStart (m / 1440)
    have near := nextMonthStart_le (m / 1440)
    rw [Bool.not_false, if_pos rfl]
    split
    · exact .some (by omega) fun k le lt => s.not_matches_of_month month le lt
    · exact .out (by omega)
  | true =>
    rw [Bool.not_true, if_neg (by decide)]
    cases day : s.matchesDay (m / 1440) with
    | false =>
      rw [Bool.not_false, if_pos rfl]
      exact s.skips_within (by omega) (by omega) fun k le lt => s.not_matches_of_day day le lt
    | true =>
      rw [Bool.not_true, if_neg (by decide)]
      cases hour : s.hours.contains (m / 60 % 24) with
      | false =>
        rw [Bool.not_false, if_pos rfl]
        exact s.skips_within (by omega) (by omega) fun k le lt => s.not_matches_of_hour hour le lt
      | true =>
        rw [Bool.not_true, if_neg (by decide)]
        cases minute : s.minutes.contains (m % 60) with
        | false =>
          rw [Bool.not_false, if_pos rfl]
          refine s.skips_within (by omega) (by omega) fun k le lt => ?_
          obtain rfl : k = m := by omega
          exact s.not_matches_of_minute minute
        | true =>
          rw [Bool.not_true, if_neg (by decide)]
          exact .none (by simp only [matchesMinute, month, day, hour, minute, Bool.and_self])

/-! ### The search -/

/-- The first match among the minutes from one to another; none if there is none. -/
inductive First (first last : Nat) : Option Nat → Prop where
  | found {n : Nat} (from_first : first ≤ n) (to_last : n ≤ last) (hit : s.matchesMinute n)
      (least : ∀ k, first ≤ k → k < n → s.matchesMinute k = false) : First first last (some n)
  | none (misses : ∀ k, first ≤ k → k ≤ last → s.matchesMinute k = false) : First first last none

variable {s}

/-- What is first from a later minute on is first, if no match lies before it. -/
theorem First.extend {first next last : Nat} {found : Option Nat} (h : s.First next last found)
    (le : first ≤ next) (misses : ∀ k, first ≤ k → k < next → s.matchesMinute k = false) :
    s.First first last found := by
  cases h with
  | found from_first to_last hit least =>
    refine .found (Nat.le_trans le from_first) to_last hit ?_
    intro k hk lt
    rcases Nat.lt_or_ge k next with before | after
    · exact misses k hk before
    · exact least k after lt
  | none later =>
    refine .none ?_
    intro k hk le
    rcases Nat.lt_or_ge k next with before | after
    · exact misses k hk before
    · exact later k after le

variable (s)

/-- The search finds the first match. -/
theorem search_spec {last : Nat} (early : last / 1440 + 31 < dayCount) {fuel first : Nat}
    (enough : last + 1 ≤ fuel + first) :
    ∃ found, s.search last fuel first = .ok found ∧ s.First first last found := by
  -- every skip takes the search up, so one unit of fuel is enough for each minute
  induction fuel generalizing first with
  | zero =>
    refine ⟨none, rfl, .none ?_⟩
    intro k hk le
    omega
  | succ fuel ih =>
    rw [search]
    split
    · next past =>
      refine ⟨none, rfl, .none ?_⟩
      intro k hk le
      omega
    · next within_last =>
      have skips := s.skip_spec first
      generalize s.skip first = skip at skips
      cases skips with
      | none hit =>
        refine ⟨some first, rfl, .found (Nat.le_refl _) (by omega) hit ?_⟩
        intro k hk lt
        omega
      | @some next up misses =>
        have enough' : last + 1 ≤ fuel + next := by omega
        obtain ⟨found, searched, isFirst⟩ := ih enough'
        exact ⟨found, searched, isFirst.extend (Nat.le_of_lt up) misses⟩
      | out late => omega

/-! ### Moments -/

/-- The next match after a moment: the least whole minute later than the moment and not beyond the
horizon that the schedule matches; none if it matches none of them. -/
inductive IsNext (m : Moment) : Option Moment → Prop where
  | found {next : Moment} (later : m.wall < next.wall) (near : next.wall ≤ m.wall + searchSpan)
      (whole : minute ∣ next.wall) (offset : next.offset = m.offset) (hit : s.matchesMoment next)
      (least : ∀ wall, m.wall < wall → minute ∣ wall → s.matchesMoment ⟨wall, m.offset⟩ →
        next.wall ≤ wall) : IsNext m (some next)
  | none (misses : ∀ wall, m.wall < wall → wall ≤ m.wall + searchSpan → minute ∣ wall →
        s.matchesMoment ⟨wall, m.offset⟩ = false) : IsNext m none

/-- The minutes that a search looks at are the whole minutes after the moment up to the horizon. -/
theorem isNext_of_first {m : Moment} {found : Option Nat}
    (h : s.First (m.minuteNumber + 1) ((m.wall + searchSpan) / minute) found) :
    s.IsNext m (found.map fun n => ⟨n * minute, m.offset⟩) := by
  have pos : 0 < minute := by decide
  have after : ∀ n, m.minuteNumber + 1 ≤ n ↔ m.wall < n * minute := fun n =>
    Nat.div_lt_iff_lt_mul pos
  have upto : ∀ n, n ≤ (m.wall + searchSpan) / minute ↔ n * minute ≤ m.wall + searchSpan := fun n =>
    Nat.le_div_iff_mul_le pos
  have number : ∀ n, (⟨n * minute, m.offset⟩ : Moment).minuteNumber = n := fun n =>
    Nat.mul_div_cancel n pos
  cases h with
  | @found n from_first to_last hit least =>
    refine .found ((after n).mp from_first) ((upto n).mp to_last) ⟨n, Nat.mul_comm _ _⟩ rfl ?_ ?_
    · rw [matchesMoment, number]
      exact hit
    · intro wall later whole matched
      obtain ⟨k, rfl⟩ := whole
      rw [Nat.mul_comm minute k] at later matched ⊢
      rw [matchesMoment, number] at matched
      apply Nat.mul_le_mul_right
      rcases Nat.lt_or_ge k n with before | upwards
      · rw [least k ((after k).mpr later) before] at matched
        cases matched
      · exact upwards
  | none misses =>
    refine .none ?_
    intro wall later near whole
    obtain ⟨k, rfl⟩ := whole
    rw [Nat.mul_comm minute k] at later near ⊢
    rw [matchesMoment, number]
    exact misses k ((after k).mpr later) ((upto k).mpr near)

theorem nextAfter_eq (m : Moment) :
    s.nextAfter m = (within (m.minuteNumber + 1)).bind fun first =>
      if !Moment.staysInRange m.wall searchSpan then .error .dateRange
      else
        (s.search ((m.wall + searchSpan) / minute) ((m.wall + searchSpan) / minute + 1 - first)
          first).bind fun found => .ok (found.map fun n => ⟨n * minute, m.offset⟩) := rfl

theorem ok_bind {α β ε : Type} (a : α) (f : α → Except ε β) :
    (Except.ok a : Except ε α).bind f = f a := rfl

/-- In the calendar every schedule has a next match after a moment, or none up to the horizon. -/
theorem exists_isNext {m : Moment}
    (early : m.wall + searchSpan < (Date.mk 9999 12 1).toDay * wholeDay) :
    ∃ found, s.nextAfter m = .ok found ∧ s.IsNext m found := by
  have lastMonth : (Date.mk 9999 12 1).toDay = 3652028 := by decide +kernel
  rw [lastMonth] at early
  have inside : (m.wall + searchSpan) / minute / 1440 + 31 < dayCount ∧
      Moment.staysInRange m.wall searchSpan = true := by
    simp only [Moment.staysInRange, Bool.and_eq_true, decide_eq_true_eq]
    simp only [wholeDay, minute, second, searchSpan, dayCount] at early ⊢
    omega
  obtain ⟨horizon, inRange⟩ := inside
  have first : m.minuteNumber + 1 < minuteCount := by
    have le : m.minuteNumber ≤ (m.wall + searchSpan) / minute :=
      Nat.div_le_div_right (Nat.le_add_right _ _)
    unfold minuteCount
    omega
  obtain ⟨found, searched, isFirst⟩ := s.search_spec horizon
    (show (m.wall + searchSpan) / minute + 1
      ≤ (m.wall + searchSpan) / minute + 1 - (m.minuteNumber + 1) + (m.minuteNumber + 1) by omega)
  refine ⟨_, ?_, s.isNext_of_first isFirst⟩
  rw [nextAfter_eq, within_eq first, ok_bind, inRange, Bool.not_true, if_neg Bool.false_ne_true,
    searched, ok_bind]

/-- If the horizon after a moment lies before the last month of the calendar, the next match is found,
and nothing that a search skips on its way is a match. -/
theorem nextAfter_isNext (m : Moment)
    (early : m.wall + searchSpan < (Date.mk 9999 12 1).toDay * wholeDay) :
    (∃ found, s.nextAfter m = .ok found ∧ s.IsNext m found) ∧
      ∀ k next, s.skip k = some (.ok next) → ∀ j, k ≤ j → j < next → s.matchesMinute j = false := by
  refine ⟨s.exists_isNext early, ?_⟩
  intro k next skipped j le lt
  have skips := s.skip_spec k
  rw [skipped] at skips
  cases skips with
  | some up misses => exact misses j le lt

/-- The midnights before the 29th of February. -/
def leapDay : Schedule where
  expression := "0 0 29 2 *"
  minutes := [0]
  hours := [0]
  daysOfMonth := [29]
  months := [2]
  daysOfWeek := [0, 1, 2, 3, 4, 5, 6]
  dayOfMonthRestricted := true
  dayOfWeekRestricted := false

/-- From the first of March 2024 the next leap day is almost four years away. -/
theorem nextAfter_isNext_leapDay :
    leapDay.nextAfter ⟨(Date.mk 2024 3 1).toDay * wholeDay, none⟩
        = .ok (some ⟨(Date.mk 2028 2 29).toDay * wholeDay, none⟩) ∧
      leapDay.IsNext ⟨(Date.mk 2024 3 1).toDay * wholeDay, none⟩
        (some ⟨(Date.mk 2028 2 29).toDay * wholeDay, none⟩) := by
  have computed : leapDay.nextAfter ⟨(Date.mk 2024 3 1).toDay * wholeDay, none⟩
      = .ok (some ⟨(Date.mk 2028 2 29).toDay * wholeDay, none⟩) := by rfl
  refine ⟨computed, ?_⟩
  obtain ⟨⟨found, searched, isNext⟩, -⟩ :=
    leapDay.nextAfter_isNext ⟨(Date.mk 2024 3 1).toDay * wholeDay, none⟩ (by decide +kernel)
  rw [computed] at searched
  cases searched
  exact isNext

end Settler.Cron.Schedule
