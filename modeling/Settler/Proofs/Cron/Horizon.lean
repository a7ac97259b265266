import Settler.Proofs.Calendar.Minutes
import Settler.Proofs.Calendar.Years
import Settler.Proofs.Cron.Next
import Settler.Proofs.Cron.Parser

/-!
How far ahead the next match may lie.

The days of a parsed schedule go either by a day of the week, and come round every week of a month, or by
the day of the month alone (`weekly_or_monthly`). So every schedule that has a day on another date than
the 29th of February has one in any two years, and one that has only leap days has none for up to eight
years about a century year that is not a leap year (`exists_firesOn`). The search looks five years ahead:
it finds nothing if there is nothing to find, and in such a gap (`nextAfter_eq_none_iff`).
-/

namespace Settler.Cron

open Settler.Calendar

namespace Schedule

/-! ### Days and times of day -/

/-- The schedule has the day. -/
def firesOn (s : Schedule) (day : Nat) : Bool :=
  s.months.contains (placeOf day).month && s.matchesDay day

/-- The schedule has the minute of the day. -/
def firesAt (s : Schedule) (time : Nat) : Bool :=
  s.minutes.contains (time % 60) && s.hours.contains (time / 60)

theorem matchesMinute_eq (s : Schedule) (day : Nat) {time : Nat} (inDay : time < 1440) :
    s.matchesMinute (day * 1440 + time) = (s.firesAt time && s.firesOn day) := by
  have date : (day * 1440 + time) / 1440 = day := by omega
  have minute : (day * 1440 + time) % 60 = time % 60 := by omega
  have hour : (day * 1440 + time) / 60 % 24 = time / 60 := by omega
  simp only [matchesMinute, firesAt, firesOn, date, minute, hour, Bool.and_assoc]

theorem matchesMinute_iff {s : Schedule} {n : Nat} :
    s.matchesMinute n ↔ s.firesAt (n % 1440) ∧ s.firesOn (n / 1440) := by
  have whole : n / 1440 * 1440 + n % 1440 = n := Nat.div_add_mod' n 1440
  rw [← Bool.and_eq_true, ← s.matchesMinute_eq _ (Nat.mod_lt n (by decide)), whole]

/-- The schedule has no day but 29ths of February. -/
def LeapDaysOnly (s : Schedule) : Prop :=
  ∀ n, s.matchesMinute n → (Date.ofDay (n / 1440)).month = 2 ∧ (Date.ofDay (n / 1440)).day = 29

/-- The moment lies about a century year that has no leap day: whatever time of day the schedule has, the
leap day before it is past, and the one after it is beyond the horizon. -/
structure CenturyGap (s : Schedule) (m : Moment) (century : Nat) : Prop where
  common : isLeap (100 * century) = false
  past : ∀ time < 1440, s.firesAt time →
    (leapDayOf (100 * century - 4) * 1440 + time) * minute ≤ m.wall
  beyond : ∀ time < 1440, s.firesAt time →
    m.wall + searchSpan < (leapDayOf (100 * century + 4) * 1440 + time) * minute

/-! ### The days of a schedule -/

/-- Among seven days in a row one is the day of the week. -/
theorem exists_weekday (first : Nat) {w : Nat} (h : w < 7) : ∃ k < 7, weekday (first + k) = w := by
  refine ⟨(w + 6 - first % 7) % 7, Nat.mod_lt _ (by decide), ?_⟩
  unfold weekday
  omega

/-- A day is one of the schedule's if its date has a month and a day that the day fields go by. -/
theorem firesOn_iff_of_monthly {s : Schedule}
    (monthly : ∀ day, s.matchesDay day ↔ (Date.ofDay day).day ∈ s.daysOfMonth) (day : Nat) :
    s.firesOn day ↔ (Date.ofDay day).month ∈ s.months ∧ (Date.ofDay day).day ∈ s.daysOfMonth := by
  rw [firesOn, Bool.and_eq_true, List.contains_iff_mem, monthly]
  rfl

section Parsed

variable {e : Expression} {text : String} (h : e.Written text)
include h

/-- The days of a schedule are all those of some day of the week, or go by the day of the month. -/
theorem weekly_or_monthly :
    (∃ w < 7, ∀ day, weekday day = w → (e.schedule text).matchesDay day) ∨
      ∀ day, (e.schedule text).matchesDay day ↔
        (Date.ofDay day).day ∈ (e.schedule text).daysOfMonth := by
  obtain ⟨w, mem⟩ := List.exists_mem_of_ne_nil _ (h.values_nonempty .dayOfWeek)
  have early : w < 7 := Nat.lt_succ_of_le (h.values_inRange .dayOfWeek w mem).2
  have ofWeek : ∀ day, weekday day = w → (e.schedule text).daysOfWeek.contains (weekday day) :=
    fun day on => List.contains_iff_mem.mpr (on ▸ mem)
  unfold matchesDay
  dsimp only
  cases week : (e.schedule text).dayOfWeekRestricted with
  | false =>
    -- every day of the week is in the star, so only the day of the month counts
    have star : e.Starred .dayOfWeek := by
      by_contra other
      exact absurd (bne_iff_ne.mpr other) (Bool.eq_false_iff.mp week)
    have any : ∀ day, (e.schedule text).daysOfWeek.contains (weekday day) := fun day =>
      List.contains_iff_mem.mpr (h.mem_values_of_starred star (Nat.zero_le _)
        (Nat.le_of_lt_succ (Nat.mod_lt _ (by decide))))
    right
    intro day
    rw [Bool.and_false, if_neg Bool.false_ne_true, any day, Bool.and_true, List.contains_iff_mem]
    rfl
  | true =>
    left
    refine ⟨w, early, ?_⟩
    intro day on
    cases month : (e.schedule text).dayOfMonthRestricted with
    | true => rw [Bool.and_self, if_pos rfl, ofWeek day on, Bool.or_true]
    | false =>
      have star : e.Starred .dayOfMonth := by
        by_contra other
        exact absurd (bne_iff_ne.mpr other) (Bool.eq_false_iff.mp month)
      have short := placeOf_length_le day
      have inMonth := monthPlace_index_lt 1 (yearPlace day).2 (monthLengths (isLeap (yearPlace day).1))
      have any : (e.schedule text).daysOfMonth.contains ((placeOf day).index + 1) :=
        List.contains_iff_mem.mpr (h.mem_values_of_starred star (Nat.le_add_left _ _)
          (Nat.le_trans inMonth short))
      rw [Bool.false_and, if_neg Bool.false_ne_true, any, ofWeek day on, Bool.and_self]

theorem exists_firesAt : ∃ time < 1440, (e.schedule text).firesAt time := by
  obtain ⟨mi, minute⟩ := List.exists_mem_of_ne_nil _ (h.values_nonempty .minute)
  obtain ⟨hr, hour⟩ := List.exists_mem_of_ne_nil _ (h.values_nonempty .hour)
  have lateMinute := (h.values_inRange .minute mi minute).2
  have lateHour := (h.values_inRange .hour hr hour).2
  simp only [Field.top, Field.high] at lateMinute lateHour
  have ofHour : (hr * 60 + mi) % 60 = mi := by omega
  have ofDay : (hr * 60 + mi) / 60 = hr := by omega
  refine ⟨hr * 60 + mi, by omega, ?_⟩
  rw [firesAt, ofHour, ofDay, Bool.and_eq_true]
  exact ⟨List.contains_iff_mem.mpr minute, List.contains_iff_mem.mpr hour⟩

/-- A weekly schedule has a day in any two years. -/
theorem exists_firesOn_weekly {w : Nat} (early : w < 7)
    (weekly : ∀ day, weekday day = w → (e.schedule text).matchesDay day) (first : Nat) :
    ∃ day, first ≤ day ∧ day < first + 738 ∧ (e.schedule text).firesOn day := by
  obtain ⟨month, mem⟩ := List.exists_mem_of_ne_nil _ (h.values_nonempty .month)
  have inYear := h.values_inRange .month month mem
  have lengths : ∀ m ≤ 12, 1 ≤ m → 28 ≤ monthLength false m := by decide
  have long := lengths month inYear.2 inYear.1
  obtain ⟨year, pos, le, lt⟩ := exists_date first inYear.1 (Nat.le_refl 1) (by omega)
  obtain ⟨k, ofWeek, on⟩ := exists_weekday (Date.mk year month 1).toDay early
  have date : (Date.mk year month (1 + k)).Exists :=
    Date.exists_of_common pos inYear.1 (Nat.le_add_right 1 k) (by omega)
  have later : (Date.mk year month (1 + k)).toDay = (Date.mk year month 1).toDay + k := by
    simp only [Date.toDay]
    omega
  refine ⟨(Date.mk year month 1).toDay + k, by omega, by omega, ?_⟩
  rw [firesOn, weekly _ on, Bool.and_true, List.contains_iff_mem, ← later, date.placeOf_toDay]
  exact mem

/-- A schedule that goes by the day of the month has a day in any two years, unless no year but a leap
year has any of its dates. -/
theorem exists_firesOn_monthly
    (monthly : ∀ day, (e.schedule text).matchesDay day ↔
      (Date.ofDay day).day ∈ (e.schedule text).daysOfMonth) (first : Nat) :
    (∃ day, first ≤ day ∧ day < first + 732 ∧ (e.schedule text).firesOn day) ∨
      ∀ day, (e.schedule text).firesOn day →
        (Date.ofDay day).month = 2 ∧ (Date.ofDay day).day = 29 := by
  have fires := firesOn_iff_of_monthly monthly
  by_cases common : ∃ month ∈ (e.schedule text).months, ∃ day ∈ (e.schedule text).daysOfMonth,
      day ≤ monthLength false month
  · obtain ⟨month, ofMonth, day, ofDay, inMonth⟩ := common
    have month_pos := (h.values_inRange .month month ofMonth).1
    have day_pos := (h.values_inRange .dayOfMonth day ofDay).1
    obtain ⟨year, year_pos, le, lt⟩ := exists_date first month_pos day_pos inMonth
    refine .inl ⟨_, le, lt, ?_⟩
    rw [fires, (Date.exists_of_common year_pos month_pos day_pos inMonth).ofDay_toDay]
    exact ⟨ofMonth, ofDay⟩
  · right
    intro day on
    rw [fires] at on
    obtain ⟨exist, inYear, -⟩ := ofDay_spec day
    have long : monthLength false (Date.ofDay day).month < (Date.ofDay day).day := by
      by_contra short
      exact common ⟨_, on.1, _, on.2, Nat.le_of_not_lt short⟩
    obtain ⟨month, ofMonth, -⟩ := eq_leapDayOf exist inYear long
    exact ⟨month, ofMonth⟩

/-- In a stretch of four years or more a schedule has a day, if it has one at all, unless it has leap days
only and the stretch lies about a century year that has none. -/
theorem exists_firesOn {day : Nat} (fires : (e.schedule text).firesOn day) (first : Nat) {span : Nat}
    (long : 1461 ≤ span) :
    (∃ day, first ≤ day ∧ day < first + span ∧ (e.schedule text).firesOn day) ∨
      (∀ day, (e.schedule text).firesOn day →
        (Date.ofDay day).month = 2 ∧ (Date.ofDay day).day = 29) ∧
      ∃ c, isLeap (100 * c) = false ∧ leapDayOf (100 * c - 4) < first ∧
        first + span ≤ leapDayOf (100 * c + 4) := by
  rcases weekly_or_monthly h with ⟨w, early, weekly⟩ | monthly
  · obtain ⟨day, le, lt, on⟩ := exists_firesOn_weekly h early weekly first
    exact .inl ⟨day, le, by omega, on⟩
  · rcases exists_firesOn_monthly h monthly first with ⟨day, le, lt, on⟩ | leapDays
    · exact .inl ⟨day, le, by omega, on⟩
    · have date := (firesOn_iff_of_monthly monthly day).mp fires
      rw [(leapDays day fires).1, (leapDays day fires).2] at date
      rcases exists_leapDay first long with ⟨year, pos, leap, le, lt⟩ | gap
      · refine .inl ⟨_, le, lt, ?_⟩
        rw [firesOn_iff_of_monthly monthly, leapDayOf, (exists_leapDate pos leap).ofDay_toDay]
        exact date
      · exact .inr ⟨leapDays, gap⟩

end Parsed

/-! ### Moments -/

/-- The first day on which a time of day comes after a moment. -/
def dayAfter (m : Moment) (time : Nat) : Nat := (m.wall / minute + 1440 - time) / 1440

/-- A time of day comes later than so many days after the moment if it comes so many days after the
first day on which it does. -/
theorem dayAfter_add_le_iff (m : Moment) {time : Nat} (inDay : time < 1440) (days day : Nat) :
    dayAfter m time + days ≤ day ↔ m.wall + days * wholeDay < (day * 1440 + time) * minute := by
  have whole : m.wall + days * wholeDay = m.wall + (days * 1440) * minute := by
    rw [wholeDay, Nat.mul_assoc]
  rw [whole, ← Nat.div_lt_iff_lt_mul Moment.minute_pos, Nat.add_mul_div_right _ _ Moment.minute_pos]
  unfold dayAfter
  generalize m.wall / minute = start
  omega

theorem dayAfter_le_iff (m : Moment) {time : Nat} (inDay : time < 1440) (day : Nat) :
    dayAfter m time ≤ day ↔ m.wall < (day * 1440 + time) * minute := by
  have := dayAfter_add_le_iff m inDay 0 day
  rwa [Nat.add_zero, Nat.zero_mul, Nat.add_zero] at this

/-- The gap, day by day: whatever time of day the schedule has, it comes first after the leap day before
the century year, and beyond the horizon not before the leap day after it. -/
theorem centuryGap_iff {s : Schedule} {m : Moment} {c : Nat} :
    s.CenturyGap m c ↔ isLeap (100 * c) = false ∧ ∀ time < 1440, s.firesAt time →
      leapDayOf (100 * c - 4) < dayAfter m time ∧ dayAfter m time + 1830 ≤ leapDayOf (100 * c + 4) := by
  have past : ∀ time < 1440, leapDayOf (100 * c - 4) < dayAfter m time ↔
      (leapDayOf (100 * c - 4) * 1440 + time) * minute ≤ m.wall := fun time inDay => by
    rw [← Nat.not_le, dayAfter_le_iff m inDay, Nat.not_lt]
  constructor
  · rintro ⟨common, before, beyond⟩
    refine ⟨common, fun time inDay on => ?_⟩
    rw [past time inDay, dayAfter_add_le_iff m inDay]
    exact ⟨before time inDay on, beyond time inDay on⟩
  · rintro ⟨common, gap⟩
    refine ⟨common, fun time inDay on => ?_, fun time inDay on => ?_⟩
    · exact (past time inDay).mp (gap time inDay on).1
    · exact (dayAfter_add_le_iff m inDay 1830 _).mp (gap time inDay on).2

/-- A stretch of days, and one that starts a day earlier or later, lie about the same century year. -/
theorem century_le {first first' c c' : Nat} (near : first' ≤ first + 1)
    (beyond : first + 1830 ≤ leapDayOf (100 * c + 4)) (past : leapDayOf (100 * c' - 4) < first') :
    c' ≤ c := by
  by_contra later
  have before : leapDayOf (100 * c' - 4) < leapDayOf (100 * c + 4) := by omega
  rw [leapDayOf_lt_iff (by omega) (Nat.le_add_left 1 _)] at before
  omega

/-- If the search finds nothing, then no time of day falls on a day of the schedule up to the horizon. -/
theorem not_firesOn_of_misses {s : Schedule} {m : Moment}
    (misses : ∀ wall, m.wall < wall → wall ≤ m.wall + searchSpan → minute ∣ wall →
      s.matchesMoment ⟨wall, m.offset⟩ = false) {time : Nat} (inDay : time < 1440)
    (on : s.firesAt time) {day : Nat} (le : dayAfter m time ≤ day) (lt : day < dayAfter m time + 1830) :
    s.firesOn day = false := by
  have after := (dayAfter_le_iff m inDay day).mp le
  have near : (day * 1440 + time) * minute ≤ m.wall + searchSpan :=
    Nat.le_of_not_lt fun beyond => Nat.not_le_of_lt lt ((dayAfter_add_le_iff m inDay 1830 day).mpr beyond)
  have missed := misses _ after near (Nat.dvd_mul_left _ _)
  rwa [matchesMoment, Moment.minuteNumber, Nat.mul_div_cancel _ Moment.minute_pos,
    s.matchesMinute_eq day inDay, on, Bool.true_and] at missed

/-- If the search finds nothing, there is nothing to find, or the moment lies in a gap of the leap days. -/
theorem none_or_gap_of_misses {e : Expression} {text : String} (h : e.Written text) {m : Moment}
    (misses : ∀ wall, m.wall < wall → wall ≤ m.wall + searchSpan → minute ∣ wall →
      (e.schedule text).matchesMoment ⟨wall, m.offset⟩ = false) :
    (∀ n, (e.schedule text).matchesMinute n = false) ∨
      (e.schedule text).LeapDaysOnly ∧ ∃ c, (e.schedule text).CenturyGap m c := by
  by_cases fires : ∃ day, (e.schedule text).firesOn day
  · obtain ⟨day, fires⟩ := fires
    have gap := fun time (inDay : time < 1440) (on : (e.schedule text).firesAt time) =>
      (exists_firesOn h fires (dayAfter m time) (show 1461 ≤ 1830 by decide)).resolve_left <| by
        rintro ⟨day, le, lt, on'⟩
        rw [not_firesOn_of_misses misses inDay on le lt] at on'
        cases on'
    obtain ⟨time, inDay, on⟩ := exists_firesAt h
    obtain ⟨leapDays, c, common, past, beyond⟩ := gap time inDay on
    right
    refine ⟨fun n matched => leapDays _ (matchesMinute_iff.mp matched).2, c, ?_⟩
    refine centuryGap_iff.mpr ⟨common, fun time' inDay' on' => ?_⟩
    obtain ⟨-, c', -, past', beyond'⟩ := gap time' inDay' on'
    have near : dayAfter m time ≤ dayAfter m time' + 1 ∧ dayAfter m time' ≤ dayAfter m time + 1 := by
      unfold dayAfter
      omega
    obtain rfl : c = c' :=
      Nat.le_antisymm (century_le near.1 beyond' past) (century_le near.2 beyond past')
    exact ⟨past', beyond'⟩
  · left
    intro n
    by_contra matched
    exact fires ⟨_, (matchesMinute_iff.mp (Bool.not_eq_false _ ▸ matched)).2⟩

/-- Nothing that a schedule of leap days has lies in such a gap. -/
theorem not_matches_of_gap {s : Schedule} {m : Moment} {c : Nat} (leapDays : s.LeapDaysOnly)
    (gap : s.CenturyGap m c) {n : Nat} (after : m.wall < n * minute)
    (near : n * minute ≤ m.wall + searchSpan) : s.matchesMinute n = false := by
  by_contra matched
  rw [Bool.not_eq_false] at matched
  obtain ⟨on, -⟩ := matchesMinute_iff.mp matched
  obtain ⟨month, ofMonth⟩ := leapDays n matched
  obtain ⟨exist, inYear, counted⟩ := ofDay_spec (n / 1440)
  have long : monthLength false (Date.ofDay (n / 1440)).month < (Date.ofDay (n / 1440)).day := by
    rw [month, ofMonth]
    decide
  obtain ⟨-, -, leap, day⟩ := eq_leapDayOf exist inYear long
  rw [counted] at day
  have inDay : n % 1440 < 1440 := Nat.mod_lt n (by decide)
  have whole : n / 1440 * 1440 + n % 1440 = n := Nat.div_add_mod' n 1440
  have past := gap.past _ inDay on
  have beyond := gap.beyond _ inDay on
  have pos := exist.year
  generalize (Date.ofDay (n / 1440)).year = year at leap day pos
  have century : 1 ≤ c := by
    by_contra zero
    obtain rfl : c = 0 := by omega
    exact absurd gap.common (by decide)
  have later : leapDayOf (100 * c - 4) < leapDayOf year := by
    have lt := Nat.lt_of_mul_lt_mul_right (Nat.lt_of_le_of_lt past after)
    omega
  have earlier : leapDayOf year < leapDayOf (100 * c + 4) := by
    have lt := Nat.lt_of_mul_lt_mul_right (Nat.lt_of_le_of_lt near beyond)
    omega
  rw [leapDayOf_lt_iff (by omega) pos] at later
  rw [leapDayOf_lt_iff pos (Nat.le_add_left 1 _)] at earlier
  -- only the century year itself is a fourth year between them
  have same : year = 100 * c := by
    have fourth : year % 4 = 0 := by
      simp only [isLeap, Bool.and_eq_true, beq_iff_eq] at leap
      exact leap.1
    omega
  rw [same, gap.common] at leap
  cases leap

/-- In the calendar the next match of a parsed schedule is found, or there is none up to the horizon; and
there is none exactly if the schedule matches no minute at all, or if it matches on leap days only and the
moment lies about a century year that has none. -/
theorem nextAfter_eq_none_iff {text : String} {s : Schedule} (parsed : Schedule.parse text = .ok s)
    (m : Moment) (early : m.wall + searchSpan < (Date.mk 9999 12 1).toDay * wholeDay) :
    ∃ found, s.nextAfter m = .ok found ∧ s.IsNext m found ∧
      (found = none ↔
        (∀ n, s.matchesMinute n = false) ∨ s.LeapDaysOnly ∧ ∃ c, s.CenturyGap m c) := by
  obtain ⟨e, written, rfl⟩ := parse_eq_ok_iff.mp parsed
  obtain ⟨found, searched, isNext⟩ := (e.schedule text).exists_isNext early
  refine ⟨found, searched, isNext, ?_⟩
  cases isNext with
  | none misses => exact iff_of_true rfl (none_or_gap_of_misses written misses)
  | @found next later near whole offset hit least =>
    refine iff_of_false (Option.some_ne_none next) ?_
    have number : next.minuteNumber * minute = next.wall := Nat.div_mul_cancel whole
    rw [matchesMoment] at hit
    rintro (never | ⟨leapDays, c, gap⟩)
    · rw [never] at hit
      cases hit
    · rw [not_matches_of_gap leapDays gap (number ▸ later) (number ▸ near)] at hit
      cases hit

theorem parse_leapDay : Schedule.parse "0 0 29 2 *" = .ok leapDay := by rfl

/-- From the first of March 2096 on the search finds no leap day, for 2100 has none. -/
theorem nextAfter_eq_none_iff_turnOfCentury :
    leapDay.nextAfter ⟨(Date.mk 2096 3 1).toDay * wholeDay, none⟩ = .ok none ∧
      ((∀ n, leapDay.matchesMinute n = false) ∨ leapDay.LeapDaysOnly ∧
        ∃ c, leapDay.CenturyGap ⟨(Date.mk 2096 3 1).toDay * wholeDay, none⟩ c) := by
  have computed : leapDay.nextAfter ⟨(Date.mk 2096 3 1).toDay * wholeDay, none⟩ = .ok none := by rfl
  refine ⟨computed, ?_⟩
  obtain ⟨found, searched, -, reason⟩ :=
    nextAfter_eq_none_iff parse_leapDay ⟨(Date.mk 2096 3 1).toDay * wholeDay, none⟩ (by decide +kernel)
  rw [computed] at searched
  cases searched
  exact reason.mp rfl

/-- The schedule still matches the 29th of February 2104. -/
theorem nextAfter_misses_leapDay :
    Schedule.parse "0 0 29 2 *" = .ok leapDay ∧
      (Date.mk 2096 3 1).toDay * wholeDay + searchSpan < (Date.mk 9999 12 1).toDay * wholeDay ∧
      leapDay.nextAfter ⟨(Date.mk 2096 3 1).toDay * wholeDay, none⟩ = .ok none ∧
      (Date.mk 2096 3 1).toDay < (Date.mk 2104 2 29).toDay ∧
      leapDay.matchesMoment ⟨(Date.mk 2104 2 29).toDay * wholeDay, none⟩ = true := by
  refine ⟨parse_leapDay, by decide +kernel, ?_, by decide +kernel, by decide +kernel⟩
  rfl

end Schedule

end Settler.Cron
