import Mathlib.Order.Nat
import Settler.Proofs.Calendar.Months

/-!
Dates and the days that they count.

A year is the days from `daysBeforeYear` on, as many as it is long (`yearPlace_of_lt`), and a month is a
stretch of its year (`monthPlace_of_lt`). So a date that exists is the date of its own day
(`ofDay_toDay`), and every date but the 29th of February comes round once a year. The 29th of February
comes round every four years, and every eight about a century year that is not a leap year
(`exists_leapDay`).
-/

namespace Settler.Calendar

/-! ### Years -/

/-- Every year comes after some whole cycles of 400, 100, 4 and 1 years. -/
theorem exists_yearAfter {year : Nat} (pos : 1 ≤ year) : ∃ n400 n100 n4 n1,
    n100 ≤ 3 ∧ n4 ≤ 24 ∧ n1 ≤ 3 ∧ year = yearAfter n400 n100 n4 n1 := by
  refine ⟨(year - 1) / 400, (year - 1) / 100 % 4, (year - 1) / 4 % 25, (year - 1) % 4, ?_⟩
  unfold yearAfter
  omega

theorem daysBeforeYear_yearAfter (n400 : Nat) {n100 n4 n1 : Nat} (centuries : n100 ≤ 3)
    (fours : n4 ≤ 24) (years : n1 ≤ 3) : daysBeforeYear (yearAfter n400 n100 n4 n1)
      = n400 * 146097 + n100 * 36524 + n4 * 1461 + n1 * 365 := by
  unfold daysBeforeYear yearAfter
  dsimp only
  omega

/-- The days of a year are those from `daysBeforeYear` on, as many as the year is long. -/
theorem yearPlace_of_lt {year index : Nat} (pos : 1 ≤ year) (h : index < yearLength year) :
    yearPlace (daysBeforeYear year + index) = (year, index) := by
  obtain ⟨n400, n100, n4, n1, centuries, fours, years, rfl⟩ := exists_yearAfter pos
  have closes := isLeap_yearAfter n400 centuries fours years
  rw [yearLength_eq] at h
  apply yearPlace_of_cycles
  refine ⟨by rw [daysBeforeYear_yearAfter n400 centuries fours years], centuries, fours, years, ?_⟩
  split at h
  · next leap =>
    rw [closes] at leap
    omega
  · exact .inl h

theorem one_le_yearPlace (day : Nat) : 1 ≤ (yearPlace day).1 := Nat.le_add_left _ _

theorem daysBeforeYear_add_index (day : Nat) :
    daysBeforeYear (yearPlace day).1 + (yearPlace day).2 = day := by
  obtain ⟨n400, n100, n4, n1, index, h, place⟩ := exists_cycles day
  rw [place, daysBeforeYear_yearAfter n400 h.centuries h.fours h.years]
  exact h.sum.symm

theorem daysBeforeYear_succ {year : Nat} (pos : 1 ≤ year) :
    daysBeforeYear (year + 1) = daysBeforeYear year + yearLength year := by
  obtain ⟨n400, n100, n4, n1, centuries, fours, years, rfl⟩ := exists_yearAfter pos
  have closes := isLeap_yearAfter n400 centuries fours years
  have start := daysBeforeYear_yearAfter n400 centuries fours years
  have next : daysBeforeYear (yearAfter n400 n100 n4 n1 + 1)
      = n400 * 146097 + n100 * 36524 + n4 * 1461 + (n1 + 1) * 365
        + (if isLeap (yearAfter n400 n100 n4 n1) then 1 else 0) := by
    rw [ite_cond_congr (propext closes)]
    unfold daysBeforeYear yearAfter
    dsimp only
    split <;> omega
  rw [next, start, yearLength_eq]
  split <;> omega

/-- Years come one after the other. -/
theorem daysBeforeYear_lt {year later : Nat} (pos : 1 ≤ year) (lt : year < later) :
    daysBeforeYear year < daysBeforeYear later := by
  have step : ∀ y, 1 ≤ y → daysBeforeYear y < daysBeforeYear (y + 1) := fun y pos => by
    rw [daysBeforeYear_succ pos, yearLength_eq]
    split <;> omega
  induction later, lt using Nat.le_induction with
  | base => exact step year pos
  | succ later lt ih => exact ih.trans (step later (by omega))

/-! ### Months -/

/-- The length of a month of a year; 0 if there is no such month. -/
def monthLength (leap : Bool) (month : Nat) : Nat := (monthLengths leap).getD (month - 1) 0

/-- The place of a day that lies in a given month. -/
theorem monthPlace_of_lt (first : Nat) {k i : Nat} {lengths : List Nat} (h : i < lengths.getD k 0) :
    monthPlace first ((lengths.take k).sum + i) lengths = ⟨first + k, i, lengths.getD k 0⟩ := by
  induction lengths generalizing first k with
  | nil => simp at h
  | cons length rest ih =>
    cases k with
    | zero =>
      rw [List.getD_cons_zero] at h
      rw [List.take_zero, List.sum_nil, Nat.zero_add, monthPlace, if_pos h, Nat.add_zero,
        List.getD_cons_zero]
    | succ k =>
      rw [List.getD_cons_succ] at h
      rw [List.take_succ_cons, List.sum_cons, monthPlace, if_neg (by omega), List.getD_cons_succ,
        Nat.add_assoc, Nat.add_sub_cancel_left, ih (first + 1) h, Nat.add_right_comm, Nat.add_assoc]

theorem daysBeforeMonth_eq (leap : Bool) (month : Nat) :
    daysBeforeMonth leap month = ((monthLengths leap).take (month - 1)).sum := by
  rw [daysBeforeMonth, List.sum_eq_foldl]

/-- A day of a month lies in the year. -/
theorem take_sum_add_lt {k i : Nat} {lengths : List Nat} (h : i < lengths.getD k 0) :
    (lengths.take k).sum + i < lengths.sum := by
  induction lengths generalizing k with
  | nil => simp at h
  | cons length rest ih =>
    cases k with
    | zero =>
      rw [List.getD_cons_zero] at h
      rw [List.take_zero, List.sum_nil, List.sum_cons]
      omega
    | succ k =>
      rw [List.getD_cons_succ] at h
      have := ih h
      rw [List.take_succ_cons, List.sum_cons, List.sum_cons]
      omega

/-- Every day of the year lies in a month. -/
theorem exists_month (first : Nat) {index : Nat} {lengths : List Nat} (h : index < lengths.sum) :
    ∃ k i, k < lengths.length ∧ i < lengths.getD k 0 ∧ index = (lengths.take k).sum + i ∧
      monthPlace first index lengths = ⟨first + k, i, lengths.getD k 0⟩ := by
  induction lengths generalizing first index with
  | nil => cases h
  | cons length rest ih =>
    rw [List.sum_cons] at h
    by_cases inside : index < length
    · exact ⟨0, index, Nat.succ_pos _, inside, (Nat.zero_add index).symm, if_pos inside⟩
    · have later : index - length < rest.sum := by omega
      obtain ⟨k, i, lt, inMonth, sum, place⟩ := ih (first + 1) later
      refine ⟨k + 1, i, Nat.succ_lt_succ lt, inMonth, ?_, ?_⟩
      · rw [List.take_succ_cons, List.sum_cons]
        omega
      · rw [monthPlace, if_neg inside, place, List.getD_cons_succ, Nat.add_right_comm, Nat.add_assoc]

/-- A month and a day of it that the year has. -/
structure Date.Exists (d : Date) : Prop where
  year : 1 ≤ d.year
  month : 1 ≤ d.month
  day : 1 ≤ d.day
  inMonth : d.day ≤ monthLength (isLeap d.year) d.month

namespace Date.Exists

variable {d : Date} (h : d.Exists)
include h

theorem yearPlace_toDay : yearPlace d.toDay
    = (d.year, daysBeforeMonth (isLeap d.year) d.month + (d.day - 1)) := by
  have inMonth : d.day - 1 < monthLength (isLeap d.year) d.month := by
    have := h.day
    have := h.inMonth
    omega
  rw [Date.toDay, Nat.add_assoc]
  apply yearPlace_of_lt h.year
  rw [daysBeforeMonth_eq]
  exact take_sum_add_lt inMonth

theorem placeOf_toDay : placeOf d.toDay
    = ⟨d.month, d.day - 1, monthLength (isLeap d.year) d.month⟩ := by
  have inMonth : d.day - 1 < monthLength (isLeap d.year) d.month := by
    have := h.day
    have := h.inMonth
    omega
  have first : 1 + (d.month - 1) = d.month := Nat.add_sub_cancel' h.month
  rw [placeOf, h.yearPlace_toDay, daysBeforeMonth_eq]
  exact (monthPlace_of_lt 1 inMonth).trans (by rw [first, monthLength])

/-- A date that exists is the date of its own day. -/
theorem ofDay_toDay : Date.ofDay d.toDay = d := by
  rw [Date.ofDay, h.placeOf_toDay, h.yearPlace_toDay, Nat.sub_add_cancel h.day]

end Date.Exists

/-- The date of a day exists, the place of the day is that of the date, and the date counts the day. -/
theorem ofDay_spec (day : Nat) : (Date.ofDay day).Exists ∧ (Date.ofDay day).month ≤ 12 ∧
    (Date.ofDay day).toDay = day := by
  obtain ⟨k, i, inYear, inMonth, sum, place⟩ := exists_month 1 (yearPlace_index_lt day)
  have month : placeOf day = ⟨1 + k, i, (monthLengths (isLeap (yearPlace day).1)).getD k 0⟩ := place
  have date : Date.ofDay day = ⟨(yearPlace day).1, 1 + k, i + 1⟩ := by rw [Date.ofDay, month]
  have months : ∀ leap, (monthLengths leap).length = 12 := by decide
  rw [months] at inYear
  rw [date]
  refine ⟨⟨one_le_yearPlace day, Nat.le_add_right 1 k, Nat.le_add_left 1 i, ?_⟩, ?_, ?_⟩
  · rw [monthLength, Nat.add_sub_cancel_left]
    exact inMonth
  · exact (Nat.add_comm 1 k).trans_le inYear
  · rw [Date.toDay, daysBeforeMonth_eq, Nat.add_sub_cancel_left, Nat.add_sub_cancel, Nat.add_assoc,
      ← sum, daysBeforeYear_add_index]

/-! ### Dates that come round -/

/-- Months are not shorter in a leap year. -/
theorem monthLength_le (leap : Bool) (month : Nat) : monthLength false month ≤ monthLength leap month := by
  cases leap with
  | false => exact Nat.le_refl _
  | true =>
    rcases Nat.lt_or_ge (month - 1) 12 with inYear | past
    · have all : ∀ k < 12, (monthLengths false).getD k 0 ≤ (monthLengths true).getD k 0 := by decide
      exact all _ inYear
    · have none : monthLength false month = 0 := by
        rw [monthLength, List.getD_eq_getElem?_getD, List.getElem?_eq_none past, Option.getD_none]
      rw [none]
      exact Nat.zero_le _

/-- A day of a month of the shorter year is one in every year. -/
theorem Date.exists_of_common {year month day : Nat} (year_pos : 1 ≤ year) (month_pos : 1 ≤ month)
    (day_pos : 1 ≤ day) (inMonth : day ≤ monthLength false month) : (Date.mk year month day).Exists :=
  ⟨year_pos, month_pos, day_pos, inMonth.trans (monthLength_le _ month)⟩

/-- A date that every year has comes round within two years. -/
theorem exists_date (first : Nat) {month day : Nat} (month_pos : 1 ≤ month) (day_pos : 1 ≤ day)
    (inMonth : day ≤ monthLength false month) :
    ∃ year, 1 ≤ year ∧ first ≤ (Date.mk year month day).toDay ∧
      (Date.mk year month day).toDay < first + 732 := by
  have date : (Date.mk ((yearPlace first).1 + 1) month day).Exists :=
    Date.exists_of_common (Nat.le_add_left 1 _) month_pos day_pos inMonth
  refine ⟨(yearPlace first).1 + 1, Nat.le_add_left 1 _, ?_⟩
  have counted := daysBeforeYear_add_index (Date.mk ((yearPlace first).1 + 1) month day).toDay
  have index := yearPlace_index_lt (Date.mk ((yearPlace first).1 + 1) month day).toDay
  rw [date.yearPlace_toDay] at counted index
  have before := daysBeforeYear_add_index first
  have here := yearPlace_index_lt first
  have next := daysBeforeYear_succ (one_le_yearPlace first)
  have length : ∀ year, yearLength year ≤ 366 := fun year => by
    rw [yearLength_eq]
    split <;> omega
  have short := length (yearPlace first).1
  have short' := length ((yearPlace first).1 + 1)
  dsimp only at counted index
  omega

/-- The 29th of February of a year, as a day. -/
def leapDayOf (year : Nat) : Nat := (Date.mk year 2 29).toDay

theorem leapDayOf_eq (year : Nat) : leapDayOf year = daysBeforeYear year + 59 := by
  unfold leapDayOf Date.toDay
  cases isLeap year <;> rfl

theorem exists_leapDate {year : Nat} (pos : 1 ≤ year) (leap : isLeap year = true) :
    (Date.mk year 2 29).Exists := by
  have long : 29 ≤ monthLength true 2 := by decide
  exact ⟨pos, Nat.le_succ 1, Nat.le_add_left 1 28, leap ▸ long⟩

/-- A date that not every year has is a 29th of February. -/
theorem eq_leapDayOf {d : Date} (exist : d.Exists) (inYear : d.month ≤ 12)
    (long : monthLength false d.month < d.day) :
    d.month = 2 ∧ d.day = 29 ∧ isLeap d.year = true ∧ d.toDay = leapDayOf d.year := by
  obtain ⟨year, month, day⟩ := d
  have inMonth := exist.inMonth
  have one_le := exist.month
  dsimp only at *
  cases leap : isLeap year with
  | false =>
    rw [leap] at inMonth
    omega
  | true =>
    rw [leap] at inMonth
    have all : ∀ m ≤ 12, 1 ≤ m → monthLength false m = monthLength true m ∨ m = 2 := by decide
    rcases all month inYear one_le with same | rfl
    · omega
    · have short : monthLength false 2 = 28 := rfl
      have full : monthLength true 2 = 29 := rfl
      obtain rfl : day = 29 := by omega
      exact ⟨rfl, rfl, rfl, rfl⟩

theorem leapDayOf_four (q : Nat) : leapDayOf (4 * q + 4) = 1461 * q + 1154 - q / 25 + q / 100 := by
  rw [leapDayOf_eq]
  unfold daysBeforeYear
  dsimp only
  omega

theorem leapDayOf_lt_iff {year later : Nat} (pos : 1 ≤ year) (pos' : 1 ≤ later) :
    leapDayOf year < leapDayOf later ↔ year < later := by
  rw [leapDayOf_eq, leapDayOf_eq, Nat.add_lt_add_iff_right]
  constructor
  · intro before
    rcases Nat.lt_trichotomy year later with lt | rfl | gt
    · exact lt
    · exact absurd before (Nat.lt_irrefl _)
    · exact absurd (daysBeforeYear_lt pos' gt) (Nat.lt_asymm before)
  · exact daysBeforeYear_lt pos

/-- In a stretch of at least four years there is a leap day, unless it lies between the leap days before
and after a century year that has none. -/
theorem exists_leapDay (first : Nat) {span : Nat} (long : 1461 ≤ span) :
    (∃ year, 1 ≤ year ∧ isLeap year = true ∧ first ≤ leapDayOf year ∧ leapDayOf year < first + span) ∨
      ∃ c, isLeap (100 * c) = false ∧ leapDayOf (100 * c - 4) < first ∧
        first + span ≤ leapDayOf (100 * c + 4) := by
  have some_later : ∃ q, first ≤ leapDayOf (4 * q + 4) := ⟨first, by rw [leapDayOf_four]; omega⟩
  -- the first leap day from here on if every fourth year had one
  obtain ⟨q, later, least⟩ : ∃ q, first ≤ leapDayOf (4 * q + 4) ∧
      ∀ r < q, leapDayOf (4 * r + 4) < first :=
    ⟨Nat.find some_later, Nat.find_spec some_later, fun r lt => Nat.lt_of_not_le (Nat.find_min some_later lt)⟩
  have near : leapDayOf (4 * q + 4) < first + 1461 := by
    cases q with
    | zero =>
      rw [leapDayOf_four]
      omega
    | succ r =>
      have before := least r (Nat.lt_succ_self r)
      rw [leapDayOf_four] at before ⊢
      omega
  cases leap : isLeap (4 * q + 4) with
  | true => exact .inl ⟨4 * q + 4, Nat.le_add_left 1 _, leap, later, by omega⟩
  | false =>
    have century : (4 * q + 4) % 100 = 0 ∧ (4 * q + 4) % 400 ≠ 0 := by
      simp only [isLeap, Bool.and_eq_false_iff, Bool.or_eq_false_iff, beq_eq_false_iff_ne,
        bne_eq_false_iff_eq] at leap
      omega
    obtain ⟨c, at_century⟩ : ∃ c, 4 * q + 4 = 100 * c := ⟨(4 * q + 4) / 100, by omega⟩
    have next_leap : isLeap (4 * (q + 1) + 4) = true := by
      simp only [isLeap, Bool.and_eq_true, Bool.or_eq_true, beq_iff_eq, bne_iff_ne]
      omega
    rcases Nat.lt_or_ge (leapDayOf (4 * (q + 1) + 4)) (first + span) with inside | beyond
    · refine .inl ⟨4 * (q + 1) + 4, Nat.le_add_left 1 _, next_leap, ?_, inside⟩
      rw [leapDayOf_four] at later ⊢
      omega
    · obtain ⟨r, rfl⟩ : ∃ r, q = r + 1 := Nat.exists_eq_succ_of_ne_zero (by omega)
      refine .inr ⟨c, at_century ▸ leap, ?_, ?_⟩
      · have year : 100 * c - 4 = 4 * r + 4 := by omega
        rw [year]
        exact least r (Nat.lt_succ_self r)
      · have year : 100 * c + 4 = 4 * (r + 1 + 1) + 4 := by omega
        rw [year]
        exact beyond

end Settler.Calendar
