import Mathlib.Algebra.Ring.Nat
import Settler.Calendar.Date

/-!
The days of a month follow one another.

A day stands in its year at a place that is made up of cycles of 400, 100, 4 and 1 years (`Cycles`),
and there is only one such place. So while a month lasts, the next day has the next place in the same
month, and every day up to `nextMonthStart` is in the month of the first.
-/

namespace Settler.Calendar

/-! ### Years -/

/-- A day's place: so many whole cycles of 400, 100, 4 and 1 years, and so many days. Only a year that
closes a cycle of 4 has a 366th day, and it has none if it closes a cycle of 100 and not one of 400. -/
structure Cycles (day n400 n100 n4 n1 index : Nat) : Prop where
  sum : day = n400 * 146097 + n100 * 36524 + n4 * 1461 + n1 * 365 + index
  centuries : n100 ≤ 3
  fours : n4 ≤ 24
  years : n1 ≤ 3
  index : index < 365 ∨ index = 365 ∧ n1 = 3 ∧ (n4 ≠ 24 ∨ n100 = 3)

/-- The year that comes after the cycles. -/
def yearAfter (n400 n100 n4 n1 : Nat) : Nat := n400 * 400 + n100 * 100 + n4 * 4 + n1 + 1

theorem isLeap_yearAfter (n400 : Nat) {n100 n4 n1 : Nat} (centuries : n100 ≤ 3) (fours : n4 ≤ 24)
    (years : n1 ≤ 3) :
    isLeap (yearAfter n400 n100 n4 n1) = true ↔ n1 = 3 ∧ (n4 ≠ 24 ∨ n100 = 3) := by
  simp only [isLeap, yearAfter, Bool.and_eq_true, Bool.or_eq_true, beq_iff_eq, bne_iff_ne]
  omega

/-- Every day has a place. -/
theorem exists_cycles (day : Nat) : ∃ n400 n100 n4 n1 index, Cycles day n400 n100 n4 n1 index ∧
    yearPlace day = (yearAfter n400 n100 n4 n1, index) := by
  refine ⟨_, _, _, _, _, ?_, rfl⟩
  constructor <;> omega

/-- A day has one place only. -/
theorem yearPlace_of_cycles {day n400 n100 n4 n1 index : Nat}
    (h : Cycles day n400 n100 n4 n1 index) :
    yearPlace day = (yearAfter n400 n100 n4 n1, index) := by
  obtain ⟨sum, centuries, fours, years, hindex⟩ := h
  have h400 : day / 146097 = n400 := by omega
  have r400 : day % 146097 = n100 * 36524 + n4 * 1461 + n1 * 365 + index := by omega
  have h100 : min 3 (day % 146097 / 36524) = n100 := by omega
  have r100 : day % 146097 - n100 * 36524 = n4 * 1461 + n1 * 365 + index := by omega
  have h4 : (n4 * 1461 + n1 * 365 + index) / 1461 = n4 := by omega
  have r4 : (n4 * 1461 + n1 * 365 + index) % 1461 = n1 * 365 + index := by omega
  have h1 : min 3 ((n1 * 365 + index) / 365) = n1 := by omega
  have r1 : n1 * 365 + index - n1 * 365 = index := by omega
  simp only [yearPlace, h400, h100, r100, h4, r4, h1, r1, yearAfter]

/-- The length of a year. -/
def yearLength (year : Nat) : Nat := (monthLengths (isLeap year)).sum

theorem yearLength_eq (year : Nat) : yearLength year = if isLeap year then 366 else 365 := by
  unfold yearLength
  cases isLeap year <;> rfl

theorem yearPlace_index_lt (day : Nat) : (yearPlace day).2 < yearLength (yearPlace day).1 := by
  obtain ⟨n400, n100, n4, n1, index, h, place⟩ := exists_cycles day
  rw [place, yearLength_eq]
  have closes := isLeap_yearAfter n400 h.centuries h.fours h.years
  have := h.index
  split
  · omega
  · next common =>
    rw [closes] at common
    omega

theorem yearPlace_index_le (day : Nat) : (yearPlace day).2 ≤ day := by
  obtain ⟨n400, n100, n4, n1, index, h, place⟩ := exists_cycles day
  rw [place, h.sum]
  exact Nat.le_add_left _ _

/-- While the year lasts, the next day has the next place in it. -/
theorem yearPlace_succ {day : Nat} (h : (yearPlace day).2 + 1 < yearLength (yearPlace day).1) :
    yearPlace (day + 1) = ((yearPlace day).1, (yearPlace day).2 + 1) := by
  obtain ⟨n400, n100, n4, n1, index, cycles, place⟩ := exists_cycles day
  rw [place] at h ⊢
  rw [yearLength_eq] at h
  have closes := isLeap_yearAfter n400 cycles.centuries cycles.fours cycles.years
  apply yearPlace_of_cycles
  refine ⟨by rw [cycles.sum]; omega, cycles.centuries, cycles.fours, cycles.years, ?_⟩
  dsimp only at h
  split at h
  · next leap =>
    rw [closes] at leap
    omega
  · omega

/-! ### Months -/

/-- A place so many days later in the same month. -/
def MonthPlace.later (p : MonthPlace) (days : Nat) : MonthPlace := { p with index := p.index + days }

@[simp] theorem MonthPlace.later_month (p : MonthPlace) (days : Nat) :
    (p.later days).month = p.month := rfl

@[simp] theorem MonthPlace.later_index (p : MonthPlace) (days : Nat) :
    (p.later days).index = p.index + days := rfl

@[simp] theorem MonthPlace.later_length (p : MonthPlace) (days : Nat) :
    (p.later days).length = p.length := rfl

@[simp] theorem MonthPlace.later_zero (p : MonthPlace) : p.later 0 = p := rfl

theorem MonthPlace.later_later (p : MonthPlace) (days more : Nat) :
    (p.later days).later more = p.later (days + more) := by
  simp [later, Nat.add_assoc]

/-- If the next day is in the same month, it has the next place in it. -/
theorem monthPlace_succ {month index : Nat} {lengths : List Nat}
    (h : (monthPlace month index lengths).index + 1 < (monthPlace month index lengths).length) :
    monthPlace month (index + 1) lengths = (monthPlace month index lengths).later 1 := by
  induction lengths generalizing month index with
  | nil => exact absurd h (Nat.lt_irrefl _)
  | cons length rest ih =>
    by_cases inside : index < length
    · simp only [monthPlace, inside, if_true] at h ⊢
      rw [if_pos h]
      rfl
    · simp only [monthPlace, inside, if_false] at h ⊢
      rw [if_neg (by omega), ← ih h]
      congr 1
      omega

/-- A month ends no later than the months do. -/
theorem monthPlace_end (month : Nat) {index : Nat} {lengths : List Nat} (h : index < lengths.sum) :
    (monthPlace month index lengths).index ≤ index ∧
      index - (monthPlace month index lengths).index + (monthPlace month index lengths).length
        ≤ lengths.sum := by
  induction lengths generalizing month index with
  | nil => cases h
  | cons length rest ih =>
    rw [List.sum_cons] at h ⊢
    by_cases inside : index < length
    · simp only [monthPlace, inside, if_true]
      omega
    · simp only [monthPlace, inside, if_false]
      have later : index - length < rest.sum := by omega
      obtain ⟨le, ends⟩ := ih (month + 1) later
      omega

theorem monthPlace_length_mem (month : Nat) {index : Nat} {lengths : List Nat}
    (h : index < lengths.sum) : (monthPlace month index lengths).length ∈ lengths := by
  induction lengths generalizing month index with
  | nil => cases h
  | cons length rest ih =>
    rw [List.sum_cons] at h
    by_cases inside : index < length
    · simp only [monthPlace, inside, if_true]
      exact List.mem_cons_self
    · simp only [monthPlace, inside, if_false]
      exact List.mem_cons_of_mem _ (ih (month + 1) (by omega))

theorem placeOf_index_le (day : Nat) : (placeOf day).index ≤ day :=
  Nat.le_trans (monthPlace_end 1 (yearPlace_index_lt day)).1 (yearPlace_index_le day)

/-- No month has more than 31 days. -/
theorem placeOf_length_le (day : Nat) : (placeOf day).length ≤ 31 := by
  have mem := monthPlace_length_mem 1 (yearPlace_index_lt day)
  have short : ∀ leap, ∀ length ∈ monthLengths leap, length ≤ 31 := by decide
  exact short _ _ mem

/-- While the month lasts, the next day has the next place in it. -/
theorem placeOf_succ {day : Nat} (h : (placeOf day).index + 1 < (placeOf day).length) :
    placeOf (day + 1) = (placeOf day).later 1 := by
  obtain ⟨le, ends⟩ := monthPlace_end 1 (yearPlace_index_lt day)
  have lasts : (yearPlace day).2 + 1 < yearLength (yearPlace day).1 := by
    simp only [placeOf] at h
    unfold yearLength
    omega
  rw [placeOf, yearPlace_succ lasts]
  exact monthPlace_succ h

/-- The days from a day on to the end of its month. -/
theorem placeOf_add {day : Nat} {more : Nat} (h : (placeOf day).index + more < (placeOf day).length) :
    placeOf (day + more) = (placeOf day).later more := by
  induction more with
  | zero => rw [Nat.add_zero, MonthPlace.later_zero]
  | succ more ih =>
    have before := ih (by omega)
    rw [← Nat.add_assoc, placeOf_succ, before, MonthPlace.later_later]
    rw [before, MonthPlace.later_index, MonthPlace.later_length, Nat.add_assoc]
    exact h

/-- Every day up to the first one of the next month is in the same month. -/
theorem month_eq_of_lt_nextMonthStart {day later : Nat} (le : day ≤ later)
    (lt : later < nextMonthStart day) : (placeOf later).month = (placeOf day).month := by
  have := placeOf_index_le day
  obtain ⟨more, rfl⟩ := Nat.exists_eq_add_of_le le
  have inside : (placeOf day).index + more < (placeOf day).length := by
    simp only [nextMonthStart] at lt
    omega
  rw [placeOf_add inside, MonthPlace.later_month]

/-- The next month starts at most 31 days later. -/
theorem nextMonthStart_le (day : Nat) : nextMonthStart day ≤ day + 31 := by
  have := placeOf_length_le day
  simp only [nextMonthStart]
  omega

end Settler.Calendar
