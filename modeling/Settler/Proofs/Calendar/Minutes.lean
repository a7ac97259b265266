import Settler.Cron.Next

/-!
Moments that are whole minutes apart.

Ticks and schedules go from minute to minute on the wall clock of one moment; `later` and `earlier`
are those steps without the range check, and they agree with `add?` in the calendar (`add?_eq`).
-/

namespace Settler.Calendar.Moment

/-- The moment a number of minutes later. -/
def later (m : Moment) (k : Nat) : Moment := { m with wall := m.wall + k * minute }

/-- The moment a number of minutes earlier. -/
def earlier (m : Moment) (k : Nat) : Moment := { m with wall := m.wall - k * minute }

-- a moment is taken apart first, or the wall clocks are compared, microsecond by microsecond
@[simp]
theorem later_offset (m : Moment) (k : Nat) : (m.later k).offset = m.offset := by
  cases m
  rfl

@[simp]
theorem earlier_offset (m : Moment) (k : Nat) : (m.earlier k).offset = m.offset := by
  cases m
  rfl

@[simp]
theorem startOfMinute_offset (m : Moment) : m.startOfMinute.offset = m.offset := by
  cases m
  rfl

theorem later_wall (m : Moment) (k : Nat) : (m.later k).wall = m.wall + k * minute := rfl

theorem earlier_wall (m : Moment) (k : Nat) : (m.earlier k).wall = m.wall - k * minute := rfl

theorem later_zero (m : Moment) : m.later 0 = m := by
  have wall : m.wall + 0 * minute = m.wall := by omega
  rw [later, wall]

theorem later_later (m : Moment) (j k : Nat) : (m.later j).later k = m.later (j + k) := by
  unfold later
  dsimp only
  rw [Nat.add_mul, Nat.add_assoc]

theorem instant_later (m : Moment) (k : Nat) : (m.later k).instant = m.instant + k * minute := by
  unfold instant later
  dsimp only
  rw [Int.natCast_add, Int.natCast_mul]
  omega

theorem instant_earlier {m : Moment} {k : Nat} (h : k * minute ≤ m.wall) :
    (m.earlier k).instant = m.instant - k * minute := by
  unfold instant earlier
  dsimp only
  rw [Int.natCast_sub h, Int.natCast_mul]
  omega

theorem startOfMinute_le (m : Moment) : m.startOfMinute.wall ≤ m.wall := Nat.div_mul_le_self _ _

theorem minute_pos : 0 < minute := by decide

/-- In the calendar, adding a span is adding it to the wall clock. -/
theorem add?_eq {m : Moment} {span : Int} (low : 0 ≤ m.wall + span)
    (high : m.wall + span < (dayCount * wholeDay : Nat)) :
    m.add? span = some { m with wall := (m.wall + span).toNat } := by
  unfold add? staysInRange
  generalize dayCount * wholeDay = past at high ⊢
  rw [if_pos]
  rw [Bool.and_eq_true, decide_eq_true_eq, decide_eq_true_eq]
  omega

theorem add?_later {m : Moment} {k : Nat} (high : m.wall + k * minute < dayCount * wholeDay) :
    m.add? (k * minute) = some (m.later k) := by
  unfold later
  generalize minute = n at high ⊢
  have sum : (m.wall + k * n : Int) = (m.wall + k * n : Nat) := by push_cast; rfl
  rw [add?_eq (by omega) (by omega), sum, Int.toNat_natCast]

theorem add?_minute {m : Moment} (high : m.wall + minute < dayCount * wholeDay) :
    m.add? minute = some (m.later 1) := by
  have once : ((1 : Nat) * minute : Int) = minute := by omega
  rw [← once]
  exact add?_later (by omega)

theorem add?_earlier {m : Moment} {k : Nat} (low : k * minute ≤ m.wall)
    (high : m.wall < dayCount * wholeDay) : m.add? (-(k * minute)) = some (m.earlier k) := by
  unfold earlier
  generalize minute = n at low ⊢
  have difference : (m.wall + -(k * n) : Int) = (m.wall - k * n : Nat) := by
    push_cast [low]
    omega
  rw [add?_eq (by omega) (by omega), difference, Int.toNat_natCast]

theorem add?_minute_back {m : Moment} (low : minute ≤ m.wall) (high : m.wall < dayCount * wholeDay) :
    m.add? (-minute) = some (m.earlier 1) := by
  have once : (-((1 : Nat) * minute) : Int) = -minute := by omega
  rw [← once]
  exact add?_earlier (by omega) high

end Settler.Calendar.Moment
