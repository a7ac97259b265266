import Mathlib.Algebra.Order.Field.Power
import Mathlib.Data.Rat.Cast.Order
import Mathlib.Tactic.Ring
import Settler.Decimal.Binary64

/-!
The value of a binary number is a fraction, and what has few bits enough is rounded to a finite one.
-/

namespace Settler.Binary64

/-- A fraction of a sign. -/
def signed (negative : Bool) (v : ℚ) : ℚ := if negative then -v else v

/-- The exact value of a finite number. -/
def value : Binary64 → ℚ
  | .finite negative m e => signed negative (m * 2 ^ e)
  | _ => 0

/-- It is neither infinite nor not a number. -/
def IsFinite : Binary64 → Prop
  | .finite _ _ _ => True
  | _ => False

theorem value_finite (negative : Bool) (m : Nat) (e : ℤ) :
    (finite negative m e).value = signed negative (m * 2 ^ e) := rfl

/-- A fraction that is scaled is divided by the power of two. -/
theorem scaled_div (num den : Nat) (e : ℤ) :
    ((scaled num den e).1 : ℚ) / (scaled num den e).2 = num / den / 2 ^ e := by
  unfold scaled
  split
  · next nonneg =>
    obtain ⟨k, rfl⟩ := Int.eq_ofNat_of_zero_le nonneg
    rw [Int.toNat_natCast, zpow_natCast, Nat.cast_mul, Nat.pow_eq, Nat.cast_pow, Nat.cast_ofNat, div_div]
  · next negative =>
    obtain ⟨k, rfl⟩ : ∃ k : Nat, e = -k := ⟨(-e).toNat, by omega⟩
    rw [neg_neg, Int.toNat_natCast, zpow_neg, zpow_natCast, Nat.cast_mul, Nat.pow_eq, Nat.cast_pow,
      Nat.cast_ofNat, div_inv_eq_mul]
    ring

/-- A finite number's size as a fraction. -/
theorem scaled_size (m : Nat) (e : ℤ) :
    ((scaled m 1 (-e)).1 : ℚ) / (scaled m 1 (-e)).2 = m * 2 ^ e := by
  rw [scaled_div, Nat.cast_one, div_one, zpow_neg, div_inv_eq_mul]

theorem exists_of_isFinite {x : Binary64} (h : x.IsFinite) : ∃ a m e, x = finite a m e := by
  cases x with
  | finite a m e => exact ⟨a, m, e, rfl⟩
  | _ => exact h.elim

/-- What is rounded is finite if it has no more than 1023 bits. -/
theorem isFinite_ofFraction {negative : Bool} {num den : Nat} (small : (num.log2 : ℤ) - den.log2 < 1023) :
    (ofFraction negative num den).IsFinite := by
  have exponent : exponentFor num den ≤ 970 := by
    have least : minExponent = -1074 := rfl
    unfold exponentFor
    dsimp only
    split <;> omega
  unfold ofFraction
  split
  · trivial
  · dsimp only
    generalize exponentFor num den = e at exponent
    have most : maxExponent = 971 := rfl
    split
    all_goals
      rw [if_neg (by omega)]
      trivial

/-- An integer of no more than 1023 bits has a nearest number. -/
theorem exists_ofInt? {n : ℤ} {bits : Nat} (small : n.natAbs < 2 ^ bits) (few : bits ≤ 1023) :
    ∃ x, ofInt? n = some x := by
  have log : n.natAbs.log2 < 1023 := by
    rcases eq_or_ne n.natAbs 0 with zero | nonzero
    · rw [zero]
      decide
    · exact Nat.lt_of_lt_of_le ((Nat.log2_lt nonzero).mpr small) few
  have finite : (nearest n).IsFinite := by
    refine isFinite_ofFraction ?_
    rw [show Nat.log2 1 = 0 by decide, Nat.cast_zero, sub_zero]
    exact_mod_cast log
  obtain ⟨a, m, e, same⟩ := exists_of_isFinite finite
  exact ⟨_, by rw [ofInt?, same]⟩

end Settler.Binary64
