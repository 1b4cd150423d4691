import Mathlib.Data.Nat.Bitwise
import Mathlib.Order.Bounds.Basic

/-! Rounding to multiples, by division and by clearing the low bits of a word. -/
namespace Rounding

/-- The mask keeps the bits from `k` on. -/
theorem and_mask {x w k : Nat} (small : x < 2 ^ w) :
    x &&& (2 ^ (w - k) - 1) * 2 ^ k = x / 2 ^ k * 2 ^ k := by
  apply Nat.eq_of_testBit_eq
  intro i
  rw [Nat.testBit_and, Nat.testBit_mul_two_pow, Nat.testBit_mul_two_pow,
    Nat.testBit_two_pow_sub_one, Nat.testBit_div_two_pow]
  by_cases low : k ≤ i
  · rw [Nat.sub_add_cancel low]
    by_cases inside : i < w
    · have bit : i - k < w - k := by omega
      simp [low, bit]
    · have high : x.testBit i = false :=
        Nat.testBit_lt_two_pow (small.trans_le (Nat.pow_le_pow_right (by decide) (by omega)))
      simp [high]
  · simp [low]

theorem isGreatest_down (x n : Nat) : IsGreatest {m | n ∣ m ∧ m ≤ x} (x / n * n) := by
  refine ⟨⟨Nat.dvd_mul_left .., Nat.div_mul_le_self ..⟩, ?_⟩
  rintro m ⟨⟨q, rfl⟩, below⟩
  rcases Nat.eq_zero_or_pos n with rfl | positive
  · simp
  · rw [Nat.mul_comm]
    exact Nat.mul_le_mul_right n ((Nat.le_div_iff_mul_le positive).mpr (by rwa [Nat.mul_comm]))

theorem isLeast_up (x : Nat) {n : Nat} (positive : 0 < n) :
    IsLeast {m | n ∣ m ∧ x ≤ m} ((x + (n - 1)) / n * n) := by
  have whole := Nat.div_add_mod (x + (n - 1)) n
  have rest := Nat.mod_lt (x + (n - 1)) positive
  rw [Nat.mul_comm] at whole
  refine ⟨⟨Nat.dvd_mul_left .., by omega⟩, ?_⟩
  rintro m ⟨⟨q, rfl⟩, above⟩
  rw [Nat.mul_comm n q]
  refine Nat.mul_le_mul_right n (Nat.lt_succ_iff.mp ((Nat.div_lt_iff_lt_mul positive).mpr ?_))
  rw [Nat.succ_mul, Nat.mul_comm q n]
  omega

/-- A number rounded up and down differs by one step at most. -/
theorem up_le_down_add (x : Nat) {n : Nat} (positive : 0 < n) :
    (x + (n - 1)) / n * n ≤ x / n * n + n := by
  rw [← Nat.succ_mul]
  refine Nat.mul_le_mul_right n (Nat.lt_succ_iff.mp ((Nat.div_lt_iff_lt_mul positive).mpr ?_))
  have whole := Nat.div_add_mod x n
  have rest := Nat.mod_lt x positive
  rw [Nat.mul_comm] at whole
  rw [Nat.succ_mul, Nat.succ_mul]
  omega

end Rounding
