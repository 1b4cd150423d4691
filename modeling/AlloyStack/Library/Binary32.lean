import Mathlib.Data.Int.Log
import Mathlib.Data.Rat.Floor
import Mathlib.Tactic.Linarith
import Mathlib.Tactic.NormNum

/-! Rounding of rational numbers that are not negative to binary32, to the nearest number and to the
even one in the middle. -/
namespace Binary32

/-- The nearest integer, or the even one of two. -/
def nearest (x : ℚ) : ℤ :=
  if 2 * (x - ⌊x⌋) < 1 ∨ 2 * (x - ⌊x⌋) = 1 ∧ ⌊x⌋ % 2 = 0 then ⌊x⌋ else ⌊x⌋ + 1

/-- The last place of a number with 24 significant bits, or of a subnormal one. -/
def exponent (x : ℚ) : ℤ := max (Int.log 2 x - 23) (-149)

/-- The binary32 number next to `x`; `none` is the infinity. -/
def round (x : ℚ) : Option ℚ :=
  let rounded : ℚ := nearest (x / 2 ^ exponent x) * 2 ^ exponent x
  if rounded < 2 ^ 128 then some rounded else none

theorem nearest_le (x : ℚ) : 2 * nearest x ≤ 2 * x + 1 := by
  have low := Int.floor_le x
  unfold nearest
  split
  · linarith
  next up =>
    push Not at up
    push_cast
    linarith [up.1]

theorem floor_le_nearest (x : ℚ) : ⌊x⌋ ≤ nearest x := by
  unfold nearest
  split <;> omega

theorem exponent_pos (x : ℚ) : (0 : ℚ) < 2 ^ exponent x := zpow_pos (by norm_num) _

theorem place_le_of_pos {x : ℚ} (pos : 0 < x) : (2 : ℚ) ^ (Int.log 2 x - 23) ≤ x := by
  have below : (2 : ℚ) ^ (Int.log 2 x - 23) ≤ 2 ^ Int.log 2 x :=
    zpow_le_zpow_right₀ (by norm_num) (by omega)
  have log : (2 : ℚ) ^ Int.log 2 x ≤ x := by
    exact_mod_cast Int.zpow_log_le_self (b := 2) (by norm_num) pos
  exact below.trans log

/-- One place is at most the number itself, or below one. -/
theorem place_le {x : ℚ} (nonneg : 0 ≤ x) : (2 : ℚ) ^ exponent x ≤ x + 1 := by
  have small : (2 : ℚ) ^ (-149 : ℤ) ≤ 1 := zpow_le_one_of_nonpos₀ (by norm_num) (by norm_num)
  rcases max_choice (Int.log 2 x - 23) (-149) with same | same
  · rw [exponent, same]
    rcases nonneg.eq_or_lt with rfl | pos
    · norm_num
    · linarith [place_le_of_pos pos]
  · rw [exponent, same]
    linarith

theorem round_finite {x : ℚ} (nonneg : 0 ≤ x) (small : x < 2 ^ 126) :
    ∃ y, round x = some y ∧ y ≤ 2 * x + 1 := by
  have pos := exponent_pos x
  have place := place_le nonneg
  have upper : (nearest (x / 2 ^ exponent x) : ℚ) * 2 ^ exponent x ≤ 2 * x + 1 := by
    have twice := mul_le_mul_of_nonneg_right (nearest_le (x / 2 ^ exponent x)) pos.le
    rw [add_mul, mul_assoc, mul_assoc, div_mul_cancel₀ x pos.ne', one_mul] at twice
    linarith
  refine ⟨_, if_pos ?_, upper⟩
  calc (nearest (x / 2 ^ exponent x) : ℚ) * 2 ^ exponent x ≤ 2 * x + 1 := upper
    _ < 2 ^ 128 := by linarith

theorem round_zero : round 0 = some 0 := by simp [round, nearest]

theorem round_nonneg {x y : ℚ} (nonneg : 0 ≤ x) (rounded : round x = some y) : 0 ≤ y := by
  have floor : 0 ≤ ⌊x / 2 ^ exponent x⌋ :=
    Int.floor_nonneg.mpr (div_nonneg nonneg (exponent_pos x).le)
  have least : (0 : ℚ) ≤ nearest (x / 2 ^ exponent x) := by
    exact_mod_cast floor.trans (floor_le_nearest _)
  simp only [round, Option.ite_none_right_eq_some, Option.some.injEq] at rounded
  rw [← rounded.2]
  exact mul_nonneg least (exponent_pos x).le

/-- A number that is not below the least positive one loses less than half of its value. -/
theorem round_lower {x y : ℚ} (least : (2 : ℚ) ^ (-149 : ℤ) ≤ x) (rounded : round x = some y) :
    x < 2 * y := by
  have pos := exponent_pos x
  have positive : 0 < x := (zpow_pos (by norm_num) _).trans_le least
  have place : (2 : ℚ) ^ exponent x ≤ x := by
    rcases max_choice (Int.log 2 x - 23) (-149) with same | same
    · rw [exponent, same]
      exact place_le_of_pos positive
    · rwa [exponent, same]
  have one : 1 ≤ ⌊x / 2 ^ exponent x⌋ := by
    rw [Int.le_floor, Int.cast_one, le_div_iff₀ pos, one_mul]
    exact place
  have twice : x / 2 ^ exponent x < 2 * nearest (x / 2 ^ exponent x) := by
    have above := Int.lt_floor_add_one (x / 2 ^ exponent x)
    have below : (⌊x / 2 ^ exponent x⌋ : ℚ) ≤ nearest (x / 2 ^ exponent x) := by
      exact_mod_cast floor_le_nearest _
    have least : (1 : ℚ) ≤ ⌊x / 2 ^ exponent x⌋ := by exact_mod_cast one
    linarith
  simp only [round, Option.ite_none_right_eq_some, Option.some.injEq] at rounded
  rwa [← rounded.2, ← mul_assoc, ← div_lt_iff₀ pos]

/-- The numbers next to `2 ^ 128` are rounded to the infinity. -/
theorem round_infinite {x : ℚ} (low : 2 ^ 128 - 2 ^ 103 ≤ x) (high : x < 2 ^ 128) :
    round x = none := by
  have positive : 0 < x := lt_of_lt_of_le (by norm_num) low
  have log : Int.log 2 x = 127 := by
    have above : (127 : ℤ) ≤ Int.log 2 x :=
      (Int.zpow_le_iff_le_log (b := 2) (by norm_num) positive).mp (by norm_num; linarith)
    have below : Int.log 2 x < 128 :=
      (Int.lt_zpow_iff_log_lt (b := 2) (by norm_num) positive).mp (by norm_num; linarith)
    omega
  have place : exponent x = 104 := by
    rw [exponent, log]
    norm_num
  have floor : ⌊x / 2 ^ (104 : ℤ)⌋ = 2 ^ 24 - 1 := by
    rw [Int.floor_eq_iff, le_div_iff₀ (by norm_num), div_lt_iff₀ (by norm_num)]
    constructor
    · norm_num
      linarith
    · norm_num
      linarith
  have half : 1 ≤ 2 * (x / 2 ^ (104 : ℤ) - ((2 ^ 24 - 1 : ℤ) : ℚ)) := by
    have scaled : (2 ^ 24 - 1 + 1 / 2 : ℚ) ≤ x / 2 ^ (104 : ℤ) := by
      rw [le_div_iff₀ (by norm_num)]
      norm_num
      linarith
    push_cast
    linarith
  have up : nearest (x / 2 ^ (104 : ℤ)) = 2 ^ 24 := by
    rw [nearest, floor, if_neg]
    · norm_num
    · rintro (less | ⟨-, even⟩)
      · exact absurd half (not_le.mpr less)
      · norm_num at even
  rw [round, place, up]
  norm_num

end Binary32
