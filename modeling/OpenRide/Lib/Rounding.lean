import Mathlib.Data.Rat.Floor
import Mathlib.Tactic.Linarith

/-!
# Rounding to a number of decimals

Ties go to the even neighbour.  Rounding keeps the order (`roundHalfEven_mono`, `roundTo_mono`), so
a bound on a number is one on what is reported of it.
-/

set_option autoImplicit false

namespace Lib

/-- The nearest whole number, ties to even. -/
def roundHalfEven (q : ℚ) : ℤ :=
  let n := ⌊q⌋
  if q - n < 1 / 2 then n
  else if 1 / 2 < q - n then n + 1
  else if n % 2 = 0 then n else n + 1

theorem floor_le_roundHalfEven (q : ℚ) : ⌊q⌋ ≤ roundHalfEven q ∧ roundHalfEven q ≤ ⌊q⌋ + 1 := by
  simp only [roundHalfEven]
  split_ifs <;> omega

/-- **Rounding keeps the order.** -/
theorem roundHalfEven_mono {q r : ℚ} (h : q ≤ r) : roundHalfEven q ≤ roundHalfEven r := by
  obtain hlt | heq := lt_or_eq_of_le (Int.floor_le_floor h)
  · have hq := (floor_le_roundHalfEven q).2
    have hr := (floor_le_roundHalfEven r).1
    omega
  · -- between two neighbours the larger number is not rounded down when the smaller is rounded up
    simp only [roundHalfEven, heq]
    split_ifs <;> first | omega | linarith

theorem abs_roundHalfEven_sub_le_half (q : ℚ) : |(roundHalfEven q : ℚ) - q| ≤ 1 / 2 := by
  have hle := Int.floor_le q
  have hlt := Int.lt_floor_add_one q
  simp only [roundHalfEven]
  split_ifs <;> rw [abs_le] <;> push_cast <;> constructor <;> linarith

/-- **No whole number is nearer.** -/
theorem abs_roundHalfEven_sub_le (q : ℚ) (n : ℤ) : |(roundHalfEven q : ℚ) - q| ≤ |n - q| := by
  rcases eq_or_ne n (roundHalfEven q) with rfl | hne
  · exact le_rfl
  · have hone : (1 : ℚ) ≤ |(n : ℚ) - roundHalfEven q| := by
      exact_mod_cast Int.one_le_abs (sub_ne_zero.mpr hne)
    have hhalf := abs_roundHalfEven_sub_le_half q
    have htriangle := abs_sub_le (n : ℚ) q (roundHalfEven q)
    rw [abs_sub_comm q] at htriangle
    linarith

/-- `round(q, digits)`. -/
def roundTo (digits : ℕ) (q : ℚ) : ℚ := roundHalfEven (q * 10 ^ digits) / 10 ^ digits

theorem roundTo_mono (digits : ℕ) {q r : ℚ} (h : q ≤ r) : roundTo digits q ≤ roundTo digits r := by
  have hpos : (0 : ℚ) < 10 ^ digits := by positivity
  have hint := roundHalfEven_mono (mul_le_mul_of_nonneg_right h hpos.le)
  exact div_le_div_of_nonneg_right (Int.cast_le.mpr hint) hpos.le

theorem roundTo_lt_roundTo (digits : ℕ) (hdigits : 1 ≤ digits) {q r : ℚ} (h : q + 1 ≤ r) :
    roundTo digits q < roundTo digits r := by
  have hten : (10 : ℚ) ≤ 10 ^ digits := le_self_pow₀ (by norm_num) (by omega)
  have hq := (abs_le.mp (abs_roundHalfEven_sub_le_half (q * 10 ^ digits))).2
  have hr := (abs_le.mp (abs_roundHalfEven_sub_le_half (r * 10 ^ digits))).1
  have hscaled := mul_le_mul_of_nonneg_right h (show (0 : ℚ) ≤ 10 ^ digits by positivity)
  exact div_lt_div_of_pos_right (by linarith) (by positivity)

end Lib
