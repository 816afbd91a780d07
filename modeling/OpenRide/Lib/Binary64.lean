import OpenRide.Lib.Rounding
import Mathlib.Data.Int.Log
import Mathlib.Tactic.FieldSimp
import Mathlib.Tactic.Positivity

/-!
# Rounding to 53 binary digits

A double is a whole number of at most 53 binary digits, scaled by a power of two (`IsDouble`); what
is computed with doubles is rounded to the nearest one (`toDouble`, ties to even).  Exponents are
not bounded here: what would be too large or too small for a binary64 is outside of this file.

What is used of rounding is that no double is nearer (`toDouble_nearest`), so that it keeps the
order and leaves the doubles as they are.  Beyond that there are the neighbours of a double
(`IsDouble.neighbours`) and the relative error (`toDouble_le_mul`).
-/

set_option autoImplicit false

namespace Lib

/-! ## Rounding to the nearest of some values -/

/-- A function that takes every number to a nearest one of a set. -/
structure RoundsToNearest (F : Set ℚ) (rnd : ℚ → ℚ) : Prop where
  mem : ∀ x, rnd x ∈ F
  nearest : ∀ x, ∀ f ∈ F, |rnd x - x| ≤ |f - x|

namespace RoundsToNearest

variable {F : Set ℚ} {rnd : ℚ → ℚ} {x y f : ℚ}

theorem eq_self (h : RoundsToNearest F rnd) (hf : f ∈ F) : rnd f = f := by
  have hle := h.nearest f f hf
  rw [sub_self, abs_zero] at hle
  exact sub_eq_zero.mp (abs_eq_zero.mp (le_antisymm hle (abs_nonneg _)))

/-- **Rounding keeps the order.** -/
theorem mono (h : RoundsToNearest F rnd) (hxy : x ≤ y) : rnd x ≤ rnd y := by
  by_contra! hlt
  have hx := h.nearest x _ (h.mem y)
  have hy := h.nearest y _ (h.mem x)
  -- both are as far from the one as from the other, so they are the same
  have hx' : rnd x - x ≤ x - rnd y := by
    rcases le_total (rnd y) x with hle | hle
    · rw [abs_of_nonpos (sub_nonpos.mpr hle)] at hx
      linarith [le_abs_self (rnd x - x)]
    · rw [abs_of_nonneg (sub_nonneg.mpr hle)] at hx
      linarith [le_abs_self (rnd x - x)]
  have hy' : y - rnd y ≤ rnd x - y := by
    rcases le_total y (rnd x) with hle | hle
    · rw [abs_of_nonneg (sub_nonneg.mpr hle)] at hy
      linarith [neg_abs_le (rnd y - y)]
    · rw [abs_of_nonpos (sub_nonpos.mpr hle)] at hy
      linarith [neg_abs_le (rnd y - y)]
  obtain rfl : x = y := by linarith
  exact lt_irrefl _ hlt

theorem le_of_ge (h : RoundsToNearest F rnd) (hf : f ∈ F) (hx : f ≤ x) : f ≤ rnd x :=
  (h.eq_self hf).ge.trans (h.mono hx)

end RoundsToNearest

/-! ## Doubles -/

/-- A whole number of at most 53 binary digits, scaled. -/
def IsDouble (q : ℚ) : Prop := ∃ m e : ℤ, |m| ≤ 2 ^ 53 ∧ q = m * 2 ^ e

theorem IsDouble.neg {q : ℚ} (h : IsDouble q) : IsDouble (-q) := by
  obtain ⟨m, e, hm, rfl⟩ := h
  exact ⟨-m, e, by rwa [abs_neg], by push_cast; ring⟩

theorem isDouble_natCast {n : ℕ} (h : n ≤ 2 ^ 53) : IsDouble n :=
  ⟨n, 0, by rw [Nat.abs_cast]; exact_mod_cast h, by simp⟩

/-- The power of two below a positive number, over 2 ^ 52: the unit of its last digit. -/
def ulp (x : ℚ) : ℚ := 2 ^ (Int.log 2 x - 52)

theorem ulp_pos (x : ℚ) : 0 < ulp x := zpow_pos two_pos _

theorem two_pow_log {x : ℚ} : (2 : ℚ) ^ Int.log 2 x = 2 ^ 52 * ulp x := by
  rw [ulp, ← zpow_natCast, ← zpow_add₀ two_ne_zero]
  congr 1
  push_cast
  ring

theorem digits_of_pos {x : ℚ} (hx : 0 < x) : 2 ^ 52 * ulp x ≤ x ∧ x < 2 ^ 53 * ulp x := by
  have hlow := Int.zpow_log_le_self (b := 2) one_lt_two hx
  have hhigh := Int.lt_zpow_succ_log_self (b := 2) one_lt_two x
  rw [Nat.cast_ofNat] at hlow hhigh
  rw [zpow_add_one₀ two_ne_zero, two_pow_log] at hhigh
  refine ⟨two_pow_log.symm.trans_le hlow, hhigh.trans_eq ?_⟩
  ring

/-- A double that is not below the power of two below `x` is a multiple of the unit of `x`. -/
theorem IsDouble.multiple_of_le {f x : ℚ} (hf : IsDouble f) (h : 2 ^ 52 * ulp x ≤ f) :
    ∃ n : ℤ, f = n * ulp x := by
  obtain ⟨m, e, hm, rfl⟩ := hf
  have hu := ulp_pos x
  have hm' : (m : ℚ) ≤ 2 ^ 53 := by exact_mod_cast (le_abs_self m).trans hm
  have he : Int.log 2 x - 53 ≤ e := by
    by_contra! hlt
    have hpow : (2 : ℚ) ^ e ≤ 2 ^ (Int.log 2 x - 54) :=
      zpow_le_zpow_right₀ one_le_two (by omega)
    have hquarter : (2 : ℚ) ^ (Int.log 2 x - 54) = ulp x / 4 := by
      rw [ulp, show Int.log 2 x - 54 = (Int.log 2 x - 52) - 2 by ring, zpow_sub₀ two_ne_zero]
      norm_num
    have hpos : (0 : ℚ) < 2 ^ e := zpow_pos two_pos e
    nlinarith
  rcases eq_or_lt_of_le he with rfl | hlt
  · -- the largest number of digits, so the power of two itself
    refine ⟨2 ^ 52, ?_⟩
    have hhalf : (2 : ℚ) ^ (Int.log 2 x - 53) = ulp x / 2 := by
      rw [ulp, show Int.log 2 x - 53 = (Int.log 2 x - 52) - 1 by ring, zpow_sub_one₀ two_ne_zero]
      ring
    rw [hhalf] at h ⊢
    have hge : (2 : ℚ) ^ 53 ≤ m := by nlinarith
    rw [le_antisymm hm' hge]
    push_cast
    ring
  · obtain ⟨k, hk⟩ := Int.le.dest (show Int.log 2 x - 52 ≤ e by omega)
    refine ⟨m * 2 ^ k, ?_⟩
    rw [ulp, ← hk, zpow_add₀ two_ne_zero, zpow_natCast]
    push_cast
    ring

/-! ## Rounding -/

/-- The nearest double, ties to even. -/
def toDouble (x : ℚ) : ℚ :=
  if x < 0 then -(roundHalfEven (-x / ulp (-x)) * ulp (-x)) else roundHalfEven (x / ulp x) * ulp x

theorem toDouble_of_nonneg {x : ℚ} (hx : 0 ≤ x) :
    toDouble x = roundHalfEven (x / ulp x) * ulp x := by
  rw [toDouble, if_neg hx.not_gt]

theorem toDouble_neg {x : ℚ} (hx : 0 < x) : toDouble (-x) = -toDouble x := by
  rw [toDouble_of_nonneg hx.le, toDouble, if_pos (neg_lt_zero.mpr hx), neg_neg]

@[simp] theorem toDouble_zero : toDouble 0 = 0 := by
  have hzero : roundHalfEven 0 = 0 := by norm_num [roundHalfEven]
  rw [toDouble_of_nonneg le_rfl, zero_div, hzero, Int.cast_zero, zero_mul]

section Positive

variable {x : ℚ} (hx : 0 < x)

include hx

theorem div_ulp_bounds : (2 : ℚ) ^ 52 ≤ x / ulp x ∧ x / ulp x < 2 ^ 53 := by
  obtain ⟨hlow, hhigh⟩ := digits_of_pos hx
  exact ⟨(le_div_iff₀ (ulp_pos x)).mpr hlow, (div_lt_iff₀ (ulp_pos x)).mpr hhigh⟩

theorem roundHalfEven_div_ulp_bounds :
    2 ^ 52 ≤ roundHalfEven (x / ulp x) ∧ roundHalfEven (x / ulp x) ≤ 2 ^ 53 := by
  obtain ⟨hlow, hhigh⟩ := div_ulp_bounds hx
  have hfloor : 2 ^ 52 ≤ ⌊x / ulp x⌋ := Int.le_floor.mpr (by exact_mod_cast hlow)
  have hfloor' : ⌊x / ulp x⌋ < 2 ^ 53 := Int.floor_lt.mpr (by exact_mod_cast hhigh)
  obtain ⟨hge, hle⟩ := floor_le_roundHalfEven (x / ulp x)
  omega

omit hx in
theorem abs_mul_ulp_sub (n : ℤ) : |n * ulp x - x| = |n - x / ulp x| * ulp x := by
  have hu := ulp_pos x
  rw [← abs_of_pos hu, ← abs_mul, abs_of_pos hu]
  congr 1
  field_simp

theorem isDouble_toDouble_of_pos : IsDouble (toDouble x) := by
  obtain ⟨hlow, hhigh⟩ := roundHalfEven_div_ulp_bounds hx
  refine ⟨roundHalfEven (x / ulp x), Int.log 2 x - 52, abs_le.mpr ⟨by omega, hhigh⟩, ?_⟩
  rw [toDouble_of_nonneg hx.le]
  rfl

theorem toDouble_nearest_of_pos {f : ℚ} (hf : IsDouble f) : |toDouble x - x| ≤ |f - x| := by
  have hu := ulp_pos x
  have hmultiple : ∀ n : ℤ, |toDouble x - x| ≤ |n * ulp x - x| := by
    intro n
    rw [toDouble_of_nonneg hx.le, abs_mul_ulp_sub, abs_mul_ulp_sub]
    exact mul_le_mul_of_nonneg_right (abs_roundHalfEven_sub_le _ _) hu.le
  rcases le_or_gt (2 ^ 52 * ulp x) f with hge | hlt
  · obtain ⟨n, rfl⟩ := hf.multiple_of_le hge
    exact hmultiple n
  · -- the power of two below `x` lies between the two
    have hpow := hmultiple (2 ^ 52)
    have hlow := (digits_of_pos hx).1
    rw [Int.cast_pow, Int.cast_ofNat, abs_of_nonpos (sub_nonpos.mpr hlow)] at hpow
    rw [abs_of_neg (by linarith : f - x < 0)]
    linarith

/-- **The relative error** of rounding up. -/
theorem toDouble_le_mul : toDouble x ≤ x * (1 + 1 / 2 ^ 53) := by
  have hhalf := abs_le.mp (abs_roundHalfEven_sub_le_half (x / ulp x))
  have hlow := (digits_of_pos hx).1
  have hu := ulp_pos x
  have hself : x / ulp x * ulp x = x := div_mul_cancel₀ x hu.ne'
  rw [toDouble_of_nonneg hx.le]
  nlinarith

end Positive

/-- **No double is nearer** than the one a number is rounded to. -/
theorem toDouble_nearest : RoundsToNearest {q | IsDouble q} toDouble where
  mem x := by
    rcases lt_trichotomy x 0 with hneg | rfl | hpos
    · rw [← neg_neg x, toDouble_neg (neg_pos.mpr hneg)]
      exact (isDouble_toDouble_of_pos (neg_pos.mpr hneg)).neg
    · rw [toDouble_zero]
      exact by exact_mod_cast isDouble_natCast (Nat.zero_le _)
    · exact isDouble_toDouble_of_pos hpos
  nearest x f hf := by
    rcases lt_trichotomy x 0 with hneg | rfl | hpos
    · have hle := toDouble_nearest_of_pos (neg_pos.mpr hneg) (IsDouble.neg hf)
      have hself : toDouble x = -toDouble (-x) := by
        rw [← toDouble_neg (neg_pos.mpr hneg), neg_neg]
      rw [hself, ← abs_neg, ← abs_neg (f - x)]
      calc |-(-toDouble (-x) - x)| = |toDouble (-x) - -x| := by congr 1; ring
        _ ≤ |-f - -x| := hle
        _ = |-(f - x)| := by congr 1; ring
    · rw [toDouble_zero, sub_self, abs_zero]
      exact abs_nonneg _
    · exact toDouble_nearest_of_pos hpos hf

theorem ulp_eq {x : ℚ} {e : ℤ} (hlow : 2 ^ e ≤ x) (hhigh : x < 2 ^ (e + 1)) :
    ulp x = 2 ^ (e - 52) := by
  have hpos : 0 < x := (zpow_pos two_pos e).trans_le hlow
  have hge : e ≤ Int.log 2 x := (Int.zpow_le_iff_le_log one_lt_two hpos).mp (by exact_mod_cast hlow)
  have hlt : Int.log 2 x < e + 1 :=
    (Int.lt_zpow_iff_log_lt one_lt_two hpos).mp (by exact_mod_cast hhigh)
  rw [ulp, show Int.log 2 x = e by omega]

/-- A number less than half a unit away from a multiple of it is rounded to that. -/
theorem toDouble_eq {x : ℚ} {e m : ℤ} (hlow : 2 ^ e ≤ x) (hhigh : x < 2 ^ (e + 1))
    (hm : |m - x / 2 ^ (e - 52)| < 1 / 2) : toDouble x = m * 2 ^ (e - 52) := by
  have hpos : 0 < x := (zpow_pos two_pos e).trans_le hlow
  rw [toDouble_of_nonneg hpos.le, ulp_eq hlow hhigh]
  congr 2
  have hnear := abs_roundHalfEven_sub_le (x / 2 ^ (e - 52)) m
  have htriangle := abs_sub_le (roundHalfEven (x / 2 ^ (e - 52)) : ℚ) (x / 2 ^ (e - 52)) m
  rw [abs_sub_comm (x / 2 ^ (e - 52)) (m : ℚ)] at htriangle
  have hlt : |roundHalfEven (x / 2 ^ (e - 52)) - m| < 1 := by
    exact_mod_cast (by linarith : |(roundHalfEven (x / 2 ^ (e - 52)) : ℚ) - m| < 1)
  exact sub_eq_zero.mp (Int.abs_lt_one_iff.mp hlt)

/-! ## Neighbours -/

section Neighbours

variable {f : ℚ} (hf : IsDouble f)

include hf

/-- A positive double in units of its last digit. -/
theorem IsDouble.exists_digits (hpos : 0 < f) : ∃ n : ℤ, 2 ^ 52 ≤ n ∧ n < 2 ^ 53 ∧
    f = n * ulp f := by
  obtain ⟨hlow, hhigh⟩ := digits_of_pos hpos
  obtain ⟨n, hn⟩ := hf.multiple_of_le hlow
  have hu := ulp_pos f
  refine ⟨n, ?_, ?_, hn⟩
  · have hge : (2 : ℚ) ^ 52 ≤ n := le_of_mul_le_mul_right (hlow.trans_eq hn) hu
    exact_mod_cast hge
  · have hlt : (n : ℚ) < 2 ^ 53 := lt_of_mul_lt_mul_right (hn.symm.trans_lt hhigh) hu.le
    exact_mod_cast hlt

/-- **A double has a double on either side**, one unit away. -/
theorem IsDouble.neighbours (hpos : 0 < f) : IsDouble (f - ulp f) ∧ IsDouble (f + ulp f) := by
  obtain ⟨n, hlow, hhigh, hn⟩ := hf.exists_digits hpos
  constructor
  · refine ⟨n - 1, Int.log 2 f - 52, abs_le.mpr ⟨by omega, by omega⟩, ?_⟩
    rw [Int.cast_sub, sub_mul, Int.cast_one, one_mul, ← ulp, ← hn]
  · refine ⟨n + 1, Int.log 2 f - 52, abs_le.mpr ⟨by omega, by omega⟩, ?_⟩
    rw [Int.cast_add, add_mul, Int.cast_one, one_mul, ← ulp, ← hn]

theorem IsDouble.exists_natCast (hlarge : 2 ^ 53 ≤ f) : ∃ n : ℕ, f = n := by
  have hpos : 0 < f := lt_of_lt_of_le (by positivity) hlarge
  obtain ⟨n, hlow, hhigh, hn⟩ := hf.exists_digits hpos
  have hexp : (53 : ℤ) ≤ Int.log 2 f := by
    refine (Int.zpow_le_iff_le_log one_lt_two hpos).mp ?_
    exact_mod_cast hlarge
  obtain ⟨k, hk⟩ := Int.le.dest (show (0 : ℤ) ≤ Int.log 2 f - 52 by omega)
  refine ⟨n.toNat * 2 ^ k, ?_⟩
  have hcast : ((n.toNat : ℕ) : ℚ) = n := by
    exact_mod_cast Int.toNat_of_nonneg (show 0 ≤ n by omega)
  rw [hn, ulp, ← hk, zero_add, zpow_natCast]
  push_cast
  rw [hcast]

theorem IsDouble.sub_one (hone : 1 ≤ f) (hsmall : f < 2 ^ 53) : IsDouble (f - 1) := by
  have hpos : 0 < f := by linarith
  obtain ⟨n, hlow, hhigh, hn⟩ := hf.exists_digits hpos
  have hexp : Int.log 2 f < 53 := by
    refine (Int.lt_zpow_iff_log_lt one_lt_two hpos).mp ?_
    exact_mod_cast hsmall
  obtain ⟨k, hk⟩ := Int.le.dest (show Int.log 2 f - 52 ≤ 0 by omega)
  -- one is a multiple of the unit
  have hunit : (2 ^ k : ℤ) * ulp f = 1 := by
    rw [ulp, Int.cast_pow, Int.cast_ofNat, ← zpow_natCast, ← zpow_add₀ two_ne_zero, add_comm, hk,
      zpow_zero]
  have heq : f - 1 = (n - 2 ^ k : ℤ) * ulp f := by
    rw [Int.cast_sub, sub_mul, hunit, ← hn]
  have hnonneg : 0 ≤ n - 2 ^ k := by
    have hge : (0 : ℚ) ≤ (n - 2 ^ k : ℤ) := nonneg_of_mul_nonneg_left (by linarith) (ulp_pos f)
    exact_mod_cast hge
  have htwo : (0 : ℤ) < 2 ^ k := by positivity
  exact ⟨n - 2 ^ k, Int.log 2 f - 52, abs_le.mpr ⟨by omega, by omega⟩, heq⟩

end Neighbours

end Lib
