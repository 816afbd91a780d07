import Mathlib.Algebra.Order.Floor.Semiring
import Mathlib.Algebra.Order.Ring.Rat
import Mathlib.Data.List.Nodup
import Mathlib.Data.List.Perm.Basic
import Mathlib.Algebra.Order.BigOperators.Group.List
import Mathlib.Tactic.Linarith
import Mathlib.Tactic.Ring

/-!
# The method of largest remainders

A whole number is to be split by given quotas.  Everyone gets the quota rounded down, and those with
the largest remainders one more, until nothing is left (`remainderSplit`).  The parts add up to the
whole (`sum_remainderSplit`), and each is the quota rounded down or up (`remainderSplit_band`): what
is left is the sum of the remainders, so it is at most the number of quotas that have one.
-/

set_option autoImplicit false

namespace Lib

/-! ## Counting up -/

/-- One more at each of the places listed. -/
def bumped (counts places : List ℕ) : List ℕ :=
  places.foldl (fun counts i ↦ counts.modify i (· + 1)) counts

@[simp] theorem bumped_cons (counts : List ℕ) (i : ℕ) (places : List ℕ) :
    bumped counts (i :: places) = bumped (counts.modify i (· + 1)) places := rfl

theorem getD_bumped {counts places : List ℕ} {i : ℕ} (hi : i < counts.length) :
    (bumped counts places).getD i 0 = counts.getD i 0 + places.count i := by
  induction places generalizing counts with
  | nil => simp [bumped]
  | cons j places ih =>
    rw [bumped_cons, ih (by simpa using hi)]
    by_cases hj : j = i
    · simp [hj, hi]
      omega
    · simp [hj, hi]

theorem sum_modify_succ {counts : List ℕ} {i : ℕ} (hi : i < counts.length) :
    (counts.modify i (· + 1)).sum = counts.sum + 1 := by
  induction counts generalizing i with
  | nil => simp at hi
  | cons a counts ih =>
    cases i with
    | zero =>
      simp
      omega
    | succ i =>
      simp [ih (by simpa using hi)]
      omega

theorem sum_bumped {counts places : List ℕ} (h : ∀ i ∈ places, i < counts.length) :
    (bumped counts places).sum = counts.sum + places.length := by
  induction places generalizing counts with
  | nil => simp [bumped]
  | cons i places ih =>
    obtain ⟨hi, hrest⟩ := List.forall_mem_cons.mp h
    rw [bumped_cons, ih (by simpa using hrest), sum_modify_succ hi, List.length_cons]
    omega

/-! ## Remainders -/

/-- The first of a list in which `p` never returns, as many as have `p`, have it. -/
theorem forall_mem_take_of_le_countP {α : Type} {p : α → Bool} {l : List α}
    (hsorted : l.Pairwise fun a b ↦ p b = true → p a = true) {r : ℕ} (hr : r ≤ l.countP p) :
    ∀ a ∈ l.take r, p a = true := by
  induction l generalizing r with
  | nil => simp
  | cons a l ih =>
    rw [List.pairwise_cons] at hsorted
    cases r with
    | zero => simp
    | succ r =>
      have ha : p a = true := by
        by_contra hne
        have hnone : ∀ b ∈ l, ¬ p b = true := fun b hb hpb ↦ hne (hsorted.1 b hb hpb)
        simp [hne, List.countP_eq_zero.mpr hnone] at hr
      have hrest : r ≤ l.countP p := by
        simp [ha] at hr
        exact hr
      rw [List.take_succ_cons, List.forall_mem_cons]
      exact ⟨ha, ih hsorted.2 hrest⟩

/-- Numbers below one add up to at most as many as are positive. -/
theorem sum_le_countP_pos {K : Type} [Field K] [LinearOrder K] [IsStrictOrderedRing K]
    {l : List K} (h : ∀ x ∈ l, x < 1) : l.sum ≤ l.countP fun x ↦ decide (0 < x) := by
  induction l with
  | nil => simp
  | cons x l ih =>
    obtain ⟨hx, hrest⟩ := List.forall_mem_cons.mp h
    have hsum := ih hrest
    by_cases hpos : 0 < x
    · simp [hpos]
      linarith
    · simp [hpos]
      linarith

section

variable {K : Type} [Field K] [LinearOrder K] [FloorSemiring K]

/-- What rounding down takes off. -/
def remainder (x : K) : K := x - ⌊x⌋₊

/-- The places of the quotas, the largest remainder first. -/
structure ByRemainder (quotas : List K) (order : List ℕ) : Prop where
  perm : order.Perm (List.range quotas.length)
  sorted : order.Pairwise fun i j ↦ remainder (quotas.getD j 0) ≤ remainder (quotas.getD i 0)

/-- Every quota rounded down, and one more for the largest remainders. -/
def remainderSplit (n : ℕ) (quotas : List K) (order : List ℕ) : List ℕ :=
  let counts := quotas.map fun x ↦ ⌊x⌋₊
  bumped counts (order.take (n - counts.sum))

theorem sum_remainder (l : List K) :
    (l.map remainder).sum = l.sum - ((l.map fun x ↦ ⌊x⌋₊).sum : ℕ) := by
  induction l with
  | nil => simp
  | cons x l ih =>
    simp only [List.map_cons, List.sum_cons, ih, remainder, Nat.cast_add]
    ring

variable [IsStrictOrderedRing K]

theorem remainder_nonneg {x : K} (hx : 0 ≤ x) : 0 ≤ remainder x :=
  sub_nonneg.mpr (Nat.floor_le hx)

theorem remainder_lt_one (x : K) : remainder x < 1 := by
  have hlt := Nat.lt_floor_add_one x
  rw [remainder]
  linarith

theorem ceil_eq_of_remainder_pos {x : K} (h : 0 < remainder x) : ⌈x⌉₊ = ⌊x⌋₊ + 1 := by
  have hle : ⌈x⌉₊ ≤ ⌊x⌋₊ + 1 := Nat.ceil_le_floor_add_one x
  have hlt : ⌊x⌋₊ < ⌈x⌉₊ := Nat.lt_ceil.mpr (sub_pos.mp h)
  omega

variable {n : ℕ} {quotas : List K} {order : List ℕ}

theorem sum_floor_le (hpos : ∀ x ∈ quotas, 0 ≤ x) (hsum : quotas.sum = n) :
    (quotas.map fun x ↦ ⌊x⌋₊).sum ≤ n := by
  have hle : 0 ≤ (quotas.map remainder).sum := by
    refine List.sum_nonneg fun y hy ↦ ?_
    obtain ⟨x, hx, rfl⟩ := List.mem_map.mp hy
    exact remainder_nonneg (hpos x hx)
  rw [sum_remainder, hsum, sub_nonneg] at hle
  exact_mod_cast hle

/-- **At most as many are left over as quotas have a remainder.** -/
theorem left_le_countP (horder : ByRemainder quotas order) (hpos : ∀ x ∈ quotas, 0 ≤ x)
    (hsum : quotas.sum = n) :
    n - (quotas.map fun x ↦ ⌊x⌋₊).sum ≤
      order.countP fun i ↦ decide (0 < remainder (quotas.getD i 0)) := by
  have hfloor := sum_floor_le hpos hsum
  have hrange : (List.range quotas.length).map (fun i ↦ quotas.getD i 0) = quotas := by
    refine List.ext_getElem (by simp) fun i h₁ h₂ ↦ ?_
    simp [h₂]
  have hcount : (order.countP fun i ↦ decide (0 < remainder (quotas.getD i 0))) =
      (quotas.map remainder).countP fun x ↦ decide (0 < x) := by
    rw [horder.perm.countP_eq, List.countP_map]
    conv_rhs => rw [← hrange]
    rw [List.countP_map]
    rfl
  have hle := sum_le_countP_pos (l := quotas.map remainder) fun y hy ↦ by
    obtain ⟨x, -, rfl⟩ := List.mem_map.mp hy
    exact remainder_lt_one x
  rw [sum_remainder, hsum, ← Nat.cast_sub hfloor] at hle
  rw [hcount]
  exact_mod_cast hle

/-- **The parts add up to the whole.** -/
theorem sum_remainderSplit (horder : ByRemainder quotas order) (hpos : ∀ x ∈ quotas, 0 ≤ x)
    (hsum : quotas.sum = n) : (remainderSplit n quotas order).sum = n := by
  have hfloor := sum_floor_le hpos hsum
  have hleft := (left_le_countP horder hpos hsum).trans List.countP_le_length
  have hplace : ∀ i ∈ order, i < (quotas.map fun x ↦ ⌊x⌋₊).length := by
    intro i hi
    simpa using horder.perm.mem_iff.mp hi
  rw [remainderSplit, sum_bumped fun i hi ↦ hplace i (List.mem_of_mem_take hi), List.length_take]
  omega

/-- **Each part is its quota rounded down or up.** -/
theorem remainderSplit_band (horder : ByRemainder quotas order) (hpos : ∀ x ∈ quotas, 0 ≤ x)
    (hsum : quotas.sum = n) {i : ℕ} (hi : i < quotas.length) :
    (remainderSplit n quotas order).getD i 0 = ⌊quotas.getD i 0⌋₊ ∨
      (remainderSplit n quotas order).getD i 0 = ⌈quotas.getD i 0⌉₊ := by
  have hget : (remainderSplit n quotas order).getD i 0 = ⌊quotas.getD i 0⌋₊ +
      (order.take (n - (quotas.map fun x ↦ ⌊x⌋₊).sum)).count i := by
    rw [remainderSplit, getD_bumped (by simpa using hi)]
    simp [hi]
  rw [hget]
  by_cases hmem : i ∈ order.take (n - (quotas.map fun x ↦ ⌊x⌋₊).sum)
  · have hnodup : order.Nodup := horder.perm.nodup_iff.mpr List.nodup_range
    have hone := List.count_eq_one_of_mem (hnodup.sublist (List.take_sublist _ _)) hmem
    have hdown : order.Pairwise fun a b ↦ decide (0 < remainder (quotas.getD b 0)) = true →
        decide (0 < remainder (quotas.getD a 0)) = true := by
      refine horder.sorted.imp fun {a b} hab ↦ ?_
      simp only [decide_eq_true_eq]
      exact fun hb ↦ hb.trans_le hab
    have hrem := forall_mem_take_of_le_countP hdown (left_le_countP horder hpos hsum) i hmem
    rw [hone, ceil_eq_of_remainder_pos (of_decide_eq_true hrem)]
    exact Or.inr rfl
  · rw [List.count_eq_zero.mpr hmem]
    exact Or.inl rfl

end

end Lib
