import Mathlib.Data.Rat.Lemmas
import Mathlib.Algebra.Order.Ring.Rat
import Mathlib.Order.WithBot

/-!
# Floating-point values

A `Double` is what a binary64 can hold: a finite value, an infinity or a NaN.  Every finite
binary64 is a rational, so comparisons of finite values are exact and are those of `ℚ`; a NaN
compares with nothing.  Arithmetic rounds, and how it rounds is a parameter `rnd : ℚ → Double`:
nothing proved over this file depends on it.
-/

set_option autoImplicit false

namespace Lib

/-- The values of a binary64. -/
inductive Double where
  | nan
  | negInf
  | fin (q : ℚ)
  | posInf
deriving DecidableEq

namespace Double

/-- `math.isfinite`. -/
def isFinite : Double → Bool
  | fin _ => true
  | _ => false

/-- `x < y`, false as soon as one of the two is a NaN. -/
def lt : Double → Double → Bool
  | nan, _ => false
  | _, nan => false
  | negInf, y => y != negInf
  | _, negInf => false
  | posInf, _ => false
  | fin _, posInf => true
  | fin p, fin q => p < q

/-- `x - y`, the finite case rounded by `rnd`. -/
def sub (rnd : ℚ → Double) : Double → Double → Double
  | nan, _ => nan
  | _, nan => nan
  | fin p, fin q => rnd (p - q)
  | posInf, posInf => nan
  | negInf, negInf => nan
  | posInf, _ => posInf
  | negInf, _ => negInf
  | fin _, posInf => negInf
  | fin _, negInf => posInf

/-- `x / y` for a divisor that is not zero, the finite case rounded by `rnd`. -/
def div (rnd : ℚ → Double) : Double → Double → Double
  | nan, _ => nan
  | _, nan => nan
  | fin p, fin q => rnd (p / q)
  | fin _, _ => fin 0
  | posInf, fin q => if q < 0 then negInf else posInf
  | negInf, fin q => if q < 0 then posInf else negInf
  | _, _ => nan

/-- The value as a sort key when everything that is not finite comes last. -/
def rank : Double → WithTop ℚ
  | fin q => q
  | _ => ⊤

/-- The lesser of a value and the least one so far; of two that do not compare, the earlier. -/
def keepLeast : Option Double → Double → Option Double
  | none, c => some c
  | some b, c => some (if c.lt b then c else b)

attribute [local simp] lt keepLeast

/-- Which of two numbers is met first does not matter to the least. -/
theorem keepLeast_comm {x y : Double} (hx : x ≠ nan) (hy : y ≠ nan) (b : Option Double) :
    keepLeast (keepLeast b x) y = keepLeast (keepLeast b y) x := by
  cases b with
  | none =>
    cases x <;> cases y <;> simp_all
    grind
  | some b => cases b <;> cases x <;> cases y <;> simp_all <;> grind [lt]

/-! ## The order -/

section Order

variable {x y z : Double}

theorem lt_trans (h : x.lt y = true) (h' : y.lt z = true) : x.lt z = true := by
  cases x <;> cases y <;> cases z <;> simp_all
  exact h.trans h'

/-- Not being less is transitive through a number. -/
theorem not_lt_trans (hy : y ≠ nan) (h : x.lt y = false) (h' : y.lt z = false) :
    x.lt z = false := by
  cases x <;> cases y <;> cases z <;> simp_all
  exact h'.trans h

theorem eq_of_not_lt (hx : x ≠ nan) (hy : y ≠ nan) (h : x.lt y = false) (h' : y.lt x = false) :
    x = y := by
  cases x <;> cases y <;> simp_all
  exact le_antisymm h' h

theorem lt_posInf (hx : x ≠ nan) (hx' : x ≠ posInf) : x.lt posInf = true := by
  cases x with
  | nan => exact absurd rfl hx
  | posInf => exact absurd rfl hx'
  | negInf => rfl
  | fin q => rfl

theorem negInf_lt (hx : x ≠ nan) (hx' : x ≠ negInf) : negInf.lt x = true := by
  cases x with
  | nan => exact absurd rfl hx
  | negInf => exact absurd rfl hx'
  | posInf => rfl
  | fin q => rfl

/-- Both are numbers, and `y` is at most `x`. -/
def AtLeast (x y : Double) : Prop := x ≠ nan ∧ y ≠ nan ∧ x.lt y = false

/-- What a development may use of the subtraction of floats, the floats being what rounding leaves
as it is: a float minus itself is zero, a float minus a greater one is below zero, and no difference
of finite ones is a NaN. -/
structure FloatRounding (rnd : ℚ → Double) : Prop where
  ne_nan : ∀ q, rnd q ≠ nan
  zero : rnd 0 = fin 0
  neg : ∀ b c, rnd b = fin b → rnd c = fin c → b < c → (rnd (b - c)).lt (fin 0) = true

end Order

end Double

end Lib
