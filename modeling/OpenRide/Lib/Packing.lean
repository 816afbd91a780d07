import Mathlib.Algebra.Order.Ring.Int
import Mathlib.Data.List.Basic

/-!
# Values packed into bytes

A `Packing α` writes every value of `α` as the same number of bytes, and every string of that many
bytes is the writing of one value: `pack` and `unpack` are inverse to each other.  A column of
values is written one value after the other (`packAll`) and read back by its number of values
(`unpackAll`); the two are inverse again (`unpackAll_packAll`, `packAll_unpackAll`).

The words of a machine are packed with their low byte first.
-/

set_option autoImplicit false

namespace Lib

/-- Values of one width in bytes. -/
structure Packing (α : Type) where
  width : ℕ
  pack : α → List UInt8
  unpack : List UInt8 → α
  length_pack : ∀ a, (pack a).length = width
  unpack_pack : ∀ a, unpack (pack a) = a
  pack_unpack : ∀ bs, bs.length = width → pack (unpack bs) = bs

namespace Packing

variable {α : Type} (p : Packing α)

/-- One value after the other. -/
def packAll (l : List α) : List UInt8 := l.flatMap p.pack

/-- The first `n` values of a string of bytes. -/
def unpackAll : ℕ → List UInt8 → List α
  | 0, _ => []
  | n + 1, bs => p.unpack (bs.take p.width) :: unpackAll n (bs.drop p.width)

@[simp] theorem length_packAll (l : List α) : (p.packAll l).length = p.width * l.length := by
  induction l with
  | nil => rfl
  | cons a l ih =>
    rw [packAll, List.flatMap_cons, List.length_append, p.length_pack, List.length_cons,
      Nat.mul_succ, Nat.add_comm]
    exact congrArg (· + p.width) ih

@[simp] theorem length_unpackAll (n : ℕ) (bs : List UInt8) : (p.unpackAll n bs).length = n := by
  induction n generalizing bs with
  | zero => rfl
  | succ n ih => rw [unpackAll, List.length_cons, ih]

/-- **A column is read back**, whatever comes after it. -/
theorem unpackAll_packAll (l : List α) (rest : List UInt8) :
    p.unpackAll l.length (p.packAll l ++ rest) = l := by
  induction l with
  | nil => rfl
  | cons a l ih =>
    have hsplit : p.packAll (a :: l) ++ rest = p.pack a ++ (p.packAll l ++ rest) := by
      rw [packAll, List.flatMap_cons, List.append_assoc]
      rfl
    rw [List.length_cons, unpackAll, hsplit, List.take_left' (p.length_pack a),
      List.drop_left' (p.length_pack a), p.unpack_pack, ih]

/-- **What is read is written again** as it stood. -/
theorem packAll_unpackAll {n : ℕ} {bs : List UInt8} (h : p.width * n ≤ bs.length) :
    p.packAll (p.unpackAll n bs) = bs.take (p.width * n) := by
  induction n generalizing bs with
  | zero => rfl
  | succ n ih =>
    rw [Nat.mul_succ] at h ⊢
    have hfirst : (bs.take p.width).length = p.width := by
      rw [List.length_take]
      omega
    have hrest : p.width * n ≤ (bs.drop p.width).length := by
      rw [List.length_drop]
      omega
    have hcons : p.packAll (p.unpackAll (n + 1) bs) =
        p.pack (p.unpack (bs.take p.width)) ++ p.packAll (p.unpackAll n (bs.drop p.width)) := by
      rfl
    rw [hcons, p.pack_unpack _ hfirst, ih hrest, Nat.add_comm, List.take_add]

end Packing

/-! ## Words, the low byte first -/

/-- The low `w` bytes of a number. -/
def leBytes : ℕ → ℕ → List UInt8
  | 0, _ => []
  | w + 1, n => UInt8.ofNat n :: leBytes w (n / 256)

/-- The number that bytes stand for. -/
def leValue : List UInt8 → ℕ
  | [] => 0
  | b :: bs => b.toNat + 256 * leValue bs

@[simp] theorem length_leBytes (w n : ℕ) : (leBytes w n).length = w := by
  induction w generalizing n with
  | zero => rfl
  | succ w ih => rw [leBytes, List.length_cons, ih]

theorem leValue_lt (bs : List UInt8) : leValue bs < 256 ^ bs.length := by
  induction bs with
  | nil => exact Nat.one_pos
  | cons b bs ih =>
    have hb := b.toNat_lt
    rw [leValue, List.length_cons, Nat.pow_succ]
    omega

theorem leValue_leBytes {w n : ℕ} (h : n < 256 ^ w) : leValue (leBytes w n) = n := by
  induction w generalizing n with
  | zero =>
    rw [leBytes, leValue]
    omega
  | succ w ih =>
    have hdiv : n / 256 < 256 ^ w := by omega
    have hlow : (UInt8.ofNat n).toNat = n % 256 := UInt8.toNat_ofNat'
    rw [leBytes, leValue, ih hdiv, hlow]
    omega

theorem leBytes_leValue (bs : List UInt8) : leBytes bs.length (leValue bs) = bs := by
  induction bs with
  | nil => rfl
  | cons b bs ih =>
    have hb := b.toNat_lt
    have hlow : UInt8.ofNat (b.toNat + 256 * leValue bs) = b := by
      apply UInt8.toNat_inj.mp
      rw [UInt8.toNat_ofNat']
      omega
    have hhigh : (b.toNat + 256 * leValue bs) / 256 = leValue bs := by omega
    rw [List.length_cons, leValue, leBytes, hlow, hhigh, ih]

/-- The packing of a type whose values are the numbers below `256 ^ w`. -/
def Packing.word {α : Type} (w : ℕ) (toNat : α → ℕ) (ofNat : ℕ → α)
    (hlt : ∀ a, toNat a < 256 ^ w) (hof : ∀ a, ofNat (toNat a) = a)
    (hto : ∀ n, n < 256 ^ w → toNat (ofNat n) = n) : Packing α where
  width := w
  pack a := leBytes w (toNat a)
  unpack bs := ofNat (leValue bs)
  length_pack a := length_leBytes w (toNat a)
  unpack_pack a := by rw [leValue_leBytes (hlt a), hof]
  pack_unpack bs h := by rw [hto _ (h ▸ leValue_lt bs), ← h, leBytes_leValue]

/-- Bytes. -/
def Packing.u8 : Packing UInt8 :=
  .word 1 UInt8.toNat UInt8.ofNat (fun a ↦ a.toNat_lt) (fun _ ↦ UInt8.ofNat_toNat)
    fun n h ↦ by rw [UInt8.toNat_ofNat']; exact Nat.mod_eq_of_lt h

/-- Words of 32 bits. -/
def Packing.u32 : Packing UInt32 :=
  .word 4 UInt32.toNat UInt32.ofNat (fun a ↦ a.toNat_lt) (fun _ ↦ UInt32.ofNat_toNat)
    fun n h ↦ by rw [UInt32.toNat_ofNat']; exact Nat.mod_eq_of_lt h

/-! ## Doubles as bits -/

/-- A binary64 as its bits: the sign, eleven bits of exponent and 52 of mantissa. -/
structure F64 where
  bits : UInt64
deriving DecidableEq

namespace F64

def exponent (x : F64) : ℕ := x.bits.toNat / 2 ^ 52 % 2048

def mantissa (x : F64) : ℕ := x.bits.toNat % 2 ^ 52

/-- Neither an infinity nor a NaN. -/
def isFinite (x : F64) : Bool := x.exponent != 2047

def isNaN (x : F64) : Bool := x.exponent == 2047 && x.mantissa != 0

/-- A zero of either sign. -/
def isZero (x : F64) : Bool := x.exponent == 0 && x.mantissa == 0

/-- `x == y` on doubles: a NaN equals nothing, and the two zeros are equal. -/
def eq (x y : F64) : Bool := !x.isNaN && !y.isNaN && (x == y || x.isZero && y.isZero)

theorem not_isNaN_of_isFinite {x : F64} (h : x.isFinite = true) : x.isNaN = false := by
  have hexp : (x.exponent == 2047) = false := by simpa [isFinite] using h
  rw [isNaN, hexp, Bool.false_and]

theorem eq_self {x : F64} (h : x.isFinite = true) : x.eq x = true := by
  simp [eq, not_isNaN_of_isFinite h]

end F64

/-- Doubles. -/
def Packing.f64 : Packing F64 :=
  .word 8 (fun x ↦ x.bits.toNat) (fun n ↦ ⟨UInt64.ofNat n⟩) (fun x ↦ x.bits.toNat_lt)
    (fun x ↦ by rw [UInt64.ofNat_toNat])
    fun n h ↦ by rw [UInt64.toNat_ofNat']; exact Nat.mod_eq_of_lt h

end Lib
