import OpenRide.Lib.Binary64
import OpenRide.Lib.Fallible
import Mathlib.Data.List.GetD

/-!
# Downsampling a series

A series that is too long for its panel is thinned out: the points at the places of an evenly spaced
grid are kept, and the last one.  The grid is computed with doubles, so a place is a product that
was rounded twice.

As long as at most `2 ^ 52` points are kept, no two of the grid fall together and none reaches the
last point (`downsample_keepsShape`): two products that are a step apart do not round into the same
unit interval (`floor_toDouble_lt`), and the two roundings add too little to the last place to reach
the end (`toDouble_mul_lt`).  Beyond that the last point may be kept twice (`last_point_twice`).
-/

namespace OpenRide.Dataplane

open Lib

variable {α : Type}

/-! ## The function -/

/-- What is raised for a place that is not there, and for a grid of no places. -/
inductive SeriesError where
  | indexError
  | zeroDivisionError
deriving DecidableEq

/-- `points[i]`. -/
def pointAt (points : List α) (i : ℕ) : Except SeriesError α :=
  match points[i]? with
  | some x => .ok x
  | none => .error .indexError

/-- `int(i * step)`, for the step of a grid of `maxN` places over `n` points. -/
def gridPlace (n maxN i : ℕ) : ℕ := ⌊toDouble (toDouble i * toDouble (n / maxN))⌋₊

/-- `_downsample`. -/
def downsample (points : List α) (maxN : ℕ) : Except SeriesError (List α) :=
  if points.length ≤ maxN then .ok points
  else if maxN = 0 then .error .zeroDivisionError
  else do
    let out ← each (fun i ↦ pointAt points (gridPlace points.length maxN i)) (List.range (maxN - 1))
    let last ← pointAt points (points.length - 1)
    return out ++ [last]

/-! ## What it is for -/

/-- Is `out` what is left of a list, in order, with its first and last point, when at most `maxN`
points are wanted? -/
structure KeepsShape (points : List α) (maxN : ℕ) (out : List α) : Prop where
  places : ∃ places : List ℕ, places.Pairwise (· < ·) ∧
    List.Forall₂ (fun i x ↦ points[i]? = some x) places out ∧
    (points ≠ [] → 0 ∈ places ∧ points.length - 1 ∈ places)
  size : out.length ≤ maxN
  full : maxN < points.length → out.length = maxN

theorem pointAt_eq_ok {points : List α} {i : ℕ} {x : α} :
    pointAt points i = .ok x ↔ points[i]? = some x := by
  rw [pointAt]
  cases points[i]? with
  | none => simp
  | some y => simp

theorem pointAt_of_lt {points : List α} {i : ℕ} (h : i < points.length) :
    pointAt points i = .ok points[i] :=
  pointAt_eq_ok.mpr (List.getElem?_eq_getElem h)

/-! ## Places a step apart -/

section Step

variable {x s : ℚ}

theorem toDouble_mono {x y : ℚ} (h : x ≤ y) : toDouble x ≤ toDouble y := toDouble_nearest.mono h

theorem toDouble_natCast {n : ℕ} (h : n ≤ 2 ^ 53) : toDouble n = n :=
  toDouble_nearest.eq_self (isDouble_natCast h)

theorem toDouble_nonneg (h : 0 ≤ x) : 0 ≤ toDouble x := toDouble_zero ▸ toDouble_mono h

/-- Where doubles are no further apart than one, two numbers a step apart do not round into the same
unit interval. -/
theorem floor_toDouble_lt_of_small (hx : 0 ≤ x) (hs : 1 ≤ s) (hwhole : s = 1 → ∃ m : ℕ, x = m)
    (hsmall : toDouble (x + s) < 2 ^ 53) : ⌊toDouble x⌋₊ < ⌊toDouble (x + s)⌋₊ := by
  by_contra! hle
  have hx' := toDouble_nonneg hx
  have hmono := toDouble_mono (x := x) (y := x + s) (by linarith)
  have hk := Nat.floor_le hx'
  have hp : toDouble (x + s) < (⌊toDouble x⌋₊ : ℚ) + 1 :=
    (Nat.lt_floor_add_one _).trans_le (by exact_mod_cast Nat.succ_le_succ hle)
  generalize ⌊toDouble x⌋₊ = k at hk hp
  have hk53 : k + 1 ≤ 2 ^ 53 := by
    have hlt : (k : ℚ) < 2 ^ 53 := hk.trans_lt (hmono.trans_lt hsmall)
    exact_mod_cast hlt
  -- the next whole number is a double, and is not reached
  have hnext : x + s < k + 1 := by
    by_contra! hge
    have hreach := toDouble_nearest.le_of_ge (isDouble_natCast hk53) (x := x + s)
      (by push_cast; exact hge)
    push_cast at hreach
    linarith
  have hup : |toDouble (x + s) - (x + s)| ≤ k + 1 - (x + s) := by
    have hnear := toDouble_nearest.nearest (x + s) _ (isDouble_natCast hk53)
    push_cast at hnear
    rwa [abs_of_pos (by linarith : (0 : ℚ) < k + 1 - (x + s))] at hnear
  have hkpos : (1 : ℚ) ≤ k := by
    have hpos : (0 : ℚ) < k := by linarith
    exact_mod_cast hpos
  have hdown : |toDouble x - x| ≤ |toDouble (x + s) - 1 - x| :=
    toDouble_nearest.nearest x _ ((toDouble_nearest.mem (x + s)).sub_one (by linarith) hsmall)
  have hbelow : toDouble (x + s) - 1 < x := by
    by_contra! hge
    rw [abs_of_nonneg (by linarith : 0 ≤ toDouble (x + s) - 1 - x)] at hdown
    linarith [le_abs_self (toDouble x - x)]
  rw [abs_of_neg (by linarith : toDouble (x + s) - 1 - x < 0)] at hdown
  have hone : s = 1 := by
    linarith [le_abs_self (toDouble x - x), neg_abs_le (toDouble (x + s) - (x + s))]
  obtain ⟨m, rfl⟩ := hwhole hone
  have hhigh : (m : ℚ) < k := by linarith
  have hm : k < m + 1 := by exact_mod_cast (by linarith : (k : ℚ) < m + 1)
  have hm' : m < k := by exact_mod_cast hhigh
  omega

/-- Where doubles are whole numbers, a step is longer than the distance between them as long as
there are not too many. -/
theorem floor_toDouble_lt_of_large (hx : 0 ≤ x) (hs : 1 ≤ s) (hfew : x + s ≤ (2 ^ 52 - 2) * s)
    (hlarge : 2 ^ 53 ≤ toDouble (x + s)) : ⌊toDouble x⌋₊ < ⌊toDouble (x + s)⌋₊ := by
  by_contra! hle
  have hmono := toDouble_mono (x := x) (y := x + s) (by linarith)
  have hx53 : 2 ^ 53 ≤ toDouble x := by
    have hfloor : 2 ^ 53 ≤ ⌊toDouble (x + s)⌋₊ := Nat.le_floor (by exact_mod_cast hlarge)
    calc (2 : ℚ) ^ 53 ≤ ⌊toDouble x⌋₊ := by exact_mod_cast hfloor.trans hle
      _ ≤ toDouble x := Nat.floor_le (toDouble_nonneg hx)
  have hsame : toDouble x = toDouble (x + s) := by
    obtain ⟨m, hm⟩ := (toDouble_nearest.mem x).exists_natCast (by linarith)
    obtain ⟨n, hn⟩ := (toDouble_nearest.mem (x + s)).exists_natCast (by linarith)
    rw [hm, hn, Nat.floor_natCast, Nat.floor_natCast] at hle
    rw [hm, hn] at hmono ⊢
    exact le_antisymm hmono (by exact_mod_cast hle)
  have hdouble : IsDouble (toDouble (x + s)) := toDouble_nearest.mem (x + s)
  have hpos : 0 < toDouble (x + s) := by linarith
  have hu := ulp_pos (toDouble (x + s))
  obtain ⟨hdown, hup⟩ := hdouble.neighbours hpos
  have hx' := hsame ▸ toDouble_nearest.nearest x _ hdown
  have hy' := toDouble_nearest.nearest (x + s) _ hup
  have hdigits := (digits_of_pos hpos).1
  generalize toDouble (x + s) = p at hx' hy' hu hdigits
  generalize ulp p = u at hx' hy' hu hdigits
  have hlow : p - u / 2 ≤ x := by
    by_contra! hlt
    rcases le_total x (p - u) with hbelow | habove
    · rw [abs_of_nonneg (by linarith), abs_of_nonneg (by linarith)] at hx'
      linarith
    · rw [abs_of_nonneg (by linarith), abs_of_nonpos (by linarith)] at hx'
      linarith
  have hhigh : x + s ≤ p + u / 2 := by
    by_contra! hlt
    rcases le_total (p + u) (x + s) with habove | hbelow
    · rw [abs_of_nonpos (by linarith), abs_of_nonpos (by linarith)] at hy'
      linarith
    · rw [abs_of_nonpos (by linarith), abs_of_nonneg (by linarith)] at hy'
      linarith
  linarith

/-- **Numbers a step apart** do not round into the same unit interval. -/
theorem floor_toDouble_lt (hs : 1 ≤ s) {i : ℕ} (hi : i + 3 ≤ 2 ^ 52) :
    ⌊toDouble (i * s)⌋₊ < ⌊toDouble ((i + 1 : ℕ) * s)⌋₊ := by
  have hsucc : ((i + 1 : ℕ) : ℚ) * s = i * s + s := by
    push_cast
    ring
  have hx : 0 ≤ (i : ℚ) * s := by positivity
  have hcount : (i : ℚ) + 3 ≤ 2 ^ 52 := by exact_mod_cast hi
  rw [hsucc]
  rcases lt_or_ge (toDouble (i * s + s)) (2 ^ 53) with hsmall | hlarge
  · exact floor_toDouble_lt_of_small hx hs (fun h ↦ ⟨i, by rw [h, mul_one]⟩) hsmall
  · refine floor_toDouble_lt_of_large hx hs ?_ hlarge
    nlinarith

end Step

/-! ## The grid -/

section Grid

variable {n maxN i : ℕ}

theorem one_le_step (hn : maxN < n) (hmax : 0 < maxN) : 1 ≤ toDouble ((n : ℚ) / maxN) := by
  have hpos : (0 : ℚ) < maxN := by exact_mod_cast hmax
  have hle : (1 : ℚ) ≤ n / maxN := (one_le_div hpos).mpr (by exact_mod_cast hn.le)
  simpa using toDouble_nearest.le_of_ge (isDouble_natCast (n := 1) (by norm_num))
      (by simpa using hle)

theorem gridPlace_eq (h : i ≤ 2 ^ 53) :
    gridPlace n maxN i = ⌊toDouble (i * toDouble (n / maxN))⌋₊ :=
  by rw [gridPlace, toDouble_natCast h]

theorem gridPlace_zero : gridPlace n maxN 0 = 0 := by
  rw [gridPlace_eq (Nat.zero_le _), Nat.cast_zero, zero_mul, toDouble_zero, Nat.floor_zero]

theorem gridPlace_lt_succ (hn : maxN < n) (hmax : 0 < maxN) (hi : i + 3 ≤ 2 ^ 52) :
    gridPlace n maxN i < gridPlace n maxN (i + 1) := by
  rw [gridPlace_eq (by omega), gridPlace_eq (by omega)]
  exact floor_toDouble_lt (one_le_step hn hmax) hi

/-- **The grid goes up.** -/
theorem gridPlace_strictMono (hn : maxN < n) (hmax : 0 < maxN) {j : ℕ} (hij : i < j)
    (hj : j + 2 ≤ 2 ^ 52) : gridPlace n maxN i < gridPlace n maxN j := by
  induction j, hij using Nat.le_induction with
  | base => exact gridPlace_lt_succ hn hmax hj
  | succ j hij ih =>
    exact (ih (by omega)).trans (gridPlace_lt_succ hn hmax hj)

/-- **The grid does not reach the last point**: what is rounded up is less than the step that is
left out. -/
theorem toDouble_mul_lt (hn : maxN < n) (hcount : maxN ≤ 2 ^ 52) (hi : i + 2 ≤ maxN) :
    toDouble (i * toDouble (n / maxN)) < n - 1 := by
  have hn' : (maxN : ℚ) < n := by exact_mod_cast hn
  have hi' : (i : ℚ) + 2 ≤ maxN := by exact_mod_cast hi
  have hcount' : (maxN : ℚ) ≤ 2 ^ 52 := by exact_mod_cast hcount
  rcases Nat.eq_zero_or_pos i with rfl | hpos
  · rw [Nat.cast_zero, zero_mul, toDouble_zero]
    linarith
  have hmaxpos : (0 : ℚ) < maxN := by linarith
  have hq : (1 : ℚ) < n / maxN := (one_lt_div hmaxpos).mpr hn'
  have hstep := toDouble_le_mul (by linarith : (0 : ℚ) < n / maxN)
  have hone := one_le_step hn (by omega)
  have hplace := toDouble_le_mul (by positivity : (0 : ℚ) < i * toDouble (n / maxN))
  have hself : (maxN : ℚ) * (n / maxN) = n := mul_div_cancel₀ _ hmaxpos.ne'
  generalize (n : ℚ) / maxN = q at hq hstep hone hplace hself
  calc toDouble (i * toDouble q) ≤ i * toDouble q * (1 + 1 / 2 ^ 53) := hplace
    _ ≤ i * (q * (1 + 1 / 2 ^ 53)) * (1 + 1 / 2 ^ 53) := by gcongr
    _ = i * (1 + 1 / 2 ^ 53) ^ 2 * q := by ring
    _ ≤ (maxN - 1) * q := by
        refine mul_le_mul_of_nonneg_right ?_ (by linarith)
        have herror : (1 + 1 / 2 ^ 53 : ℚ) ^ 2 = 1 + (1 / 2 ^ 52 + 1 / 2 ^ 106) := by norm_num
        nlinarith
    _ < n - 1 := by
        linarith

theorem gridPlace_lt (hn : maxN < n) (hcount : maxN ≤ 2 ^ 52) (hi : i + 2 ≤ maxN) :
    gridPlace n maxN i < n - 1 := by
  have hlt := toDouble_mul_lt hn hcount hi
  rw [gridPlace_eq (by omega), Nat.floor_lt' (by omega), Nat.cast_sub (by omega), Nat.cast_one]
  exact hlt

end Grid

/-! ## What is kept -/

/-- **Downsampling keeps the shape** of every list, when at most `2 ^ 52` points are kept of it. -/
theorem downsample_keepsShape (points : List α) {maxN : ℕ} (htwo : 2 ≤ maxN)
    (hcount : maxN ≤ 2 ^ 52 ∨ points.length ≤ maxN) :
    ∃ out, downsample points maxN = .ok out ∧ KeepsShape points maxN out := by
  rw [downsample]
  split
  · next hshort =>
    refine ⟨points, rfl, ⟨List.range points.length, List.pairwise_lt_range, ?_, fun hne ↦ ?_⟩,
      hshort,
      fun hlong ↦ absurd hlong hshort.not_gt⟩
    · rw [List.forall₂_iff_get]
      refine ⟨List.length_range, fun i h₁ h₂ ↦ ?_⟩
      simp at h₁ h₂ ⊢
    · have hpos := List.length_pos_iff.mpr hne
      exact ⟨List.mem_range.mpr hpos, List.mem_range.mpr (by omega)⟩
  · next hlong =>
    have hn : maxN < points.length := not_le.mp hlong
    have hcount := hcount.resolve_right hlong
    have hbelow : ∀ i ∈ List.range (maxN - 1),
        gridPlace points.length maxN i < points.length - 1 := by
      intro i hi
      exact gridPlace_lt hn hcount (by have := List.mem_range.mp hi; omega)
    have hlast : points.length - 1 < points.length := by omega
    obtain ⟨out, hout⟩ := exists_each
      (f := fun i ↦ pointAt points (gridPlace points.length maxN i)) fun i hi ↦
        ⟨_, pointAt_of_lt ((hbelow i hi).trans hlast)⟩
    refine ⟨out ++ [points[points.length - 1]], ?_, ?_⟩
    · rw [if_neg (by omega), hout, ok_bind, pointAt_of_lt hlast]
      rfl
    have hat := each_eq_ok.mp hout
    have hlength : out.length = maxN - 1 := by rw [← hat.length_eq, List.length_range]
    have hsize : (out ++ [points[points.length - 1]]).length = maxN := by
      rw [List.length_append, hlength, List.length_singleton]
      omega
    refine ⟨⟨(List.range (maxN - 1)).map (gridPlace points.length maxN) ++ [points.length - 1],
      ?_, ?_, fun _ ↦ ?_⟩, hsize.le, fun _ ↦ hsize⟩
    · rw [List.pairwise_append]
      refine ⟨List.pairwise_map.mpr ?_, List.pairwise_singleton _ _, ?_⟩
      · refine List.pairwise_lt_range.imp_of_mem fun {i j} hi hj hij ↦ ?_
        have := List.mem_range.mp hj
        exact gridPlace_strictMono hn (by omega) hij (by omega)
      · intro p hp q hq
        obtain ⟨i, hi, rfl⟩ := List.mem_map.mp hp
        rw [List.mem_singleton.mp hq]
        exact hbelow i hi
    · refine List.rel_append (List.forall₂_map_left_iff.mpr (hat.imp fun i x h ↦ ?_)) ?_
      · exact pointAt_eq_ok.mp h
      · exact .cons (List.getElem?_eq_getElem hlast) .nil
    · refine ⟨List.mem_append_left _ (List.mem_map.mpr ⟨0, ?_, gridPlace_zero⟩),
        List.mem_append_right _ (List.mem_singleton_self _)⟩
      exact List.mem_range.mpr (by omega)

/-- Three points of five. -/
theorem downsample_keepsShape_three : ∃ out, downsample [10, 20, 30, 40, 50] 3 = .ok out ∧
    KeepsShape [10, 20, 30, 40, 50] 3 out :=
  downsample_keepsShape [10, 20, 30, 40, 50] (by norm_num) (Or.inl (by norm_num))

/-! ## A point that is kept twice -/

/-- If the grid reaches the last point the shape of a list without repetition is not kept. -/
theorem not_keepsShape_of_reached {n maxN i : ℕ} (hn : maxN < n) (hi : i < maxN - 1)
    (hreach : gridPlace n maxN i = n - 1) :
    ¬ ∃ out, downsample (List.range n) maxN = .ok out ∧ KeepsShape (List.range n) maxN out := by
  rintro ⟨out, hout, hshape⟩
  rw [downsample, List.length_range, if_neg hn.not_ge, if_neg (by omega)] at hout
  obtain ⟨kept, hkept, hout⟩ := bind_eq_ok.mp hout
  obtain ⟨last, hlast, hout⟩ := bind_eq_ok.mp hout
  obtain rfl : kept ++ [last] = out := Except.ok.inj hout
  obtain ⟨places, hplaces, hat, -⟩ := hshape.places
  have hself : ∀ {p x : ℕ}, (List.range n)[p]? = some x → p = x := by
    intro p x h
    obtain ⟨hp, hx⟩ := List.getElem?_eq_some_iff.mp h
    rw [← hx, List.getElem_range]
  obtain rfl : places = kept ++ [last] := by
    refine List.forall₂_eq_eq_eq ▸ hat.imp fun p x h ↦ hself h
  obtain ⟨x, hx, hfetched⟩ := exists_mem_of_forall₂ (each_eq_ok.mp hkept).flip
    (List.mem_range.mpr hi)
  have hsame := hself (pointAt_eq_ok.mp hfetched)
  have hend := hself (pointAt_eq_ok.mp hlast)
  have hlt := (List.pairwise_append.mp hplaces).2.2 x hx last (List.mem_singleton_self _)
  omega

theorem toDouble_step : toDouble ((2 ^ 53 : ℕ) / (2 ^ 53 - 1 : ℕ)) = 1 + 1 / 2 ^ 52 := by
  have h := toDouble_eq (x := (2 ^ 53 : ℕ) / (2 ^ 53 - 1 : ℕ)) (e := 0) (m := 2 ^ 52 + 1)
    (by norm_num) (by norm_num) (by norm_num [abs_lt])
  rw [h]
  norm_num

/-- One point of `2 ^ 53` is to be left out, and the last one is kept twice. -/
theorem last_point_twice : ¬ ∃ out, downsample (List.range (2 ^ 53)) (2 ^ 53 - 1) = .ok out ∧
    KeepsShape (List.range (2 ^ 53)) (2 ^ 53 - 1) out := by
  refine not_keepsShape_of_reached (i := 2 ^ 53 - 3) (by norm_num) (by norm_num) ?_
  have hplace := toDouble_eq (x := (2 ^ 53 - 3 : ℕ) * (1 + 1 / 2 ^ 52)) (e := 52) (m := 2 ^ 53 - 1)
    (by norm_num) (by norm_num) (by norm_num [abs_lt])
  rw [gridPlace_eq (by norm_num), toDouble_step, hplace]
  norm_num

end OpenRide.Dataplane
