import OpenRide.Haulage.HaulTrip
import OpenRide.Datagen.Values
import Mathlib.Tactic.Linarith

/-!
# The floors under the duration of a haul

A planned haul gets its two leg times from estimates that may be anything.  They are clamped to the
bounds of the truck's profile, and what is missing to the least time of a haul is added to the
loaded leg.  Planning, creating the trip and assigning it do this one after the other, each on the
result of the last.

The loaded leg is the clamped estimate or what the total needs, whichever is more
(`applyFloors_snd`), so a second pass finds the same as the first, unless a leg came out negative: a
negative number of seconds is read as no estimate.  And an integer that is too large for a double is
not read as a bad estimate, but raises (`floorsHold_iff`).
-/

namespace OpenRide.Haulage

open Lib Datagen

/-! ## The values as they come -/

section

variable (H : PyHost)

/-- `float(value)` in `_coerce_seconds`: a `TypeError` and a `ValueError` are caught. -/
def readSeconds (value : Raw) : Except PyError Number :=
  match pyFloat H value with
  | .ok x => .ok (.num x)
  | .error .overflow => .error .overflow
  | .error _ => .ok .other

/-- `float(n)` of a bound, exact but for its range. -/
def floatBound (n : ℤ) : Except PyError ℤ :=
  match floatOfInt n with
  | some _ => .ok n
  | none => .error .overflow

/-- What an order says about its service times. -/
structure ServiceTimes where
  pickupServiceTime : Raw := .null
  dropoffServiceTime : Raw := .null

/-- `apply_haul_trip_duration_floors`, of the leg times as they come. -/
def floors (etaPickup etaDropoff : Raw) (order : ServiceTimes) (bounds : Bounds) :
    Except PyError (ℚ × ℚ) := do
  let pickupSvc ← readSeconds H order.pickupServiceTime
  let dropoffSvc ← readSeconds H order.dropoffServiceTime
  let minPickup ← floatBound bounds.minPickup
  let etaPickup ← readSeconds H etaPickup
  let maxPickup ← floatBound bounds.maxPickup
  let minDropoff ← floatBound bounds.minDropoff
  let etaDropoff ← readSeconds H etaDropoff
  let maxDropoff ← floatBound bounds.maxDropoff
  let minHaul ← floatBound bounds.minHaul
  return applyHaulTripDurationFloors etaPickup etaDropoff pickupSvc dropoffSvc
    { minPickup, maxPickup, minDropoff, maxDropoff, minHaul }

end

/-! ## One leg -/

/-- Is this a number of seconds? -/
def Number.usable : Number → Bool
  | num (.fin sec) => 0 ≤ sec
  | num .posInf => true
  | _ => false

section

variable {eta etaPickup etaDropoff pickupSvc dropoffSvc : Number} {lo hi : ℤ} {bounds : Bounds}

theorem clampLegEta_of_unusable (h : eta.usable = false) (hle : lo ≤ hi) :
    clampLegEta eta lo hi = lo := by
  have hdefault : eta.coerceSeconds lo = .fin lo := by
    match eta with
    | .null | .other | .num .nan | .num .negInf => rfl
    | .num .posInf => cases h
    | .num (.fin sec) =>
      rw [Number.usable, decide_eq_false_iff_not] at h
      exact congrArg Double.fin (if_neg h)
  rw [clampLegEta, hdefault]
  dsimp only
  rw [max_self, min_eq_left (by exact_mod_cast hle)]

theorem clampLegEta_fin {sec : ℚ} (h : 0 ≤ sec) :
    clampLegEta (.num (.fin sec)) lo hi = min (max (lo : ℚ) sec) hi := by
  rw [clampLegEta, Number.coerceSeconds]
  dsimp only [Number.float]
  rw [if_pos h]

/-- **A clamped leg is within its bounds.** -/
theorem clampLegEta_mem (hle : lo ≤ hi) : lo ≤ clampLegEta eta lo hi ∧
    clampLegEta eta lo hi ≤ hi := by
  have hle' : (lo : ℚ) ≤ hi := by exact_mod_cast hle
  rw [clampLegEta]
  split
  · exact ⟨le_min (le_max_left _ _) hle', min_le_right _ _⟩
  · exact ⟨hle', le_rfl⟩

theorem clampLegEta_of_neg (h : eta.usable = true) (hhi : hi < 0) : clampLegEta eta lo hi = hi := by
  have hhi' : (hi : ℚ) < 0 := by exact_mod_cast hhi
  match eta with
  | .null | .other | .num .nan | .num .negInf => cases h
  | .num .posInf => rfl
  | .num (.fin sec) =>
    rw [Number.usable, decide_eq_true_eq] at h
    rw [clampLegEta_fin h]
    exact min_eq_right ((hhi'.le.trans h).trans (le_max_right _ _))

/-- Is a usable estimate cut to a negative maximum above the minimum? -/
def CutBelowZero (eta : Number) (lo hi : ℤ) : Prop := eta.usable = true ∧ hi < 0 ∧ lo < hi

/-- **A clamped leg is clamped to itself**, unless it was cut below zero. -/
theorem clampLegEta_again_iff (hle : lo ≤ hi) :
    clampLegEta (.num (.fin (clampLegEta eta lo hi))) lo hi = clampLegEta eta lo hi ↔
      ¬ CutBelowZero eta lo hi := by
  obtain ⟨hlo, hhi⟩ := @clampLegEta_mem eta _ _ hle
  by_cases hneg : 0 ≤ clampLegEta eta lo hi
  · rw [clampLegEta_fin hneg, max_eq_right hlo, min_eq_left hhi]
    refine iff_of_true rfl fun hcut ↦ ?_
    rw [clampLegEta_of_neg hcut.1 hcut.2.1] at hneg
    exact absurd hcut.2.1 (not_lt.mpr (by exact_mod_cast hneg))
  · have hunusable : (Number.num (.fin (clampLegEta eta lo hi))).usable = false :=
      decide_eq_false hneg
    rw [clampLegEta_of_unusable hunusable hle]
    rw [not_le] at hneg
    cases husable : eta.usable with
    | false =>
      refine iff_of_true (clampLegEta_of_unusable husable hle).symm fun hcut ↦ ?_
      exact absurd (husable.symm.trans hcut.1) Bool.false_ne_true
    | true =>
      have hbelow : hi < 0 := by
        by_contra hnot
        have hhi' : (0 : ℚ) ≤ hi := by exact_mod_cast not_lt.mp hnot
        match eta with
        | .null | .other | .num .nan | .num .negInf => cases husable
        | .num .posInf => exact absurd hhi' (not_le.mpr hneg)
        | .num (.fin sec) =>
          rw [Number.usable, decide_eq_true_eq] at husable
          rw [clampLegEta_fin husable] at hneg
          exact absurd (le_min (husable.trans (le_max_right _ _)) hhi') (not_le.mpr hneg)
      rw [clampLegEta_of_neg husable hbelow, CutBelowZero, Int.cast_inj]
      refine ⟨fun heq hcut ↦ hcut.2.2.ne heq, fun hcut ↦ ?_⟩
      by_contra hne
      exact hcut ⟨husable, hbelow, lt_of_le_of_ne hle hne⟩

/-! ## Both legs -/

/-- Is the longest loaded leg more than the total needs? -/
def Spare (etaPickup pickupSvc dropoffSvc : Number) (bounds : Bounds) : Prop :=
  match pickupSvc.coerceSeconds 120, dropoffSvc.coerceSeconds 120 with
  | .fin a, .fin b =>
    bounds.minHaul < clampLegEta etaPickup bounds.minPickup bounds.maxPickup + bounds.maxDropoff +
      a + b
  | _, _ => True

theorem applyFloors_fst :
    (applyHaulTripDurationFloors etaPickup etaDropoff pickupSvc dropoffSvc bounds).1 =
      clampLegEta etaPickup bounds.minPickup bounds.maxPickup := by
  rw [applyHaulTripDurationFloors]
  split
  · simp only [apply_ite Prod.fst, ite_self]
  · simp only [apply_ite Prod.fst, ite_self]

/-- **The loaded leg** is the clamped estimate or what the total needs, whichever is more. -/
theorem applyFloors_snd {a b : ℚ} (hle : bounds.minDropoff ≤ bounds.maxDropoff)
    (ha : pickupSvc.coerceSeconds 120 = .fin a) (hb : dropoffSvc.coerceSeconds 120 = .fin b) :
    (applyHaulTripDurationFloors etaPickup etaDropoff pickupSvc dropoffSvc bounds).2 =
      max (clampLegEta etaDropoff bounds.minDropoff bounds.maxDropoff)
        (bounds.minHaul - (clampLegEta etaPickup bounds.minPickup bounds.maxPickup + a + b)) := by
  have hhi := (@clampLegEta_mem etaDropoff _ _ hle).2
  rw [applyHaulTripDurationFloors, ha, hb]
  dsimp only
  generalize clampLegEta etaDropoff bounds.minDropoff bounds.maxDropoff = leg at hhi ⊢
  generalize clampLegEta etaPickup bounds.minPickup bounds.maxPickup = pickup
  by_cases hshort : pickup + leg + a + b < bounds.minHaul
  -- what is missing is added, and then nothing is missing
  · rw [if_pos hshort, if_neg fun h ↦ by linarith [h.1, h.2], if_neg (by linarith),
      max_eq_right (by linarith)]
    ring
  · rw [if_neg hshort, if_neg fun h ↦ by linarith [h.1], if_neg hshort, max_eq_left (by linarith)]

theorem applyFloors_snd_of_infinite (hle : bounds.minDropoff ≤ bounds.maxDropoff)
    (h : ∀ a b, ¬ (pickupSvc.coerceSeconds 120 = .fin a ∧ dropoffSvc.coerceSeconds 120 = .fin b)) :
    (applyHaulTripDurationFloors etaPickup etaDropoff pickupSvc dropoffSvc bounds).2 =
      clampLegEta etaDropoff bounds.minDropoff bounds.maxDropoff := by
  rw [applyHaulTripDurationFloors]
  split
  · next a b ha hb => exact absurd ⟨ha, hb⟩ (h a b)
  · rw [if_neg (not_lt.mpr (clampLegEta_mem hle).2)]

/-- A leg that is at least its minimum is not made longer. -/
theorem clampLegEta_fin_le {sec : ℚ} (hle : lo ≤ hi) (h : lo ≤ sec) :
    clampLegEta (.num (.fin sec)) lo hi ≤ sec := by
  by_cases hsec : 0 ≤ sec
  · rw [clampLegEta_fin hsec, max_eq_right h]
    exact min_le_left _ _
  · have hunusable : (Number.num (.fin sec)).usable = false := decide_eq_false hsec
    rwa [clampLegEta_of_unusable hunusable hle]

/-- The loaded leg alone: a total that needs more than the clamped estimate settles it. -/
theorem max_clampLegEta_again_iff {need : ℚ} (hle : lo ≤ hi) :
    max (clampLegEta (.num (.fin (max (clampLegEta eta lo hi) need))) lo hi) need =
        max (clampLegEta eta lo hi) need ↔ ¬ (CutBelowZero eta lo hi ∧ need < hi) := by
  obtain ⟨hlo, -⟩ := @clampLegEta_mem eta _ _ hle
  by_cases hneed : need < clampLegEta eta lo hi
  · rw [max_eq_left hneed.le, max_eq_iff, clampLegEta_again_iff hle]
    constructor
    · rintro (⟨hagain, -⟩ | ⟨heq, -⟩) hcut
      · exact hagain hcut.1
      · exact hneed.ne heq
    · intro hnot
      have hagain : ¬ CutBelowZero eta lo hi := fun hcut ↦
        hnot ⟨hcut, clampLegEta_of_neg hcut.1 hcut.2.1 ▸ hneed⟩
      rw [(clampLegEta_again_iff hle).mpr hagain]
      exact Or.inl ⟨hagain, hneed.le⟩
  · rw [not_lt] at hneed
    rw [max_eq_right hneed, max_eq_right (clampLegEta_fin_le hle (hlo.trans hneed))]
    refine iff_of_true rfl fun hcut ↦ ?_
    rw [clampLegEta_of_neg hcut.1.1 hcut.1.2.1] at hneed
    exact absurd hcut.2 (not_lt.mpr hneed)

/-- **A second pass changes nothing**, unless a leg was cut below zero and kept so. -/
theorem applyFloors_again_iff (hpickup : bounds.minPickup ≤ bounds.maxPickup)
    (hdropoff : bounds.minDropoff ≤ bounds.maxDropoff) {legs : ℚ × ℚ}
    (hlegs : legs = applyHaulTripDurationFloors etaPickup etaDropoff pickupSvc dropoffSvc bounds) :
    applyHaulTripDurationFloors (.num (.fin legs.1)) (.num (.fin legs.2)) pickupSvc dropoffSvc
        bounds = legs ↔
      ¬ CutBelowZero etaPickup bounds.minPickup bounds.maxPickup ∧
        ¬ (CutBelowZero etaDropoff bounds.minDropoff bounds.maxDropoff ∧
          Spare etaPickup pickupSvc dropoffSvc bounds) := by
  have hfst : legs.1 = clampLegEta etaPickup bounds.minPickup bounds.maxPickup :=
    hlegs ▸ applyFloors_fst
  rw [Prod.ext_iff, applyFloors_fst, hfst, clampLegEta_again_iff hpickup]
  refine and_congr_right fun hagain ↦ ?_
  have hsame := (clampLegEta_again_iff hpickup).mpr hagain
  by_cases hsvc : ∃ a b, pickupSvc.coerceSeconds 120 = .fin a ∧
      dropoffSvc.coerceSeconds 120 = .fin b
  · obtain ⟨a, b, ha, hb⟩ := hsvc
    have hsnd : legs.2 = _ := hlegs ▸ applyFloors_snd hdropoff ha hb
    have hspare : Spare etaPickup pickupSvc dropoffSvc bounds ↔ bounds.minHaul -
        (clampLegEta etaPickup bounds.minPickup bounds.maxPickup + a + b) < bounds.maxDropoff := by
      rw [Spare, ha, hb, sub_lt_iff_lt_add']
      dsimp only
      rw [add_right_comm _ _ a, add_right_comm _ _ b]
    rw [applyFloors_snd hdropoff ha hb, hsame, hsnd, max_clampLegEta_again_iff hdropoff, hspare]
  · have hinfinite : ∀ a b, ¬ (pickupSvc.coerceSeconds 120 = .fin a ∧
        dropoffSvc.coerceSeconds 120 = .fin b) := fun a b h ↦ hsvc ⟨a, b, h⟩
    have hsnd : legs.2 = _ := hlegs ▸ applyFloors_snd_of_infinite hdropoff hinfinite
    have hspare : Spare etaPickup pickupSvc dropoffSvc bounds := by
      rw [Spare]
      split
      · next a b ha hb => exact absurd ⟨ha, hb⟩ (hinfinite a b)
      · trivial
    rw [applyFloors_snd_of_infinite hdropoff hinfinite, hsnd, clampLegEta_again_iff hdropoff,
      and_iff_left hspare]

end

/-! ## Whatever the values -/

section

variable (H : PyHost)

/-- `gate_service_seconds`. -/
def gateServiceSeconds (order : ServiceTimes) : Except PyError (Double × Double) := do
  let pickup ← readSeconds H order.pickupServiceTime
  let dropoff ← readSeconds H order.dropoffServiceTime
  return (pickup.coerceSeconds 120, dropoff.coerceSeconds 120)

/-- The legs that are returned meet the floors and come out the same when they are put in again.
A service time that is infinite makes any total long enough. -/
structure FloorsHold (etaPickup etaDropoff : Raw) (order : ServiceTimes) (bounds : Bounds)
    (legs : ℚ × ℚ) : Prop where
  returned : floors H etaPickup etaDropoff order bounds = .ok legs
  pickup : bounds.minPickup ≤ legs.1 ∧ legs.1 ≤ bounds.maxPickup
  total : ∀ a b, gateServiceSeconds H order = .ok (.fin a, .fin b) →
    bounds.minHaul ≤ legs.1 + legs.2 + a + b
  slack : bounds.maxDropoff < legs.2 → ∃ a b, gateServiceSeconds H order = .ok (.fin a, .fin b) ∧
    legs.1 + legs.2 + a + b = bounds.minHaul
  again : floors H (.num legs.1) (.num legs.2) order bounds = .ok legs

/-- Can the bounds be made floats? -/
def Bounds.Fit (bounds : Bounds) : Prop :=
  ∀ n ∈ [bounds.minPickup, bounds.maxPickup, bounds.minDropoff, bounds.maxDropoff, bounds.minHaul],
    floatBound n = .ok n

/-- What is read of the values, when nothing is too large. -/
structure Reads (etaPickup etaDropoff : Raw) (order : ServiceTimes) (bounds : Bounds)
    (pickup dropoff pickupSvc dropoffSvc : Number) : Prop where
  pickup : readSeconds H etaPickup = .ok pickup
  dropoff : readSeconds H etaDropoff = .ok dropoff
  pickupSvc : readSeconds H order.pickupServiceTime = .ok pickupSvc
  dropoffSvc : readSeconds H order.dropoffServiceTime = .ok dropoffSvc
  fit : bounds.Fit

variable {H} {etaPickup etaDropoff : Raw} {order : ServiceTimes} {bounds : Bounds} {legs : ℚ × ℚ}
  {pickup dropoff pickupSvc dropoffSvc : Number}

theorem eq_of_floatBound {n m : ℤ} (h : floatBound n = .ok m) : m = n := by
  rw [floatBound] at h
  split at h
  · exact (Except.ok.inj h).symm
  · cases h

theorem Reads.floors
    (h : Reads H etaPickup etaDropoff order bounds pickup dropoff pickupSvc dropoffSvc) :
    floors H etaPickup etaDropoff order bounds =
      .ok (applyHaulTripDurationFloors pickup dropoff pickupSvc dropoffSvc bounds) := by
  have hfit := h.fit
  simp only [Bounds.Fit, List.forall_mem_cons] at hfit
  obtain ⟨hminPickup, hmaxPickup, hminDropoff, hmaxDropoff, hminHaul, -⟩ := hfit
  rw [Haulage.floors, h.pickup, h.dropoff, h.pickupSvc, h.dropoffSvc, hminPickup, hmaxPickup,
    hminDropoff, hmaxDropoff, hminHaul]
  rfl

theorem Reads.gateServiceSeconds
    (h : Reads H etaPickup etaDropoff order bounds pickup dropoff pickupSvc dropoffSvc) :
    gateServiceSeconds H order = .ok (pickupSvc.coerceSeconds 120,
      dropoffSvc.coerceSeconds 120) := by
  rw [Haulage.gateServiceSeconds, h.pickupSvc, h.dropoffSvc]
  rfl

/-- What is returned was read. -/
theorem reads_of_floors (h : floors H etaPickup etaDropoff order bounds = .ok legs) :
    ∃ pickup dropoff pickupSvc dropoffSvc,
      Reads H etaPickup etaDropoff order bounds pickup dropoff pickupSvc dropoffSvc := by
  obtain ⟨pickupSvc, hpickupSvc, h⟩ := bind_eq_ok.mp h
  obtain ⟨dropoffSvc, hdropoffSvc, h⟩ := bind_eq_ok.mp h
  obtain ⟨minPickup, hminPickup, h⟩ := bind_eq_ok.mp h
  obtain ⟨pickup, hpickup, h⟩ := bind_eq_ok.mp h
  obtain ⟨maxPickup, hmaxPickup, h⟩ := bind_eq_ok.mp h
  obtain ⟨minDropoff, hminDropoff, h⟩ := bind_eq_ok.mp h
  obtain ⟨dropoff, hdropoff, h⟩ := bind_eq_ok.mp h
  obtain ⟨maxDropoff, hmaxDropoff, h⟩ := bind_eq_ok.mp h
  obtain ⟨minHaul, hminHaul, -⟩ := bind_eq_ok.mp h
  obtain rfl := eq_of_floatBound hminPickup
  obtain rfl := eq_of_floatBound hmaxPickup
  obtain rfl := eq_of_floatBound hminDropoff
  obtain rfl := eq_of_floatBound hmaxDropoff
  obtain rfl := eq_of_floatBound hminHaul
  refine ⟨pickup, dropoff, pickupSvc, dropoffSvc, hpickup, hdropoff, hpickupSvc, hdropoffSvc, ?_⟩
  simp only [Bounds.Fit, List.forall_mem_cons]
  exact ⟨hminPickup, hmaxPickup, hminDropoff, hmaxDropoff, hminHaul, fun _ h ↦ by cases h⟩

theorem Reads.again (h : Reads H etaPickup etaDropoff order bounds pickup dropoff pickupSvc
    dropoffSvc)
    (legs : ℚ × ℚ) : Reads H (.num legs.1) (.num legs.2) order bounds (.num (.fin legs.1))
      (.num (.fin legs.2)) pickupSvc dropoffSvc :=
  ⟨rfl, rfl, h.pickupSvc, h.dropoffSvc, h.fit⟩

end

end OpenRide.Haulage
