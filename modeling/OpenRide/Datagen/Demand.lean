import Mathlib.Algebra.BigOperators.Group.List.Basic
import Mathlib.Algebra.Field.Rat
import Mathlib.Algebra.Order.Field.Basic
import Mathlib.Algebra.Order.Ring.Rat
import OpenRide.Datagen.Values
import OpenRide.Lib.Sorted

/-!
# Order demand

How many orders arrive in which hour is authored as a sparse curve: weights of some hours, the
others interpolated.  `parseOrderDemandCurve` turns it into one weight for each of the 24 hours,
with sum one, and the scenario is saved with these as its curve.  Reading that curve gives the same
weights (`parseOrderDemandCurve_curveRaw`).

Some orders exist before the run starts.  How many may be authored, but a number that is too large
for the fleet is replaced by the recommended one, which never is too large (`earlyOrderCount_idem`).
-/

namespace OpenRide.Datagen

open Lib

/-! ## The curve -/

/-- `HOURS_PER_DAY`. -/
def hoursPerDay : ℕ := 24

/-- A point of a curve: an hour and its weight. -/
abbrev DemandPoint := ℕ × ℚ

/-- `default_peak_hours_curve`. -/
def defaultPeakHoursCurve : List DemandPoint :=
  (List.range hoursPerDay).zip
    [0, 0, 0, 0, 0, 1, 3, 5, 8, 9, 10, 10, 8, 8, 8, 8, 7, 5, 3, 2, 1, 1, 1, 0]

/-- The point an authored item says, if it is readable and within the day. -/
def readPoint (H : PyHost) (item : Raw) : Except PyError (List DemandPoint) :=
  match item with
  | .dict entries => do
    match ← caught (pyInt H (Raw.fieldD entries "hour" (Raw.fieldD entries "t" (.int (-1))))) with
    | none => return []
    | some hour =>
      match ← caught (pyFloat H (Raw.fieldD entries "weight" (.int 0))) with
      | none => return []
      | some weight =>
        if 0 ≤ hour ∧ hour < hoursPerDay then return [(hour.toNat, ← atLeastZero weight)]
        else return []
  | _ => .ok []

/-- `_coerce_points`. -/
def coercePoints (H : PyHost) (raw : Raw) : Except PyError (Option (List DemandPoint)) :=
  match Raw.field raw.asDict "points" with
  | .list (item :: items) => do
    let points ← each (readPoint H) (item :: items)
    return if points.flatten.isEmpty then none else some points.flatten
  | _ => .ok none

/-- The last of the sorted hours up to `h`, or else the first of all. -/
def lowerHour (hours : List ℕ) (h : ℕ) : ℕ :=
  ((hours.filter (· ≤ h)).getLast?).getD (hours.headD 0)

/-- The first of the sorted hours from `h` on, or else the last of all. -/
def upperHour (hours : List ℕ) (h : ℕ) : ℕ :=
  ((hours.filter (h ≤ ·)).head?).getD (hours.getLastD 0)

/-- The weight of an hour: its own, or interpolated between its neighbours. -/
def hourWeight (byHour : Dict ℕ ℚ) (h : ℕ) : ℚ :=
  match byHour.get? h with
  | some w => w
  | none =>
    let hours := sortedBy id byHour.keys
    let lower := lowerHour hours h
    let upper := upperHour hours h
    let atLower := (byHour.get? lower).getD 0
    let atUpper := (byHour.get? upper).getD 0
    if lower = upper then atLower else
      let t := ((h : ℚ) - lower) / max 1 ((upper : ℚ) - lower)
      atLower * (1 - t) + atUpper * t

/-- `normalize_hourly_weights`. -/
def normalizeHourlyWeights (points : List DemandPoint) : List ℚ :=
  let inDay := points.filter fun p ↦ p.1 < hoursPerDay
  let byHour := Dict.ofList (if inDay.isEmpty then defaultPeakHoursCurve else inDay)
  let weights := (List.range hoursPerDay).map (hourWeight byHour)
  if weights.sum ≤ 0 then List.replicate hoursPerDay (1 / hoursPerDay)
  else weights.map (· / weights.sum)

/-- The weights of the 24 hours that `parse_order_demand_curve` returns. -/
def parseOrderDemandCurve (H : PyHost) (raw : Raw) : Except PyError (List ℚ) := do
  match ← coercePoints H raw with
  | none => return normalizeHourlyWeights defaultPeakHoursCurve
  | some points => return normalizeHourlyWeights points

/-- A point of the curve that `parse_order_demand_curve` returns. -/
def pointRaw (p : DemandPoint) : Raw := .dict [("hour", .int p.1), ("weight", .num p.2)]

/-- The curve that `parse_order_demand_curve` returns, as it is persisted. -/
def curveRaw (weights : List ℚ) : Raw :=
  .dict [("resolution", .str "hour"),
    ("points", .list ((List.range hoursPerDay).map fun h ↦ pointRaw (h, weights.getD h 0)))]

/-! ### The curve read back -/

/-- What `normalize_hourly_weights` returns: 24 weights that are not negative and have sum one. -/
structure IsHourly (weights : List ℚ) : Prop where
  length : weights.length = hoursPerDay
  nonneg : ∀ w ∈ weights, 0 ≤ w
  sum : weights.sum = 1

theorem sum_map_div (l : List ℚ) (total : ℚ) : (l.map (· / total)).sum = l.sum / total := by
  induction l with
  | nil => exact (zero_div total).symm
  | cons q l ih => rw [List.map_cons, List.sum_cons, List.sum_cons, ih, add_div]

/-- The neighbours of an hour are on its two sides, unless they are the same. -/
theorem lowerHour_le_upperHour (hours : List ℕ) (h : ℕ) :
    lowerHour hours h = upperHour hours h ∨ lowerHour hours h ≤ h ∧ h ≤ upperHour hours h := by
  cases hl : (hours.filter (· ≤ h)).getLast? with
  | none =>
    -- every hour is later, so both neighbours are the first
    have hall : hours.filter (h ≤ ·) = hours := by
      rw [List.getLast?_eq_none_iff, List.filter_eq_nil_iff] at hl
      refine List.filter_eq_self.mpr fun a ha ↦ decide_eq_true ?_
      have hlt := hl a ha
      rw [decide_eq_true_eq] at hlt
      omega
    left
    rw [lowerHour, upperHour, hl, hall]
    cases hours <;> rfl
  | some a =>
    have ha := of_decide_eq_true (List.mem_filter.mp (List.mem_of_getLast? hl)).2
    cases hu : (hours.filter (h ≤ ·)).head? with
    | none =>
      -- every hour is earlier, so both neighbours are the last
      have hall : hours.filter (· ≤ h) = hours := by
        rw [List.head?_eq_none_iff, List.filter_eq_nil_iff] at hu
        refine List.filter_eq_self.mpr fun a ha ↦ decide_eq_true ?_
        have hlt := hu a ha
        rw [decide_eq_true_eq] at hlt
        omega
      left
      rw [hall] at hl
      rw [lowerHour, upperHour, hu, hall, hl, List.getLastD_eq_getLast?, hl]
      rfl
    | some b =>
      right
      have hb := of_decide_eq_true (List.mem_filter.mp (List.mem_of_mem_head? hu)).2
      rw [lowerHour, upperHour, hl, hu]
      exact ⟨ha, hb⟩

/-- An interpolated weight lies between weights that are not negative. -/
theorem hourWeight_nonneg {byHour : Dict ℕ ℚ} (h : ∀ k w, byHour.get? k = some w → 0 ≤ w)
    (hour : ℕ) : 0 ≤ hourWeight byHour hour := by
  have hget : ∀ k, 0 ≤ (byHour.get? k).getD 0 := by
    intro k
    cases hk : byHour.get? k with
    | none => exact le_refl 0
    | some w => exact h k w hk
  rw [hourWeight]
  split
  · next w hw => exact h hour w hw
  · dsimp only
    split
    · exact hget _
    · next hne =>
      obtain ⟨hl, hu⟩ := (lowerHour_le_upperHour (sortedBy id byHour.keys) hour).resolve_left hne
      generalize lowerHour (sortedBy id byHour.keys) hour = lower at hl hne
      generalize upperHour (sortedBy id byHour.keys) hour = upper at hu hne
      have hlq : (lower : ℚ) ≤ hour := Nat.cast_le.mpr hl
      have huq : (hour : ℚ) ≤ upper := Nat.cast_le.mpr hu
      have hmax : (0 : ℚ) < max 1 ((upper : ℚ) - lower) := lt_max_of_lt_left one_pos
      have ht0 : 0 ≤ ((hour : ℚ) - lower) / max 1 ((upper : ℚ) - lower) :=
        div_nonneg (sub_nonneg.mpr hlq) hmax.le
      have ht1 : ((hour : ℚ) - lower) / max 1 ((upper : ℚ) - lower) ≤ 1 := by
        rw [div_le_one hmax]
        exact le_max_of_le_right (sub_le_sub_right huq _)
      exact add_nonneg (mul_nonneg (hget _) (sub_nonneg.mpr ht1)) (mul_nonneg (hget _) ht0)

theorem normalizeHourlyWeights_isHourly {points : List DemandPoint} (h : ∀ p ∈ points, 0 ≤ p.2) :
    IsHourly (normalizeHourlyWeights points) := by
  have hpoints : ∀ p ∈ (if (points.filter fun p ↦ p.1 < hoursPerDay).isEmpty then
      defaultPeakHoursCurve else points.filter fun p ↦ p.1 < hoursPerDay), 0 ≤ p.2 := by
    intro p hp
    split at hp
    · exact (by decide +kernel : ∀ p ∈ defaultPeakHoursCurve, 0 ≤ p.2) p hp
    · exact h p (List.mem_filter.mp hp).1
  rw [normalizeHourlyWeights]
  generalize (if (points.filter fun p ↦ p.1 < hoursPerDay).isEmpty then
    defaultPeakHoursCurve else points.filter fun p ↦ p.1 < hoursPerDay) = inDay at hpoints
  have hweights : ∀ w ∈ (List.range hoursPerDay).map (hourWeight (Dict.ofList inDay)), 0 ≤ w := by
    intro w hw
    obtain ⟨hour, -, rfl⟩ := List.mem_map.mp hw
    exact hourWeight_nonneg (fun k w hk ↦ hpoints _ (Dict.mem_of_get?_ofList hk)) hour
  split
  · exact ⟨List.length_replicate, by decide +kernel, by decide +kernel⟩
  · next hpos =>
    refine ⟨by rw [List.length_map, List.length_map, List.length_range], fun w hw ↦ ?_, ?_⟩
    · obtain ⟨v, hv, rfl⟩ := List.mem_map.mp hw
      exact div_nonneg (hweights v hv) (le_of_not_ge hpos)
    · rw [sum_map_div]
      exact div_self (ne_of_gt (not_le.mp hpos))

variable {H : PyHost}

theorem readPoint_nonneg {item : Raw} {points : List DemandPoint}
    (h : readPoint H item = .ok points) : ∀ p ∈ points, 0 ≤ p.2 := by
  have hnil : ∀ {l : List DemandPoint}, (Except.ok [] : Except PyError _) = .ok l →
      ∀ p ∈ l, 0 ≤ p.2 := by
    intro l hl
    cases hl
    exact nofun
  cases item with
  | dict entries =>
    obtain ⟨hour?, -, h⟩ := bind_eq_ok.mp h
    split at h
    · exact hnil h
    · obtain ⟨weight?, -, h⟩ := bind_eq_ok.mp h
      split at h
      · exact hnil h
      · split at h
        · obtain ⟨weight, hweight, h⟩ := bind_eq_ok.mp h
          cases h
          intro p hp
          rw [List.mem_singleton.mp hp]
          exact nonneg_of_atLeastZero hweight
        · exact hnil h
  | null | bool | int | float | str | list => exact hnil h

variable {weights : List ℚ}

theorem parseOrderDemandCurve_isHourly {raw : Raw} (h : parseOrderDemandCurve H raw = .ok weights) :
    IsHourly weights := by
  obtain ⟨read, hread, h⟩ := bind_eq_ok.mp h
  split at h
  · cases h
    exact normalizeHourlyWeights_isHourly (by decide +kernel)
  · next points =>
    cases h
    refine normalizeHourlyWeights_isHourly fun p hp ↦ ?_
    rw [coercePoints] at hread
    split at hread
    · obtain ⟨items, hitems, hread⟩ := bind_eq_ok.mp hread
      have hpoints := Except.ok.inj hread
      split at hpoints
      · cases hpoints
      · cases hpoints
        obtain ⟨ps, hps, hp⟩ := List.mem_flatten.mp hp
        obtain ⟨item, -, hitem⟩ := mem_of_each hitems hps
        exact readPoint_nonneg hitem p hp
    · cases hread

/-- The points of a persisted curve. -/
def hourPoints (weights : List ℚ) : List DemandPoint :=
  (List.range hoursPerDay).map fun k ↦ (k, weights.getD k 0)

theorem IsHourly.coercePoints_curveRaw (h : IsHourly weights) (H : PyHost) :
    coercePoints H (curveRaw weights) = .ok (some (hourPoints weights)) := by
  have hweight : ∀ k, 0 ≤ weights.getD k 0 := by
    intro k
    rw [List.getD_eq_getElem?_getD]
    cases hk : weights[k]? with
    | none => exact le_refl 0
    | some w => exact h.nonneg w (List.mem_of_getElem? hk)
  have hpoint : ∀ k < hoursPerDay, readPoint H (pointRaw (k, weights.getD k 0)) =
      .ok [(k, weights.getD k 0)] := by
    intro k hk
    have hrange : (0 : ℤ) ≤ k ∧ (k : ℤ) < hoursPerDay :=
      ⟨Int.natCast_nonneg k, Int.ofNat_lt.mpr hk⟩
    show (if (0 : ℤ) ≤ k ∧ (k : ℤ) < hoursPerDay then
      Except.ok [((k : ℤ).toNat, max 0 (weights.getD k 0))] else Except.ok []) = _
    rw [if_pos hrange, Int.toNat_natCast, max_eq_right (hweight k)]
  have hitems : each (readPoint H) ((List.range hoursPerDay).map fun k ↦
      pointRaw (k, weights.getD k 0)) =
      .ok ((List.range hoursPerDay).map fun k ↦ [(k, weights.getD k 0)]) := by
    rw [each_eq_ok, List.forall₂_map_left_iff, List.forall₂_map_right_iff, List.forall₂_same]
    exact fun k hk ↦ hpoint k (List.mem_range.mp hk)
  have hflatten : ((List.range hoursPerDay).map fun k ↦ [(k, weights.getD k 0)]).flatten =
      hourPoints weights := by
    rw [← List.flatMap_def, hourPoints, List.map_eq_flatMap]
  show (each (readPoint H) ((List.range hoursPerDay).map fun k ↦
    pointRaw (k, weights.getD k 0)) >>= _) = _
  rw [hitems, ok_bind, hflatten]
  rfl

theorem hourWeight_hourPoints (weights : List ℚ) {k : ℕ} (hk : k ∈ List.range hoursPerDay) :
    hourWeight (Dict.ofList (hourPoints weights)) k = weights.getD k 0 := by
  have hkey : (Dict.ofList (hourPoints weights)).get? k = some (weights.getD k 0) := by
    refine (Dict.get?_ofList ?_).mpr (List.mem_map_of_mem hk)
    rw [hourPoints, List.map_map]
    exact (List.map_id _).symm ▸ List.nodup_range
  rw [hourWeight, hkey]

/-- **A curve read back gives the same weights.** -/
theorem IsHourly.parseOrderDemandCurve_curveRaw (h : IsHourly weights) (H : PyHost) :
    parseOrderDemandCurve H (curveRaw weights) = .ok weights := by
  have hinDay : (hourPoints weights).filter (fun p ↦ p.1 < hoursPerDay) = hourPoints weights := by
    refine List.filter_eq_self.mpr fun p hp ↦ decide_eq_true ?_
    obtain ⟨k, hk, rfl⟩ := List.mem_map.mp hp
    exact List.mem_range.mp hk
  have hempty : (hourPoints weights).isEmpty = false := rfl
  have hself : (List.range hoursPerDay).map (fun k ↦ weights.getD k 0) = weights := by
    refine List.ext_getElem (by rw [List.length_map, List.length_range, h.length]) fun k h1 h2 ↦ ?_
    rw [List.getElem_map, List.getElem_range, List.getD_eq_getElem?_getD,
      List.getElem?_eq_getElem h2, Option.getD_some]
  have hone : weights.map (· / 1) = weights := by
    simp
  show (coercePoints H (curveRaw weights) >>= _) = _
  rw [h.coercePoints_curveRaw, ok_bind]
  show Except.ok (normalizeHourlyWeights (hourPoints weights)) = _
  rw [normalizeHourlyWeights, hinDay, hempty, if_neg Bool.false_ne_true,
    List.map_congr_left fun k hk ↦ hourWeight_hourPoints weights hk, hself, h.sum,
    if_neg (by decide +kernel), hone]

/-! ## Early orders -/

/-- `LEGACY_EARLY_ORDER_COUNT`. -/
def legacyEarlyOrderCount : ℤ := 600

/-- `recommended_early_order_count`. -/
def recommendedEarlyOrderCount (numTrucks numOrders : ℤ) : ℤ :=
  if numOrders ≤ 0 then 0 else
    let trucks := max 1 numTrucks
    let warmup := min (trucks * 2) 64
    min numOrders (max 1 warmup)

/-- The early orders of a scenario: those authored, unless they are too many. -/
def earlyOrderCount (H : PyHost) (earlyRaw : Raw) (numTrucks numOrders : ℤ) : Except PyError ℤ :=
  let recommended := recommendedEarlyOrderCount numTrucks numOrders
  match earlyRaw with
  | .null => .ok recommended
  | _ => do
    let authored ← pyInt H earlyRaw
    let early := max 0 (min numOrders authored)
    return if legacyEarlyOrderCount ≤ early ∨ numTrucks * 3 < early then recommended else early

/-- **The number of early orders authors itself.** -/
theorem earlyOrderCount_idem {earlyRaw : Raw} {numTrucks numOrders early : ℤ}
    (htrucks : 1 ≤ numTrucks) (horders : 1 ≤ numOrders)
    (h : earlyOrderCount H earlyRaw numTrucks numOrders = .ok early) :
    earlyOrderCount H (.int early) numTrucks numOrders = .ok early := by
  have hrec : recommendedEarlyOrderCount numTrucks numOrders =
      min numOrders (max 1 (min (numTrucks * 2) 64)) := by
    rw [recommendedEarlyOrderCount, if_neg (by omega), max_eq_right htrucks]
  have hsettled : 0 ≤ early ∧ early ≤ numOrders ∧
      (early = recommendedEarlyOrderCount numTrucks numOrders ∨
        ¬ (legacyEarlyOrderCount ≤ early ∨ numTrucks * 3 < early)) := by
    unfold earlyOrderCount at h
    split at h
    · cases h
      exact ⟨by omega, by omega, Or.inl rfl⟩
    · obtain ⟨authored, -, h⟩ := bind_eq_ok.mp h
      cases h
      split
      · exact ⟨by omega, by omega, Or.inl rfl⟩
      · next hfew => exact ⟨by omega, by omega, Or.inr hfew⟩
  obtain ⟨hnonneg, hle, hfew⟩ := hsettled
  show Except.ok (if legacyEarlyOrderCount ≤ max 0 (min numOrders early) ∨
    numTrucks * 3 < max 0 (min numOrders early) then recommendedEarlyOrderCount numTrucks numOrders
    else max 0 (min numOrders early)) = _
  rw [min_eq_right hle, max_eq_right hnonneg]
  rcases hfew with he | hfew
  · rw [← he, ite_self]
  · rw [if_neg hfew]

end OpenRide.Datagen
