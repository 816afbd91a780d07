import OpenRide.Datagen.Values

/-!
# Reading a rebate schedule

A rebate schedule is authored as a list of points, each an hour and an amount, and is read into an
amount for every hour of the day.  Hours that are not authored are worth nothing, and an hour that
is authored twice is an error, as is everything else that could be read in two ways.

Every message of the reader starts with the place it read, and the place appears nowhere else.  So
whether a schedule is read, and as what, does not depend on the place
(`parseRebateSchedule_eq_ok`).
-/

namespace OpenRide.Datagen

open Lib

/-! ## Errors -/

/-- What ends the reading of rules and schedules.  All but the first are exceptions of the language:
an integer too large for a float, an element of an empty list, and a method of a value that has no
such method. -/
inductive RulesError where
  | facilityRules (message : String)
  | overflow
  | indexError
  | attributeError
deriving DecidableEq

/-- The error, raised at a place. -/
def RulesError.at (whr : String) : RulesError → RulesError
  | .facilityRules message => .facilityRules (whr ++ message)
  | e => e

/-! ## Points -/

section

variable (H : PyHost)

/-- `_coerce_amount`. -/
def coerceAmount (value : Raw) : Except RulesError ℚ :=
  let got := H.repr value
  let type := value.typeName
  match value with
  | .int n =>
    match floatOfInt n with
    | some amount => .ok amount
    | none => .error .overflow
  | .float (.fin amount) => .ok amount
  | .float _ =>
    .error (.facilityRules (s!": 'amount' must be finite (got {got}); no non-finite number " ++
      "crosses a framework boundary"))
  | _ => .error (.facilityRules s!": 'amount' must be a number (got {got} of type {type})")

/-- `_coerce_hour`. -/
def coerceHour (value : Raw) : Except RulesError ℕ :=
  let got := H.repr value
  let type := value.typeName
  match value with
  | .int n =>
    if 0 ≤ n ∧ n ≤ 23 then .ok n.toNat
    else .error (.facilityRules s!": 'hour' must be in 0..23 (got {got})")
  | _ => .error (.facilityRules s!": 'hour' must be an integer 0..23 (got {got} of type {type})")

/-- The hour and the amount of a point, the hours of the points before it being taken. -/
def rebatePoint (amounts : Dict ℕ ℚ) (point : Raw) : Except RulesError (ℕ × ℚ) :=
  match point with
  | .dict entries =>
    match Dict.lookupIn "hour" entries with
    | none => .error (.facilityRules ": missing 'hour'")
    | some rawHour => do
      let hour ← coerceHour H rawHour
      if amounts.contains hour then
        throw (.facilityRules (s!": duplicate 'hour' {hour} — a schedule must name each hour " ++
          "at most once"))
      match Dict.lookupIn "amount" entries, Dict.lookupIn "weight" entries with
      | some _, some _ =>
        throw (.facilityRules (": carries both 'amount' and 'weight'. Use 'amount' — " ++
          "'weight' is only an alias for shape-compatibility with the demand curve, and this " ++
          "is money."))
      | none, none => throw (.facilityRules ": missing 'amount'")
      | some value, none => return (hour, ← coerceAmount H value)
      | none, some value => return (hour, ← coerceAmount H value)
  | _ =>
    let got := H.repr point
    .error (.facilityRules s!": must be an object (got {got})")

/-- The amounts of the points from the `idx`-th on. -/
def rebatePoints : ℕ → List Raw → Dict ℕ ℚ → Except RulesError (Dict ℕ ℚ)
  | _, [], amounts => .ok amounts
  | idx, point :: points, amounts => do
    let (hour, amount) ← raiseAs (·.at s!".points[{idx}]") (rebatePoint H amounts point)
    rebatePoints (idx + 1) points (amounts.set hour amount)

/-- `RebateSchedule`, without the hours that were not authored. -/
structure RebateSchedule where
  amounts : List ℚ
  currency : String

/-- `to_points` and `as_block`. -/
def RebateSchedule.asBlock (s : RebateSchedule) : Raw :=
  .dict [("currency", .str s.currency), ("resolution", .str "hour"),
    ("points", .list ((List.range 24).map fun h : ℕ ↦
      .dict [("hour", .int h), ("amount", .num (s.amounts.getD h 0))]))]

/-- The currency of a schedule, `"credit"` unless another is authored. -/
def scheduleCurrency (entries : List (String × Raw)) : Except RulesError String :=
  match Raw.fieldD entries "currency" (.str "credit") with
  | .null => .ok "credit"
  | .str currency => .ok currency
  | value =>
    let got := H.repr value
    .error (.facilityRules s!": 'currency' must be a string (got {got})")

/-- The points of a schedule, in the order they are authored. -/
def rebatePointList (entries : List (String × Raw)) : Except RulesError (List Raw) :=
  match Raw.field entries "points" with
  | .list [] =>
    .error (.facilityRules (": 'points' is empty. An empty schedule is not a zero schedule — " ++
      "omit the 'rebate' block instead, so 'no rebates' and 'rebates silently lost' stay " ++
      "distinguishable."))
  | .list points => .ok points
  | value =>
    let got := H.repr value
    .error (.facilityRules (": 'points' must be a non-empty list of \x7b'hour': H, " ++
      s!"'amount': A\x7d (got {got})"))

/-- `parse_rebate_schedule`, with the place that its messages start with left out. -/
def readRebateSchedule (raw : Raw) : Except RulesError RebateSchedule :=
  match raw with
  | .dict entries => do
    match Raw.fieldD entries "resolution" (.str "hour") with
    | .null | .str "hour" => pure ()
    | resolution =>
      let got := H.repr resolution
      throw (.facilityRules s!": unsupported 'resolution' {got}. Available: ['hour']")
    let currency ← scheduleCurrency H entries
    let points ← rebatePointList H entries
    let amounts ← rebatePoints H 0 points Dict.empty
    return ⟨(List.range 24).map fun h ↦ (amounts.get? h).getD 0, currency⟩
  | _ =>
    let type := raw.typeName
    .error (.facilityRules s!": must be an object (got {type})")

/-- `parse_rebate_schedule`. -/
def parseRebateSchedule (raw : Raw) (whr : String) : Except RulesError RebateSchedule :=
  raiseAs (·.at whr) (readRebateSchedule H raw)

theorem parseRebateSchedule_eq_ok {raw : Raw} {whr : String} {s : RebateSchedule} :
    parseRebateSchedule H raw whr = .ok s ↔ readRebateSchedule H raw = .ok s :=
  raiseAs_eq_ok

end

end OpenRide.Datagen
