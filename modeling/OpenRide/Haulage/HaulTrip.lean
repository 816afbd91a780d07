import OpenRide.Lib.Double
import OpenRide.Lib.Rounding

/-!
# The haul trip

A haul trip is the document of one job of a truck.  Its state machine is `HaulTripStateMachine`;
every write to the document is a transition of that machine, made through `TruckTripManager`, and
the server refuses a transition that the current state does not allow.

The document carries the planned time of both legs.  `estimateNextEventTime` turns it into the time
before which the truck has nothing to do, and that estimate is the only thing that makes a leg take
time (`le_of_estimate`).

## Times

The simulated clock counts whole seconds, its text form has no fraction; a `datetime` counts
microseconds, and adding a number of seconds to one rounds it to a whole microsecond and fails
outside the calendar.
-/

namespace OpenRide.Haulage

open Lib

abbrev TruckId := String

abbrev FacilityId := String

/-! ## The state machine -/

inductive HaulState where
  | created
  | assigned
  | repositioningToPickup
  | queuedForPickup
  | atPickupGate
  | loadedInTransit
  | queuedForDropoff
  | atDropoffGate
  | completed
  | cancelled
deriving DecidableEq

inductive HaulTransition where
  | assign
  | startEmptyReposition
  | arrivePickupQueue
  | enterPickupGate
  | finishPickupService
  | arriveDropoffQueue
  | enterDropoffGate
  | finishDropoffService
  | cancel
deriving DecidableEq

/-- The states `HaulTripStateMachine` allows a transition from. -/
def HaulTransition.sources : HaulTransition → List HaulState
  | assign => [.created]
  | startEmptyReposition => [.assigned]
  | arrivePickupQueue => [.assigned, .repositioningToPickup]
  | enterPickupGate => [.queuedForPickup]
  | finishPickupService => [.atPickupGate]
  | arriveDropoffQueue => [.loadedInTransit]
  | enterDropoffGate => [.queuedForDropoff]
  | finishDropoffService => [.atDropoffGate]
  | cancel => [.created, .assigned, .repositioningToPickup, .queuedForPickup, .atPickupGate,
      .loadedInTransit, .queuedForDropoff, .atDropoffGate]

/-- The state a transition leads to. -/
def HaulTransition.target : HaulTransition → HaulState
  | assign => .assigned
  | startEmptyReposition => .repositioningToPickup
  | arrivePickupQueue => .queuedForPickup
  | enterPickupGate => .atPickupGate
  | finishPickupService => .loadedInTransit
  | arriveDropoffQueue => .queuedForDropoff
  | enterDropoffGate => .atDropoffGate
  | finishDropoffService => .completed
  | cancel => .cancelled

/-- The states in which a trip is over. -/
def HaulState.final : HaulState → Bool
  | completed => true
  | cancelled => true
  | _ => false

/-- No transition leaves a final state. -/
theorem notMem_sources_of_final {t : HaulTransition} {s : HaulState} (h : s.final = true) :
    s ∉ t.sources := by
  cases s <;> simp [HaulState.final] at h <;> cases t <;> simp [HaulTransition.sources]

/-- `FacilityVisitType`: what a truck comes to a facility for. -/
inductive FacilityVisitType where
  | pickup
  | dropoff
deriving DecidableEq

/-! ## Values of the document -/

/-- A JSON value where a number is expected: `null`, something `float` makes a number of, or
anything else. -/
inductive Number where
  | null
  | num (d : Double)
  | other
deriving DecidableEq

namespace Number

/-- `float`, `none` when it raises. -/
def float : Number → Option Double
  | num d => some d
  | _ => none

/-- `_coerce_seconds`: a NaN or a negative value fails the comparison as text does the cast. -/
def coerceSeconds (value : Number) (default : ℚ) : Double :=
  match value.float with
  | some (.fin sec) => .fin (if 0 ≤ sec then sec else default)
  | some .posInf => .posInf
  | _ => .fin default

/-- `float(v or 0)` where an exception gives `0.0`. -/
def seconds (value : Number) : Double := value.float.getD (.fin 0)

end Number

/-- A geographic point. -/
structure Point where
  lon : ℚ
  lat : ℚ
deriving DecidableEq

/-- What is read of a planned route; a route that could not be planned has neither a duration nor a
geometry. -/
structure Route where
  duration : Option Double := none
  geometry : List Point := []
deriving DecidableEq

/-- `patch_route_duration`. -/
def Route.patchDuration (route : Option Route) (durationSeconds : ℚ) : Option Route :=
  route.map fun r ↦ { r with duration := some (.fin durationSeconds) }

/-! ## Duration floors -/

/-- `_profile_bounds`: the bounds a truck's profile gives for its trips, in seconds. -/
structure Bounds where
  minPickup : ℤ := 15 * 60
  maxPickup : ℤ := 40 * 60
  minDropoff : ℤ := 16 * 60
  maxDropoff : ℤ := 60 * 60
  minHaul : ℤ := 35 * 60
deriving DecidableEq

/-- `clamp_leg_eta` with both bounds, as every caller has them. -/
def clampLegEta (eta : Number) (minSeconds maxSeconds : ℤ) : ℚ :=
  match eta.coerceSeconds minSeconds with
  | .fin sec => min (max minSeconds sec) maxSeconds
  | _ => maxSeconds

/-- `apply_haul_trip_duration_floors`; the service times are those of the order. -/
def applyHaulTripDurationFloors (etaPickup etaDropoff pickupServiceTime dropoffServiceTime : Number)
    (bounds : Bounds) : ℚ × ℚ :=
  let pickup := clampLegEta etaPickup bounds.minPickup bounds.maxPickup
  let dropoff := clampLegEta etaDropoff bounds.minDropoff bounds.maxDropoff
  match pickupServiceTime.coerceSeconds 120, dropoffServiceTime.coerceSeconds 120 with
  | .fin pickupSvc, .fin dropoffSvc =>
    let drivePlusService := pickup + dropoff + pickupSvc + dropoffSvc
    let dropoff := if drivePlusService < bounds.minHaul then
      dropoff + (bounds.minHaul - drivePlusService) else dropoff
    if bounds.maxDropoff < dropoff ∧
        bounds.minHaul ≤ pickup + bounds.maxDropoff + pickupSvc + dropoffSvc then
      (pickup, bounds.maxDropoff)
    else if pickup + dropoff + pickupSvc + dropoffSvc < bounds.minHaul then
      (pickup, bounds.minHaul - pickup - pickupSvc - dropoffSvc)
    else (pickup, dropoff)
  -- an infinite service time: the total is never short of the minimum
  | _, _ => if bounds.maxDropoff < dropoff then (pickup, bounds.maxDropoff) else (pickup, dropoff)

/-! ## The document -/

structure Stats where
  estimatedTimeToPickup : ℚ
  estimatedTimeToDropoff : ℚ
  pickupServiceTime : Number
  dropoffServiceTime : Number
deriving DecidableEq

/-- The document of a haul trip.  `number` stands for its `_id`; `updated` is what `_updated` reads
as, if the server shows it. -/
structure HaulTrip where
  number : ℕ
  order : Option String
  pickupFacilityResourceId : Option FacilityId
  dropoffFacilityResourceId : Option FacilityId
  pickupFacilityName : Option String
  dropoffFacilityName : Option String
  /-- The bounds of `meta.truck_profile`. -/
  bounds : Bounds
  pickupLoc : Option Point
  dropoffLoc : Option Point
  stats : Stats
  repositioningToPickup : Option Route
  loadedToDropoff : Option Route
  state : HaulState
  simClock : ℤ
  updated : Option ℤ
deriving DecidableEq

namespace HaulTrip

/-- A write through the server: refused unless the state allows the transition, and dated. -/
def transition (t : HaulTrip) (tr : HaulTransition) (simClock : ℤ) (updated : Option ℤ)
    (edit : HaulTrip → HaulTrip) : Option HaulTrip :=
  if t.state ∈ tr.sources then
    some { edit t with state := tr.target, simClock := simClock, updated := updated }
  else none

section Transitions

variable (t : HaulTrip) (simClock : ℤ) (updated : Option ℤ)

def startEmptyReposition (route : Option Route) (estimatedTimeToPickup : ℚ) : Option HaulTrip :=
  t.transition .startEmptyReposition simClock updated fun t ↦
    { t with
      repositioningToPickup := route.or t.repositioningToPickup
      stats := { t.stats with estimatedTimeToPickup := estimatedTimeToPickup } }

def arrivePickupQueue : Option HaulTrip :=
  t.transition .arrivePickupQueue simClock updated id

def enterPickupGate (serviceTime : Number) : Option HaulTrip :=
  t.transition .enterPickupGate simClock updated fun t ↦
    { t with stats := { t.stats with pickupServiceTime := serviceTime } }

/-- The loaded leg's time, put above the floors once more when the pickup is done. -/
def pickupServiceFloors (estimatedTimeToDropoff serviceTime : Number) : ℚ :=
  (applyHaulTripDurationFloors (.num (.fin t.stats.estimatedTimeToPickup)) estimatedTimeToDropoff
    t.stats.pickupServiceTime
    (if serviceTime = .null then t.stats.dropoffServiceTime else serviceTime) t.bounds).2

def finishPickupService (routeToDropoff : Option Route)
    (estimatedTimeToDropoff serviceTime : Number) : Option HaulTrip :=
  t.transition .finishPickupService simClock updated fun t ↦
    let eta := t.pickupServiceFloors estimatedTimeToDropoff serviceTime
    { t with
      loadedToDropoff := Route.patchDuration (routeToDropoff.or t.loadedToDropoff) eta
      stats := { t.stats with estimatedTimeToDropoff := eta, pickupServiceTime := serviceTime } }

def arriveDropoffQueue : Option HaulTrip :=
  t.transition .arriveDropoffQueue simClock updated id

def enterDropoffGate (serviceTime : Number) : Option HaulTrip :=
  t.transition .enterDropoffGate simClock updated fun t ↦
    { t with stats := { t.stats with dropoffServiceTime := serviceTime } }

def finishDropoffService (serviceTime : Number) : Option HaulTrip :=
  t.transition .finishDropoffService simClock updated fun t ↦
    { t with stats := { t.stats with dropoffServiceTime := serviceTime } }

def cancel : Option HaulTrip := t.transition .cancel simClock updated id

end Transitions

/-- The part of the document that no transition changes: which trip it is, and where it goes. -/
structure SameJob (t t' : HaulTrip) : Prop where
  number : t'.number = t.number
  pickupFacilityResourceId : t'.pickupFacilityResourceId = t.pickupFacilityResourceId
  dropoffFacilityResourceId : t'.dropoffFacilityResourceId = t.dropoffFacilityResourceId
  pickupFacilityName : t'.pickupFacilityName = t.pickupFacilityName
  dropoffFacilityName : t'.dropoffFacilityName = t.dropoffFacilityName

theorem SameJob.refl (t : HaulTrip) : t.SameJob t := ⟨rfl, rfl, rfl, rfl, rfl⟩

/-- The transition `tr` was made at the sim time `now`, and led from `t` to `t'`. -/
structure Made (tr : HaulTransition) (now : ℤ) (t t' : HaulTrip) : Prop where
  allowed : t.state ∈ tr.sources
  state : t'.state = tr.target
  dated : t'.simClock = now
  job : t.SameJob t'

/-- A write that does not touch the job makes the transition, or is refused. -/
theorem transition_cases (t : HaulTrip) (tr : HaulTransition) (simClock : ℤ) (updated : Option ℤ)
    {edit : HaulTrip → HaulTrip} (hedit : t.SameJob (edit t)) :
    (t.state ∉ tr.sources ∧ t.transition tr simClock updated edit = none) ∨
      ∃ t', Made tr simClock t t' ∧ t.transition tr simClock updated edit = some t' := by
  by_cases hs : t.state ∈ tr.sources
  · refine Or.inr ⟨_, ⟨hs, rfl, rfl, ?_⟩, if_pos hs⟩
    exact ⟨hedit.number, hedit.pickupFacilityResourceId, hedit.dropoffFacilityResourceId,
      hedit.pickupFacilityName, hedit.dropoffFacilityName⟩
  · exact Or.inl ⟨hs, if_neg hs⟩

end HaulTrip

/-! ## When the next event is due -/

/-- `timedelta(seconds=sec)`, in microseconds. -/
def timedelta (sec : ℚ) : ℤ := roundHalfEven (1000000 * sec)

/-- A `datetime` lies between the years 1 and 9999; its microseconds are counted from the start. -/
def calendarEnd : ℤ := 3652059 * 86400 * 1000000

/-- `anchor + timedelta(seconds=dur)`, `none` when it raises. -/
def addSeconds (anchor : ℤ) : Double → Option ℤ
  | .fin sec =>
    let due := 1000000 * anchor + timedelta sec
    if 0 ≤ due ∧ due < calendarEnd then some due else none
  | _ => none

namespace HaulTrip

/-- `_anchor_time`: the sim clock of the last transition, unless the server dates the document. -/
def anchorTime (t : HaulTrip) : ℤ := t.updated.getD t.simClock

/-- `seconds_or_route`. -/
def secondsOrRoute (stat : ℚ) (route : Option Route) : Double :=
  if 0 < stat then .fin stat else (route.bind Route.duration).getD (.fin 0)

/-- How long the phase the trip is in lasts, `none` in the states that wait for nobody's clock. -/
def phaseSeconds (t : HaulTrip) : Option Double :=
  match t.state with
  | .repositioningToPickup =>
    some (secondsOrRoute t.stats.estimatedTimeToPickup t.repositioningToPickup)
  | .loadedInTransit => some (secondsOrRoute t.stats.estimatedTimeToDropoff t.loadedToDropoff)
  | .atPickupGate => some t.stats.pickupServiceTime.seconds
  | .atDropoffGate => some t.stats.dropoffServiceTime.seconds
  | _ => none

/-- `TruckTripManager.estimate_next_event_time` of a trip, in microseconds.  Whatever goes wrong in
the sum, the event is due now. -/
def estimateNextEventTime (t : HaulTrip) (currentTime : ℤ) : ℤ :=
  match t.phaseSeconds.bind (addSeconds t.anchorTime) with
  | some due => max due (1000000 * currentTime)
  | none => 1000000 * currentTime

end HaulTrip

/-! ## The driving legs -/

/-- The two legs that take driving time, each named by the state the trip is in. -/
def HaulState.driving : HaulState → Bool
  | repositioningToPickup => true
  | loadedInTransit => true
  | _ => false

/-- The planned time of the leg the trip drives, `0` when it drives none. -/
def HaulTrip.legSeconds (t : HaulTrip) : ℚ :=
  match t.state with
  | .repositioningToPickup => t.stats.estimatedTimeToPickup
  | .loadedInTransit => t.stats.estimatedTimeToDropoff
  | _ => 0

/-- The number of whole seconds after which the gate of a leg of `sec` seconds opens. -/
def gateSeconds (sec : ℚ) : ℤ := ⌈(timedelta sec : ℚ) / 1000000⌉

/-- The gate of the leg can be trusted: the end of the leg lies in the calendar, the rounding to
microseconds does not bring it before the planned whole second, and the document is not dated before
its own sim clock. -/
def HaulTrip.Timed (t : HaulTrip) : Prop :=
  addSeconds t.anchorTime (.fin t.legSeconds) ≠ none ∧ t.legSeconds ≤ gateSeconds t.legSeconds ∧
    t.simClock ≤ t.anchorTime

instance (t : HaulTrip) : Decidable t.Timed :=
  inferInstanceAs (Decidable (_ ∧ _ ∧ _))

theorem phaseSeconds_of_pos {t : HaulTrip} (hpos : 0 < t.legSeconds) :
    t.phaseSeconds = some (.fin t.legSeconds) := by
  rw [HaulTrip.legSeconds] at hpos ⊢
  rw [HaulTrip.phaseSeconds]
  split at hpos
  · next hs => rw [hs]; simp only [HaulTrip.secondsOrRoute, if_pos hpos]
  · next hs => rw [hs]; simp only [HaulTrip.secondsOrRoute, if_pos hpos]
  · exact absurd hpos (lt_irrefl 0)

/-- **The gate of a leg**: once the next event of a driving trip is not later than now, the planned
time of its leg has passed since its last transition. -/
theorem le_of_estimate {t : HaulTrip} {currentTime : ℤ} (htimed : 0 < t.legSeconds → t.Timed)
    (hpassed : t.simClock ≤ currentTime)
    (hdue : t.estimateNextEventTime currentTime ≤ 1000000 * currentTime) :
    t.simClock + t.legSeconds ≤ currentTime := by
  rcases le_or_gt t.legSeconds 0 with hzero | hpos
  · have hle : (t.simClock : ℚ) ≤ currentTime := by exact_mod_cast hpassed
    linarith
  obtain ⟨hcal, hwhole, hanchor⟩ := htimed hpos
  obtain ⟨due, hsum⟩ := Option.ne_none_iff_exists'.mp hcal
  rw [HaulTrip.estimateNextEventTime, phaseSeconds_of_pos hpos, Option.bind_some,
    hsum] at hdue
  have hsum' : due = 1000000 * t.anchorTime + timedelta t.legSeconds := by
    rw [addSeconds] at hsum
    split at hsum
    · exact (Option.some.inj hsum).symm
    · exact absurd hsum (by simp)
  have hmicro : timedelta t.legSeconds ≤ 1000000 * (currentTime - t.anchorTime) := by
    have hle : due ≤ 1000000 * currentTime := (le_max_left _ _).trans hdue
    omega
  -- the gate opens on a whole second
  have hgate : gateSeconds t.legSeconds ≤ currentTime - t.anchorTime := by
    rw [gateSeconds, Int.ceil_le, div_le_iff₀ (by norm_num)]
    have hcast : (timedelta t.legSeconds : ℚ) ≤ 1000000 * (currentTime - t.anchorTime) := by
      exact_mod_cast hmicro
    push_cast
    linarith
  have hsecs : t.legSeconds ≤ ((currentTime - t.simClock : ℤ) : ℚ) :=
    hwhole.trans
      (by exact_mod_cast (by omega : gateSeconds t.legSeconds ≤ currentTime - t.simClock))
  push_cast at hsecs
  linarith

end OpenRide.Haulage
