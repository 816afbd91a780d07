import Mathlib.Algebra.Group.Prod
import Mathlib.Data.Finset.Basic
import OpenRide.Analytics.CompletedTrip
import OpenRide.Lib.Ledger
import OpenRide.Lib.Sorted

/-!
# The breakdown accumulators

`accumulateCompletedTrips` folds the completed trips of a window into three ledgers: one account a
truck, one account a haulier, one account a loaded lane.  A trip moves up to three accounts of the
first two, its truck's, its carrier's and its job's owner's, and all it does to them is to add.

So the counters of an account come in groups that add up field by field: `Activity`, which trucks
and hauliers share, `Sharing`, `Rebates` and `Censored`.  What a trip adds is one value of such a
group, and the accounts are the sums.
-/

namespace OpenRide.Analytics

open Lib

/-! ## The counters -/

/-- What a truck and a haulier both count. -/
@[ext] structure Activity where
  emptyKm : ℚ := 0
  loadedKm : ℚ := 0
  tripCount : ℕ := 0
  activeSeconds : ℚ := 0
  dualCycleCount : ℕ := 0
  chainOpportunities : ℕ := 0
deriving DecidableEq

/-- The collaboration gains of a haulier. -/
@[ext] structure Sharing where
  jobsSharedOut : ℕ := 0
  jobsCarriedForPartners : ℕ := 0
  benefitKmReceived : ℚ := 0
  unserveableShares : ℕ := 0
  benefitDefinedN : ℕ := 0
  jobsEnabled : ℕ := 0
deriving DecidableEq

/-- The rebate ledger of a haulier. -/
@[ext] structure Rebates where
  rebateCredited : ℚ := 0
  rebateCreditedPickup : ℚ := 0
  rebateCreditedDropoff : ℚ := 0
  arrivalsPriced : ℕ := 0
  arrivalsUnpriced : ℕ := 0
  unpricedNoSchedule : ℕ := 0
  unpricedNoStamp : ℕ := 0
  unpricedNoFacilityId : ℕ := 0
  unpricedUnparseable : ℕ := 0
deriving DecidableEq

/-- Arrivals of trips that never completed. -/
@[ext] structure Censored where
  arrivalsInFlightAtHorizon : ℕ := 0
  valueInFlightAtHorizon : ℚ := 0
  arrivalsAbandoned : ℕ := 0
  valueAbandoned : ℚ := 0
deriving DecidableEq

/-! ### Adding up -/

instance : Add Activity := ⟨fun a b ↦
  ⟨a.emptyKm + b.emptyKm, a.loadedKm + b.loadedKm, a.tripCount + b.tripCount,
    a.activeSeconds + b.activeSeconds, a.dualCycleCount + b.dualCycleCount,
    a.chainOpportunities + b.chainOpportunities⟩⟩

instance : Zero Activity := ⟨{}⟩

instance : AddCommMonoid Activity where
  add_assoc a b c := by ext <;> exact add_assoc _ _ _
  add_comm a b := by ext <;> exact add_comm _ _
  zero_add a := by ext <;> exact zero_add _
  add_zero a := by ext <;> exact add_zero _
  nsmul := nsmulRec

def Sharing.add (a b : Sharing) : Sharing where
  jobsSharedOut := a.jobsSharedOut + b.jobsSharedOut
  jobsCarriedForPartners := a.jobsCarriedForPartners + b.jobsCarriedForPartners
  benefitKmReceived := a.benefitKmReceived + b.benefitKmReceived
  unserveableShares := a.unserveableShares + b.unserveableShares
  benefitDefinedN := a.benefitDefinedN + b.benefitDefinedN
  jobsEnabled := a.jobsEnabled + b.jobsEnabled

instance : Add Sharing := ⟨Sharing.add⟩

instance : Zero Sharing := ⟨{}⟩

theorem Sharing.add_def (a b : Sharing) : a + b = a.add b := rfl

instance : AddCommMonoid Sharing where
  add_assoc a b c := by ext <;> exact add_assoc _ _ _
  add_comm a b := by ext <;> exact add_comm _ _
  zero_add a := by ext <;> exact zero_add _
  add_zero a := by ext <;> exact add_zero _
  nsmul := nsmulRec

def Rebates.add (a b : Rebates) : Rebates where
  rebateCredited := a.rebateCredited + b.rebateCredited
  rebateCreditedPickup := a.rebateCreditedPickup + b.rebateCreditedPickup
  rebateCreditedDropoff := a.rebateCreditedDropoff + b.rebateCreditedDropoff
  arrivalsPriced := a.arrivalsPriced + b.arrivalsPriced
  arrivalsUnpriced := a.arrivalsUnpriced + b.arrivalsUnpriced
  unpricedNoSchedule := a.unpricedNoSchedule + b.unpricedNoSchedule
  unpricedNoStamp := a.unpricedNoStamp + b.unpricedNoStamp
  unpricedNoFacilityId := a.unpricedNoFacilityId + b.unpricedNoFacilityId
  unpricedUnparseable := a.unpricedUnparseable + b.unpricedUnparseable

instance : Add Rebates := ⟨Rebates.add⟩

instance : Zero Rebates := ⟨{}⟩

theorem Rebates.add_def (a b : Rebates) : a + b = a.add b := rfl

instance : AddCommMonoid Rebates where
  add_assoc a b c := by ext <;> exact add_assoc _ _ _
  add_comm a b := by ext <;> exact add_comm _ _
  zero_add a := by ext <;> exact zero_add _
  add_zero a := by ext <;> exact add_zero _
  nsmul := nsmulRec

instance : Add Censored := ⟨fun a b ↦
  ⟨a.arrivalsInFlightAtHorizon + b.arrivalsInFlightAtHorizon,
    a.valueInFlightAtHorizon + b.valueInFlightAtHorizon,
    a.arrivalsAbandoned + b.arrivalsAbandoned, a.valueAbandoned + b.valueAbandoned⟩⟩

instance : Zero Censored := ⟨{}⟩

instance : AddCommMonoid Censored where
  add_assoc a b c := by ext <;> exact add_assoc _ _ _
  add_comm a b := by ext <;> exact add_comm _ _
  zero_add a := by ext <;> exact zero_add _
  add_zero a := by ext <;> exact add_zero _
  nsmul := nsmulRec

/-! ## The accounts -/

structure TruckAcc extends Activity where
  id : String
  haulierId : String
  haulierName : String
  lastDropoffFacilityId : Option String := none
  lastDropoffLoc : Location := .null
deriving DecidableEq

structure HaulierAcc extends Activity, Sharing, Rebates, Censored where
  id : String
  haulierName : String
  trucks : Finset String := ∅
  rebateCurrency : Option String := none
deriving DecidableEq

/-- A directed corridor: the loaded legs from one facility to another. -/
structure Lane where
  fromFac : String
  toFac : String
  fromLoc : Location
  toLoc : Location
  loadedTrips : ℕ := 0
  loadedKm : ℚ := 0
  byHaulier : Dict String ℕ := Dict.empty
  haulierNames : Dict String String := Dict.empty
deriving DecidableEq

/-- `_new_truck_acc`. -/
def newTruckAcc (id haulierId haulierName : String) : TruckAcc := { id, haulierId, haulierName }

/-- `_new_haulier_acc`. -/
def newHaulierAcc (id haulierName : String) : HaulierAcc := { id, haulierName }

/-- The accumulators of an `AnalyticsManager`. -/
structure Breakdowns where
  truckAcc : Dict String TruckAcc := Dict.empty
  haulierAcc : Dict String HaulierAcc := Dict.empty
  laneAcc : Dict (String × String) Lane := Dict.empty
  sharedTripCount : ℕ := 0
  /-- `_total_benefit_km`. -/
  runningBenefitKm : ℚ := 0
deriving DecidableEq

/-! ## Rebates -/

/-- What `price_at` raises on a stamp it cannot read. -/
inductive PriceError where
  | valueError
  | typeError
deriving DecidableEq

/-- `RebateBook`: what each facility pays an arrival, and in which currency. -/
structure RebateBook where
  priceAt : String → String → Except PriceError (Option ℚ)
  currency : Option String

/-- Why an arrival has no price. -/
inductive Unpriced where
  | noSchedule
  | noStamp
  | noFacilityId
  | unparseable
deriving DecidableEq

/-- The price of one of a trip's arrivals, or why there is none. -/
def RebateBook.arrivalPrice (book : RebateBook) (t : Trip) (leg : Leg) : Except Unpriced ℚ :=
  match t.stats.queueArrivalTime leg with
  | none => .error .noStamp
  | some stamp =>
    match t.facilityResourceId leg with
    | none => .error .noFacilityId
    | some facilityId =>
      match book.priceAt facilityId stamp with
      | .error _ => .error .unparseable
      | .ok none => .error .noSchedule
      | .ok (some amount) => .ok amount

namespace Rebates

/-- `_count_unpriced`: under the reason and under the total. -/
def unpriced : Unpriced → Rebates
  | .noSchedule => { arrivalsUnpriced := 1, unpricedNoSchedule := 1 }
  | .noStamp => { arrivalsUnpriced := 1, unpricedNoStamp := 1 }
  | .noFacilityId => { arrivalsUnpriced := 1, unpricedNoFacilityId := 1 }
  | .unparseable => { arrivalsUnpriced := 1, unpricedUnparseable := 1 }

/-- A credited arrival: in full and under its leg. -/
def priced (amount : ℚ) : Leg → Rebates
  | .pickup => { rebateCredited := amount, rebateCreditedPickup := amount, arrivalsPriced := 1 }
  | .dropoff => { rebateCredited := amount, rebateCreditedDropoff := amount, arrivalsPriced := 1 }

end Rebates

/-- What a run keeps fixed: its distances and its rebates. -/
structure RunData extends Geometry, RebateBook

namespace HaulierAcc

/-- One arrival of `_settle_rebate_arrivals`. -/
def settleArrival (book : RebateBook) (t : Trip) (h : HaulierAcc) (leg : Leg) : HaulierAcc :=
  match book.arrivalPrice t leg with
  | .error reason => { h with toRebates := h.toRebates + .unpriced reason }
  | .ok amount =>
    { h with
      toRebates := h.toRebates + .priced amount leg
      rebateCurrency := h.rebateCurrency.or book.currency }

/-- `_settle_rebate_arrivals`: both arrivals go to the carrier. -/
def settleRebateArrivals (book : RebateBook) (t : Trip) (h : HaulierAcc) : HaulierAcc :=
  [Leg.pickup, Leg.dropoff].foldl (settleArrival book t) h

/-- The carrier's side of a trip, its rebates and the job it carried for a partner included. -/
def carry (book : RebateBook) (truckId : String) (run : Activity) (t : Trip) (h : HaulierAcc) :
    HaulierAcc :=
  let h := { h with toActivity := h.toActivity + run, trucks := insert truckId h.trucks }
  let h := h.settleRebateArrivals book t
  if t.collaboration.shared then
    { h with toSharing := h.toSharing + { jobsCarriedForPartners := 1 } }
  else h

end HaulierAcc

/-- What a shared job is to its owner.  No benefit at all means that only the partner could serve
it; a benefit that is no number counts for neither. -/
def Sharing.sharedOut : Quantity → Sharing
  | .num benefit => { jobsSharedOut := 1, benefitKmReceived := benefit, benefitDefinedN := 1 }
  | .null => { jobsSharedOut := 1, jobsEnabled := 1, unserveableShares := 1 }
  | .other => { jobsSharedOut := 1 }

/-- The owner's side of a shared trip. -/
def HaulierAcc.shareOut (benefit : Quantity) (o : HaulierAcc) : HaulierAcc :=
  { o with toSharing := o.toSharing + .sharedOut benefit }

/-! ## Trucks -/

namespace TruckAcc

/-- Has the truck dropped anything off before? -/
def chained (acc : TruckAcc) : Bool :=
  acc.lastDropoffFacilityId.isSome || acc.lastDropoffLoc.given

/-- What a trip counts for, given where its truck was left. -/
def activityOf (G : Geometry) (acc : TruckAcc) (t : Trip) : Activity where
  emptyKm := (t.emptyKmOf G).getD 0
  loadedKm := (t.loadedKmOf G).getD 0
  tripCount := 1
  activeSeconds := t.modeledHaulDurationSeconds
  chainOpportunities := if acc.chained then 1 else 0
  dualCycleCount :=
    if acc.chained ∧ G.isDualCycle acc.lastDropoffFacilityId acc.lastDropoffLoc
      (t.facilityResourceId .pickup) t.pickupLoc then 1 else 0

/-- The truck's side of a trip. -/
def drive (run : Activity) (t : Trip) (acc : TruckAcc) : TruckAcc :=
  { acc with
    toActivity := acc.toActivity + run
    lastDropoffFacilityId := t.facilityResourceId .dropoff
    lastDropoffLoc := t.dropoffLoc }

end TruckAcc

/-! ## Lanes -/

/-- One loaded leg more on a lane. -/
def Lane.load (haulierId haulierName : String) (km : ℚ) (lane : Lane) : Lane :=
  { lane with
    loadedTrips := lane.loadedTrips + 1
    loadedKm := lane.loadedKm + km
    byHaulier := lane.byHaulier.amend haulierId 0 (· + 1)
    haulierNames := lane.haulierNames.set haulierId haulierName }

/-- `_fold_loaded_lane`. -/
def foldLoadedLane (G : Geometry) (t : Trip) (lanes : Dict (String × String) Lane) :
    Dict (String × String) Lane :=
  match t.facilityResourceId .pickup, t.facilityResourceId .dropoff with
  | some fromFac, some toFac =>
    if fromFac = toFac then lanes else
      lanes.amend (fromFac, toFac)
        { fromFac, toFac, fromLoc := t.pickupLoc, toLoc := t.dropoffLoc }
        (·.load t.haulierId t.haulierName ((t.loadedKmOf G).getD 0))
  | _, _ => lanes

namespace Breakdowns

variable (R : RunData)

/-! ## The fold -/

/-- The account of a trip's truck, opened if it is the first. -/
def truckAccOf (s : Breakdowns) (truckId : String) (t : Trip) : TruckAcc :=
  (s.truckAcc.get? truckId).getD (newTruckAcc truckId t.haulierId t.haulierName)

/-- The truck's and the carrier's side of a trip. -/
def recordRun (truckId : String) (t : Trip) (s : Breakdowns) : Breakdowns :=
  let run := (s.truckAccOf truckId t).activityOf R.toGeometry t
  { s with
    truckAcc := s.truckAcc.amend truckId (newTruckAcc truckId t.haulierId t.haulierName)
      (·.drive run t)
    haulierAcc := s.haulierAcc.amend t.haulierId (newHaulierAcc t.haulierId t.haulierName)
      (·.carry R.toRebateBook truckId run t) }

/-- The owner's side of a shared trip, and the run's. -/
def recordShare (t : Trip) (s : Breakdowns) : Breakdowns :=
  if t.collaboration.shared then
    { s with
      haulierAcc :=
        match t.ownerId with
        | some ownerId =>
          s.haulierAcc.amend ownerId (newHaulierAcc ownerId ownerId)
            (·.shareOut t.collaboration.benefitKm)
        | none => s.haulierAcc
      sharedTripCount := s.sharedTripCount + 1
      runningBenefitKm := s.runningBenefitKm + t.collaboration.benefitKm.orZero }
  else s

/-- One pass of the loop of `accumulate_completed_trips`. -/
def accumulateTrip (s : Breakdowns) (t : Trip) : Breakdowns :=
  match t.truckId with
  | none => s
  | some truckId =>
    let s := (s.recordRun R truckId t).recordShare t
    { s with laneAcc := foldLoadedLane R.toGeometry t s.laneAcc }

/-- `accumulate_completed_trips`. -/
def accumulateCompletedTrips (s : Breakdowns) (trips : List Trip) : Breakdowns :=
  (sortedBy Trip.sortKey trips).foldl (accumulateTrip R) s

end Breakdowns

end OpenRide.Analytics
