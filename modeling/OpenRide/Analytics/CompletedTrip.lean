import Mathlib.Algebra.Order.Ring.Rat
import Mathlib.Tactic.Common

/-!
# The document of a completed trip

The part of a haul trip's document the breakdowns read, and how it is read: whose truck ran it, what
it drove empty and loaded, how long it took, whether it starts where the truck's last one ended.

Arithmetic is exact, over the rationals.  A field whose type the server does not enforce where it
is read is a `Quantity` or a `Location`: anything may stand there, and the reader says what becomes
of it.  An identifier or a name is absent or a text, and an empty text counts for an absent one
wherever the source asks for truth.  The great circle distance of two points is a parameter; nothing
depends on it.
-/

namespace OpenRide.Analytics

/-! ## Values of the document -/

/-- A JSON value where a number is expected: `null`, something `float` makes a number of, or
anything else. -/
inductive Quantity where
  | null
  | num (q : ℚ)
  | other
deriving DecidableEq

namespace Quantity

/-- `float`, `none` when it raises. -/
def float : Quantity → Option ℚ
  | num q => some q
  | _ => none

/-- `_coerce_seconds`. -/
def coerceSeconds (value : Quantity) (default : ℚ) : ℚ :=
  match value.float with
  | some sec => if 0 ≤ sec then sec else default
  | none => default

/-- `float(value or 0.0)`, added up where it does not raise. -/
def orZero (value : Quantity) : ℚ := value.float.getD 0

/-- A number, or absent. -/
def NumericOrAbsent (value : Quantity) : Prop := value ≠ other

instance (value : Quantity) : Decidable value.NumericOrAbsent :=
  inferInstanceAs (Decidable (value ≠ other))

end Quantity

/-- A JSON value where a GeoJSON point is expected: `null`, a point, or a value without readable
coordinates, of which only its truth counts. -/
inductive Location where
  | null
  | point (lon lat : ℚ)
  | other (truthy : Bool)
deriving DecidableEq

namespace Location

/-- Is this anything but `None`? -/
def given : Location → Bool
  | null => false
  | _ => true

/-- `a or b`. -/
def orElse : Location → Location → Location
  | null, b => b
  | other false, b => b
  | a, _ => a

end Location

/-- The text itself, unless it is absent or empty. -/
def truthy (text : Option String) : Option String := text.filter (· ≠ "")

/-- The two arrivals a completed trip records: `_REBATE_ARRIVAL_LEGS`. -/
inductive Leg where
  | pickup
  | dropoff
deriving DecidableEq

/-! ## The document -/

/-- `trip["stats"]`. -/
structure Stats where
  estimatedTimeToPickup : Quantity := .null
  estimatedTimeToDropoff : Quantity := .null
  pickupServiceTime : Quantity := .null
  dropoffServiceTime : Quantity := .null
  /-- `{leg}_queue_arrival_time`. -/
  queueArrivalTime : Leg → Option String := fun _ ↦ none

/-- `trip["meta"]["collaboration"]`. -/
structure Collaboration where
  shared : Bool := false
  ownerHaulierId : Option String := none
  benefitKm : Quantity := .null
deriving DecidableEq

/-- A haul trip, as `_COMPLETED_TRIP_PROJECTION` shows it.  The clock is the instant `str_to_time`
makes of it, in microseconds from `datetime.min`, and missing when that raises. -/
structure Trip where
  truck : Option String
  simClock : Option ℕ
  /-- `meta.truck_profile.haulier_id`. -/
  profileHaulierId : Option String := none
  /-- `meta.truck_profile.haulier_name`. -/
  profileHaulierName : Option String := none
  /-- `meta.{leg}_facility_resource_id`. -/
  facilityResourceId : Leg → Option String := fun _ ↦ none
  repositionOriginLoc : Location := .null
  currentLoc : Location := .null
  pickupLoc : Location := .null
  dropoffLoc : Location := .null
  /-- `routes.planned.repositioning_to_pickup.distance`; a missing key reads as `null`. -/
  repositioningDistance : Quantity := .null
  /-- `routes.planned.loaded_to_dropoff.distance`. -/
  loadedDistance : Quantity := .null
  stats : Stats := {}
  collaboration : Collaboration := {}

/-- Great circle distances in kilometres, between longitudes and latitudes. -/
structure Geometry where
  greatCircleKm : ℚ × ℚ → ℚ × ℚ → ℚ

/-- `_haversine_km`. -/
def Geometry.haversineKm (G : Geometry) : Location → Location → Option ℚ
  | .point lon lat, .point lon' lat' => some (G.greatCircleKm (lon, lat) (lon', lat'))
  | _, _ => none

/-- `_is_dual_cycle`: by facility where both are known, within half a kilometre otherwise. -/
def Geometry.isDualCycle (G : Geometry) (prevFac : Option String) (prevLoc : Location)
    (pickupFac : Option String) (pickupLoc : Location) : Bool :=
  match prevFac, pickupFac with
  | some prev, some pickup => prev = pickup
  | _, _ =>
    match G.haversineKm prevLoc pickupLoc with
    | some km => km ≤ 1 / 2
    | none => false

namespace Trip

/-- The truck that ran the trip, if the document names one. -/
def truckId (t : Trip) : Option String := truthy t.truck

/-- `_haulier_of_trip`, the identifier. -/
def haulierId (t : Trip) : String := (truthy t.profileHaulierId).getD "unknown"

/-- `_haulier_of_trip`, the name. -/
def haulierName (t : Trip) : String := (truthy t.profileHaulierName).getD t.haulierId

/-- A planned road distance in kilometres, if it is one. -/
def plannedKm (distance : Quantity) : Option ℚ :=
  match distance.float with
  | some m => if 0 ≤ m then some (m / 1000) else none
  | none => none

/-- `_empty_km_of`. -/
def emptyKmOf (G : Geometry) (t : Trip) : Option ℚ :=
  match plannedKm t.repositioningDistance with
  | some km => some km
  | none => G.haversineKm (t.repositionOriginLoc.orElse t.currentLoc) t.pickupLoc

/-- `_loaded_km_of`. -/
def loadedKmOf (G : Geometry) (t : Trip) : Option ℚ :=
  match plannedKm t.loadedDistance with
  | some km => some km
  | none => G.haversineKm t.pickupLoc t.dropoffLoc

/-- `modeled_haul_duration_seconds`. -/
def modeledHaulDurationSeconds (t : Trip) : ℚ :=
  t.stats.estimatedTimeToPickup.coerceSeconds 0 + t.stats.estimatedTimeToDropoff.coerceSeconds 0 +
    t.stats.pickupServiceTime.coerceSeconds 120 + t.stats.dropoffServiceTime.coerceSeconds 120

/-- `_trip_sort_key`: an unreadable clock sorts as `datetime.min`. -/
def sortKey (t : Trip) : ℕ := t.simClock.getD 0

/-- The owner of a shared job, if the trip names one. -/
def ownerId (t : Trip) : Option String := truthy t.collaboration.ownerHaulierId

end Trip

end OpenRide.Analytics
