import OpenRide.Lib.Assigning
import OpenRide.Lib.Dict
import OpenRide.Lib.Fallible
import OpenRide.Lib.Sorted

/-!
# The ride-hail solvers

Ten solvers match drivers to passenger trips.  Six state the same assignment problem as a linear
program, differ in its costs only, and round what the LP solver returns.  Three are greedy: driver
by driver, each takes a passenger trip that is free.  One draws drivers at random.

The model based ones look at pickup times below `max_travel_time_pickup`; the greedy ones start
their running threshold one above it, and the random one does not look at pickup times at all.
`solve_feasible` says what all of them keep, and when they return: two of the costs divide by scale
factors, and one takes a square root.
-/

namespace OpenRide.RideHail.Solvers

open Lib

/-! ## What the solvers read -/

/-- A driver, with the fields the solvers read. -/
structure Driver where
  driver : String
  serviceScore : ℚ
deriving DecidableEq

/-- A passenger trip, with the fields the solvers read. -/
structure PassengerTrip where
  id : String
  tripPrice : ℚ
deriving DecidableEq

/-- `self._params`, the part that is read. -/
structure Params where
  maxTravelTimePickup : ℚ
  ubPickupTime : ℚ

/-- `offline_params`, the part that is read. -/
structure OfflineParams where
  scaleFactorRevenue : ℚ
  scaleFactorReversePickupTime : ℚ
  scaleFactorServiceScore : ℚ

/-- `online_params`, the part that is read. -/
structure OnlineParams where
  weightRevenue : ℚ
  weightPickupTime : ℚ
  weightServiceScore : ℚ

/-- What a solver is given besides the two lists.  `pickupTime j i` is the entry of the matrix for
the `j`-th driver and the `i`-th passenger trip. -/
structure Problem where
  params : Params
  offline : OfflineParams
  online : OnlineParams
  pickupTime : ℕ → ℕ → ℚ

/-- A matched pair: positions in the two lists, and the pickup time. -/
structure MatchedPair where
  pax : ℕ
  driver : ℕ
  pickupTime : ℚ
deriving DecidableEq

/-- What a solver returns, and the lists it was given as it leaves them. -/
structure Solved where
  assignment : List (Driver × PassengerTrip)
  matchedPairs : List MatchedPair
  drivers : List Driver
  trips : List PassengerTrip
deriving DecidableEq

/-! ## The model based solvers -/

/-- What computing a coefficient raises. -/
inductive CostError where
  | zeroDivisionError
  | valueError
deriving DecidableEq

/-- The coefficient of a pair in the objective. -/
abbrev Cost := Problem → Driver → PassengerTrip → ℚ → Except CostError ℚ

/-- `x / y`. -/
def divide (x y : ℚ) : Except CostError ℚ :=
  if y = 0 then .error .zeroDivisionError else .ok (x / y)

def compromiseMatching : Cost := fun pb d p t ↦
  .ok (pb.online.weightRevenue * p.tripPrice +
    pb.online.weightPickupTime * (pb.params.ubPickupTime - t) / 2 +
    pb.online.weightServiceScore * d.serviceScore)

def compromiseScaledMatching : Cost := fun pb d p t ↦ do
  let revenue ← divide (pb.online.weightRevenue * p.tripPrice) pb.offline.scaleFactorRevenue
  let pickupTime ← divide (pb.online.weightPickupTime * (pb.params.ubPickupTime - t))
    (2 * pb.offline.scaleFactorReversePickupTime)
  let serviceScore ← divide (pb.online.weightServiceScore * d.serviceScore)
    pb.offline.scaleFactorServiceScore
  return revenue + pickupTime + serviceScore

/-- The square root is the one of the modelling language, which raises below zero. -/
def compromiseServiceBiasMatching (sqrt : ℚ → ℚ) : Cost := fun pb d p t ↦ do
  let pickupTime ← divide (pb.online.weightPickupTime * (pb.params.ubPickupTime - t))
    (2 * pb.offline.scaleFactorReversePickupTime)
  let square ← divide (d.serviceScore * p.tripPrice)
    (pb.offline.scaleFactorServiceScore * pb.offline.scaleFactorRevenue)
  if square < 0 then throw .valueError
  return pickupTime + pb.online.weightServiceScore * sqrt square

def pickupOptimalMatching : Cost := fun pb _ _ t ↦ .ok (pb.params.ubPickupTime - t)

def revenueOptimalMatching : Cost := fun _ _ p _ ↦ .ok p.tripPrice

def serviceOptimalMatching : Cost := fun _ d _ _ ↦ .ok d.serviceScore

/-- The linear program: one variable between 0 and 1 for each passenger trip and driver. -/
structure LpModel where
  paxIds : List String
  driverIds : List String
  cost : Dict (String × String) ℚ
  fixed : List (String × String)

/-- A point satisfies the constraints of a program: the bounds, at most one passenger trip a driver,
at most one driver a passenger trip, and the variables that are fixed to 0. -/
structure LpModel.Satisfied (m : LpModel) (x : String → String → ℚ) : Prop where
  nonneg : ∀ p ∈ m.paxIds, ∀ d ∈ m.driverIds, 0 ≤ x p d
  le_one : ∀ p ∈ m.paxIds, ∀ d ∈ m.driverIds, x p d ≤ 1
  driver : ∀ d ∈ m.driverIds, (m.paxIds.map fun p ↦ x p d).sum ≤ 1
  passenger : ∀ p ∈ m.paxIds, (m.driverIds.map fun d ↦ x p d).sum ≤ 1
  fixed : ∀ k ∈ m.fixed, x k.1 k.2 = 0

/-- The drivers that are near enough to some passenger trip, with their positions. -/
def driverListPotential (pb : Problem) (drivers : List Driver) (trips : List PassengerTrip) :
    List (Driver × ℕ) :=
  drivers.zipIdx.filter fun d ↦
    (List.range trips.length).any fun i ↦ pb.pickupTime d.2 i < pb.params.maxTravelTimePickup

/-- `reducedPickupTime`: the pickup times by ids. -/
def reducedPickupTime (pb : Problem) (potential : List (Driver × ℕ)) (trips : List PassengerTrip) :
    Dict (String × String) ℚ :=
  Dict.ofList (potential.flatMap fun d ↦ trips.zipIdx.map fun p ↦
    ((p.1.id, d.1.driver), pb.pickupTime d.2 p.2))

/-- The coefficient of a pair in the program: only near pairs are given the solver's. -/
def Cost.coefficient (cost : Cost) (pb : Problem) (d : Driver × ℕ) (p : PassengerTrip × ℕ) :
    Except CostError ℚ :=
  if pb.pickupTime d.2 p.2 < pb.params.maxTravelTimePickup then
    cost pb d.1 p.1 (pb.pickupTime d.2 p.2)
  else .ok 0

/-- The program of a solver. -/
def lpModel (cost : Cost) (pb : Problem) (potential : List (Driver × ℕ))
    (trips : List PassengerTrip) : Except CostError LpModel := do
  let pairs := potential.flatMap fun d ↦ trips.zipIdx.map fun p ↦ (d, p)
  let c ← each (fun k ↦ do
    let coefficient ← cost.coefficient pb k.1 k.2
    return ((k.2.1.id, k.1.1.driver), coefficient)) pairs
  return {
    paxIds := trips.map PassengerTrip.id
    driverIds := potential.map fun d ↦ d.1.driver
    cost := Dict.ofList c
    fixed := potential.flatMap fun d ↦ trips.zipIdx.filterMap fun p ↦
      if pb.pickupTime d.2 p.2 < pb.params.maxTravelTimePickup then none
      else some (p.1.id, d.1.driver) }

/-- The rounding: of every passenger trip the first driver whose variable is over a half. -/
def roundedPairs (x : String → String → ℚ) (reduced : Dict (String × String) ℚ)
    (potential : List (Driver × ℕ)) (trips : List PassengerTrip) : List MatchedPair :=
  trips.zipIdx.filterMap fun p ↦
    (potential.find? fun d ↦ 1 / 2 < x p.1.id d.1.driver).map fun d ↦
      ⟨p.2, d.2, (reduced.get? (p.1.id, d.1.driver)).getD 0⟩

/-- `doMatching`; `glpk` is the LP solver. -/
def doMatching (cost : Cost) (glpk : LpModel → String → String → ℚ) (pb : Problem)
    (drivers : List Driver) (trips : List PassengerTrip) : Except CostError (List MatchedPair) :=
  let potential := driverListPotential pb drivers trips
  if 0 < trips.length ∧ 0 < potential.length then do
    let compModel ← lpModel cost pb potential trips
    return roundedPairs (glpk compModel) (reducedPickupTime pb potential trips) potential trips
  else .ok []

/-- The pairs that stand at some positions, of drivers and of passenger trips. -/
def pairsAt (drivers : List Driver) (trips : List PassengerTrip) (positions : List (ℕ × ℕ)) :
    List (Driver × PassengerTrip) :=
  positions.filterMap fun k ↦ do
    let d ← drivers[k.1]?
    let p ← trips[k.2]?
    return (d, p)

/-- Where a matched pair stands. -/
def MatchedPair.position (m : MatchedPair) : ℕ × ℕ := (m.driver, m.pax)

/-- `solve` of the model based solvers. -/
def modelSolve (cost : Cost) (glpk : LpModel → String → String → ℚ) (pb : Problem)
    (drivers : List Driver) (trips : List PassengerTrip) : Except CostError Solved := do
  let matchedPairs ← doMatching cost glpk pb drivers trips
  let assignment :=
    if 0 < drivers.length ∧ 0 < trips.length then
      pairsAt drivers trips (matchedPairs.map MatchedPair.position)
    else []
  return ⟨assignment, matchedPairs, drivers, trips⟩

/-! ## The greedy solvers -/

/-- One step of a search for the nearest passenger trip: the nearest so far, and how near. -/
def nearestStep (pb : Problem) (j : ℕ) (taken : List ℕ) (best : Option ℕ × ℚ) (i : ℕ) :
    Option ℕ × ℚ :=
  if i ∉ taken ∧ pb.pickupTime j i < best.2 then (some i, pb.pickupTime j i) else best

/-- The nearest passenger trip that is free, below the threshold. -/
def nearest (pb : Problem) (n j : ℕ) (taken : List ℕ) : Option ℕ :=
  ((List.range n).foldl (nearestStep pb j taken) (none, pb.params.maxTravelTimePickup + 1)).1

/-- One step of a search for the best paid passenger trip: the best so far, and its price. -/
def bestPaidStep (pb : Problem) (trips : List PassengerTrip) (j : ℕ) (taken : List ℕ)
    (best : Option ℕ × ℚ) (i : ℕ) : Option ℕ × ℚ :=
  match trips[i]? with
  | none => best
  | some p =>
    if i ∉ taken ∧ best.2 < p.tripPrice ∧ pb.pickupTime j i < pb.params.maxTravelTimePickup + 1 then
      (some i, p.tripPrice)
    else best

/-- The best paid passenger trip that is free, below the threshold. -/
def bestPaid (pb : Problem) (trips : List PassengerTrip) (j : ℕ) (taken : List ℕ) : Option ℕ :=
  ((List.range trips.length).foldl (bestPaidStep pb trips j taken) (none, -1)).1

/-- `sorted_idx`: the positions of the drivers, the highest service score first. -/
def byServiceScore (drivers : List Driver) : List ℕ :=
  (sortedBy (fun d : Driver × ℕ ↦ -d.1.serviceScore) drivers.zipIdx).map Prod.snd

/-- The loop of the greedy solvers over some positions of drivers. -/
def greedySolve (choose : ℕ → List ℕ → Option ℕ) (order : List ℕ) (drivers : List Driver)
    (trips : List PassengerTrip) : Solved where
  assignment := pairsAt drivers trips (assignEach choose [] order)
  matchedPairs := []
  drivers := drivers
  trips := trips

def greedyMinPickupMatching (pb : Problem) (drivers : List Driver) (trips : List PassengerTrip) :
    Solved :=
  greedySolve (nearest pb trips.length) (List.range drivers.length) drivers trips

def greedyMaxRevenueMatching (pb : Problem) (drivers : List Driver) (trips : List PassengerTrip) :
    Solved :=
  greedySolve (bestPaid pb trips) (List.range drivers.length) drivers trips

def greedyMaxServiceScoreMatching (pb : Problem) (drivers : List Driver)
    (trips : List PassengerTrip) : Solved :=
  greedySolve (nearest pb trips.length) (byServiceScore drivers) drivers trips

/-! ## The random solver -/

/-- The loop of `RandomAssignment`: what is assigned, and the drivers that are left.  The `k`-th
draw of `choice` is any number, taken modulo the length of the list. -/
def randomLoop (draw : ℕ → ℕ) : ℕ → List Driver → List PassengerTrip →
    List (Driver × PassengerTrip) × List Driver
  | _, drivers, [] => ([], drivers)
  | k, drivers, p :: trips =>
    match drivers[draw k % drivers.length]? with
    | none => ([], drivers)
    | some d =>
      let rest := randomLoop draw (k + 1) (drivers.erase d) trips
      ((d, p) :: rest.1, rest.2)

def randomAssignment (draw : ℕ → ℕ) (drivers : List Driver) (trips : List PassengerTrip) :
    Solved :=
  let out := randomLoop draw 0 drivers trips
  ⟨out.1, [], out.2, trips⟩

/-! ## All of them -/

/-- The registered solvers. -/
inductive SolverName where
  | randomAssignment
  | compromiseMatching
  | greedyMinPickupMatching
  | greedyMaxRevenueMatching
  | greedyMaxServiceScoreMatching
  | pickupOptimalMatching
  | revenueOptimalMatching
  | serviceOptimalMatching
  | compromiseServiceBiasMatching
  | compromiseScaledMatching
deriving DecidableEq

/-- What the solvers call: the LP solver, a square root and a source of random numbers. -/
structure External where
  glpk : LpModel → String → String → ℚ
  sqrt : ℚ → ℚ
  draw : ℕ → ℕ

/-- `solve` of a registered solver. -/
def solve (ext : External) (name : SolverName) (pb : Problem) (drivers : List Driver)
    (trips : List PassengerTrip) : Except CostError Solved :=
  match name with
  | .randomAssignment => .ok (randomAssignment ext.draw drivers trips)
  | .compromiseMatching => modelSolve compromiseMatching ext.glpk pb drivers trips
  | .greedyMinPickupMatching => .ok (greedyMinPickupMatching pb drivers trips)
  | .greedyMaxRevenueMatching => .ok (greedyMaxRevenueMatching pb drivers trips)
  | .greedyMaxServiceScoreMatching => .ok (greedyMaxServiceScoreMatching pb drivers trips)
  | .pickupOptimalMatching => modelSolve pickupOptimalMatching ext.glpk pb drivers trips
  | .revenueOptimalMatching => modelSolve revenueOptimalMatching ext.glpk pb drivers trips
  | .serviceOptimalMatching => modelSolve serviceOptimalMatching ext.glpk pb drivers trips
  | .compromiseServiceBiasMatching =>
    modelSolve (compromiseServiceBiasMatching ext.sqrt) ext.glpk pb drivers trips
  | .compromiseScaledMatching => modelSolve compromiseScaledMatching ext.glpk pb drivers trips

/-- The coefficient of a solver, if it is one of those that state a program. -/
def SolverName.cost (sqrt : ℚ → ℚ) : SolverName → Option Cost
  | .compromiseMatching => some Solvers.compromiseMatching
  | .pickupOptimalMatching => some Solvers.pickupOptimalMatching
  | .revenueOptimalMatching => some Solvers.revenueOptimalMatching
  | .serviceOptimalMatching => some Solvers.serviceOptimalMatching
  | .compromiseServiceBiasMatching => some (Solvers.compromiseServiceBiasMatching sqrt)
  | .compromiseScaledMatching => some Solvers.compromiseScaledMatching
  | _ => none

/-- Every near pair of the lists has a coefficient. -/
def Weighable (cost : Cost) (pb : Problem) (drivers : List Driver) (trips : List PassengerTrip) :
    Prop :=
  ∀ j d i p, drivers[j]? = some d → trips[i]? = some p →
    pb.pickupTime j i < pb.params.maxTravelTimePickup →
    ∃ c, cost pb d p (pb.pickupTime j i) = .ok c

/-- How near a pair has to be for a solver. -/
def SolverName.Near (name : SolverName) (pb : Problem) (t : ℚ) : Prop :=
  match name with
  | .randomAssignment => True
  | .greedyMinPickupMatching => t < pb.params.maxTravelTimePickup + 1
  | .greedyMaxRevenueMatching => t < pb.params.maxTravelTimePickup + 1
  | .greedyMaxServiceScoreMatching => t < pb.params.maxTravelTimePickup + 1
  | _ => t < pb.params.maxTravelTimePickup

/-- What a solver should return: nobody occurs twice, every pair is near, and the matched pairs, if
there are any, are the pairs of the assignment in the lists that were given. -/
structure Feasible (near : ℚ → Prop) (pb : Problem) (drivers : List Driver)
    (trips : List PassengerTrip) (out : Solved) : Prop where
  drivers_nodup : (out.assignment.map fun x ↦ x.1.driver).Nodup
  trips_nodup : (out.assignment.map fun x ↦ x.2.id).Nodup
  near : ∀ x ∈ out.assignment, ∃ j i, drivers[j]? = some x.1 ∧ trips[i]? = some x.2 ∧
    near (pb.pickupTime j i)
  matched : out.matchedPairs ≠ [] →
    out.assignment = pairsAt drivers trips (out.matchedPairs.map MatchedPair.position) ∧
      ∀ m ∈ out.matchedPairs, m.driver < drivers.length ∧ m.pax < trips.length ∧
        m.pickupTime = pb.pickupTime m.driver m.pax

/-! ## Pairs at positions -/

section Positions

variable {drivers : List Driver} {trips : List PassengerTrip} {ks : List (ℕ × ℕ)}

theorem mem_pairsAt {x : Driver × PassengerTrip} :
    x ∈ pairsAt drivers trips ks ↔
      ∃ k ∈ ks, drivers[k.1]? = some x.1 ∧ trips[k.2]? = some x.2 := by
  rw [pairsAt, List.mem_filterMap]
  refine exists_congr fun k ↦ and_congr_right fun _ ↦ ?_
  constructor
  · intro h
    obtain ⟨d, hd, h⟩ := Option.bind_eq_some_iff.mp h
    obtain ⟨p, hp, h⟩ := Option.bind_eq_some_iff.mp h
    cases h
    exact ⟨hd, hp⟩
  · rintro ⟨hd, hp⟩
    rw [hd, hp]
    rfl

/-- Of two positions with one id there is only one. -/
theorem position_inj {α : Type} {l : List α} {f : α → String} (h : (l.map f).Nodup) {i j : ℕ}
    {a b : α} (ha : l[i]? = some a) (hb : l[j]? = some b) (heq : f a = f b) : i = j := by
  have hlt : i < (l.map f).length := by
    rw [List.length_map]
    exact (List.getElem?_eq_some_iff.mp ha).1
  refine (List.getElem?_inj hlt h).mp ?_
  rw [List.getElem?_map, List.getElem?_map, ha, hb, Option.map_some, Option.map_some, heq]

/-- Different positions hold different ids. -/
theorem pairsAt_nodup {α : Type} {l : List α} {f : α → String} (h : (l.map f).Nodup)
    (side : ℕ × ℕ → ℕ) (hks : (ks.map side).Nodup) {end_ : Driver × PassengerTrip → α}
    (hend : ∀ k x, drivers[k.1]? = some x.1 → trips[k.2]? = some x.2 →
      l[side k]? = some (end_ x)) :
    ((pairsAt drivers trips ks).map fun x ↦ f (end_ x)).Nodup := by
  induction ks with
  | nil => exact List.nodup_nil
  | cons k ks ih =>
    obtain ⟨hk, hks⟩ := List.nodup_cons.mp hks
    cases hd : drivers[k.1]? with
    | none =>
      have hskip : pairsAt drivers trips (k :: ks) = pairsAt drivers trips ks := by
        rw [pairsAt, List.filterMap_cons, hd]
        rfl
      rw [hskip]
      exact ih hks
    | some d =>
      cases hp : trips[k.2]? with
      | none =>
        have hskip : pairsAt drivers trips (k :: ks) = pairsAt drivers trips ks := by
          rw [pairsAt, List.filterMap_cons, hd, hp]
          rfl
        rw [hskip]
        exact ih hks
      | some p =>
        have hcons : pairsAt drivers trips (k :: ks) = (d, p) :: pairsAt drivers trips ks := by
          rw [pairsAt, List.filterMap_cons, hd, hp]
          rfl
        rw [hcons, List.map_cons, List.nodup_cons]
        refine ⟨fun hmem ↦ ?_, ih hks⟩
        obtain ⟨x, hx, heq⟩ := List.mem_map.mp hmem
        obtain ⟨k', hk', hd', hp'⟩ := mem_pairsAt.mp hx
        have hsame := position_inj h (hend k' x hd' hp') (hend k (d, p) hd hp) heq
        exact hk (hsame ▸ List.mem_map_of_mem hk')

end Positions

/-! ## The model based solvers -/

section Model

variable {cost : Cost} {glpk : LpModel → String → String → ℚ} {pb : Problem}
  {drivers : List Driver} {trips : List PassengerTrip}

variable {d : Driver × ℕ} (hd : (drivers.map Driver.driver).Nodup)
  (ht : (trips.map PassengerTrip.id).Nodup)

theorem mem_driverListPotential (h : d ∈ driverListPotential pb drivers trips) :
    drivers[d.2]? = some d.1 :=
  List.mem_zipIdx_iff_getElem?.mp (List.mem_filter.mp h).1

include hd ht in
/-- A table by ids, read at the ids of a driver and a passenger trip. -/
theorem get?_table {p : PassengerTrip × ℕ}
    (hmem : d ∈ driverListPotential pb drivers trips) (hp : p ∈ trips.zipIdx)
    (entry : Driver × ℕ → PassengerTrip × ℕ → ℚ) :
    (Dict.ofList ((driverListPotential pb drivers trips).flatMap fun d ↦ trips.zipIdx.map fun p ↦
      ((p.1.id, d.1.driver), entry d p))).get? (p.1.id, d.1.driver) = some (entry d p) := by
  rw [Dict.get?_ofList_iff]
  · exact List.mem_flatMap.mpr ⟨d, hmem, List.mem_map_of_mem hp⟩
  · intro k v w hv hw
    obtain ⟨d₁, hd₁, hv⟩ := List.mem_flatMap.mp hv
    obtain ⟨p₁, hp₁, hv⟩ := List.mem_map.mp hv
    obtain ⟨d₂, hd₂, hw⟩ := List.mem_flatMap.mp hw
    obtain ⟨p₂, hp₂, hw⟩ := List.mem_map.mp hw
    obtain ⟨hkey₁, rfl⟩ := Prod.mk.inj hv
    obtain ⟨hkey₂, rfl⟩ := Prod.mk.inj hw
    obtain ⟨hpax, hdriver⟩ := Prod.mk.inj (hkey₁.trans hkey₂.symm)
    have hdd : d₁ = d₂ := by
      have hpos := position_inj hd (mem_driverListPotential hd₁) (mem_driverListPotential hd₂)
        hdriver
      refine Prod.ext (Option.some_inj.mp ?_) hpos
      rw [← mem_driverListPotential hd₁, ← mem_driverListPotential hd₂, hpos]
    have hpp : p₁ = p₂ := by
      have h₁ := List.mem_zipIdx_iff_getElem?.mp hp₁
      have h₂ := List.mem_zipIdx_iff_getElem?.mp hp₂
      have hpos := position_inj ht h₁ h₂ hpax
      refine Prod.ext (Option.some_inj.mp ?_) hpos
      rw [← h₁, ← h₂, hpos]
    rw [hdd, hpp]

/-- The coefficient of a pair, 0 where computing it raises. -/
def Cost.value (cost : Cost) (pb : Problem) (d : Driver × ℕ) (p : PassengerTrip × ℕ) : ℚ :=
  match cost.coefficient pb d p with
  | .ok c => c
  | .error _ => 0

/-- The program of a solver, where no coefficient raises. -/
def program (cost : Cost) (pb : Problem) (potential : List (Driver × ℕ))
    (trips : List PassengerTrip) : LpModel where
  paxIds := trips.map PassengerTrip.id
  driverIds := potential.map fun d ↦ d.1.driver
  cost := Dict.ofList (potential.flatMap fun d ↦ trips.zipIdx.map fun p ↦
    ((p.1.id, d.1.driver), cost.value pb d p))
  fixed := potential.flatMap fun d ↦ trips.zipIdx.filterMap fun p ↦
    if pb.pickupTime d.2 p.2 < pb.params.maxTravelTimePickup then none
    else some (p.1.id, d.1.driver)

/-- A program is stated exactly when no coefficient raises. -/
theorem lpModel_eq_ok {potential : List (Driver × ℕ)} {m : LpModel} :
    lpModel cost pb potential trips = .ok m ↔
      (∀ d ∈ potential, ∀ p ∈ trips.zipIdx, ∃ c, cost.coefficient pb d p = .ok c) ∧
        m = program cost pb potential trips := by
  have hentry : ∀ k ∈ potential.flatMap fun d ↦ trips.zipIdx.map fun p ↦ (d, p),
      ∀ b, (do
        let coefficient ← cost.coefficient pb k.1 k.2
        return ((k.2.1.id, k.1.1.driver), coefficient) : Except CostError _) = .ok b ↔
      (∃ c, cost.coefficient pb k.1 k.2 = .ok c) ∧
        b = ((k.2.1.id, k.1.1.driver), cost.value pb k.1 k.2) := by
    intro k _ b
    rw [Cost.value]
    cases cost.coefficient pb k.1 k.2 with
    | error e => exact iff_of_false (fun h ↦ nomatch h) fun ⟨⟨_, h⟩, _⟩ ↦ nomatch h
    | ok c =>
      constructor
      · intro h
        exact ⟨⟨c, rfl⟩, (Except.ok.inj h).symm⟩
      · rintro ⟨-, rfl⟩
        rfl
  have hpairs : (∀ k ∈ potential.flatMap fun d ↦ trips.zipIdx.map fun p ↦ (d, p),
      ∃ c, cost.coefficient pb k.1 k.2 = .ok c) ↔
      ∀ d ∈ potential, ∀ p ∈ trips.zipIdx, ∃ c, cost.coefficient pb d p = .ok c := by
    simp only [List.forall_mem_flatMap, List.forall_mem_map]
  rw [lpModel, bind_eq_ok, ← hpairs]
  constructor
  · rintro ⟨c, hc, h⟩
    obtain ⟨hall, rfl⟩ := (each_eq_ok_iff hentry).mp hc
    refine ⟨hall, ?_⟩
    rw [← Except.ok.inj h, program, List.map_flatMap]
    simp only [List.map_map, Function.comp_def]
  · rintro ⟨hall, rfl⟩
    refine ⟨_, (each_eq_ok_iff hentry).mpr ⟨hall, rfl⟩, ?_⟩
    rw [program, List.map_flatMap]
    simp only [List.map_map, Function.comp_def]
    rfl

/-- The coefficients of the drivers that are near enough are those of the near pairs. -/
theorem coefficients_ok_iff :
    (∀ d ∈ driverListPotential pb drivers trips, ∀ p ∈ trips.zipIdx,
      ∃ c, cost.coefficient pb d p = .ok c) ↔ Weighable cost pb drivers trips := by
  constructor
  · intro h j d i p hj hi hnear
    have hmem : (d, j) ∈ driverListPotential pb drivers trips := by
      refine List.mem_filter.mpr ⟨List.mem_zipIdx_iff_getElem?.mpr hj, List.any_eq_true.mpr ?_⟩
      exact ⟨i, List.mem_range.mpr (List.getElem?_eq_some_iff.mp hi).1, decide_eq_true hnear⟩
    have hc := h (d, j) hmem (p, i) (List.mem_zipIdx_iff_getElem?.mpr hi)
    rwa [Cost.coefficient, if_pos hnear] at hc
  · intro h d hd p hp
    rw [Cost.coefficient]
    split
    · next hnear =>
      exact h d.2 d.1 p.2 p.1 (mem_driverListPotential hd) (List.mem_zipIdx_iff_getElem?.mp hp)
        hnear
    · exact ⟨0, rfl⟩

/-- A matched pair: where it stands, and that its variable is over a half. -/
theorem mem_roundedPairs {x : String → String → ℚ} {reduced : Dict (String × String) ℚ}
    {potential : List (Driver × ℕ)} {m : MatchedPair}
    (h : m ∈ roundedPairs x reduced potential trips) :
    ∃ p ∈ trips.zipIdx, ∃ d ∈ potential, 1 / 2 < x p.1.id d.1.driver ∧
      m = ⟨p.2, d.2, (reduced.get? (p.1.id, d.1.driver)).getD 0⟩ := by
  obtain ⟨p, hp, h⟩ := List.mem_filterMap.mp h
  obtain ⟨d, hfind, rfl⟩ := Option.map_eq_some_iff.mp h
  have hover := List.find?_some hfind
  exact ⟨p, hp, d, List.mem_of_find?_eq_some hfind, of_decide_eq_true hover, rfl⟩

theorem roundedPairs_pax_nodup (x : String → String → ℚ) (reduced : Dict (String × String) ℚ)
    (potential : List (Driver × ℕ)) (trips : List PassengerTrip) :
    ((roundedPairs x reduced potential trips).map MatchedPair.pax).Nodup := by
  have hsub : ∀ l : List (PassengerTrip × ℕ),
      ((l.filterMap fun p ↦ (potential.find? fun d ↦ 1 / 2 < x p.1.id d.1.driver).map fun d ↦
        (⟨p.2, d.2, (reduced.get? (p.1.id, d.1.driver)).getD 0⟩ : MatchedPair)).map
          MatchedPair.pax).Sublist (l.map Prod.snd) := by
    intro l
    induction l with
    | nil => exact List.Sublist.refl []
    | cons p l ih =>
      rw [List.filterMap_cons]
      split
      · exact ih.cons _
      · next m hm =>
        obtain ⟨d, -, rfl⟩ := Option.map_eq_some_iff.mp hm
        exact ih.cons_cons _
  refine List.Nodup.sublist (hsub trips.zipIdx) ?_
  rw [List.zipIdx_map_snd]
  exact List.nodup_range'

/-- A matching that returns: the program was stated and its point rounded, unless there is no
passenger trip or no driver that is near one. -/
theorem doMatching_cases {pairs : List MatchedPair}
    (h : doMatching cost glpk pb drivers trips = .ok pairs) :
    (0 < trips.length ∧ 0 < (driverListPotential pb drivers trips).length ∧
      lpModel cost pb (driverListPotential pb drivers trips) trips =
        .ok (program cost pb (driverListPotential pb drivers trips) trips) ∧
      pairs = roundedPairs (glpk (program cost pb (driverListPotential pb drivers trips) trips))
        (reducedPickupTime pb (driverListPotential pb drivers trips) trips)
        (driverListPotential pb drivers trips) trips) ∨
    ¬(0 < trips.length ∧ 0 < (driverListPotential pb drivers trips).length) ∧ pairs = [] := by
  rw [doMatching] at h
  split at h
  · next hsome =>
    obtain ⟨m, hm, h⟩ := bind_eq_ok.mp h
    obtain ⟨-, rfl⟩ := lpModel_eq_ok.mp hm
    exact Or.inl ⟨hsome.1, hsome.2, hm, (Except.ok.inj h).symm⟩
  · next hnone => exact Or.inr ⟨hnone, (Except.ok.inj h).symm⟩

variable (hglpk : ∀ m, lpModel cost pb (driverListPotential pb drivers trips) trips = .ok m →
  m.Satisfied (glpk m))

include hd ht hglpk in
/-- What the matching is like, of a point that satisfies the constraints. -/
theorem doMatching_spec {pairs : List MatchedPair}
    (h : doMatching cost glpk pb drivers trips = .ok pairs) :
    (pairs.map MatchedPair.pax).Nodup ∧ (pairs.map MatchedPair.driver).Nodup ∧
      ∀ m ∈ pairs, m.driver < drivers.length ∧ m.pax < trips.length ∧
        m.pickupTime = pb.pickupTime m.driver m.pax ∧
        m.pickupTime < pb.params.maxTravelTimePickup := by
  rcases doMatching_cases h with ⟨-, -, hm, rfl⟩ | ⟨-, rfl⟩
  · have hsat := hglpk _ hm
    generalize glpk (program cost pb (driverListPotential pb drivers trips) trips) = x at hsat ⊢
    have hpax := roundedPairs_pax_nodup x
      (reducedPickupTime pb (driverListPotential pb drivers trips) trips)
      (driverListPotential pb drivers trips) trips
    have hmem : ∀ p ∈ trips.zipIdx, p.1.id ∈ trips.map PassengerTrip.id := fun p hp ↦
      List.mem_map_of_mem (List.fst_mem_of_mem_zipIdx hp)
    refine ⟨hpax, ?_, ?_⟩
    · -- two pairs of one driver would have two variables over a half in its constraint
      refine List.Nodup.map_on (fun m hm m' hm' hsame ↦ ?_) (List.Nodup.of_map _ hpax)
      obtain ⟨p, hp, d, hd₁, hover, rfl⟩ := mem_roundedPairs hm
      obtain ⟨p', hp', d', hd₂, hover', rfl⟩ := mem_roundedPairs hm'
      have hdd : d = d' := by
        have hsame' : d.2 = d'.2 := hsame
        have hlookup := mem_driverListPotential hd₁
        rw [hsame', mem_driverListPotential hd₂] at hlookup
        exact Prod.ext (Option.some_inj.mp hlookup).symm hsame'
      subst hdd
      have hdriver : d.1.driver ∈ (driverListPotential pb drivers trips).map fun d ↦ d.1.driver :=
        List.mem_map_of_mem hd₁
      have hid : p.1.id = p'.1.id := unique_over_half
        (fun q hq ↦ hsat.nonneg q hq d.1.driver hdriver) (hsat.driver d.1.driver hdriver)
        (hmem p hp) (hmem p' hp') hover hover'
      have hpos := position_inj ht (List.mem_zipIdx_iff_getElem?.mp hp)
        (List.mem_zipIdx_iff_getElem?.mp hp') hid
      rw [hid, hpos]
    · intro m hm
      obtain ⟨p, hp, d, hd₁, hover, rfl⟩ := mem_roundedPairs hm
      have htime : ((reducedPickupTime pb (driverListPotential pb drivers trips) trips).get?
          (p.1.id, d.1.driver)).getD 0 = pb.pickupTime d.2 p.2 := by
        rw [reducedPickupTime, get?_table hd ht hd₁ hp fun d p ↦ pb.pickupTime d.2 p.2,
          Option.getD_some]
      refine ⟨?_, ?_, htime, ?_⟩
      · exact (List.getElem?_eq_some_iff.mp (mem_driverListPotential hd₁)).1
      · exact (List.getElem?_eq_some_iff.mp (List.mem_zipIdx_iff_getElem?.mp hp)).1
      · show ((reducedPickupTime pb (driverListPotential pb drivers trips) trips).get?
          (p.1.id, d.1.driver)).getD 0 < _
        rw [htime]
        by_contra hfar
        have hfixed : (p.1.id, d.1.driver) ∈
            (program cost pb (driverListPotential pb drivers trips) trips).fixed := by
          refine List.mem_flatMap.mpr ⟨d, hd₁, List.mem_filterMap.mpr ⟨p, hp, ?_⟩⟩
          exact if_neg hfar
        have hzero := hsat.fixed _ hfixed
        rw [hzero] at hover
        exact absurd hover (by norm_num)
  · exact ⟨List.nodup_nil, List.nodup_nil, nofun⟩

include hd ht hglpk in
/-- What a model based solver returns: its matched pairs, and the assignment they stand for. -/
theorem modelSolve_eq_ok {out : Solved}
    (h : modelSolve cost glpk pb drivers trips = .ok out) :
    doMatching cost glpk pb drivers trips = .ok out.matchedPairs ∧
      out.assignment = pairsAt drivers trips (out.matchedPairs.map MatchedPair.position) ∧
      out.drivers = drivers ∧ out.trips = trips := by
  obtain ⟨pairs, hpairs, h⟩ := bind_eq_ok.mp h
  obtain ⟨-, -, hall⟩ := doMatching_spec hd ht hglpk hpairs
  rw [← Except.ok.inj h]
  refine ⟨hpairs, ?_, rfl, rfl⟩
  dsimp only
  split
  · rfl
  · next hempty =>
    cases pairs with
    | nil => rfl
    | cons m rest =>
      obtain ⟨h1, h2, -⟩ := hall m List.mem_cons_self
      exact absurd ⟨by omega, by omega⟩ hempty

/-- A model based solver returns exactly when every near pair has a coefficient. -/
theorem modelSolve_returns_iff :
    (∃ out, modelSolve cost glpk pb drivers trips = .ok out) ↔ Weighable cost pb drivers trips := by
  have hdo : (∃ out, modelSolve cost glpk pb drivers trips = .ok out) ↔
      ∃ pairs, doMatching cost glpk pb drivers trips = .ok pairs := by
    constructor
    · rintro ⟨out, h⟩
      obtain ⟨pairs, hpairs, -⟩ := bind_eq_ok.mp h
      exact ⟨pairs, hpairs⟩
    · rintro ⟨pairs, hpairs⟩
      exact ⟨_, bind_eq_ok.mpr ⟨pairs, hpairs, rfl⟩⟩
  rw [hdo, ← coefficients_ok_iff, doMatching]
  split
  · constructor
    · rintro ⟨pairs, h⟩
      obtain ⟨m, hm, -⟩ := bind_eq_ok.mp h
      exact (lpModel_eq_ok.mp hm).1
    · intro hall
      exact ⟨_, bind_eq_ok.mpr ⟨_, lpModel_eq_ok.mpr ⟨hall, rfl⟩, rfl⟩⟩
  · next hnone =>
    refine iff_of_true ⟨[], rfl⟩ fun d hd p hp ↦ absurd ⟨?_, List.length_pos_of_mem hd⟩ hnone
    exact List.length_pos_of_mem (List.fst_mem_of_mem_zipIdx hp)

include hd ht hglpk in
theorem modelSolve_feasible {out : Solved}
    (h : modelSolve cost glpk pb drivers trips = .ok out) :
    Feasible (· < pb.params.maxTravelTimePickup) pb drivers trips out := by
  obtain ⟨hpairs, hassignment, -, -⟩ := modelSolve_eq_ok hd ht hglpk h
  obtain ⟨hpax, hdriver, hall⟩ := doMatching_spec hd ht hglpk hpairs
  refine ⟨?_, ?_, fun x hx ↦ ?_, fun _ ↦ ⟨hassignment, fun m hm ↦ ?_⟩⟩
  · rw [hassignment]
    refine pairsAt_nodup hd Prod.fst ?_ fun k x hx _ ↦ hx
    rw [List.map_map]
    exact hdriver
  · rw [hassignment]
    refine pairsAt_nodup ht Prod.snd ?_ fun k x _ hx ↦ hx
    rw [List.map_map]
    exact hpax
  · rw [hassignment] at hx
    obtain ⟨k, hk, hdr, hp⟩ := mem_pairsAt.mp hx
    obtain ⟨m, hm, rfl⟩ := List.mem_map.mp hk
    obtain ⟨-, -, htime, hnear⟩ := hall m hm
    exact ⟨_, _, hdr, hp, htime ▸ hnear⟩
  · obtain ⟨h1, h2, htime, -⟩ := hall m hm
    exact ⟨h1, h2, htime⟩

end Model

/-! ## The greedy solvers -/

section Greedy

variable {pb : Problem} {drivers : List Driver} {trips : List PassengerTrip}

/-- What holds of everything a search may settle on holds of what it settled on. -/
theorem foldl_choice {σ : Type} {step : Option ℕ × σ → ℕ → Option ℕ × σ} {Inv : σ → Prop}
    {P : ℕ → Prop} (l : List ℕ)
    (hstep : ∀ best, ∀ i ∈ l, Inv best.2 →
      Inv (step best i).2 ∧ ((step best i).1 = best.1 ∨ (step best i).1 = some i ∧ P i))
    {best : Option ℕ × σ} (hinv : Inv best.2) (hbest : ∀ i, best.1 = some i → P i) :
    ∀ i, (l.foldl step best).1 = some i → P i := by
  induction l generalizing best with
  | nil => exact hbest
  | cons a l ih =>
    obtain ⟨hinv', hchosen⟩ := hstep best a List.mem_cons_self hinv
    refine ih (fun b i hi ↦ hstep b i (List.mem_cons_of_mem a hi)) hinv' fun i hi ↦ ?_
    rcases hchosen with hsame | ⟨hnew, hP⟩
    · exact hbest i (hsame ▸ hi)
    · rw [hnew] at hi
      exact Option.some_inj.mp hi ▸ hP

/-- The nearest free passenger trip is free, exists and is below the threshold. -/
theorem nearest_spec {n j i : ℕ} {taken : List ℕ} (h : nearest pb n j taken = some i) :
    i ∉ taken ∧ i < n ∧ pb.pickupTime j i < pb.params.maxTravelTimePickup + 1 := by
  refine @foldl_choice ℚ (nearestStep pb j taken) (· ≤ pb.params.maxTravelTimePickup + 1)
    (fun i ↦ i ∉ taken ∧ i < n ∧ pb.pickupTime j i < pb.params.maxTravelTimePickup + 1)
    (List.range n) (fun best k hk hle ↦ ?_) (none, pb.params.maxTravelTimePickup + 1)
    le_rfl (fun k hk ↦ absurd hk (by simp)) i h
  rw [nearestStep]
  split
  · next hnearer =>
    have hbelow := hnearer.2.trans_le hle
    exact ⟨hbelow.le, Or.inr ⟨rfl, hnearer.1, List.mem_range.mp hk, hbelow⟩⟩
  · exact ⟨hle, Or.inl rfl⟩

/-- The best paid free passenger trip is free, exists and is below the threshold. -/
theorem bestPaid_spec {j i : ℕ} {taken : List ℕ} (h : bestPaid pb trips j taken = some i) :
    i ∉ taken ∧ i < trips.length ∧ pb.pickupTime j i < pb.params.maxTravelTimePickup + 1 := by
  refine @foldl_choice ℚ (bestPaidStep pb trips j taken) (fun _ ↦ True)
    (fun i ↦ i ∉ taken ∧ i < trips.length ∧
      pb.pickupTime j i < pb.params.maxTravelTimePickup + 1)
    (List.range trips.length) (fun best k hk _ ↦ ⟨trivial, ?_⟩) (none, -1)
    trivial (fun k hk ↦ absurd hk (by simp)) i h
  rw [bestPaidStep]
  split
  · exact Or.inl rfl
  · split
    · next hbetter => exact Or.inr ⟨rfl, hbetter.1, List.mem_range.mp hk, hbetter.2.2⟩
    · exact Or.inl rfl

theorem byServiceScore_nodup (drivers : List Driver) : (byServiceScore drivers).Nodup := by
  have hperm : (byServiceScore drivers).Perm (drivers.zipIdx.map Prod.snd) :=
    (sortedBy_perm _ drivers.zipIdx).map Prod.snd
  refine hperm.nodup_iff.mpr ?_
  rw [List.zipIdx_map_snd]
  exact List.nodup_range'

/-- The loop over positions gives nobody out twice, whatever near passenger trip it chooses. -/
theorem greedySolve_feasible {choose : ℕ → List ℕ → Option ℕ} {near : ℚ → Prop} {order : List ℕ}
    (hchoose : ∀ j taken i, choose j taken = some i →
      i ∉ taken ∧ i < trips.length ∧ near (pb.pickupTime j i))
    (horder : order.Nodup) (hd : (drivers.map Driver.driver).Nodup)
    (ht : (trips.map PassengerTrip.id).Nodup) :
    Feasible near pb drivers trips (greedySolve choose order drivers trips) := by
  obtain ⟨hpax, hall⟩ := assignEach_spec hchoose [] order
  refine ⟨?_, ?_, fun x hx ↦ ?_, fun h ↦ absurd rfl h⟩
  · exact pairsAt_nodup hd Prod.fst (horder.sublist (assignEach_sublist [] order))
      fun k x hx _ ↦ hx
  · exact pairsAt_nodup ht Prod.snd hpax fun k x _ hx ↦ hx
  · obtain ⟨k, hk, hdr, hp⟩ := mem_pairsAt.mp hx
    exact ⟨k.1, k.2, hdr, hp, (hall k hk).2.2⟩

end Greedy

/-! ## The random solver -/

section Random

variable {drivers : List Driver} {trips : List PassengerTrip}

/-- A driver is either assigned or left, and passenger trips are assigned from the front. -/
theorem randomLoop_spec (draw : ℕ → ℕ) (k : ℕ) (drivers : List Driver)
    (trips : List PassengerTrip) :
    ((randomLoop draw k drivers trips).1.map Prod.fst ++ (randomLoop draw k drivers trips).2).Perm
        drivers ∧
      ((randomLoop draw k drivers trips).1.map Prod.snd).Sublist trips := by
  induction trips generalizing k drivers with
  | nil => exact ⟨List.Perm.refl drivers, List.Sublist.refl []⟩
  | cons p trips ih =>
    rw [randomLoop]
    split
    · exact ⟨List.Perm.refl drivers, List.nil_sublist _⟩
    · next d hd =>
      obtain ⟨hperm, hsub⟩ := ih (k + 1) (drivers.erase d)
      refine ⟨?_, hsub.cons_cons p⟩
      exact (hperm.cons d).trans (List.perm_cons_erase (List.mem_of_getElem? hd)).symm

theorem randomAssignment_feasible (pb : Problem) (draw : ℕ → ℕ)
    (hd : (drivers.map Driver.driver).Nodup) (ht : (trips.map PassengerTrip.id).Nodup) :
    Feasible (fun _ ↦ True) pb drivers trips (randomAssignment draw drivers trips) := by
  obtain ⟨hperm, hsub⟩ := randomLoop_spec draw 0 drivers trips
  refine ⟨?_, ?_, fun x hx ↦ ?_, fun h ↦ absurd rfl h⟩
  · have hnodup := (hperm.map Driver.driver).nodup_iff.mpr hd
    rw [List.map_append, List.map_map] at hnodup
    exact (List.nodup_append.mp hnodup).1
  · have hnodup := ht.sublist (hsub.map PassengerTrip.id)
    rw [List.map_map] at hnodup
    exact hnodup
  · have hdr : x.1 ∈ drivers :=
      hperm.mem_iff.mp (List.mem_append_left _ (List.mem_map_of_mem hx))
    obtain ⟨j, hj⟩ := List.mem_iff_getElem?.mp hdr
    obtain ⟨i, hi⟩ := List.mem_iff_getElem?.mp (hsub.subset (List.mem_map_of_mem hx))
    exact ⟨j, i, hj, hi, trivial⟩

end Random

/-! ## Every solver -/

section Every

variable {ext : External} {name : SolverName} {pb : Problem} {drivers : List Driver}
  {trips : List PassengerTrip}

/-- What a solver that states a program computes. -/
theorem solve_eq_modelSolve {cost : Cost} (h : name.cost ext.sqrt = some cost) :
    solve ext name pb drivers trips = modelSolve cost ext.glpk pb drivers trips := by
  cases name <;> simp only [SolverName.cost, Option.some_inj, reduceCtorEq] at h <;>
    subst h <;> rfl

/-- A solver that states no program returns a feasible matching. -/
theorem solve_of_cost_eq_none (h : name.cost ext.sqrt = none)
    (hd : (drivers.map Driver.driver).Nodup) (ht : (trips.map PassengerTrip.id).Nodup) :
    ∃ out, solve ext name pb drivers trips = .ok out ∧
      Feasible (name.Near pb) pb drivers trips out ∧ out.trips = trips ∧
      (name ≠ .randomAssignment → out.drivers = drivers) := by
  cases name with
  | randomAssignment =>
    exact ⟨_, rfl, randomAssignment_feasible pb ext.draw hd ht, rfl, fun h ↦ absurd rfl h⟩
  | greedyMinPickupMatching =>
    exact ⟨_, rfl, greedySolve_feasible (fun _ _ _ h ↦ nearest_spec h) List.nodup_range hd ht, rfl,
      fun _ ↦ rfl⟩
  | greedyMaxRevenueMatching =>
    exact ⟨_, rfl, greedySolve_feasible (fun _ _ _ h ↦ bestPaid_spec h) List.nodup_range hd ht, rfl,
      fun _ ↦ rfl⟩
  | greedyMaxServiceScoreMatching =>
    exact ⟨_, rfl, greedySolve_feasible (fun _ _ _ h ↦ nearest_spec h)
      (byServiceScore_nodup drivers) hd ht, rfl, fun _ ↦ rfl⟩
  | compromiseMatching => cases h
  | pickupOptimalMatching => cases h
  | revenueOptimalMatching => cases h
  | serviceOptimalMatching => cases h
  | compromiseServiceBiasMatching => cases h
  | compromiseScaledMatching => cases h

/-- The solvers that state a program look at pickup times below the bound. -/
theorem SolverName.near_of_cost {cost : Cost} (h : name.cost ext.sqrt = some cost) (t : ℚ) :
    name.Near pb t ↔ t < pb.params.maxTravelTimePickup := by
  cases name <;> first | exact Iff.rfl | cases h

end Every

/-- **Every solver returns a feasible matching**, if it returns.  Nobody is assigned twice and every
pair is as near as the solver asks; the matched pairs, if any, are the assignment; the passenger
trips are left as they were, and so are the drivers by all but the random solver.  A solver returns
unless it states a program and the coefficient of a near pair raises. -/
theorem solve_feasible (ext : External) (hglpk : ∀ m : LpModel, m.Satisfied (ext.glpk m))
    (name : SolverName) (pb : Problem) (drivers : List Driver) (trips : List PassengerTrip)
    (hd : (drivers.map Driver.driver).Nodup) (ht : (trips.map PassengerTrip.id).Nodup) :
    (∀ out, solve ext name pb drivers trips = .ok out →
      Feasible (name.Near pb) pb drivers trips out ∧ out.trips = trips ∧
        (name ≠ .randomAssignment → out.drivers = drivers)) ∧
    ((∃ out, solve ext name pb drivers trips = .ok out) ↔
      ∀ cost, name.cost ext.sqrt = some cost → Weighable cost pb drivers trips) := by
  cases hcost : name.cost ext.sqrt with
  | none =>
    obtain ⟨out, hout, hfeasible⟩ := @solve_of_cost_eq_none ext name pb drivers trips hcost hd ht
    refine ⟨fun out' hout' ↦ ?_, iff_of_true ⟨out, hout⟩ nofun⟩
    rw [← Except.ok.inj (hout.symm.trans hout')]
    exact hfeasible
  | some cost =>
    rw [solve_eq_modelSolve hcost, modelSolve_returns_iff]
    constructor
    · intro out hout
      obtain ⟨-, -, hdrivers, htrips⟩ := modelSolve_eq_ok hd ht (fun m _ ↦ hglpk m) hout
      have hfeasible := modelSolve_feasible hd ht (fun m _ ↦ hglpk m) hout
      refine ⟨⟨hfeasible.drivers_nodup, hfeasible.trips_nodup, fun x hx ↦ ?_, hfeasible.matched⟩,
        htrips, fun _ ↦ hdrivers⟩
      simp only [SolverName.near_of_cost hcost]
      exact hfeasible.near x hx
    · exact ⟨fun h c hc ↦ Option.some_inj.mp hc ▸ h, fun h ↦ h cost rfl⟩

/-! Three drivers and two passenger trips.  The first driver is near both, the second is near the
first only, and the third is near neither. -/

def threeDrivers : List Driver := [⟨"d1", 4⟩, ⟨"d2", 4⟩, ⟨"d3", 5⟩]

def twoTrips : List PassengerTrip := [⟨"p1", 20⟩, ⟨"p2", 20⟩]

/-- The pickup times, and scale factors of which that of the revenues is given. -/
def uneven (scaleFactorRevenue : ℚ) : Problem where
  params := ⟨600, 600⟩
  offline := ⟨scaleFactorRevenue, 60, 2⟩
  online := ⟨1, 1, 1⟩
  pickupTime j i := (([[100, 300], [200, 700], [700, 800]] : List (List ℚ)).getD j []).getD i 0

/-- An LP solver that solves the program of these drivers and passenger trips. -/
def unevenSolver : External where
  glpk m p d :=
    if m.paxIds = ["p1", "p2"] ∧ m.driverIds = ["d1", "d2"] ∧ m.fixed = [("p2", "d2")] ∧
        (p, d) ∈ [("p1", "d2"), ("p2", "d1")] then 1
    else 0
  sqrt := id
  draw k := k

theorem unevenSolver_satisfied (m : LpModel) : m.Satisfied (unevenSolver.glpk m) := by
  by_cases h : m.paxIds = ["p1", "p2"] ∧ m.driverIds = ["d1", "d2"] ∧ m.fixed = [("p2", "d2")]
  · obtain ⟨hpax, hdrivers, hfixed⟩ := h
    refine ⟨?_, ?_, ?_, ?_, ?_⟩ <;>
      simp [unevenSolver, hpax, hdrivers, hfixed]
  · have hzero : unevenSolver.glpk m = fun _ _ ↦ 0 := by
      funext p d
      exact if_neg fun hall ↦ h ⟨hall.1, hall.2.1, hall.2.2.1⟩
    rw [hzero]
    refine ⟨fun _ _ _ _ ↦ le_rfl, fun _ _ _ _ ↦ zero_le_one, fun d _ ↦ ?_, fun p _ ↦ ?_,
      fun _ _ ↦ rfl⟩
    · simp
    · simp

/-- What the scaled solver returns of them. -/
def unevenSolved : Solved where
  assignment := [(⟨"d2", 4⟩, ⟨"p1", 20⟩), (⟨"d1", 4⟩, ⟨"p2", 20⟩)]
  matchedPairs := [⟨0, 1, 200⟩, ⟨1, 0, 300⟩]
  drivers := threeDrivers
  trips := twoTrips

theorem solve_uneven :
    solve unevenSolver .compromiseScaledMatching (uneven 10) threeDrivers twoTrips =
      .ok unevenSolved := by
  decide +kernel

/-- The scaled solver gives the second passenger trip the driver that is near both, and the first
the other one; without a scale factor it raises. -/
theorem solve_feasible_uneven :
    Feasible (· < 600) (uneven 10) threeDrivers twoTrips unevenSolved ∧
      ¬∃ out, solve unevenSolver .compromiseScaledMatching (uneven 0) threeDrivers twoTrips =
        .ok out := by
  refine ⟨((solve_feasible unevenSolver unevenSolver_satisfied .compromiseScaledMatching (uneven 10)
    threeDrivers twoTrips (by decide) (by decide)).1 _ solve_uneven).1, fun h ↦ ?_⟩
  have hraises : compromiseScaledMatching (uneven 0) ⟨"d1", 4⟩ ⟨"p1", 20⟩ 100 =
      .error .zeroDivisionError := by decide +kernel
  obtain ⟨c, hc⟩ := (solve_feasible unevenSolver unevenSolver_satisfied .compromiseScaledMatching
    (uneven 0) threeDrivers twoTrips (by decide) (by decide)).2.mp h _ rfl 0 _ 0 _ rfl rfl
    (by decide +kernel)
  exact nomatch hraises.symm.trans hc

/-- The same drivers and passenger trips, all of them so many seconds apart. -/
def apart (t : ℚ) : Problem := { uneven 10 with pickupTime := fun _ _ ↦ t }

/-- A pair that is assigned over such a distance is not feasible. -/
theorem not_feasible_apart {t : ℚ} (ht : 600 ≤ t) {out : Solved} (hout : out.assignment ≠ []) :
    ¬Feasible (· < 600) (apart t) threeDrivers twoTrips out := by
  intro h
  obtain ⟨x, hx⟩ := List.exists_mem_of_ne_nil _ hout
  obtain ⟨j, i, -, -, hnear⟩ := h.near x hx
  exact absurd hnear (not_lt.mpr ht)

/-- A greedy solver takes passenger trips half a second too far away, and the random one any. -/
theorem random_takes_any :
    (∃ out, solve unevenSolver .greedyMinPickupMatching (apart (1201 / 2)) threeDrivers twoTrips =
        .ok out ∧ ¬Feasible (· < 600) (apart (1201 / 2)) threeDrivers twoTrips out) ∧
      ∃ out, solve unevenSolver .randomAssignment (apart 9000) threeDrivers twoTrips = .ok out ∧
        ¬Feasible (· < 600) (apart 9000) threeDrivers twoTrips out :=
  ⟨⟨_, rfl, not_feasible_apart (by norm_num) (by decide +kernel)⟩,
    ⟨_, rfl, not_feasible_apart (by norm_num) (by decide +kernel)⟩⟩

end OpenRide.RideHail.Solvers
