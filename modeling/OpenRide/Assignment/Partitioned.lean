import OpenRide.Assignment.InputOrder
import OpenRide.Assignment.StructurePools
import OpenRide.Lib.Buckets

/-!
# The two topologies of the assignment app

In a tick the app has a list of assignable trucks and a list of unassigned orders, and hands them to
one of two planners.

The *partitioned* one (`assignPartitioned`) works on the connected components of the cooperation
structure: trucks and orders are bucketed by component, each bucket is solved once, own and partner
trucks competing on equal footing.  With the spatial index the candidates of a bucket are built for
the orders of one haulier at a time, over the trucks of the bucket that may serve this haulier.

The *pooled* one (`assignPooled`) files trucks and orders by haulier and runs the pooled market over
the pools of the structure.

The structure is a compiled one, or none.  Feasibility and cost are the app's own functions of the
documents; what they compute is left to parameters, that they return is not.
-/

namespace OpenRide.Assignment

open Lib Datagen

/-! ## The settings of a tick -/

/-- What the app reads from its profile and from its constraint module. -/
structure AssignmentProfile where
  /-- `pair_allowed_ignoring_haulier` with the profile's travel limit. -/
  pairAllowedIgnoringHaulier : PairAllowed
  /-- `assignment_cost` with the profile's solver parameters; it returns a float. -/
  assignmentCost : Truck → Order → Double
  maxRounds : ℤ
  tickSeed : ℤ
  spatialParams : SpatialParams := {}
  useSpatial : Bool := true
  maxTrucksPerHaulier : ℕ := 500
  facilityCenter : String → Option Point := fun _ ↦ none

/-- `haulier_matches`: both ids are there and equal. -/
def haulierMatches : PairAllowed := fun t o ↦
  match t.haulier, o.haulier with
  | some h, some g => h = g
  | _, _ => false

namespace AssignmentProfile

variable (P : AssignmentProfile)

/-- `pair_allowed`: the strict rule. -/
def pairAllowed : PairAllowed := fun t o ↦
  haulierMatches t o && P.pairAllowedIgnoringHaulier t o

/-- `_cost`. -/
def cost : Cost := fun t o ↦ .ok (.num (P.assignmentCost t o))

end AssignmentProfile

/-! ## Reading the structure -/

/-- `share_adjacency`: the partners of each haulier. -/
def shareAdjacency (coop : Option CoopStructure) : Dict String (List String) :=
  match coop with
  | none => Dict.empty
  | some s => s.adjacency

/-- The component of each haulier that has partners. -/
def componentOf (coop : Option CoopStructure) : Dict String ℕ :=
  match coop with
  | none => Dict.empty
  | some s =>
    if s.adjacency.entries.isEmpty then Dict.empty else
      Dict.ofList (s.components.zipIdx.flatMap fun p ↦
        if 1 < p.1.length then p.1.map (·, p.2) else [])

/-- The pools the market is opened with. -/
def marketPools (coop : Option CoopStructure) : List Pool :=
  match coop with
  | none => poolsFromStructure .null
  | some s => poolsFromStructure (structureRaw s)

/-- `share_eligible`: two different hauliers joined by an edge. -/
def shareEligible (adjacency : Dict String (List String)) : PairAllowed := fun t o ↦
  match t.haulier, o.haulier with
  | some h, some g => h ≠ g ∧ g ∈ partnersIn adjacency h
  | _, _ => false

/-- `_serves`. -/
def serves (adjacency : Dict String (List String)) (truckHaulier orderHaulier : String) : Bool :=
  truckHaulier = orderHaulier ∨ orderHaulier ∈ partnersIn adjacency truckHaulier

/-! ## The partitioned planner -/

section Partitioned

variable {σ : Type} (R : Runtime σ) (solver : Solver σ) (P : AssignmentProfile)
  (coop : Option CoopStructure)

/-- `_pair_allowed`: the strict rule within a haulier, feasibility alone along an edge. -/
def partitionedAllowed : PairAllowed := fun t o ↦
  if haulierMatches t o then P.pairAllowed t o
  else if !(shareAdjacency coop).entries.isEmpty &&
      shareEligible (shareAdjacency coop) t o then P.pairAllowedIgnoringHaulier t o
  else false

/-- A bucket of the partition. -/
inductive PartitionKey where
  | component (idx : ℕ)
  | haulier (hid : String)
deriving DecidableEq

/-- `_partition_key`; without a haulier there is no bucket. -/
def partitionKey (hid : Option String) : Option PartitionKey :=
  hid.map fun h ↦
    match (componentOf coop).get? h with
    | some idx => .component idx
    | none => .haulier h

def truckBuckets (candidates : List Truck) : Dict PartitionKey (List Truck) :=
  Dict.groupBy (fun t ↦ partitionKey coop t.haulier) candidates

def orderBuckets (orders : List Order) : Dict PartitionKey (List Order) :=
  Dict.groupBy (fun o ↦ partitionKey coop o.haulier) orders

/-- The trucks of a list that may serve the orders of a haulier. -/
def eligibleTrucks (trucks : List Truck) (orderHaulier : String) : List Truck :=
  trucks.filter fun t ↦
    match t.haulier with
    | none => false
    | some h => serves (shareAdjacency coop) h orderHaulier

/-- The candidate pairs of a bucket, one index for the orders of each haulier. -/
def bucketPairs (bucketTrucks : List Truck) (bucketOrders : List Order) : List Pair :=
  (Dict.groupBy Order.haulier bucketOrders).entries.flatMap fun g ↦
    iterCandidatePairs P.facilityCenter P.spatialParams
      (eligibleTrucks coop bucketTrucks g.1) g.2 (partitionedAllowed P coop)

/-- `_solve_bucket`. -/
def solveBucket (bucketTrucks : List Truck) (bucketOrders : List Order) (s : σ) :
    Except PyExc (List Pair) × σ :=
  match (if P.useSpatial then solver.solvePairs else none) with
  | some solvePairs => solvePairs (bucketPairs P coop bucketTrucks bucketOrders) P.cost s
  | none =>
    if bucketTrucks.length > P.maxTrucksPerHaulier then
      let r := R.sample s bucketTrucks P.maxTrucksPerHaulier
      solver.solve r.1 bucketOrders (partitionedAllowed P coop) P.cost r.2
    else solver.solve bucketTrucks bucketOrders (partitionedAllowed P coop) P.cost s

/-- The tag of a pair across hauliers. -/
structure CrossTag where
  shared : Bool
  ownerHaulierId : String
  carrierHaulierId : String
  benefitKm : Option Double
deriving DecidableEq

/-- The tag of a pair of the result: what the owner's best own truck still free would have cost
more, when there is one. -/
def crossTag (bucketTrucks : List Truck) (result : List Pair) (p : Pair) : Option CrossTag :=
  match p.1.haulier, p.2.haulier with
  | some carrier, some owner =>
    if carrier = owner then none else
      let ownCosts := (bucketTrucks.filter fun t ↦
        t.entityId ∉ result.map (fun q ↦ q.1.entityId) ∧ t.haulier = some owner ∧
          partitionedAllowed P coop t p.2).map (P.assignmentCost · p.2)
      let best := (ownCosts.filter (· ≠ .posInf)).foldl Double.keepLeast none
      some
        { shared := true
          ownerHaulierId := owner
          carrierHaulierId := carrier
          benefitKm := best.map fun b ↦ R.round3 (b.sub R.rnd (P.assignmentCost p.1 p.2)) }
  | _, _ => none

/-- The tags of the pairs of a bucket's result. -/
def crossTags (bucketTrucks : List Truck) (result : List Pair)
    (tags : Dict (String × String) CrossTag) : Dict (String × String) CrossTag :=
  result.foldl (fun tags p ↦
    match crossTag R P coop bucketTrucks result p with
    | none => tags
    | some tag => tags.set (p.1.entityId, p.2.entityId) tag) tags

/-- Solve the buckets one after the other; a bucket without trucks is skipped. -/
def solveBuckets (trucks : Dict PartitionKey (List Truck)) :
    List (PartitionKey × List Order) → List Pair × Dict (String × String) CrossTag → σ →
      Except PyExc (List Pair × Dict (String × String) CrossTag) × σ
  | [], acc, s => (.ok acc, s)
  | (key, bucketOrders) :: rest, acc, s =>
    match trucks.get? key with
    | none => solveBuckets trucks rest acc s
    | some bucketTrucks =>
      if bucketTrucks.isEmpty then solveBuckets trucks rest acc s else
        match solveBucket R solver P coop bucketTrucks bucketOrders s with
        | (.error e, s') => (.error e, s')
        | (.ok result, s') =>
          solveBuckets trucks rest
            (acc.1 ++ result, crossTags R P coop bucketTrucks result acc.2) s'

/-- The partitioned path of `assign`: the pairs and the share tags. -/
def assignPartitioned (candidates : List Truck) (orders : List Order) (s : σ) :
    Except PyExc (List Pair × Dict (String × String) CrossTag) × σ :=
  solveBuckets R solver P coop (truckBuckets coop candidates)
    (orderBuckets coop orders).entries ([], Dict.empty) s

/-- All candidate pairs the partitioned path builds in a tick. -/
def partitionedPairs (candidates : List Truck) (orders : List Order) : List Pair :=
  (orderBuckets coop orders).entries.flatMap fun b ↦
    match (truckBuckets coop candidates).get? b.1 with
    | none => []
    | some bucketTrucks => bucketPairs P coop bucketTrucks b.2

end Partitioned

/-! ## The pooled planner -/

/-- Trucks and orders by haulier; those without one are left out. -/
def fileByHaulier (candidates : List Truck) (orders : List Order) : FleetBook where
  trucksByHaulier := Dict.groupBy Truck.haulier candidates
  ordersByHaulier := Dict.groupBy Order.haulier orders

/-- The planner context of a tick: the greedy solver with the tick's tie-break. -/
def pooledContext {σ : Type} (R : Runtime σ) (P : AssignmentProfile) (offer : OfferPolicy σ)
    (claim : ClaimPolicy σ) (arbitration : ArbitrationRule) : PooledPlannerContext σ where
  solver := greedyNearest R (some P.tickSeed)
  offer := offer
  claim := claim
  arbitration := arbitration
  maxRounds := P.maxRounds
  pairAllowedOwn := P.pairAllowed
  pairAllowedPooled := P.pairAllowedIgnoringHaulier
  cost := P.cost
  tickSeed := P.tickSeed
  spatialParams := P.spatialParams
  useSpatial := P.useSpatial
  maxTrucksPerHaulier := P.maxTrucksPerHaulier
  facilityCenter := P.facilityCenter

/-- `_assign_pooled`, with the generator seeded for the tick. -/
def assignPooled {σ : Type} (R : Runtime σ) (P : AssignmentProfile)
    (coop : Option CoopStructure) (offer : OfferPolicy σ) (claim : ClaimPolicy σ)
    (arbitration : ArbitrationRule) (candidates : List Truck) (orders : List Order) (s : σ) :
    Except TickError PooledMarketResult :=
  runPooledMarket R (pooledContext R P offer claim arbitration) (fileByHaulier candidates orders)
    (marketPools coop) s

end OpenRide.Assignment
