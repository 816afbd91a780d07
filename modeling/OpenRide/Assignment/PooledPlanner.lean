import Mathlib.Data.List.Lex
import OpenRide.Assignment.Policy

/-!
# The pooled planner

One tick: the companies contribute orders to pools, then rounds of bidding run until a round
commits nothing, then the awards are turned into pairs and share tags and three assertions are
checked.

In a round the candidate pairs are built once for all companies.  Each company in turn plans over
its own share of them; a pair on an own order that is in no pool is committed on the spot, every
other pair goes to the claim policy, and the bids of all companies are arbitrated together.  An
award in another company's favour is committed only if that company sees the order through a pool.

What the tick mutates is the market and the random generator, so the steps thread a
`PoolMarket × σ`; a step fails only with an exception of the cost function, since offers, solves
and claims are each run under a handler.
-/

namespace OpenRide.Assignment

open Lib

/-! ## The input of a tick -/

/-- Everything the planner is configured with. -/
structure PooledPlannerContext (σ : Type) where
  solver : Solver σ
  offer : OfferPolicy σ
  claim : ClaimPolicy σ
  arbitration : ArbitrationRule
  maxRounds : ℤ
  pairAllowedOwn : PairAllowed
  pairAllowedPooled : PairAllowed
  cost : Cost
  tickSeed : ℤ
  spatialParams : SpatialParams := {}
  useSpatial : Bool := true
  maxTrucksPerHaulier : ℕ := 500
  /-- The centre of a facility by name, for trucks without a position of their own. -/
  facilityCenter : String → Option Point := fun _ ↦ none

/-- The trucks and orders of a tick, filed by company. -/
structure FleetBook where
  trucksByHaulier : Dict String (List Truck)
  ordersByHaulier : Dict String (List Order)

namespace FleetBook

variable (fb : FleetBook)

/-- The trucks of a company; the empty id names none. -/
def trucksOf (h : String) : List Truck :=
  if h = "" then [] else (fb.trucksByHaulier.get? h).getD []

/-- The orders of a company; the empty id names none. -/
def ordersOf (h : String) : List Order :=
  if h = "" then [] else (fb.ordersByHaulier.get? h).getD []

/-- The companies, sorted. -/
def companyIds : List String :=
  (SortedSet.ofList
    ((fb.trucksByHaulier.keys ++ fb.ordersByHaulier.keys).filter (· ≠ ""))).toList

/-- The orders with the company they are filed under, in the order they are read. -/
def filedOrders : List (String × Order) :=
  (sortedBy id fb.ordersByHaulier.keys).flatMap fun h ↦ (fb.ordersOf h).map (h, ·)

/-- The trucks with the company they are filed under, in the order they are read. -/
def filedTrucks : List (String × Truck) :=
  (sortedBy id fb.trucksByHaulier.keys).flatMap fun h ↦ (fb.trucksOf h).map (h, ·)

def ordersById : Dict String Order :=
  Dict.ofList (fb.filedOrders.map fun p ↦ (p.2.entityId, p.2))

def ownerByOrderId : Dict String String :=
  Dict.ofList (fb.filedOrders.map fun p ↦ (p.2.entityId, p.1))

def trucksById : Dict String Truck :=
  Dict.ofList (fb.filedTrucks.map fun p ↦ (p.2.entityId, p.2))

def inputOrderIds : SortedSet String := SortedSet.ofList fb.ordersById.keys

/-- `_owner_of`. -/
def ownerOf (orderId : String) : Option String := fb.ownerByOrderId.get? orderId

/-- What the callers promise: ids are distinct, and a truck is filed under its own haulier. -/
structure WellFiled : Prop where
  truckIds_nodup : (fb.filedTrucks.map fun p ↦ p.2.entityId).Nodup
  orderIds_nodup : (fb.filedOrders.map fun p ↦ p.2.entityId).Nodup
  truck_haulier : ∀ h, ∀ t ∈ fb.trucksOf h, t.haulier = some h

end FleetBook

section Planner

variable {σ : Type} (R : Runtime σ) (ctx : PooledPlannerContext σ) (fb : FleetBook)

/-! ## Contribution -/

/-- Place the orders of one contribution, dropping those the company does not own. -/
def contributeOrders (h : String) (contribution : Dict String (List String)) (m : PoolMarket) :
    PoolMarket :=
  (sortedBy id contribution.keys).foldl (fun m oid ↦
    if fb.ownerOf oid = some h then
      (m.contribute oid h ((contribution.get? oid).getD [])).2
    else m) m

/-- The contribution of one company. -/
def contributeCompany (st : PoolMarket × σ) (h : String) : PoolMarket × σ :=
  if (st.1.poolsFor h).isEmpty || (fb.ordersOf h).isEmpty then st else
    match ctx.offer { haulierId := h, orders := fb.ordersOf h, trucks := fb.trucksOf h,
                      pools := st.1.poolsFor h, cost := ctx.cost } st.2 with
    | (.ok (some contribution), s) => (contributeOrders fb h contribution st.1, s)
    | (_, s) => (st.1, s)

/-- The contributions of all companies. -/
def contributeAll (m : PoolMarket) (s : σ) : PoolMarket × σ :=
  if m.isEmpty then (m, s) else fb.companyIds.foldl (contributeCompany ctx fb) (m, s)

/-! ## Candidates -/

/-- The trucks of a company still free. -/
def freeTrucks (m : PoolMarket) (h : String) : List Truck :=
  (fb.trucksOf h).filter fun t ↦ m.isTruckFree t.entityId

/-- The orders still free, by id. -/
def freeOrders (m : PoolMarket) : List Order :=
  (fb.inputOrderIds.toList.filter m.isOrderFree).filterMap fb.ordersById.get?

/-- The rule a carrier's pairs must meet: the strict one on its own orders. -/
def pairAllowedFor (carrier : String) : PairAllowed := fun t o ↦
  if o.haulier = some carrier then ctx.pairAllowedOwn t o else ctx.pairAllowedPooled t o

/-- The carriers of an order with an owner. -/
def carriersOf (m : PoolMarket) (o : Order) : Option (SortedSet String) :=
  match fb.ownerOf o.entityId with
  | none => none
  | some owner => if owner = "" then none else some (m.eligibleCarriers o.entityId owner)

/-- The pair rule of the carrier whose truck it is. -/
def allowedForCarrier : PairAllowed := fun t o ↦
  match t.haulier with
  | none => false
  | some carrier => pairAllowedFor ctx carrier t o

/-- The candidate pairs of one group of orders, over the union of the fleets of its carriers. -/
def groupCandidates (free : String → List Truck) (carriers : SortedSet String)
    (groupOrders : List Order) : List Pair :=
  iterCandidatePairs ctx.facilityCenter ctx.spatialParams (carriers.toList.flatMap free)
    groupOrders (allowedForCarrier ctx)

/-- One candidate set per group of orders with the same carriers, bucketed by carrier. -/
def buildRoundCandidates (free : String → List Truck) (orders : List Order) (m : PoolMarket) :
    Dict String (List Pair) :=
  let groups := Dict.groupBy (carriersOf fb m) orders
  Dict.groupBy (fun p ↦ p.1.haulier) <|
    (sortedBy SortedSet.toList groups.keys).flatMap fun carriers ↦
      groupCandidates ctx free carriers ((groups.get? carriers).getD [])

/-- Does the round build its candidates up front? -/
def usesSpatial : Bool := ctx.useSpatial && ctx.solver.solvePairs.isSome

/-- The candidates of a round that starts with market `m`. -/
def roundCandidates (m : PoolMarket) : Dict String (List Pair) :=
  if usesSpatial ctx then buildRoundCandidates ctx fb (freeTrucks fb m) (freeOrders fb m) m
  else Dict.empty

/-! ## One company's turn -/

/-- The solve of one company. -/
def solveCompany (trucks : List Truck) (orders : List Order) (pairAllowed : PairAllowed)
    (prebuiltPairs : List Pair) (s : σ) : Except PyExc (List Pair) × σ :=
  match (if ctx.useSpatial then ctx.solver.solvePairs else none) with
  | some solvePairs => if prebuiltPairs.isEmpty then (.ok [], s) else
      solvePairs prebuiltPairs ctx.cost s
  | none =>
    if trucks.isEmpty || orders.isEmpty then (.ok [], s) else
      if trucks.length > ctx.maxTrucksPerHaulier then
        let r := R.sample s trucks ctx.maxTrucksPerHaulier
        ctx.solver.solve r.1 orders pairAllowed ctx.cost r.2
      else ctx.solver.solve trucks orders pairAllowed ctx.cost s

/-- The state of a round between two companies' turns. -/
structure TurnState (σ : Type) where
  market : PoolMarket
  rng : σ
  bids : List Bid
  privateCommits : ℕ

/-- The own orders of a company still free, and the foreign ones it sees through a pool. -/
def candidateOrders (m : PoolMarket) (h : String) : List Order :=
  (fb.ordersOf h).filter (fun o ↦ m.isOrderFree o.entityId) ++
    ((m.visiblePooledOrderIds h).toList.filter fun oid ↦
      fb.ordersById.contains oid && m.isOrderFree oid).filterMap fb.ordersById.get?

/-- Is the order of a pair the company's own? -/
def isOwnPair (h : String) (p : Pair) : Bool := fb.ownerOf p.2.entityId = some h

/-- The planned pairs on own orders that are in no pool. -/
def ownPrivatePairs (m : PoolMarket) (h : String) (plan : List Pair) : List Pair :=
  plan.filter fun p ↦ isOwnPair fb h p && !m.isContributed p.2.entityId

/-- The planned pairs on own orders that are in a pool. -/
def ownContributedPairs (m : PoolMarket) (h : String) (plan : List Pair) : List Pair :=
  plan.filter fun p ↦ isOwnPair fb h p && m.isContributed p.2.entityId

/-- The planned pairs on orders of others. -/
def foreignPairs (h : String) (plan : List Pair) : List Pair :=
  plan.filter fun p ↦ !isOwnPair fb h p

/-- The award of a private pair. -/
def privateAward (h : String) (rnd : ℤ) (p : Pair) (costKm : Double) : Award where
  orderId := p.2.entityId
  truckId := p.1.entityId
  carrierHaulierId := h
  ownerHaulierId := some h
  costKm := costKm
  poolId := none
  round := rnd

/-- Commit private pairs on the spot, counting the commits that go through.  The cost is evaluated
outside any handler. -/
def commitPrivate (h : String) (rnd : ℤ) :
    List Pair → ℕ × PoolMarket → Except TickError (ℕ × PoolMarket)
  | [], st => .ok st
  | p :: ps, st =>
    match floatCost ctx.cost p.1 p.2 with
    | .error e => .error (.raised e)
    | .ok c =>
      let r := st.2.commit (privateAward h rnd p c)
      commitPrivate h rnd ps (st.1 + r.1.toNat, r.2)

/-- The request a company's claim policy is asked. -/
def claimRequest (m : PoolMarket) (h : String) (rnd : ℤ) (own : List Pair) (pooled : List Pair) :
    ClaimRequest where
  haulierId := h
  pooledPairs := pooled
  ownPairs := own
  cost := ctx.cost
  market := m
  round := rnd

/-- The bids of one company: none when its policy raises. -/
def claimBids (r : ClaimRequest) (s : σ) : List Bid × σ :=
  if r.pooledPairs.isEmpty then ([], s) else
    match ctx.claim r s with
    | (.ok bids, s') => (bids, s')
    | (.error _, s') => ([], s')

/-- What a company does with its plan: commit the private pairs, bid on the others. -/
def actOnPlan (h : String) (rnd : ℤ) (plan : List Pair) (st : TurnState σ) :
    Except TickError (TurnState σ) :=
  let own := ownPrivatePairs fb st.market h plan
  let contributed := ownContributedPairs fb st.market h plan
  let foreign := foreignPairs fb h plan
  match commitPrivate ctx h rnd own (st.privateCommits, st.market) with
  | .error e => .error e
  | .ok (commits, m) =>
    let r := claimBids ctx
      (claimRequest ctx m h rnd (own ++ contributed) (contributed ++ foreign)) st.rng
    .ok { market := m, rng := r.2, bids := st.bids ++ r.1, privateCommits := commits }

/-- One company's turn.  The free trucks and the candidates are those of the start of the round,
`m₀`. -/
def companyTurn (m₀ : PoolMarket) (cands : Dict String (List Pair)) (rnd : ℤ) (h : String)
    (st : TurnState σ) : Except TickError (TurnState σ) :=
  if (freeTrucks fb m₀ h).isEmpty || (candidateOrders fb st.market h).isEmpty then .ok st else
    match solveCompany R ctx (freeTrucks fb m₀ h) (candidateOrders fb st.market h)
        (pairAllowedFor ctx h) ((cands.get? h).getD []) st.rng with
    | (.error _, s) => .ok { st with rng := s }
    | (.ok plan, s) => actOnPlan ctx fb h rnd plan { st with rng := s }

/-- The turns of a list of companies. -/
def companyTurns (m₀ : PoolMarket) (cands : Dict String (List Pair)) (rnd : ℤ) :
    List String → TurnState σ → Except TickError (TurnState σ)
  | [], st => .ok st
  | h :: hs, st =>
    match companyTurn R ctx fb m₀ cands rnd h st with
    | .error e => .error e
    | .ok st' => companyTurns m₀ cands rnd hs st'

/-! ## Rounds -/

/-- The guard on an award: its carrier owns the order or sees it through a pool. -/
def carrierSees (m : PoolMarket) (a : Award) : Bool :=
  a.ownerHaulierId = some a.carrierHaulierId ||
    (m.poolOfOrder a.orderId a.carrierHaulierId).isSome

/-- Commit the awards that pass the guard; did one go through? -/
def commitAwards : List Award → Bool × PoolMarket → Bool × PoolMarket
  | [], st => st
  | a :: as, st =>
    if carrierSees st.2 a then
      let r := st.2.commit a
      commitAwards as (st.1 || r.1, r.2)
    else commitAwards as st

/-- The state of a tick between two rounds. -/
structure TickState (σ : Type) where
  market : PoolMarket
  rng : σ
  roundsUsed : ℤ := 0
  converged : Bool := false
  candidatePairsRound1 : ℕ := 0
  candidatePairsTotal : ℕ := 0

/-- The number of candidate pairs of a round. -/
def candidateCount (cands : Dict String (List Pair)) : ℕ := (cands.values.map List.length).sum

/-- The end of a round: arbitrate the bids and commit the awards.  The round has converged if it
committed nothing at all. -/
def settleRound (st : TurnState σ) : Bool × PoolMarket × σ :=
  if st.bids.isEmpty && st.privateCommits == 0 then (true, st.market, st.rng) else
    let r := ctx.arbitration.resolve R st.bids st.market ctx.tickSeed fb.ownerOf st.rng
    let c := commitAwards r.1 (st.privateCommits != 0, st.market)
    (!c.1, c.2, r.2)

/-- One round. -/
def playRound (rnd : ℤ) (st : TickState σ) : Except TickError (TickState σ) :=
  let cands := roundCandidates ctx fb st.market
  match companyTurns R ctx fb st.market cands rnd fb.companyIds
      { market := st.market, rng := st.rng, bids := [], privateCommits := 0 } with
  | .error e => .error e
  | .ok turn =>
    let r := settleRound R ctx fb turn
    .ok { market := r.2.1
          rng := r.2.2
          roundsUsed := rnd
          converged := r.1
          candidatePairsRound1 :=
            if rnd = 1 then candidateCount cands else st.candidatePairsRound1
          candidatePairsTotal := st.candidatePairsTotal + candidateCount cands }

/-- At most `n` rounds, the first of them number `rnd`. -/
def playRounds : ℕ → ℤ → TickState σ → Except TickError (TickState σ)
  | 0, _, st => .ok st
  | n + 1, rnd, st =>
    if !fb.inputOrderIds.toList.any st.market.isOrderFree then .ok { st with converged := true }
    else
      match playRound R ctx fb rnd st with
      | .error e => .error e
      | .ok st' => if st'.converged then .ok st' else playRounds n (rnd + 1) st'

/-- The backstop on the number of rounds: 20 when unset, and between 1 and 100. -/
def maxRounds : ℤ := max 1 (min 100 (if ctx.maxRounds = 0 then 20 else ctx.maxRounds))

/-! ## Accounting -/

/-- The tag of a shared award. -/
structure ShareTag where
  shared : Bool
  ownerHaulierId : Option String
  carrierHaulierId : String
  benefitKm : Option Double
  poolId : Option String
  awardedCostKm : Option Double
  ownerReserveKm : Option Double
  marketRound : ℤ
deriving DecidableEq

/-- The owner's cheapest own truck still free after the final commit.  The cost is called outside
the handler, which covers the conversion only. -/
def ownerReserveKm (o : Order) (committed : List String) (pairAllowed : PairAllowed) (cost : Cost) :
    List Truck → Option Double → Except TickError (Option Double)
  | [], best => .ok best
  | t :: ts, best =>
    if t.entityId ∈ committed ∨ pairAllowed t o = false then
      ownerReserveKm o committed pairAllowed cost ts best
    else
      match cost t o with
      | .error e => .error (.raised e)
      | .ok .notNumber => ownerReserveKm o committed pairAllowed cost ts best
      | .ok (.num c) =>
        if c = .posInf ∨ c = .nan then ownerReserveKm o committed pairAllowed cost ts best
        else
          match best with
          | none => ownerReserveKm o committed pairAllowed cost ts (some c)
          | some b => ownerReserveKm o committed pairAllowed cost ts
            (some (if c.lt b then c else b))

/-- `_finite_or_none`. -/
def finiteOrNone (x : Double) : Option Double := if x.isFinite then some x else none

/-- The tag of a shared award, given the owner's reserve. -/
def shareTag (a : Award) (reserve : Option Double) : ShareTag :=
  let awardedCost := finiteOrNone a.costKm
  let benefit := match reserve, awardedCost with
    | some r, some c => finiteOrNone (r.sub R.rnd c)
    | _, _ => none
  { shared := true
    ownerHaulierId := a.ownerHaulierId
    carrierHaulierId := a.carrierHaulierId
    benefitKm := benefit.map R.round3
    poolId := a.poolId
    awardedCostKm := awardedCost.map R.round3
    ownerReserveKm := reserve.map R.round3
    marketRound := a.round }

/-- The pairs and the share tags of the awards; an award on an unknown truck or order is skipped. -/
def account (committed : List String) :
    List Award → List Pair × Dict (String × String) ShareTag →
      Except TickError (List Pair × Dict (String × String) ShareTag)
  | [], acc => .ok acc
  | a :: as, acc =>
    match fb.trucksById.get? a.truckId, fb.ordersById.get? a.orderId with
    | some t, some o =>
      if a.ownerHaulierId = some a.carrierHaulierId then
        account committed as (acc.1 ++ [(t, o)], acc.2)
      else
        match ownerReserveKm o committed ctx.pairAllowedOwn ctx.cost
            (fb.trucksOf (a.ownerHaulierId.getD "")) none with
        | .error e => .error e
        | .ok reserve =>
          account committed as
            (acc.1 ++ [(t, o)], acc.2.set (a.truckId, a.orderId) (shareTag R a reserve))
    | _, _ => account committed as acc

/-- The closing assertions I-P1, I-P2 and I-P3, over the awards. -/
def closingAssertions (awards : List Award) : Except TickError Unit :=
  if ¬ ∀ a ∈ awards, a.orderId ∈ fb.inputOrderIds then
    .error (.assertion "I-P1: awarded an unknown order")
  else if ¬ (awards.map Award.orderId).Nodup then
    .error (.assertion "I-P2: order awarded twice")
  else if ¬ (awards.map Award.truckId).Nodup then
    .error (.assertion "I-P2: truck awarded twice")
  else if ¬ ∀ a ∈ awards, a.ownerHaulierId = fb.ownerOf a.orderId then
    .error (.assertion "I-P3: award owner diverged from the order's owner")
  else .ok ()

/-! ## The tick -/

/-- What a tick returns, and the market it leaves behind. -/
structure PooledMarketResult where
  assignment : List Pair
  shareTags : Dict (String × String) ShareTag
  roundsUsed : ℤ
  converged : Bool
  candidatePairsRound1 : ℕ
  candidatePairsTotal : ℕ
  market : PoolMarket

/-- The bidding rounds of a tick, after the contributions. -/
def tickRounds (pools : List Pool) (s : σ) : Except TickError (TickState σ) :=
  playRounds R ctx fb (maxRounds ctx).toNat 1
    { market := (contributeAll ctx fb (PoolMarket.init pools) s).1
      rng := (contributeAll ctx fb (PoolMarket.init pools) s).2 }

/-- Run one tick on the market of a list of pools. -/
def runPooledMarket (pools : List Pool) (s : σ) : Except TickError PooledMarketResult :=
  match tickRounds R ctx fb pools s with
  | .error e => .error e
  | .ok st =>
    match account R ctx fb (st.market.awards.map Award.truckId) st.market.awards
        ([], Dict.empty) with
    | .error e => .error e
    | .ok acc =>
      match closingAssertions fb st.market.awards with
      | .error e => .error e
      | .ok () =>
        .ok { assignment := acc.1
              shareTags := acc.2
              roundsUsed := st.roundsUsed
              converged := st.converged
              candidatePairsRound1 := st.candidatePairsRound1
              candidatePairsTotal := st.candidatePairsTotal
              market := st.market }

end Planner

end OpenRide.Assignment
