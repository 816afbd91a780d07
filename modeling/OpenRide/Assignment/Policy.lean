import OpenRide.Assignment.Solver

/-!
# Offer and claim policies

A policy is a company's own decision and is handed to the planner as a callable: any function of
the request, which may raise and may carry state of its own in the `σ` it is given.  An offer
policy says which own orders go into which pools; a claim policy turns the pairs the company
planned on contested orders into bids.

Of the registered policies `OfferAll` and the three that claim are below.  Of the claim policies the
planner needs one fact, that each of their bids is on a pair of the request, in the name of the
company asked (`ClaimPolicy.Faithful`); an arbitrary claim policy need not satisfy it.
-/

namespace OpenRide.Assignment

open Lib

/-! ## The two contracts -/

/-- What an offer policy is asked. -/
structure OfferRequest where
  haulierId : String
  orders : List Order
  trucks : List Truck
  pools : List Pool
  cost : Cost

/-- An offer policy: order id to pool ids, or something that is not a dictionary. -/
abbrev OfferPolicy (σ : Type) :=
  OfferRequest → σ → Except PyExc (Option (Dict String (List String))) × σ

/-- What a claim policy is asked. -/
structure ClaimRequest where
  haulierId : String
  pooledPairs : List Pair
  ownPairs : List Pair
  cost : Cost
  market : PoolMarket
  round : ℤ

/-- A claim policy: the bids it returns. -/
abbrev ClaimPolicy (σ : Type) := ClaimRequest → σ → Except PyExc (List Bid) × σ

/-! ## Offer policies -/

/-- The orders a company may contribute: those with an id, unless they name another company. -/
def ownOrders (haulierId : String) (orders : List Order) : List (String × Order) :=
  orders.filterMap fun o ↦
    match o.id with
    | none => none
    | some "" => none
    | some oid => if o.haulier ≠ none ∧ o.haulier ≠ some haulierId then none else some (oid, o)

/-- The pool ids of a request, sorted. -/
def sortedPoolIds (pools : List Pool) : List String := sortedBy id (pools.map Pool.id)

/-- Every own order into every own pool. -/
def offerAll {σ : Type} : OfferPolicy σ := fun r s ↦
  if (sortedPoolIds r.pools).isEmpty then (.ok (some Dict.empty), s) else
    (.ok (some (Dict.ofList ((ownOrders r.haulierId r.orders).map fun p ↦
      (p.1, sortedPoolIds r.pools)))), s)

/-! ## Claim policies -/

/-- The ids of a pair, when both are usable. -/
def pairIds (p : Pair) : Option (String × String) :=
  match p.1.id, p.2.id with
  | some tid, some oid => if tid = "" ∨ oid = "" then none else some (tid, oid)
  | _, _ => none

/-- A cost for bidding: infinite when the cost raises. -/
def bidCost (cost : Cost) (t : Truck) (o : Order) : Double :=
  match floatCost cost t o with
  | .ok c => c
  | .error _ => .posInf

/-- The bid of a company on a planned pair. -/
def bidOn (r : ClaimRequest) (p : Pair) : Option Bid :=
  (pairIds p).map fun ids ↦
    { haulierId := r.haulierId
      orderId := ids.2
      truckId := ids.1
      costKm := bidCost r.cost p.1 p.2
      poolId := r.market.poolOfOrder ids.2 r.haulierId
      round := r.round }

/-- One bid for each planned pair. -/
def claimAllPlanned {σ : Type} : ClaimPolicy σ := fun r s ↦
  (.ok (r.pooledPairs.filterMap (bidOn r)), s)

/-- No bids. -/
def claimNone {σ : Type} : ClaimPolicy σ := fun _ s ↦ (.ok [], s)

/-- The least own cost of a truck over the own orders of a request. -/
def bestOwn (cost : Cost) (t : Truck) (ownOrders : List Order) : Double :=
  ownOrders.foldl (fun best o ↦
    let c := bidCost cost t o
    if c.lt best then c else best) .posInf

/-- A bid only where it beats the best own use of the truck by `min_gain_km`. -/
def claimIfGainExceeds {σ : Type} (rnd : ℚ → Double) (minGainKm : Double := .fin 0) :
    ClaimPolicy σ := fun r s ↦
  let own := r.ownPairs.map Prod.snd
  let worth := fun p : Pair ↦
    let gain := if own.isEmpty then .posInf
      else (bestOwn r.cost p.1 own).sub rnd (bidCost r.cost p.1 p.2)
    !gain.lt minGainKm
  (.ok ((r.pooledPairs.filter worth).filterMap (bidOn r)), s)

/-- A claim policy of the registry. -/
inductive ClaimPolicy.Registered {σ : Type} (rnd : ℚ → Double) : ClaimPolicy σ → Prop
  | claimAllPlanned : Registered rnd claimAllPlanned
  | claimNone : Registered rnd claimNone
  | claimIfGainExceeds (minGainKm : Double) : Registered rnd (claimIfGainExceeds rnd minGainKm)

/-! ## Registered claim policies bid on what was planned -/

/-- Every bid is on a planned pair, in the name of the company asked. -/
def ClaimPolicy.Faithful {σ : Type} (claim : ClaimPolicy σ) : Prop :=
  ∀ r s bids s', claim r s = (.ok bids, s') → ∀ b ∈ bids, ∃ p ∈ r.pooledPairs, bidOn r p = some b

theorem bidOn_eq_some {r : ClaimRequest} {p : Pair} {b : Bid} (h : bidOn r p = some b) :
    b.haulierId = r.haulierId ∧ b.truckId = p.1.entityId ∧ b.orderId = p.2.entityId := by
  rw [bidOn, Option.map_eq_some_iff] at h
  obtain ⟨ids, hids, rfl⟩ := h
  rw [pairIds] at hids
  split at hids
  · next tid oid ht ho =>
    split at hids
    · cases hids
    · rw [← Option.some_inj.mp hids]
      exact ⟨rfl, by rw [Truck.entityId, ht]; rfl, by rw [Order.entityId, ho]; rfl⟩
  · cases hids

theorem ClaimPolicy.Registered.faithful {σ : Type} {rnd : ℚ → Double} {claim : ClaimPolicy σ}
    (h : claim.Registered rnd) : claim.Faithful := by
  intro r s bids s' he b hb
  cases h with
  | claimAllPlanned =>
    rw [← Except.ok.inj (Prod.mk.inj he).1] at hb
    obtain ⟨p, hp, hpb⟩ := List.mem_filterMap.mp hb
    exact ⟨p, hp, hpb⟩
  | claimNone =>
    rw [← Except.ok.inj (Prod.mk.inj he).1] at hb
    exact absurd hb List.not_mem_nil
  | claimIfGainExceeds minGainKm =>
    rw [← Except.ok.inj (Prod.mk.inj he).1] at hb
    obtain ⟨p, hp, hpb⟩ := List.mem_filterMap.mp hb
    exact ⟨p, (List.mem_filter.mp hp).1, hpb⟩

theorem exists_bidOn {r : ClaimRequest} {p : Pair} {tid oid : String} (ht : p.1.id = some tid)
    (ho : p.2.id = some oid) (ht' : tid ≠ "") (ho' : oid ≠ "") : ∃ b, bidOn r p = some b := by
  have hids : pairIds p = some (tid, oid) := by
    rw [pairIds, ht, ho]
    exact if_neg (not_or.mpr ⟨ht', ho'⟩)
  rw [bidOn, hids]
  exact ⟨_, rfl⟩

end OpenRide.Assignment
