import OpenRide.Assignment.CandidateParity

/-!
# The pooled topology without pools

Without a pool nothing is contributed, every plan is of own orders, and every planned pair is
committed on the spot.  A round is then one greedy solve for each haulier over its own trucks and
orders, and what it commits is a greedy matching of all their candidates (`GreedyAssignment`).
With finite costs that differ pairwise there is just one, so the partitioned planner, which solves
once for each bucket, returns the pairs of the *first* round.

The pooled planner goes on.  It builds its index again over what is left, and trucks that the cap
had kept out of the first index may now be in it.  Its later rounds are empty exactly when the
greedy matching leaves no haulier with a candidate (`SettledAtOnce`); with `zero_pools_iff` the two
topologies agree exactly then, or when the market is cut off after one round.
-/

namespace OpenRide.Assignment

open Lib Datagen PoolMarket

/-! ## Documents and their ids -/

/-- New ids stay distinct when what they belong to is told apart by another key. -/
theorem nodup_map_of_key {α β γ δ : Type} {f : α → β} {id : β → γ} {key : β → δ} {l : List α}
    (hl : (l.map fun a ↦ key (f a)).Nodup)
    (hinj : ∀ a ∈ l, ∀ b ∈ l, id (f a) = id (f b) → f a = f b) :
    (l.map fun a ↦ id (f a)).Nodup := by
  refine hl.of_map.map_on fun a ha b hb hab ↦ ?_
  exact List.inj_on_of_nodup_map hl ha hb (congrArg key (hinj a ha b hb hab))

/-! ## Own candidates and what is left of them -/

/-- The cost a candidate is ranked by. -/
def AssignmentProfile.costKey (P : AssignmentProfile) (p : Pair) : WithTop ℚ :=
  (P.assignmentCost p.1 p.2).rank

/-- The capped candidates of one haulier over its own trucks and orders. -/
def haulierPairs (P : AssignmentProfile) (trucks : List Truck) (orders : List Order) (h : String) :
    List Pair :=
  iterCandidatePairs P.facilityCenter P.spatialParams (trucks.filter fun t ↦ t.haulier = some h)
    (orders.filter fun o ↦ o.haulier = some h) P.pairAllowed

/-- The capped candidates of all hauliers. -/
def ownCandidates (P : AssignmentProfile) (trucks : List Truck) (orders : List Order) : Set Pair :=
  {p | ∃ h, p ∈ haulierPairs P trucks orders h}

/-- `M` is a greedy matching of `C`, by cost. -/
abbrev AssignmentProfile.Greedy (P : AssignmentProfile) (C M : Set Pair) : Prop :=
  GreedyMatching (fun p : Pair ↦ p.1.id) (fun p ↦ p.2.id) P.costKey C M

/-- The pairs are a greedy matching of the capped candidates, by cost. -/
def GreedyAssignment (P : AssignmentProfile) (trucks : List Truck) (orders : List Order)
    (pairs : List Pair) : Prop :=
  GreedyMatching (fun p : Pair ↦ p.1.id) (fun p ↦ p.2.id) P.costKey
    (ownCandidates P trucks orders) {p | p ∈ pairs}

/-- The trucks that pairs do not use. -/
def leftTrucks (pairs : List Pair) (trucks : List Truck) : List Truck :=
  trucks.filter fun t ↦ t.entityId ∉ pairs.map fun p ↦ p.1.entityId

/-- The orders that pairs do not serve. -/
def leftOrders (pairs : List Pair) (orders : List Order) : List Order :=
  orders.filter fun o ↦ o.entityId ∉ pairs.map fun p ↦ p.2.entityId

/-- An index over what pairs leave finds no candidate for anyone. -/
def NothingLeft (P : AssignmentProfile) (trucks : List Truck) (orders : List Order)
    (pairs : List Pair) : Prop :=
  ∀ h, haulierPairs P (leftTrucks pairs trucks) (leftOrders pairs orders) h = []

/-- A greedy matching of the capped candidates leaves none behind. -/
def SettledAtOnce (P : AssignmentProfile) (trucks : List Truck) (orders : List Order) : Prop :=
  ∀ pairs, GreedyAssignment P trucks orders pairs → NothingLeft P trucks orders pairs

section Candidates

variable {P : AssignmentProfile} {trucks : List Truck} {orders : List Order}

theorem mem_haulierPairs {h : String} {p : Pair} : p ∈ haulierPairs P trucks orders h ↔
    (p.2 ∈ orders ∧ p.2.haulier = some h) ∧
      p.1 ∈ (reached P.facilityCenter P.spatialParams
        (trucks.filter fun t ↦ t.haulier = some h) p.2).take P.spatialParams.perOrder ∧
      P.pairAllowed p.1 p.2 = true := by
  rw [haulierPairs, mem_iterCandidatePairs_iff, List.mem_filter, decide_eq_true_eq]

/-- A truck in reach among those of a haulier is one of it. -/
theorem haulier_of_mem_take {h : String} {t : Truck} {o : Order} {n : ℕ}
    (ht : t ∈ (reached P.facilityCenter P.spatialParams
      (trucks.filter fun t ↦ t.haulier = some h) o).take n) : t.haulier = some h :=
  of_decide_eq_true (List.mem_filter.mp (mem_reached.mp (List.mem_of_mem_take ht)).1).2

theorem truck_of_mem_haulierPairs {h : String} {p : Pair}
    (hp : p ∈ haulierPairs P trucks orders h) :
    p.1 ∈ trucks ∧ p.1.haulier = some h := by
  obtain ⟨-, ht, -⟩ := mem_haulierPairs.mp hp
  simpa using (mem_reached.mp (List.mem_of_mem_take ht)).1

theorem order_of_mem_haulierPairs {h : String} {p : Pair}
    (hp : p ∈ haulierPairs P trucks orders h) :
    p.2 ∈ orders ∧ p.2.haulier = some h :=
  (mem_haulierPairs.mp hp).1

theorem mem_leftTrucks {pairs : List Pair} {t : Truck} : t ∈ leftTrucks pairs trucks ↔
    t ∈ trucks ∧ t.entityId ∉ pairs.map fun p ↦ p.1.entityId := by
  rw [leftTrucks, List.mem_filter, decide_eq_true_eq]

theorem mem_leftOrders {pairs : List Pair} {o : Order} : o ∈ leftOrders pairs orders ↔
    o ∈ orders ∧ o.entityId ∉ pairs.map fun p ↦ p.2.entityId := by
  rw [leftOrders, List.mem_filter, decide_eq_true_eq]

theorem ownCandidates_finite : (ownCandidates P trucks orders).Finite := by
  refine (List.finite_toSet (trucks ×ˢ orders)).subset fun p ⟨h, hp⟩ ↦ ?_
  exact List.mem_product.mpr ⟨(truck_of_mem_haulierPairs hp).1, (order_of_mem_haulierPairs hp).1⟩

/-- Candidates of different hauliers share no document. -/
theorem haulier_eq_of_shared (ht : (trucks.map Truck.entityId).Nodup)
    (ho : (orders.map Order.entityId).Nodup) {h g : String} {p q : Pair}
    (hp : p ∈ haulierPairs P trucks orders h) (hq : q ∈ haulierPairs P trucks orders g)
    (hend : p.1.id = q.1.id ∨ p.2.id = q.2.id) : h = g := by
  rcases hend with hid | hid
  · obtain ⟨hpt, hph⟩ := truck_of_mem_haulierPairs hp
    obtain ⟨hqt, hqg⟩ := truck_of_mem_haulierPairs hq
    have hsame := List.inj_on_of_nodup_map ht hpt hqt (congrArg entityId hid)
    exact Option.some_inj.mp (hph.symm.trans (hsame ▸ hqg))
  · obtain ⟨hpo, hph⟩ := order_of_mem_haulierPairs hp
    obtain ⟨hqo, hqg⟩ := order_of_mem_haulierPairs hq
    have hsame := List.inj_on_of_nodup_map ho hpo hqo (congrArg entityId hid)
    exact Option.some_inj.mp (hph.symm.trans (hsame ▸ hqg))

/-- The costs of the pairs of a tick are finite, and no two are equal. -/
structure DistinctCosts (P : AssignmentProfile) (trucks : List Truck) (orders : List Order) :
    Prop where
  finite : ∀ t ∈ trucks, ∀ o ∈ orders, (P.assignmentCost t o).isFinite = true
  distinct : ∀ t ∈ trucks, ∀ o ∈ orders, ∀ t' ∈ trucks, ∀ o' ∈ orders,
    P.assignmentCost t o = P.assignmentCost t' o' → t = t' ∧ o = o'

theorem DistinctCosts.injOn (hd : DistinctCosts P trucks orders) :
    Set.InjOn P.costKey (ownCandidates P trucks orders) := by
  rintro p ⟨h, hp⟩ q ⟨g, hq⟩ hkey
  obtain ⟨hpt, hpo⟩ := And.intro (truck_of_mem_haulierPairs hp).1 (order_of_mem_haulierPairs hp).1
  obtain ⟨hqt, hqo⟩ := And.intro (truck_of_mem_haulierPairs hq).1 (order_of_mem_haulierPairs hq).1
  have hcost : P.assignmentCost p.1 p.2 = P.assignmentCost q.1 q.2 := by
    have hpf := hd.finite _ hpt _ hpo
    have hqf := hd.finite _ hqt _ hqo
    rw [AssignmentProfile.costKey, AssignmentProfile.costKey] at hkey
    cases hc : P.assignmentCost p.1 p.2 <;> rw [hc] at hpf hkey <;> try cases hpf
    cases hc' : P.assignmentCost q.1 q.2 <;> rw [hc'] at hqf hkey <;> try cases hqf
    exact congrArg Double.fin (WithTop.coe_injective hkey)
  obtain ⟨h1, h2⟩ := hd.distinct _ hpt _ hpo _ hqt _ hqo hcost
  exact Prod.ext h1 h2

/-- **There is one greedy assignment.** -/
theorem GreedyAssignment.unique (hd : DistinctCosts P trucks orders) {pairs pairs' : List Pair}
    (h : GreedyAssignment P trucks orders pairs) (h' : GreedyAssignment P trucks orders pairs')
    (p : Pair) : p ∈ pairs ↔ p ∈ pairs' :=
  Set.ext_iff.mp (GreedyMatching.unique ownCandidates_finite hd.injOn h h') p

end Candidates

theorem GreedyAssignment.eq_nil_iff {P : AssignmentProfile} {trucks : List Truck}
    {orders : List Order} {pairs : List Pair} (h : GreedyAssignment P trucks orders pairs) :
    pairs = [] ↔ ∀ g, haulierPairs P trucks orders g = [] := by
  constructor
  · rintro rfl g
    refine List.eq_nil_iff_forall_not_mem.mpr fun p hp ↦ ?_
    obtain ⟨m, hm, -⟩ := h.blocked p ⟨g, hp⟩
    exact absurd hm List.not_mem_nil
  · intro hnone
    refine List.eq_nil_iff_forall_not_mem.mpr fun p hp ↦ ?_
    obtain ⟨g, hg⟩ := h.subset hp
    exact absurd (hnone g ▸ hg) List.not_mem_nil

/-! ## The greedy solve -/

section Solve

variable {σ : Type} (R : Runtime σ) (P : AssignmentProfile)

theorem floatCost_cost (t : Truck) (o : Order) :
    floatCost P.cost t o = .ok (P.assignmentCost t o) := rfl

theorem cost_total : P.cost.Total := fun t o ↦ ⟨_, floatCost_cost P t o⟩

/-- What `GreedyNearest` returns, with a tie-break seed or without: a greedy matching, each end
once. With a seed the generator is left alone. -/
theorem greedySolvePairs_greedy (seed : Option ℤ) (pairs : List Pair) (s : σ) :
    ∃ plan s', greedySolvePairs R seed pairs P.cost s = (.ok plan, s') ∧
      (seed.isSome = true → s' = s) ∧
      (plan.map fun p ↦ p.1.id).Nodup ∧ (plan.map fun p ↦ p.2.id).Nodup ∧
      P.Greedy {p | p ∈ pairs} {p | p ∈ plan} := by
  obtain ⟨rs, hrs⟩ := (cost_total P).scoreAll pairs
  have hkey : ∀ r ∈ rs, r.cost = P.costKey r.pair := by
    intro r hr
    have hscore := score_cost_eq (cost_total P) (mem_scoreAll hrs hr)
    exact (Option.some_inj.mp hscore).symm
  have hsorted : (greedyOrder R seed rs s).1.Pairwise fun a b ↦ P.costKey a.pair ≤
    P.costKey b.pair := by
    have hcost : (greedyOrder R seed rs s).1.Pairwise fun a b ↦ a.cost ≤ b.cost := by
      cases seed with
      | none =>
        exact (sortedBy_pairwise (fun r : Scored ↦ toLex (r.cost, r.missing)) _).imp
          fun hab ↦ Prod.Lex.monotone_fst_ofLex hab
      | some seed =>
        exact (sortedBy_pairwise (fun r : Scored ↦ toLex (r.cost, toLex (r.missing,
          pairTiebreak R seed r.pair.2.entityId r.pair.1.entityId))) rs).imp
          fun hab ↦ Prod.Lex.monotone_fst_ofLex hab
    refine hcost.imp_of_mem fun {a b} ha hb hab ↦ ?_
    rw [← hkey a ((greedyOrder_perm R seed rs s).mem_iff.mp ha),
      ← hkey b ((greedyOrder_perm R seed rs s).mem_iff.mp hb)]
    exact hab
  have hmatch := sweep_greedyMatching (fun r : Scored ↦ r.pair.1.id) (fun r ↦ r.pair.2.id) hsorted
  have himage := @GreedyMatching.image Pair (Option String) (Option String) _ _
    (fun p ↦ p.1.id) (fun p ↦ p.2.id) P.costKey Scored Scored.pair _ _ _ hmatch fun _ _ ↦ rfl
  have hnodup := sweepFrom_nodup (fun r : Scored ↦ r.pair.1.id) (fun r ↦ r.pair.2.id) [] []
    (greedyOrder R seed rs s).1
  have hC : Scored.pair '' {r | r ∈ (greedyOrder R seed rs s).1} = {p | p ∈ pairs} := by
    rw [← scoreAll_pair hrs]
    ext p
    simp only [Set.mem_image, Set.mem_ofPred_eq, (greedyOrder_perm R seed rs s).mem_iff,
      List.mem_map]
  have hrun : ∃ s', greedySolvePairs R seed pairs P.cost s =
      (.ok ((sweep (fun r : Scored ↦ r.pair.1.id) (fun r ↦ r.pair.2.id)
        (greedyOrder R seed rs s).1).map Scored.pair), s') ∧ (seed.isSome = true → s' = s) := by
    rw [greedySolvePairs, hrs]
    cases rs with
    | nil =>
      rw [List.perm_nil.mp (greedyOrder_perm R seed [] s)]
      exact ⟨s, rfl, fun _ ↦ rfl⟩
    | cons r rs =>
      refine ⟨_, rfl, fun hs ↦ ?_⟩
      obtain ⟨k, rfl⟩ := Option.isSome_iff_exists.mp hs
      rfl
  obtain ⟨s', hs', hsame⟩ := hrun
  refine ⟨_, s', hs', hsame, ?_, ?_, ?_⟩
  · rw [List.map_map]
    exact hnodup.1
  · rw [List.map_map]
    exact hnodup.2
  · rw [hC] at himage
    have hM : Scored.pair '' {r | r ∈ sweep (fun r : Scored ↦ r.pair.1.id) (fun r ↦ r.pair.2.id)
        (greedyOrder R seed rs s).1} = {p | p ∈ (sweep (fun r : Scored ↦ r.pair.1.id)
          (fun r ↦ r.pair.2.id) (greedyOrder R seed rs s).1).map Scored.pair} := by
      ext p
      simp only [Set.mem_image, Set.mem_ofPred_eq, List.mem_map]
    exact hM ▸ himage

end Solve

/-! ## The market without pools -/

/-- A private commit: the company, the round and the pair. -/
structure Commitment where
  haulier : String
  round : ℤ
  pair : Pair

/-- The candidates of a haulier over what commits leave. -/
abbrev leftPairs (P : AssignmentProfile) (candidates : List Truck) (orders : List Order)
    (cs : List Commitment) (h : String) : List Pair :=
  haulierPairs P (leftTrucks (cs.map Commitment.pair) candidates)
    (leftOrders (cs.map Commitment.pair) orders) h

/-- The award a private commit is recorded as. -/
def Commitment.award (P : AssignmentProfile) (c : Commitment) : Award :=
  privateAward c.haulier c.round c.pair (P.assignmentCost c.pair.1 c.pair.2)

/-- A market without pools after some private commits. -/
def booked (P : AssignmentProfile) (cs : List Commitment) : PoolMarket :=
  { init [] with
    committedOrderIds := cs.map fun c ↦ c.pair.2.entityId
    committedTruckIds := cs.map fun c ↦ c.pair.1.entityId
    awards := cs.map (Commitment.award P) }

/-- The commits of a tick: each company uses its own trucks on its own orders, each once. -/
structure Lawful (candidates : List Truck) (orders : List Order) (cs : List Commitment) :
    Prop where
  truck : ∀ c ∈ cs, c.pair.1 ∈ candidates ∧ c.pair.1.haulier = some c.haulier
  order : ∀ c ∈ cs, c.pair.2 ∈ orders ∧ c.pair.2.haulier = some c.haulier
  trucks_nodup : (cs.map fun c ↦ c.pair.1.entityId).Nodup
  orders_nodup : (cs.map fun c ↦ c.pair.2.entityId).Nodup

section Booked

variable {P : AssignmentProfile} {cs : List Commitment} {candidates : List Truck}
  {orders : List Order}

theorem isOrderFree_booked {oid : String} : (booked P cs).isOrderFree oid = true ↔
    oid ∉ cs.map fun c ↦ c.pair.2.entityId := decide_eq_true_iff

theorem isContributed_booked (oid : String) : (booked P cs).isContributed oid = false := rfl

theorem commit_booked {c : Commitment} (ht : c.pair.1.entityId ∉ cs.map fun c ↦ c.pair.1.entityId)
    (ho : c.pair.2.entityId ∉ cs.map fun c ↦ c.pair.2.entityId) :
    (booked P cs).commit (c.award P) = (true, booked P (cs ++ [c])) := by
  have hfree : ¬ ((c.award P).orderId ∈ (booked P cs).committedOrderIds ∨
      (c.award P).truckId ∈ (booked P cs).committedTruckIds) := not_or.mpr ⟨ho, ht⟩
  rw [commit, if_neg hfree, booked, booked, List.map_append, List.map_append, List.map_append]
  rfl

theorem notMem_of_nodup_append {α β : Type} {f : α → β} {l l' : List α} {a : α}
    (h : ((l ++ a :: l').map f).Nodup) : f a ∉ l.map f := by
  rw [List.map_append, List.map_cons] at h
  exact fun hmem ↦ List.disjoint_of_nodup_append h hmem List.mem_cons_self

theorem commitPrivate_booked {σ : Type} {R : Runtime σ} {offer : OfferPolicy σ}
    {claim : ClaimPolicy σ} {arbitration : ArbitrationRule} {h : String} {rnd : ℤ}
    {plan : List Pair} (n : ℕ)
    (ht : ((cs ++ plan.map (Commitment.mk h rnd)).map fun c ↦ c.pair.1.entityId).Nodup)
    (ho : ((cs ++ plan.map (Commitment.mk h rnd)).map fun c ↦ c.pair.2.entityId).Nodup) :
    commitPrivate (pooledContext R P offer claim arbitration) h rnd plan (n, booked P cs) =
      .ok (n + plan.length, booked P (cs ++ plan.map (Commitment.mk h rnd))) := by
  induction plan generalizing n cs with
  | nil => rw [commitPrivate, List.map_nil, List.append_nil, List.length_nil, Nat.add_zero]
  | cons p plan ih =>
    rw [List.map_cons] at ht ho
    have hcommit : (booked P cs).commit (privateAward h rnd p (P.assignmentCost p.1 p.2)) =
        (true, booked P (cs ++ [⟨h, rnd, p⟩])) :=
      @commit_booked P cs ⟨h, rnd, p⟩
        (notMem_of_nodup_append (f := fun c : Commitment ↦ c.pair.1.entityId) ht)
        (notMem_of_nodup_append (f := fun c : Commitment ↦ c.pair.2.entityId) ho)
    have hcost : floatCost (pooledContext R P offer claim arbitration).cost p.1 p.2 =
        .ok (P.assignmentCost p.1 p.2) := rfl
    rw [List.append_cons] at ht ho
    rw [commitPrivate, hcost]
    dsimp only
    rw [hcommit, ih _ ht ho, List.length_cons, List.map_cons, ← List.append_cons,
      Bool.toNat_true, Nat.add_assoc, Nat.add_comm 1]

theorem freeTrucks_booked (h : String) :
    freeTrucks (fileByHaulier candidates orders) (booked P cs) h =
      (leftTrucks (cs.map Commitment.pair) candidates).filter fun t ↦ t.haulier = some h := by
  rw [freeTrucks, trucksOf_fileByHaulier, leftTrucks, List.filter_filter, List.filter_filter]
  refine List.filter_congr fun t _ ↦ ?_
  rw [Bool.and_comm, List.map_map]
  rfl

theorem flatMap_freeTrucks_booked (h : String) :
    (SortedSet.ofList [h]).toList.flatMap
      (freeTrucks (fileByHaulier candidates orders) (booked P cs)) =
        (leftTrucks (cs.map Commitment.pair) candidates).filter fun t ↦ t.haulier = some h := by
  rw [← freeTrucks_booked]
  exact List.append_nil _

theorem mem_freeOrders_booked (hfb : (fileByHaulier candidates orders).WellFiled) {o : Order} :
    o ∈ freeOrders (fileByHaulier candidates orders) (booked P cs) ↔
      o ∈ leftOrders (cs.map Commitment.pair) orders ∧ ∃ h, o.haulier = some h := by
  rw [mem_freeOrders hfb, mem_leftOrders, isOrderFree_booked, List.map_map]
  simp only [mem_ordersOf_fileByHaulier]
  constructor
  · rintro ⟨⟨h, ho, hh⟩, hf⟩
    exact ⟨⟨ho, hf⟩, h, hh⟩
  · rintro ⟨⟨ho, hf⟩, h, hh⟩
    exact ⟨⟨h, ho, hh⟩, hf⟩

theorem carriersOf_booked (hfb : (fileByHaulier candidates orders).WellFiled) {o : Order}
    {h : String} (ho : o ∈ orders) (hh : o.haulier = some h) :
    carriersOf (fileByHaulier candidates orders) (booked P cs) o = some (SortedSet.ofList [h]) := by
  have how := hfb.ownerOf_eq_some.mpr ⟨o, mem_ordersOf_fileByHaulier.mpr ⟨ho, hh⟩, rfl⟩
  rw [carriersOf, how]
  dsimp only
  rw [if_neg (haulierOf_ne_empty hh)]
  rfl

end Booked

/-! ## A round without pools -/

section Round

variable {σ : Type} (R : Runtime σ) {P : AssignmentProfile} (hu : P.useSpatial = true)
  (offer : OfferPolicy σ) (claim : ClaimPolicy σ) (arbitration : ArbitrationRule)
  {candidates : List Truck} {orders : List Order}
  (hfb : (fileByHaulier candidates orders).WellFiled)

theorem allowedForCarrier_own {t : Truck} {o : Order} {h : String} (ht : t.haulier = some h)
    (ho : o.haulier = some h) :
    allowedForCarrier (pooledContext R P offer claim arbitration) t o = P.pairAllowed t o := by
  rw [allowedForCarrier, ht]
  dsimp only
  rw [pairAllowedFor, if_pos ho]
  rfl

include hu hfb in
/-- **The candidates of a company are those over its own trucks and orders left.** -/
theorem mem_roundCandidates_booked {cs : List Commitment} {h : String} {p : Pair} :
    p ∈ ((roundCandidates (pooledContext R P offer claim arbitration)
        (fileByHaulier candidates orders) (booked P cs)).get? h).getD [] ↔
      p ∈ leftPairs P candidates orders cs h := by
  rw [roundCandidates, if_pos (usesSpatial_pooledContext R P claim arbitration hu offer),
    buildRoundCandidates, Dict.getD_groupBy, List.mem_filter, decide_eq_true_eq, List.mem_flatMap,
    mem_haulierPairs]
  simp only [groupCandidates, mem_iterCandidatePairs_iff, Dict.getD_groupBy, List.mem_filter,
    decide_eq_true_eq, mem_freeOrders_booked hfb]
  constructor
  · rintro ⟨⟨carriers, -, ⟨⟨ho, g, hg⟩, hc⟩, ht, ha⟩, hh⟩
    rw [carriersOf_booked hfb (mem_leftOrders.mp ho).1 hg, Option.some_inj] at hc
    rw [← hc, flatMap_freeTrucks_booked] at ht
    have hgt := haulier_of_mem_take ht
    obtain rfl := Option.some_inj.mp (hh.symm.trans hgt)
    rw [allowedForCarrier_own R offer claim arbitration hh hg] at ha
    exact ⟨⟨ho, hg⟩, ht, ha⟩
  · rintro ⟨⟨ho, hg⟩, ht, ha⟩
    have hgt := haulier_of_mem_take ht
    have hcarriers := @carriersOf_booked P cs _ _ hfb p.2 h (mem_leftOrders.mp ho).1 hg
    refine ⟨⟨SortedSet.ofList [h], ?_, ⟨⟨ho, h, hg⟩, hcarriers⟩, ?_, ?_⟩, hgt⟩
    · rw [mem_sortedBy, Dict.mem_keys_groupBy]
      exact ⟨p.2, (mem_freeOrders_booked hfb).mpr ⟨ho, h, hg⟩, hcarriers⟩
    · rw [flatMap_freeTrucks_booked]
      exact ht
    · rw [allowedForCarrier_own R offer claim arbitration hgt hg]
      exact ha

end Round

section Turns

variable {σ : Type} (R : Runtime σ) {P : AssignmentProfile} (hu : P.useSpatial = true)
  (offer : OfferPolicy σ) (claim : ClaimPolicy σ) (arbitration : ArbitrationRule)
  {candidates : List Truck} {orders : List Order}
  (ht : (candidates.map Truck.entityId).Nodup) (ho : (orders.map Order.entityId).Nodup)

/-- One end of the commits: a plan over what is left uses nothing again. -/
theorem nodup_append_plan {α : Type} {docs : List α} {id : α → String} {owner : α → Option String}
    (hdocs : (docs.map id).Nodup) {f : Pair → α} {cs done : List Commitment}
    (hold : ∀ c ∈ cs ++ done, f c.pair ∈ docs ∧ owner (f c.pair) = some c.haulier)
    (hnodup : ((cs ++ done).map fun c ↦ id (f c.pair)).Nodup) {h : String}
    (hdone : ∀ c ∈ done, c.haulier ≠ h) {rnd : ℤ} {plan : List Pair}
    (hnew : ∀ p ∈ plan, f p ∈ docs ∧ owner (f p) = some h ∧
      id (f p) ∉ (cs.map Commitment.pair).map fun p ↦ id (f p))
    (hplan : (plan.map fun p ↦ id (f p)).Nodup) :
    ((cs ++ done ++ plan.map (Commitment.mk h rnd)).map fun c ↦ id (f c.pair)).Nodup := by
  rw [List.map_append, List.map_map]
  refine hnodup.append hplan fun i hi hi' ↦ ?_
  obtain ⟨c, hc, hci⟩ := List.mem_map.mp hi
  obtain ⟨p, hp, hpi⟩ := List.mem_map.mp hi'
  obtain ⟨hpc, hph, hpl⟩ := hnew p hp
  have hid : id (f c.pair) = id (f p) := hci.trans hpi.symm
  rcases List.mem_append.mp hc with hcs | hdn
  · exact hpl (List.mem_map.mpr ⟨c.pair, List.mem_map_of_mem hcs, hid⟩)
  · have hsame := List.inj_on_of_nodup_map hdocs (hold c hc).1 hpc hid
    refine hdone c hdn (Option.some_inj.mp ?_)
    rw [← (hold c hc).2, hsame, hph]

include ht ho in
/-- The plan of a company that has not had its turn yet adds lawful commits. -/
theorem Lawful.append {cs done : List Commitment} (hlaw : Lawful candidates orders (cs ++ done))
    {h : String} (hdone : ∀ c ∈ done, c.haulier ≠ h) (rnd : ℤ) {plan : List Pair}
    (hplan : ∀ p ∈ plan, p ∈ leftPairs P candidates orders cs h)
    (htn : (plan.map fun p ↦ p.1.id).Nodup) (hon : (plan.map fun p ↦ p.2.id).Nodup) :
    Lawful candidates orders (cs ++ done ++ plan.map (Commitment.mk h rnd)) := by
  have htruck : ∀ p ∈ plan, p.1 ∈ candidates ∧ p.1.haulier = some h ∧
      p.1.entityId ∉ (cs.map Commitment.pair).map fun p ↦ p.1.entityId := by
    intro p hp
    obtain ⟨hleft, hh⟩ := truck_of_mem_haulierPairs (hplan p hp)
    exact ⟨(mem_leftTrucks.mp hleft).1, hh, (mem_leftTrucks.mp hleft).2⟩
  have horder : ∀ p ∈ plan, p.2 ∈ orders ∧ p.2.haulier = some h ∧
      p.2.entityId ∉ (cs.map Commitment.pair).map fun p ↦ p.2.entityId := by
    intro p hp
    obtain ⟨hleft, hh⟩ := order_of_mem_haulierPairs (hplan p hp)
    exact ⟨(mem_leftOrders.mp hleft).1, hh, (mem_leftOrders.mp hleft).2⟩
  refine ⟨fun c hc ↦ ?_, fun c hc ↦ ?_, ?_, ?_⟩
  · rcases List.mem_append.mp hc with hc | hc
    · exact hlaw.truck c hc
    · obtain ⟨p, hp, rfl⟩ := List.mem_map.mp hc
      exact ⟨(htruck p hp).1, (htruck p hp).2.1⟩
  · rcases List.mem_append.mp hc with hc | hc
    · exact hlaw.order c hc
    · obtain ⟨p, hp, rfl⟩ := List.mem_map.mp hc
      exact ⟨(horder p hp).1, (horder p hp).2.1⟩
  · exact nodup_append_plan ht hlaw.truck hlaw.trucks_nodup hdone htruck
      (nodup_map_of_key (f := Prod.fst) htn fun p hp q hq ↦
        List.inj_on_of_nodup_map ht (htruck p hp).1 (htruck q hq).1)
  · exact nodup_append_plan ho hlaw.order hlaw.orders_nodup hdone horder
      (nodup_map_of_key (f := Prod.snd) hon fun p hp q hq ↦
        List.inj_on_of_nodup_map ho (horder p hp).1 (horder q hq).1)

include hu in
/-- A company with prebuilt pairs solves them; without any its plan is empty. -/
theorem solveCompany_pooledContext {trucks : List Truck} {os : List Order} {rule : PairAllowed}
    {pairs plan : List Pair} {s : σ}
    (hplan : greedySolvePairs R (some P.tickSeed) pairs P.cost s = (.ok plan, s))
    (hsub : ∀ p ∈ plan, p ∈ pairs) :
    solveCompany R (pooledContext R P offer claim arbitration) trucks os rule pairs s =
      (.ok plan, s) := by
  have hsp : (if (pooledContext R P offer claim arbitration).useSpatial then
      (pooledContext R P offer claim arbitration).solver.solvePairs else none) =
        some fun pairs cost s ↦ greedySolvePairs R (some P.tickSeed) pairs cost s := by
    rw [pooledContext, hu]
    rfl
  rw [solveCompany, hsp]
  dsimp only
  split
  · next hempty =>
    rw [List.isEmpty_iff] at hempty
    have hnil : plan = [] := List.eq_nil_iff_forall_not_mem.mpr fun p hp ↦
      List.not_mem_nil (hempty ▸ hsub p hp)
    rw [hnil]
  · exact hplan

include ht ho in
/-- Without pools a plan is all private, and all of it is committed. -/
theorem actOnPlan_booked {cs : List Commitment} {h : String} {rnd : ℤ} {plan : List Pair}
    (hlaw : Lawful candidates orders (cs ++ plan.map (Commitment.mk h rnd))) {st : TurnState σ}
    (hst : st.market = booked P cs) :
    actOnPlan (pooledContext R P offer claim arbitration) (fileByHaulier candidates orders) h rnd
        plan st =
      .ok { st with
        market := booked P (cs ++ plan.map (Commitment.mk h rnd))
        privateCommits := st.privateCommits + plan.length } := by
  have hown : ∀ p ∈ plan, isOwnPair (fileByHaulier candidates orders) h p = true := by
    intro p hp
    obtain ⟨hpo, hph⟩ := hlaw.order ⟨h, rnd, p⟩
      (List.mem_append_right _ (List.mem_map_of_mem hp))
    exact decide_eq_true ((fileByHaulier_wellFiled ht ho).ownerOf_eq_some.mpr
      ⟨p.2, mem_ordersOf_fileByHaulier.mpr ⟨hpo, hph⟩, rfl⟩)
  have hprivate : ownPrivatePairs (fileByHaulier candidates orders) st.market h plan = plan := by
    refine List.filter_eq_self.mpr fun p hp ↦ ?_
    rw [hown p hp, hst, isContributed_booked]
    rfl
  have hcontributed : ownContributedPairs (fileByHaulier candidates orders) st.market h plan =
      [] := by
    refine List.filter_eq_nil_iff.mpr fun p hp ↦ ?_
    rw [hst, isContributed_booked, Bool.and_false]
    exact Bool.false_ne_true
  have hforeign : foreignPairs (fileByHaulier candidates orders) h plan = [] := by
    refine List.filter_eq_nil_iff.mpr fun p hp ↦ ?_
    rw [hown p hp]
    exact Bool.false_ne_true
  rw [actOnPlan, hprivate, hcontributed, hforeign, hst]
  dsimp only
  rw [commitPrivate_booked _ hlaw.trucks_nodup hlaw.orders_nodup]
  dsimp only
  rw [claimBids, claimRequest]
  simp

include hu ht ho in
/-- **A company's turn** commits a greedy matching of its candidates. -/
theorem companyTurn_booked {cs done : List Commitment}
    (hlaw : Lawful candidates orders (cs ++ done)) {h : String}
    (hdone : ∀ c ∈ done, c.haulier ≠ h) (rnd : ℤ) {st : TurnState σ}
    (hst : st.market = booked P (cs ++ done)) :
    ∃ plan : List Pair, companyTurn R (pooledContext R P offer claim arbitration)
        (fileByHaulier candidates orders) (booked P cs)
        (roundCandidates (pooledContext R P offer claim arbitration)
          (fileByHaulier candidates orders) (booked P cs)) rnd h st =
        .ok { st with
          market := booked P (cs ++ done ++ plan.map (Commitment.mk h rnd))
          privateCommits := st.privateCommits + plan.length } ∧
      Lawful candidates orders (cs ++ done ++ plan.map (Commitment.mk h rnd)) ∧
      P.Greedy {p | p ∈ leftPairs P candidates orders cs h} {p | p ∈ plan} := by
  have hfb := fileByHaulier_wellFiled ht ho
  obtain ⟨plan, s', hplan, hs, htn, hon, hgreedy⟩ := greedySolvePairs_greedy R P (some P.tickSeed)
    (((roundCandidates (pooledContext R P offer claim arbitration)
      (fileByHaulier candidates orders) (booked P cs)).get? h).getD []) st.rng
  obtain rfl := hs rfl
  have hset : {p | p ∈ ((roundCandidates (pooledContext R P offer claim arbitration)
      (fileByHaulier candidates orders) (booked P cs)).get? h).getD []} =
        {p | p ∈ leftPairs P candidates orders cs h} :=
    Set.ext fun p ↦ mem_roundCandidates_booked R hu offer claim arbitration hfb
  have hsub : ∀ p ∈ plan, p ∈ leftPairs P candidates orders cs h :=
    fun p hp ↦ (hset ▸ hgreedy).subset hp
  have hlaw' := hlaw.append ht ho hdone rnd hsub htn hon
  refine ⟨plan, ?_, hlaw', hset ▸ hgreedy⟩
  rw [companyTurn]
  split
  · next hempty =>
    have hnil : plan = [] := by
      refine List.eq_nil_iff_forall_not_mem.mpr fun p hp ↦ ?_
      rw [Bool.or_eq_true, List.isEmpty_iff, List.isEmpty_iff] at hempty
      rcases hempty with hno | hno
      · obtain ⟨htl, hth⟩ := truck_of_mem_haulierPairs (hsub p hp)
        have hmem : p.1 ∈ freeTrucks (fileByHaulier candidates orders) (booked P cs) h := by
          rw [freeTrucks_booked]
          exact List.mem_filter.mpr ⟨htl, decide_eq_true hth⟩
        exact List.not_mem_nil (hno ▸ hmem)
      · obtain ⟨hol, hoh⟩ := order_of_mem_haulierPairs (hsub p hp)
        have hmem : p.2 ∈ candidateOrders (fileByHaulier candidates orders) st.market h := by
          refine (mem_candidateOrders hfb).mpr ⟨?_, Or.inl (mem_ordersOf_fileByHaulier.mpr
            ⟨(mem_leftOrders.mp hol).1, hoh⟩)⟩
          rw [hst, isOrderFree_booked]
          have hnodup := hlaw'.orders_nodup
          rw [List.map_append, List.map_map] at hnodup
          exact fun hin ↦ List.disjoint_of_nodup_append hnodup hin
            (List.mem_map.mpr ⟨p, hp, rfl⟩)
        exact List.not_mem_nil (hno ▸ hmem)
    rw [hnil, List.map_nil, List.append_nil, ← hst, List.length_nil, Nat.add_zero]
  · rw [solveCompany_pooledContext R hu offer claim arbitration hplan
      fun p hp ↦ hgreedy.subset hp]
    exact actOnPlan_booked R offer claim arbitration ht ho hlaw' hst

include hu ht ho in
/-- **The turns of a round**, each company committing a greedy matching of its candidates. -/
theorem companyTurns_booked {cs : List Commitment} (rnd : ℤ) {hs : List String} (hn : hs.Nodup)
    {done : List Commitment} (hlaw : Lawful candidates orders (cs ++ done))
    (hdone : ∀ c ∈ done, c.haulier ∉ hs) {st : TurnState σ}
    (hst : st.market = booked P (cs ++ done)) :
    ∃ new : List Commitment, companyTurns R (pooledContext R P offer claim arbitration)
        (fileByHaulier candidates orders) (booked P cs)
        (roundCandidates (pooledContext R P offer claim arbitration)
          (fileByHaulier candidates orders) (booked P cs)) rnd hs st =
        .ok { st with
          market := booked P (cs ++ done ++ new)
          privateCommits := st.privateCommits + new.length } ∧
      Lawful candidates orders (cs ++ done ++ new) ∧ (∀ c ∈ new, c.haulier ∈ hs) ∧
      ∀ h ∈ hs, P.Greedy {p | p ∈ leftPairs P candidates orders cs h}
        {p | ∃ c ∈ new, c.haulier = h ∧ c.pair = p} := by
  induction hs generalizing done st with
  | nil =>
    refine ⟨[], ?_, ?_, fun c hc ↦ absurd hc List.not_mem_nil, fun h hh ↦
      absurd hh List.not_mem_nil⟩
    · rw [List.append_nil, ← hst]
      rfl
    · rw [List.append_nil]
      exact hlaw
  | cons h hs ih =>
    obtain ⟨hh, hn⟩ := List.nodup_cons.mp hn
    obtain ⟨plan, hturn, hlaw₁, hgreedy⟩ := companyTurn_booked R hu offer claim arbitration ht ho
      hlaw (fun c hc heq ↦ hdone c hc (heq ▸ List.mem_cons_self)) rnd hst
    have hplan : ∀ c ∈ plan.map (Commitment.mk h rnd), c.haulier = h := by
      intro c hc
      obtain ⟨p, -, rfl⟩ := List.mem_map.mp hc
      rfl
    rw [List.append_assoc] at hlaw₁ hturn
    have hst₁ : ({ st with
        market := booked P (cs ++ (done ++ plan.map (Commitment.mk h rnd)))
        privateCommits := st.privateCommits + plan.length } : TurnState σ).market =
          booked P (cs ++ (done ++ plan.map (Commitment.mk h rnd))) := rfl
    have hdone₁ : ∀ c ∈ done ++ plan.map (Commitment.mk h rnd), c.haulier ∉ hs := by
      intro c hc
      rcases List.mem_append.mp hc with hc | hc
      · exact fun hin ↦ hdone c hc (List.mem_cons_of_mem h hin)
      · exact hplan c hc ▸ hh
    obtain ⟨new, hturns, hlaw₂, hnew, hall⟩ := ih hn hlaw₁ hdone₁ hst₁
    refine ⟨plan.map (Commitment.mk h rnd) ++ new, ?_, ?_, fun c hc ↦ ?_, fun g hg ↦ ?_⟩
    · rw [companyTurns, hturn]
      dsimp only
      rw [hturns, List.length_append, List.length_map]
      simp only [List.append_assoc, Nat.add_assoc]
    · simpa only [List.append_assoc] using hlaw₂
    · rcases List.mem_append.mp hc with hc | hc
      · exact hplan c hc ▸ List.mem_cons_self
      · exact List.mem_cons_of_mem h (hnew c hc)
    · rcases List.mem_cons.mp hg with rfl | hg
      · have hset : {p | ∃ c ∈ plan.map (Commitment.mk g rnd) ++ new, c.haulier = g ∧ c.pair = p} =
            {p | p ∈ plan} := by
          refine Set.ext fun p ↦ ⟨?_, fun hp ↦ ?_⟩
          · rintro ⟨c, hc, hcg, rfl⟩
            rcases List.mem_append.mp hc with hc | hc
            · obtain ⟨p, hp, rfl⟩ := List.mem_map.mp hc
              exact hp
            · exact absurd (hcg ▸ hnew c hc) hh
          · exact ⟨⟨g, rnd, p⟩, List.mem_append_left _ (List.mem_map_of_mem hp), rfl, rfl⟩
        rw [hset]
        exact hgreedy
      · have hset : {p | ∃ c ∈ plan.map (Commitment.mk h rnd) ++ new, c.haulier = g ∧ c.pair = p} =
            {p | ∃ c ∈ new, c.haulier = g ∧ c.pair = p} := by
          refine Set.ext fun p ↦ ⟨?_, ?_⟩
          · rintro ⟨c, hc, hcg, rfl⟩
            rcases List.mem_append.mp hc with hc | hc
            · exact absurd (hplan c hc ▸ hcg ▸ hg) hh
            · exact ⟨c, hc, hcg, rfl⟩
          · rintro ⟨c, hc, hcg, rfl⟩
            exact ⟨c, List.mem_append_right _ hc, hcg, rfl⟩
        rw [hset]
        exact hall g hg

/-- What the companies commit, each greedily over its own candidates, is one greedy matching. -/
theorem greedyAssignment_of_companies {trucks : List Truck} {os : List Order}
    (hts : (trucks.map Truck.entityId).Nodup) (hos : (os.map Order.entityId).Nodup)
    {hs : List String} {new : List Commitment} (hnew : ∀ c ∈ new, c.haulier ∈ hs)
    (hall : ∀ h ∈ hs, P.Greedy {p | p ∈ haulierPairs P trucks os h}
      {p | ∃ c ∈ new, c.haulier = h ∧ c.pair = p})
    (hcover : ∀ h, ∀ p ∈ haulierPairs P trucks os h, h ∈ hs) :
    GreedyAssignment P trucks os (new.map Commitment.pair) := by
  have hunion := @GreedyMatching.iUnion Pair _ _ _ _ (fun p : Pair ↦ p.1.id) (fun p ↦ p.2.id)
    P.costKey String {h | h ∈ hs} _ _ hall
    fun h _ g _ p hp q hq hend ↦ haulier_eq_of_shared hts hos hp hq hend
  have hC : {p | ∃ h ∈ {h | h ∈ hs}, p ∈ {p | p ∈ haulierPairs P trucks os h}} =
      ownCandidates P trucks os := by
    refine Set.ext fun p ↦ ⟨?_, ?_⟩
    · rintro ⟨h, -, hp⟩
      exact ⟨h, hp⟩
    · rintro ⟨h, hp⟩
      exact ⟨h, hcover h p hp, hp⟩
  have hM : {p | ∃ h ∈ {h | h ∈ hs}, p ∈ {p | ∃ c ∈ new, c.haulier = h ∧ c.pair = p}} =
      {p | p ∈ new.map Commitment.pair} := by
    refine Set.ext fun p ↦ ⟨?_, fun hp ↦ ?_⟩
    · rintro ⟨h, -, c, hc, -, rfl⟩
      exact List.mem_map_of_mem hc
    · obtain ⟨c, hc, rfl⟩ := List.mem_map.mp hp
      exact ⟨c.haulier, hnew c hc, c, hc, rfl, rfl⟩
  rw [GreedyAssignment, ← hC, ← hM]
  exact hunion

theorem settleRound_quiet (ctx : PooledPlannerContext σ) (fb : FleetBook) (m : PoolMarket) (s : σ)
    (n : ℕ) :
    (settleRound R ctx fb { market := m, rng := s, bids := [], privateCommits := n }).1 =
        decide (n = 0) ∧
      (settleRound R ctx fb { market := m, rng := s, bids := [], privateCommits := n }).2.1 =
        m := by
  have hnone : (ctx.arbitration.resolve R [] m ctx.tickSeed fb.ownerOf s).1 = [] := by
    refine List.eq_nil_iff_forall_not_mem.mpr fun a ha ↦ ?_
    obtain ⟨b, hb, -⟩ := ArbitrationRule.exists_bid_of_mem_resolve ha
    exact absurd hb List.not_mem_nil
  rw [settleRound]
  cases n with
  | zero => exact ⟨rfl, rfl⟩
  | succ n =>
    dsimp only
    rw [hnone]
    exact ⟨rfl, rfl⟩

include hu ht ho in
/-- **A round without pools** commits a greedy matching of all candidates, and has converged when
that is empty. -/
theorem playRound_booked {cs : List Commitment} (hlaw : Lawful candidates orders cs) (rnd : ℤ)
    {st : TickState σ} (hst : st.market = booked P cs) :
    ∃ (new : List Commitment) (st' : TickState σ),
      playRound R (pooledContext R P offer claim arbitration) (fileByHaulier candidates orders)
        rnd st = .ok st' ∧ st'.market = booked P (cs ++ new) ∧
      st'.converged = decide (new = []) ∧ Lawful candidates orders (cs ++ new) ∧
      GreedyAssignment P (leftTrucks (cs.map Commitment.pair) candidates)
        (leftOrders (cs.map Commitment.pair) orders) (new.map Commitment.pair) := by
  have hcompanies : (fileByHaulier candidates orders).companyIds.Nodup := SortedSet.nodup _
  have hstart : ({ market := booked P cs, rng := st.rng, bids := [], privateCommits := 0 } :
      TurnState σ).market = booked P (cs ++ []) := by rw [List.append_nil]
  obtain ⟨new, hturns, hlaw', hnew, hall⟩ := companyTurns_booked R hu offer claim arbitration ht ho
    rnd hcompanies (by rw [List.append_nil]; exact hlaw) (fun c hc ↦ absurd hc List.not_mem_nil)
    hstart
  rw [List.append_nil] at hturns hlaw'
  have hsettle := settleRound_quiet R (pooledContext R P offer claim arbitration)
    (fileByHaulier candidates orders) (booked P (cs ++ new)) st.rng new.length
  refine ⟨new, ?_⟩
  rw [playRound, hst]
  dsimp only
  rw [hturns]
  refine ⟨_, rfl, ?_, ?_, hlaw', ?_⟩
  · dsimp only
    rw [Nat.zero_add, hsettle.2]
  · dsimp only
    rw [Nat.zero_add, hsettle.1]
    exact decide_eq_decide.mpr List.length_eq_zero_iff
  · refine greedyAssignment_of_companies (ht.sublist (List.filter_sublist.map _))
      (ho.sublist (List.filter_sublist.map _)) hnew hall fun h p hp ↦ ?_
    obtain ⟨htl, hth⟩ := truck_of_mem_haulierPairs hp
    exact mem_companyIds_of_mem_trucksOf
      (mem_trucksOf_fileByHaulier.mpr ⟨(mem_leftTrucks.mp htl).1, hth⟩)

include ht ho in
theorem nothingLeft_of_no_order {cs : List Commitment}
    (hnone : (fileByHaulier candidates orders).inputOrderIds.toList.any
      (booked P cs).isOrderFree = false) :
    NothingLeft P candidates orders (cs.map Commitment.pair) := by
  intro h
  refine List.eq_nil_iff_forall_not_mem.mpr fun p hp ↦ ?_
  obtain ⟨hol, hoh⟩ := order_of_mem_haulierPairs hp
  obtain ⟨hoo, hfree⟩ := mem_leftOrders.mp hol
  have hin : p.2.entityId ∈ (fileByHaulier candidates orders).inputOrderIds :=
    FleetBook.mem_inputOrderIds.mpr ⟨p.2, (fileByHaulier_wellFiled ht ho).ordersById_eq_some.mpr
      ⟨rfl, h, mem_ordersOf_fileByHaulier.mpr ⟨hoo, hoh⟩⟩⟩
  rw [List.map_map] at hfree
  exact List.any_eq_false.mp hnone _ hin (isOrderFree_booked.mpr hfree)

include hu ht ho in
/-- **The rounds of a tick without pools.**  The first one commits a greedy matching; the others
commit something exactly when that leaves a candidate and there is a second round. -/
theorem playRounds_booked (n : ℕ) {cs : List Commitment} (hlaw : Lawful candidates orders cs)
    (rnd : ℤ) {st : TickState σ} (hst : st.market = booked P cs) :
    ∃ (new : List Commitment) (st' : TickState σ),
      playRounds R (pooledContext R P offer claim arbitration) (fileByHaulier candidates orders)
        n rnd st = .ok st' ∧ st'.market = booked P (cs ++ new) ∧
      Lawful candidates orders (cs ++ new) ∧
      (new = [] ↔ n = 0 ∨ NothingLeft P candidates orders (cs.map Commitment.pair)) ∧
      (n ≠ 0 → ∃ first later, new = first ++ later ∧
        GreedyAssignment P (leftTrucks (cs.map Commitment.pair) candidates)
          (leftOrders (cs.map Commitment.pair) orders) (first.map Commitment.pair) ∧
        (later = [] ↔ n = 1 ∨
          NothingLeft P candidates orders ((cs ++ first).map Commitment.pair))) := by
  induction n generalizing cs rnd st with
  | zero =>
    refine ⟨[], st, rfl, ?_, ?_, iff_of_true rfl (Or.inl rfl), fun h ↦ absurd rfl h⟩
    · rw [List.append_nil, hst]
    · rw [List.append_nil]
      exact hlaw
  | succ n ih =>
    rw [playRounds, hst]
    cases hfree : (fileByHaulier candidates orders).inputOrderIds.toList.any
        (booked P cs).isOrderFree with
    | false =>
      have hnone := nothingLeft_of_no_order ht ho hfree
      rw [if_pos (show (!false) = true from rfl)]
      refine ⟨[], _, rfl, ?_, ?_, iff_of_true rfl (Or.inr hnone), fun _ ↦ ⟨[], [], rfl, ?_, ?_⟩⟩
      · rw [List.append_nil]
      · rw [List.append_nil]
        exact hlaw
      · exact .empty (fun p hp ↦ hp.elim fun h hp ↦ List.not_mem_nil (hnone h ▸ hp))
          fun _ ↦ List.not_mem_nil
      · rw [List.append_nil]
        exact iff_of_true rfl (Or.inr hnone)
    | true =>
      rw [if_neg (by decide)]
      obtain ⟨first, st₁, hround, hst₁, hconv, hlaw₁, hgreedy⟩ := playRound_booked R hu offer claim
        arbitration ht ho hlaw rnd hst
      have hnil : first = [] ↔ NothingLeft P candidates orders (cs.map Commitment.pair) := by
        rw [← List.map_eq_nil_iff (f := Commitment.pair)]
        exact hgreedy.eq_nil_iff
      rw [hround]
      dsimp only
      rw [hconv]
      by_cases hempty : first = []
      · have hnone := hnil.mp hempty
        subst hempty
        refine ⟨[], st₁, rfl, hst₁, hlaw₁, iff_of_true rfl (Or.inr hnone), fun _ ↦
          ⟨[], [], rfl, hgreedy, ?_⟩⟩
        rw [List.append_nil]
        exact iff_of_true rfl (Or.inr hnone)
      · obtain ⟨later, st₂, hrounds, hst₂, hlaw₂, hlater, -⟩ := ih hlaw₁ (rnd + 1) hst₁
        rw [if_neg (by rw [decide_eq_true_eq]; exact hempty)]
        refine ⟨first ++ later, st₂, hrounds, ?_, ?_, ?_, fun _ ↦ ⟨first, later, rfl, hgreedy, ?_⟩⟩
        · rw [← List.append_assoc]
          exact hst₂
        · rw [← List.append_assoc]
          exact hlaw₂
        · rw [List.append_eq_nil_iff]
          refine iff_of_false (fun h ↦ hempty h.1) ?_
          rintro (h | h)
          · exact absurd h (Nat.succ_ne_zero n)
          · exact hempty (hnil.mpr h)
        · rw [hlater, Nat.succ_inj]

/-! ## The pooled tick without pools -/

include ht ho in
theorem account_booked {cs : List Commitment} (committed : List String)
    (htruck : ∀ c ∈ cs, c.pair.1 ∈ candidates ∧ c.pair.1.haulier = some c.haulier)
    (horder : ∀ c ∈ cs, c.pair.2 ∈ orders ∧ c.pair.2.haulier = some c.haulier)
    (acc : List Pair × Dict (String × String) ShareTag) :
    account R (pooledContext R P offer claim arbitration) (fileByHaulier candidates orders)
        committed (cs.map (Commitment.award P)) acc =
      .ok (acc.1 ++ cs.map Commitment.pair, acc.2) := by
  have hfb := fileByHaulier_wellFiled ht ho
  induction cs generalizing acc with
  | nil => rw [List.map_nil, account, List.map_nil, List.append_nil]
  | cons c cs ih =>
    obtain ⟨htc, hth⟩ := htruck c List.mem_cons_self
    obtain ⟨hoc, hoh⟩ := horder c List.mem_cons_self
    have hgt : (fileByHaulier candidates orders).trucksById.get? (c.award P).truckId =
        some c.pair.1 :=
      hfb.trucksById_eq_some.mpr ⟨rfl, _, mem_trucksOf_fileByHaulier.mpr ⟨htc, hth⟩⟩
    have hgo : (fileByHaulier candidates orders).ordersById.get? (c.award P).orderId =
        some c.pair.2 :=
      hfb.ordersById_eq_some.mpr ⟨rfl, _, mem_ordersOf_fileByHaulier.mpr ⟨hoc, hoh⟩⟩
    have hown : (c.award P).ownerHaulierId = some (c.award P).carrierHaulierId := rfl
    rw [List.map_cons, account, hgt, hgo]
    dsimp only
    rw [if_pos hown, ih (fun d hd ↦ htruck d (List.mem_cons_of_mem c hd))
      (fun d hd ↦ horder d (List.mem_cons_of_mem c hd)), List.map_cons]
    dsimp only
    rw [List.append_assoc, List.singleton_append]

include ht ho in
theorem closingAssertions_booked {cs : List Commitment} (hlaw : Lawful candidates orders cs) :
    closingAssertions (fileByHaulier candidates orders) (cs.map (Commitment.award P)) = .ok () := by
  have hfb := fileByHaulier_wellFiled ht ho
  have hp1 : ∀ a ∈ cs.map (Commitment.award P),
      a.orderId ∈ (fileByHaulier candidates orders).inputOrderIds := by
    intro a ha
    obtain ⟨c, hc, rfl⟩ := List.mem_map.mp ha
    obtain ⟨hoc, hoh⟩ := hlaw.order c hc
    exact FleetBook.mem_inputOrderIds.mpr ⟨c.pair.2, hfb.ordersById_eq_some.mpr
      ⟨rfl, _, mem_ordersOf_fileByHaulier.mpr ⟨hoc, hoh⟩⟩⟩
  have hp2 : ((cs.map (Commitment.award P)).map Award.orderId).Nodup := by
    rw [List.map_map]
    exact hlaw.orders_nodup
  have hp2' : ((cs.map (Commitment.award P)).map Award.truckId).Nodup := by
    rw [List.map_map]
    exact hlaw.trucks_nodup
  have hp3 : ∀ a ∈ cs.map (Commitment.award P),
      a.ownerHaulierId = (fileByHaulier candidates orders).ownerOf a.orderId := by
    intro a ha
    obtain ⟨c, hc, rfl⟩ := List.mem_map.mp ha
    obtain ⟨hoc, hoh⟩ := hlaw.order c hc
    exact (hfb.ownerOf_eq_some.mpr ⟨c.pair.2, mem_ordersOf_fileByHaulier.mpr ⟨hoc, hoh⟩, rfl⟩).symm
  rw [closingAssertions, if_neg (not_not.mpr hp1), if_neg (not_not.mpr hp2),
    if_neg (not_not.mpr hp2'), if_neg (not_not.mpr hp3)]

theorem leftTrucks_nil (trucks : List Truck) : leftTrucks [] trucks = trucks :=
  List.filter_eq_self.mpr fun _ _ ↦ rfl

theorem leftOrders_nil (os : List Order) : leftOrders [] os = os :=
  List.filter_eq_self.mpr fun _ _ ↦ rfl

include hu ht ho in
/-- **What the pooled topology returns without pools**: a greedy assignment, and what its later
rounds add. -/
theorem assignPooled_zeroPools {coop : Option CoopStructure} (hpools : marketPools coop = [])
    (s : σ) :
    ∃ (first later : List Commitment) (res : PooledMarketResult),
      assignPooled R P coop offer claim arbitration candidates orders s = .ok res ∧
      res.shareTags = Dict.empty ∧ res.assignment = (first ++ later).map Commitment.pair ∧
      Lawful candidates orders (first ++ later) ∧
      GreedyAssignment P candidates orders (first.map Commitment.pair) ∧
      (later = [] ↔ maxRounds (pooledContext R P offer claim arbitration) = 1 ∨
        NothingLeft P candidates orders (first.map Commitment.pair)) := by
  have hmax : 1 ≤ maxRounds (pooledContext R P offer claim arbitration) := le_max_left 1 _
  have hempty : Lawful candidates orders [] :=
    ⟨fun c hc ↦ absurd hc List.not_mem_nil, fun c hc ↦ absurd hc List.not_mem_nil,
      List.nodup_nil, List.nodup_nil⟩
  have hstart : contributeAll (pooledContext R P offer claim arbitration)
      (fileByHaulier candidates orders) (init []) s = (booked P [], s) := by
    rw [contributeAll]
    rfl
  have hst₀ : ({ market := booked P [], rng := s } : TickState σ).market = booked P [] := rfl
  obtain ⟨new, st, hrounds, hst, hlaw, -, hfirst⟩ := playRounds_booked R hu offer claim arbitration
    ht ho (maxRounds (pooledContext R P offer claim arbitration)).toNat hempty 1 hst₀
  obtain ⟨first, later, rfl, hgreedy, hlater⟩ := hfirst (by omega)
  rw [List.nil_append] at hst hlaw hlater
  rw [List.map_nil, leftTrucks_nil, leftOrders_nil] at hgreedy
  have hticks : tickRounds R (pooledContext R P offer claim arbitration)
      (fileByHaulier candidates orders) [] s = .ok st := by
    rw [tickRounds, hstart]
    exact hrounds
  refine ⟨first, later, ?_⟩
  rw [assignPooled, hpools, runPooledMarket, hticks]
  dsimp only
  rw [hst]
  have hawards : (booked P (first ++ later)).awards = (first ++ later).map (Commitment.award P) :=
    rfl
  rw [hawards, account_booked R offer claim arbitration ht ho _ hlaw.truck hlaw.order,
    closingAssertions_booked ht ho hlaw]
  refine ⟨_, rfl, rfl, List.nil_append _, hlaw, hgreedy, ?_⟩
  rw [hlater]
  refine or_congr_left ?_
  omega

end Turns

/-! ## The partitioned tick without pools -/

section Buckets

variable {σ : Type} (R : Runtime σ) {P : AssignmentProfile} (hu : P.useSpatial = true)
  {coop : Option CoopStructure} (hcoop : CompiledStructure coop) (hpools : marketPools coop = [])
  (seed : Option ℤ) {candidates : List Truck} {orders : List Order}
  (ht : (candidates.map Truck.entityId).Nodup)

include hcoop hpools in
theorem serves_iff_eq {g h : String} (hg : g ≠ "") (hh : h ≠ "") :
    serves (shareAdjacency coop) g h = true ↔ g = h := by
  rw [← mayCarry_iff_serves hcoop hg hh, mayCarry, hpools, decide_eq_true_eq]
  refine or_iff_left ?_
  exact Bool.false_ne_true

include hcoop hpools in
theorem eligibleTrucks_own {h : String} (hh : h ≠ "") :
    eligibleTrucks coop candidates h = candidates.filter fun t ↦ t.haulier = some h := by
  rw [eligibleTrucks]
  refine List.filter_congr fun t _ ↦ ?_
  cases hg : t.haulier with
  | none => rfl
  | some g =>
    rw [Bool.eq_iff_iff, decide_eq_true_eq, Option.some_inj]
    exact serves_iff_eq hcoop hpools (haulierOf_ne_empty hg) hh

include hcoop hpools in
/-- **The candidates of a bucket** are the own candidates of its orders. -/
theorem mem_bucketPairs_own {key : PartitionKey} {os : List Order}
    (hos : ∀ o ∈ os, o ∈ orders ∧ partitionKey coop o.haulier = some key) {p : Pair} :
    p ∈ bucketPairs P coop (((truckBuckets coop candidates).get? key).getD []) os ↔
      p.2 ∈ os ∧ ∃ h, p ∈ haulierPairs P candidates orders h := by
  rw [bucketPairs, List.mem_flatMap]
  simp only [mem_iterCandidatePairs_iff, mem_haulierPairs]
  constructor
  · rintro ⟨⟨h, group⟩, hgroup, ho, ht, ha⟩
    obtain ⟨hoo, hoh⟩ := Dict.mem_of_get?_groupBy (Dict.mem_entries_iff.mp hgroup) ho
    dsimp only at ht hoh
    rw [eligibleTrucks_bucket hcoop candidates (hoh ▸ (hos _ hoo).2),
      eligibleTrucks_own hcoop hpools (haulierOf_ne_empty hoh)] at ht
    have hth := haulier_of_mem_take ht
    refine ⟨hoo, h, ⟨(hos _ hoo).1, hoh⟩, ht, ?_⟩
    have hmatch : haulierMatches p.1 p.2 = true := by
      rw [haulierMatches, hth, hoh]
      exact decide_eq_true rfl
    rw [partitionedAllowed, if_pos hmatch] at ha
    exact ha
  · rintro ⟨hoo, h, ⟨-, hoh⟩, ht, ha⟩
    have hth := haulier_of_mem_take ht
    obtain ⟨group, hgroup⟩ := Dict.mem_keys_iff.mp
      (Dict.mem_keys_groupBy.mpr ⟨p.2, hoo, hoh⟩ : h ∈ (Dict.groupBy Order.haulier os).keys)
    have hget := Dict.getD_groupBy Order.haulier os h
    rw [hgroup, Option.getD_some] at hget
    refine ⟨(h, group), Dict.mem_entries_iff.mpr hgroup, ?_, ?_, ?_⟩
    · dsimp only
      rw [hget]
      exact List.mem_filter.mpr ⟨hoo, decide_eq_true hoh⟩
    · dsimp only
      rw [eligibleTrucks_bucket hcoop candidates (hoh ▸ (hos _ hoo).2),
        eligibleTrucks_own hcoop hpools (haulierOf_ne_empty hoh)]
      exact ht
    · have hmatch : haulierMatches p.1 p.2 = true := by
        rw [haulierMatches, hth, hoh]
        exact decide_eq_true rfl
      rw [partitionedAllowed, if_pos hmatch]
      exact ha

theorem crossTags_own {bucketTrucks : List Truck} {result : List Pair}
    (hown : ∀ p ∈ result, p.1.haulier = p.2.haulier) (tags : Dict (String × String) CrossTag) :
    crossTags R P coop bucketTrucks result tags = tags := by
  refine List.foldlRecOn (motive := fun t ↦ t = tags) result _ rfl fun t hsame p hp ↦ ?_
  have hnone : crossTag R P coop bucketTrucks result p = none := by
    rw [crossTag, hown p hp]
    cases p.2.haulier with
    | none => rfl
    | some h => exact if_pos rfl
  rw [hnone]
  exact hsame

/-- The own candidates of the orders of some buckets. -/
def bucketCandidates (P : AssignmentProfile) (candidates : List Truck) (orders : List Order)
    (buckets : List (PartitionKey × List Order)) : Set Pair :=
  {p | (∃ b ∈ buckets, p.2 ∈ b.2) ∧ p ∈ ownCandidates P candidates orders}

include hu hcoop hpools in
/-- One bucket: it is solved greedily, or skipped when it has no trucks. -/
theorem solveBuckets_cons_own {key : PartitionKey} {os : List Order}
    (hos : ∀ o ∈ os, o ∈ orders ∧ partitionKey coop o.haulier = some key)
    (rest : List (PartitionKey × List Order)) (acc : List Pair)
    (tags : Dict (String × String) CrossTag) (s : σ) :
    ∃ plan s', solveBuckets R (greedyNearest R seed) P coop (truckBuckets coop candidates)
        ((key, os) :: rest) (acc, tags) s =
          solveBuckets R (greedyNearest R seed) P coop (truckBuckets coop candidates) rest
            (acc ++ plan, tags) s' ∧
      P.Greedy (bucketCandidates P candidates orders [(key, os)]) {p | p ∈ plan} := by
  have hset : {p | p ∈ bucketPairs P coop (((truckBuckets coop candidates).get? key).getD []) os} =
      bucketCandidates P candidates orders [(key, os)] := by
    refine Set.ext fun p ↦ (mem_bucketPairs_own hcoop hpools hos).trans (and_congr_left fun _ ↦ ?_)
    constructor
    · exact fun hp ↦ ⟨(key, os), List.mem_singleton_self _, hp⟩
    · rintro ⟨b, hb, hp⟩
      obtain rfl := List.mem_singleton.mp hb
      exact hp
  have hskip : ((truckBuckets coop candidates).get? key).getD [] = [] →
      P.Greedy (bucketCandidates P candidates orders [(key, os)]) {p | p ∈ ([] : List Pair)} := by
    intro hno
    rw [← hset, hno, bucketPairs_nil]
    exact .empty (fun _ ↦ List.not_mem_nil) fun _ ↦ List.not_mem_nil
  cases hget : (truckBuckets coop candidates).get? key with
  | none =>
    refine ⟨[], s, ?_, hskip (by rw [hget]; rfl)⟩
    rw [solveBuckets, hget, List.append_nil]
  | some bucketTrucks =>
    cases hempty : bucketTrucks.isEmpty with
    | true =>
      refine ⟨[], s, ?_, hskip (by rw [hget]; exact List.isEmpty_iff.mp hempty)⟩
      rw [solveBuckets, hget, List.append_nil]
      dsimp only
      rw [if_pos hempty]
    | false =>
      obtain ⟨plan, s', hplan, -, -, -, hgreedy⟩ := greedySolvePairs_greedy R P seed
        (bucketPairs P coop bucketTrucks os) s
      rw [hget, Option.getD_some] at hset
      rw [hset] at hgreedy
      have hsolve : solveBucket R (greedyNearest R seed) P coop bucketTrucks os s =
          (.ok plan, s') := by
        rw [solveBucket, hu]
        exact hplan
      have hown : ∀ p ∈ plan, p.1.haulier = p.2.haulier := by
        intro p hp
        obtain ⟨-, h, hh⟩ := hgreedy.subset hp
        rw [(truck_of_mem_haulierPairs hh).2, (order_of_mem_haulierPairs hh).2]
      refine ⟨plan, s', ?_, hgreedy⟩
      rw [solveBuckets, hget]
      dsimp only
      rw [if_neg (Bool.eq_false_iff.mp hempty), hsolve]
      dsimp only
      rw [crossTags_own R hown]

include hu hcoop hpools ht in
/-- **The buckets of the partition**, solved one after the other, make one greedy matching. -/
theorem solveBuckets_own (ho : (orders.map Order.entityId).Nodup)
    {buckets : List (PartitionKey × List Order)} (hn : (buckets.map Prod.fst).Nodup)
    (hos : ∀ b ∈ buckets, ∀ o ∈ b.2, o ∈ orders ∧ partitionKey coop o.haulier = some b.1)
    (acc : List Pair) (tags : Dict (String × String) CrossTag) (s : σ) :
    ∃ plans s', solveBuckets R (greedyNearest R seed) P coop (truckBuckets coop candidates)
        buckets (acc, tags) s = (.ok (acc ++ plans, tags), s') ∧
      P.Greedy (bucketCandidates P candidates orders buckets) {p | p ∈ plans} := by
  induction buckets generalizing acc s with
  | nil =>
    refine ⟨[], s, by rw [solveBuckets, List.append_nil], ?_⟩
    exact .empty (fun p ⟨⟨b, hb, _⟩, _⟩ ↦ List.not_mem_nil hb) fun _ ↦ List.not_mem_nil
  | cons b buckets ih =>
    obtain ⟨key, os⟩ := b
    obtain ⟨hkey, hn⟩ := List.nodup_cons.mp hn
    have hb := hos (key, os) List.mem_cons_self
    have hrest : ∀ b ∈ buckets, ∀ o ∈ b.2, o ∈ orders ∧ partitionKey coop o.haulier = some b.1 :=
      fun b hb ↦ hos b (List.mem_cons_of_mem _ hb)
    obtain ⟨plan, s₁, hstep, hplan⟩ := solveBuckets_cons_own R hu hcoop hpools seed hb buckets acc
      tags s
    obtain ⟨plans, s₂, hsteps, hplans⟩ := ih hn hrest (acc ++ plan) s₁
    refine ⟨plan ++ plans, s₂, ?_, ?_⟩
    · rw [hstep, hsteps, List.append_assoc]
    · have hunion := hplan.union hplans fun p ⟨⟨b, hpb, hpo⟩, h, hph⟩ q ⟨⟨b', hqb, hqo⟩, g, hqg⟩
          hend ↦ by
        obtain rfl := List.mem_singleton.mp hpb
        have hhg := haulier_eq_of_shared ht ho hph hqg hend
        have hpk := (hb p.2 hpo).2
        have hqk := (hrest b' hqb q.2 hqo).2
        rw [(order_of_mem_haulierPairs hph).2, hhg] at hpk
        rw [(order_of_mem_haulierPairs hqg).2, hpk] at hqk
        exact hkey (List.mem_map.mpr ⟨b', hqb, (Option.some_inj.mp hqk).symm⟩)
      have hC : bucketCandidates P candidates orders [(key, os)] ∪
          bucketCandidates P candidates orders buckets =
            bucketCandidates P candidates orders ((key, os) :: buckets) := by
        refine Set.ext fun p ↦ ⟨?_, ?_⟩
        · rintro (⟨⟨b, hb, hp⟩, hown⟩ | ⟨⟨b, hb, hp⟩, hown⟩)
          · exact ⟨⟨b, List.mem_cons.mpr (Or.inl (List.mem_singleton.mp hb)), hp⟩, hown⟩
          · exact ⟨⟨b, List.mem_cons_of_mem _ hb, hp⟩, hown⟩
        · rintro ⟨⟨b, hb, hp⟩, hown⟩
          rcases List.mem_cons.mp hb with rfl | hb
          · exact Or.inl ⟨⟨_, List.mem_singleton_self _, hp⟩, hown⟩
          · exact Or.inr ⟨⟨b, hb, hp⟩, hown⟩
      have hM : {p | p ∈ plan} ∪ {p | p ∈ plans} = {p | p ∈ plan ++ plans} :=
        Set.ext fun p ↦ List.mem_append.symm
      rw [← hC, ← hM]
      exact hunion

include hu hcoop hpools ht in
/-- **What the partitioned topology returns without pools**: a greedy assignment, and no tag. -/
theorem assignPartitioned_zeroPools (ho : (orders.map Order.entityId).Nodup) (s : σ) :
    ∃ pairs s', assignPartitioned R (greedyNearest R seed) P coop candidates orders s =
        (.ok (pairs, Dict.empty), s') ∧ GreedyAssignment P candidates orders pairs := by
  have hos : ∀ b ∈ (orderBuckets coop orders).entries, ∀ o ∈ b.2,
      o ∈ orders ∧ partitionKey coop o.haulier = some b.1 := fun b hb o hob ↦
    Dict.mem_of_get?_groupBy (Dict.mem_entries_iff.mp hb) hob
  obtain ⟨plans, s', hrun, hgreedy⟩ := solveBuckets_own R hu hcoop hpools seed ht ho
    (orderBuckets coop orders).nodup hos [] Dict.empty s
  refine ⟨plans, s', hrun, ?_⟩
  have hC : bucketCandidates P candidates orders (orderBuckets coop orders).entries =
      ownCandidates P candidates orders := by
    refine Set.ext fun p ↦ ⟨fun hp ↦ hp.2, fun hp ↦ ⟨?_, hp⟩⟩
    obtain ⟨h, hh⟩ := hp
    obtain ⟨hpo, hph⟩ := order_of_mem_haulierPairs hh
    have hkey : ∃ key, partitionKey coop p.2.haulier = some key := by
      rw [hph]
      exact ⟨_, rfl⟩
    obtain ⟨key, hkey⟩ := hkey
    obtain ⟨group, hgroup⟩ := Dict.mem_keys_iff.mp (Dict.mem_keys_groupBy.mpr
      ⟨p.2, hpo, hkey⟩ : key ∈ (orderBuckets coop orders).keys)
    have hget := Dict.getD_groupBy (fun o ↦ partitionKey coop o.haulier) orders key
    have hgroup' : (Dict.groupBy (fun o ↦ partitionKey coop o.haulier) orders).get? key =
        some group := hgroup
    rw [hgroup', Option.getD_some] at hget
    refine ⟨(key, group), Dict.mem_entries_iff.mpr hgroup, ?_⟩
    dsimp only
    rw [hget]
    exact List.mem_filter.mpr ⟨hpo, decide_eq_true hkey⟩
  rw [GreedyAssignment, ← hC]
  exact hgreedy

end Buckets

/-! ## When the two topologies agree -/

section Agree

variable {P : AssignmentProfile} {candidates : List Truck} {orders : List Order}

/-- What is left depends on which pairs there are only. -/
theorem NothingLeft.congr {pairs pairs' : List Pair} (hsame : ∀ p, p ∈ pairs ↔ p ∈ pairs')
    (h : NothingLeft P candidates orders pairs) : NothingLeft P candidates orders pairs' := by
  have htrucks : leftTrucks pairs' candidates = leftTrucks pairs candidates :=
    List.filter_congr fun t _ ↦ by simp only [List.mem_map, hsame]
  have horders : leftOrders pairs' orders = leftOrders pairs orders :=
    List.filter_congr fun o _ ↦ by simp only [List.mem_map, hsame]
  intro g
  rw [htrucks, horders]
  exact h g

theorem settledAtOnce_iff (hd : DistinctCosts P candidates orders) {pairs : List Pair}
    (h : GreedyAssignment P candidates orders pairs) :
    SettledAtOnce P candidates orders ↔ NothingLeft P candidates orders pairs :=
  ⟨fun hs ↦ hs pairs h, fun hn _ h' ↦ hn.congr (h.unique hd h')⟩

/-- Where no order has more own trucks in reach than the cap keeps, one greedy matching leaves
nothing. -/
theorem settledAtOnce_of_le (hle : ∀ o ∈ orders, ∀ h, o.haulier = some h →
      (reached P.facilityCenter P.spatialParams
        (candidates.filter fun t ↦ t.haulier = some h) o).length ≤ P.spatialParams.perOrder) :
    SettledAtOnce P candidates orders := by
  intro pairs hgreedy h
  refine List.eq_nil_iff_forall_not_mem.mpr fun p hp ↦ ?_
  obtain ⟨⟨hol, hoh⟩, hpt, ha⟩ := mem_haulierPairs.mp hp
  obtain ⟨htl, hth⟩ := truck_of_mem_haulierPairs hp
  obtain ⟨hpo, hof⟩ := mem_leftOrders.mp hol
  obtain ⟨hpc, htf⟩ := mem_leftTrucks.mp htl
  have hreach := (mem_reached.mp (List.mem_of_mem_take hpt)).2
  have hfull : p ∈ haulierPairs P candidates orders h := by
    refine mem_haulierPairs.mpr ⟨⟨hpo, hoh⟩, ?_, ha⟩
    rw [List.take_of_length_le (hle p.2 hpo h hoh)]
    exact mem_reached.mpr ⟨List.mem_filter.mpr ⟨hpc, decide_eq_true hth⟩, hreach⟩
  obtain ⟨m, hm, hend, -⟩ := hgreedy.blocked p ⟨h, hfull⟩
  rcases hend with hid | hid
  · exact htf (List.mem_map.mpr ⟨m, hm, congrArg entityId hid⟩)
  · exact hof (List.mem_map.mpr ⟨m, hm, congrArg entityId hid⟩)

/-- **When pooled without pools is partitioned**: exactly when the market is cut off after its first
round, or a greedy matching of the capped candidates leaves no candidate behind. -/
theorem zero_pools_iff {σ : Type} (R : Runtime σ) (hu : P.useSpatial = true)
    {coop : Option CoopStructure} (hcoop : CompiledStructure coop)
    (hpools : marketPools coop = []) (offer : OfferPolicy σ) (claim : ClaimPolicy σ)
    (arbitration : ArbitrationRule) (seed : Option ℤ)
    (ht : (candidates.map Truck.entityId).Nodup) (ho : (orders.map Order.entityId).Nodup)
    (hd : DistinctCosts P candidates orders) (s s' : σ) :
    ∃ res pairs tags s'',
      assignPooled R P coop offer claim arbitration candidates orders s = .ok res ∧
      assignPartitioned R (greedyNearest R seed) P coop candidates orders s' =
        (.ok (pairs, tags), s'') ∧
      (((∀ p, p ∈ res.assignment ↔ p ∈ pairs) ∧ res.shareTags = Dict.empty ∧
          tags = Dict.empty) ↔
        maxRounds (pooledContext R P offer claim arbitration) = 1 ∨
          SettledAtOnce P candidates orders) := by
  obtain ⟨first, later, res, hpooled, htags, hres, hlaw, hfirst, hlater⟩ := assignPooled_zeroPools R
    hu offer claim arbitration ht ho hpools s
  obtain ⟨pairs, s'', hpart, hpairs⟩ := assignPartitioned_zeroPools R hu hcoop hpools seed ht ho s'
  refine ⟨res, pairs, Dict.empty, s'', hpooled, hpart, ?_⟩
  have hsame := hfirst.unique hd hpairs
  rw [settledAtOnce_iff hd hfirst, ← hlater, hres]
  constructor
  · rintro ⟨hall, -⟩
    refine List.eq_nil_iff_forall_not_mem.mpr fun c hc ↦ ?_
    have hin : c.pair ∈ first.map Commitment.pair := by
      rw [hsame, ← hall, List.map_append]
      exact List.mem_append_right _ (List.mem_map_of_mem hc)
    obtain ⟨d, hd, hdc⟩ := List.mem_map.mp hin
    have hnodup := hlaw.orders_nodup
    rw [List.map_append] at hnodup
    refine List.disjoint_of_nodup_append hnodup (List.mem_map_of_mem hd) ?_
    rw [hdc]
    exact List.mem_map_of_mem hc
  · rintro rfl
    refine ⟨fun p ↦ ?_, htags, rfl⟩
    rw [List.append_nil]
    exact hsame p

end Agree

/-! ## A tick where they differ -/

/-- Two trucks and two orders of one haulier, every cost another one, and `perOrder` candidates for
each order. -/
def fourCosts (perOrder : ℕ) : AssignmentProfile where
  pairAllowedIgnoringHaulier _ _ := true
  assignmentCost t o :=
    .fin ((if t.entityId = "t1" then 0 else 2) + (if o.entityId = "o1" then 1 else 2))
  maxRounds := 20
  tickSeed := 0
  spatialParams := { perOrder := perOrder }

def fourTrucks : List Truck :=
  [{ id := some "t1", haulierId := some "a" }, { id := some "t2", haulierId := some "a" }]

def fourOrders : List Order :=
  [{ id := some "o1", haulierId := some "a" }, { id := some "o2", haulierId := some "a" }]

theorem fourCosts_distinct (n : ℕ) : DistinctCosts (fourCosts n) fourTrucks fourOrders where
  finite _ _ _ _ := rfl
  distinct := by
    have hall : ∀ t ∈ fourTrucks, ∀ o ∈ fourOrders, ∀ t' ∈ fourTrucks, ∀ o' ∈ fourOrders,
        (fourCosts 1).assignmentCost t o = (fourCosts 1).assignmentCost t' o' →
          t = t' ∧ o = o' := by
      decide +kernel
    exact hall

/-- The pairs of the two topologies on this tick, by id. -/
def fourPooled (n : ℕ) : Option (List (String × String)) :=
  (assignPooled smallRuntime (fourCosts n) none offerAll claimAllPlanned .lowestCost fourTrucks
    fourOrders ()).toOption.map fun res ↦
      res.assignment.map fun p ↦ (p.1.entityId, p.2.entityId)

def fourPartitioned (n : ℕ) : Option (List (String × String)) :=
  (assignPartitioned smallRuntime (greedyNearest smallRuntime none) (fourCosts n) none fourTrucks
    fourOrders ()).1.toOption.map fun r ↦ r.1.map fun p ↦ (p.1.entityId, p.2.entityId)

/-- **A second round finds a truck the cap had kept out**: with one candidate for each order the
first truck is both orders' only one, and when it is gone the pooled planner offers the second. -/
theorem zero_pools_differ :
    marketPools none = [] ∧ DistinctCosts (fourCosts 1) fourTrucks fourOrders ∧
      fourPartitioned 1 = some [("t1", "o1")] ∧
      fourPooled 1 = some [("t1", "o1"), ("t2", "o2")] :=
  ⟨rfl, fourCosts_distinct 1, by decide +kernel, by decide +kernel⟩

/-- With room for both trucks the topologies agree. -/
theorem zero_pools_iff_four :
    ∃ res pairs tags s'', assignPooled smallRuntime (fourCosts 2) none offerAll claimAllPlanned
        .lowestCost fourTrucks fourOrders () = .ok res ∧
      assignPartitioned smallRuntime (greedyNearest smallRuntime none) (fourCosts 2) none fourTrucks
        fourOrders () = (.ok (pairs, tags), s'') ∧
      (∀ p, p ∈ res.assignment ↔ p ∈ pairs) ∧ res.shareTags = Dict.empty ∧ tags = Dict.empty := by
  have hsettled : SettledAtOnce (fourCosts 2) fourTrucks fourOrders := by
    refine settledAtOnce_of_le fun o ho h _ ↦ ?_
    have hlen : ∀ o ∈ fourOrders, orderPickupLoc o = none := by decide
    rw [reached, hlen o ho]
    exact List.length_filter_le _ _
  obtain ⟨res, pairs, tags, s'', hpooled, hpart, hiff⟩ := zero_pools_iff smallRuntime rfl
    (fun s hs ↦ absurd hs (Option.not_mem_none s)) rfl offerAll claimAllPlanned .lowestCost none
    (by decide) (by decide) (fourCosts_distinct 2) () ()
  exact ⟨res, pairs, tags, s'', hpooled, hpart, hiff.mpr (Or.inr hsettled)⟩

end OpenRide.Assignment
