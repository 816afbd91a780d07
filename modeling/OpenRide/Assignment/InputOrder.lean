import OpenRide.Assignment.PlayedRounds
import OpenRide.Assignment.PooledThroughput
import OpenRide.Lib.Buckets

/-!
# A tick and the order of its input

Does the planner read anything into the order its trucks and orders are listed in?  Of the four
places it could, three are closed: orders are read through their ids, sorted; the greedy sweep and
the arbitration sort by keys that end in a tie-break; and companies take their turns in the order
of their ids.  The fourth is the candidate cap: a query of the spatial index lists the trucks of a
cell in the order of the fleet and stops at `per_order`, so which trucks it cuts off depends on the
listing (`listing_decides_at_the_cap`), and without the index so does the sample drawn from a large
fleet.

Two listings of one input are `Relisted`.  A listing moves trucks about inside a cell only, so it
can tell on the one bucket the cap of an order goes through.  When in every round the caps keep the
same trucks there (`SameDraw`) and no two pairs of equal cost that one company may plan share a
tie-break hash (`TieFree`), relisting changes nothing at all: not the result, not the errors, not
the rounds (`runPooledMarket_relisted`).  The proof follows the tick step by step — the plans are
equal because equal sets of candidates are sorted by a key that tells them apart, and everything
after the plans is a function of them.  In a round that misses the condition the two listings do
have different candidates (`sameCut_iff`).
-/

namespace OpenRide.Assignment

open Lib PoolMarket

variable {σ : Type} {R : Runtime σ} {ctx : PooledPlannerContext σ} {fb fb' : FleetBook}

/-! ## Two listings of one input -/

/-- The second book lists the companies, and the trucks and the orders of each, in another
order. -/
structure Relisted (fb fb' : FleetBook) : Prop where
  truckKeys : fb.trucksByHaulier.keys.Perm fb'.trucksByHaulier.keys
  orderKeys : fb.ordersByHaulier.keys.Perm fb'.ordersByHaulier.keys
  trucks : ∀ h, (fb.trucksOf h).Perm (fb'.trucksOf h)
  orders : ∀ h, (fb.ordersOf h).Perm (fb'.ordersOf h)

namespace Relisted

theorem filedTrucks (hr : Relisted fb fb') : fb.filedTrucks.Perm fb'.filedTrucks := by
  rw [FleetBook.filedTrucks, FleetBook.filedTrucks, sortedBy_id_eq_of_perm hr.truckKeys]
  exact List.Perm.flatMap_left _ fun h _ ↦ (hr.trucks h).map _

theorem filedOrders (hr : Relisted fb fb') : fb.filedOrders.Perm fb'.filedOrders := by
  rw [FleetBook.filedOrders, FleetBook.filedOrders, sortedBy_id_eq_of_perm hr.orderKeys]
  exact List.Perm.flatMap_left _ fun h _ ↦ (hr.orders h).map _

theorem companyIds (hr : Relisted fb fb') : fb.companyIds = fb'.companyIds := by
  refine congrArg SortedSet.toList (SortedSet.ext fun h ↦ ?_)
  rw [SortedSet.mem_ofList, SortedSet.mem_ofList]
  exact ((hr.truckKeys.append hr.orderKeys).filter _).mem_iff

theorem wellFiled (hr : Relisted fb fb') (hfb : fb.WellFiled) : fb'.WellFiled where
  truckIds_nodup := (hr.filedTrucks.map _).nodup_iff.mp hfb.truckIds_nodup
  orderIds_nodup := (hr.filedOrders.map _).nodup_iff.mp hfb.orderIds_nodup
  truck_haulier h t ht := hfb.truck_haulier h t ((hr.trucks h).mem_iff.mpr ht)

section WellFiled

variable (hr : Relisted fb fb') (hfb : fb.WellFiled)
include hr hfb

theorem ordersById (oid : String) : fb.ordersById.get? oid = fb'.ordersById.get? oid := by
  refine Option.ext fun o ↦ ?_
  rw [hfb.ordersById_eq_some, (hr.wellFiled hfb).ordersById_eq_some]
  simp only [(hr.orders _).mem_iff]

theorem trucksById (tid : String) : fb.trucksById.get? tid = fb'.trucksById.get? tid := by
  refine Option.ext fun t ↦ ?_
  rw [hfb.trucksById_eq_some, (hr.wellFiled hfb).trucksById_eq_some]
  simp only [(hr.trucks _).mem_iff]

theorem ownerOf (oid : String) : fb.ownerOf oid = fb'.ownerOf oid := by
  refine Option.ext fun h ↦ ?_
  rw [hfb.ownerOf_eq_some, (hr.wellFiled hfb).ownerOf_eq_some]
  simp only [(hr.orders h).mem_iff]

theorem inputOrderIds : fb.inputOrderIds = fb'.inputOrderIds := by
  refine SortedSet.ext fun oid ↦ ?_
  rw [FleetBook.mem_inputOrderIds, FleetBook.mem_inputOrderIds, hr.ordersById hfb]

/-- The free orders are read through their ids, so they are the same list. -/
theorem freeOrders (m : PoolMarket) : freeOrders fb m = freeOrders fb' m := by
  rw [Assignment.freeOrders, Assignment.freeOrders, hr.inputOrderIds hfb,
    funext (hr.ordersById hfb)]

theorem candidateOrders (m : PoolMarket) (h : String) :
    (candidateOrders fb m h).Perm (candidateOrders fb' m h) := by
  have hcontains : ∀ oid, fb.ordersById.contains oid = fb'.ordersById.contains oid := fun oid ↦ by
    rw [Dict.contains, Dict.contains, hr.ordersById hfb]
  rw [Assignment.candidateOrders, Assignment.candidateOrders, funext (hr.ordersById hfb)]
  simp only [hcontains]
  exact ((hr.orders h).filter _).append_right _

end WellFiled

theorem freeTrucks (hr : Relisted fb fb') (m : PoolMarket) (h : String) :
    (freeTrucks fb m h).Perm (freeTrucks fb' m h) :=
  (hr.trucks h).filter _

end Relisted

theorem isEmpty_eq_of_perm {α : Type} {l l' : List α} (h : l.Perm l') : l.isEmpty = l'.isEmpty := by
  rw [Bool.eq_iff_iff, List.isEmpty_iff, List.isEmpty_iff, ← List.length_eq_zero_iff,
    h.length_eq, List.length_eq_zero_iff]

theorem freeOrders_nodup (hfb : fb.WellFiled) (m : PoolMarket) : (freeOrders fb m).Nodup := by
  rw [freeOrders]
  refine List.Nodup.filterMap (fun x y o hx hy ↦ ?_) ((SortedSet.nodup _).filter _)
  obtain ⟨rfl, -⟩ := hfb.ordersById_eq_some.mp hx
  exact (hfb.ordersById_eq_some.mp hy).1

/-! ## Offers -/

theorem contributeOrders_congr (hr : Relisted fb fb') (hfb : fb.WellFiled) (h : String)
    {c c' : Dict String (List String)} (hk : c.keys.Perm c'.keys)
    (hv : ∀ oid, c.get? oid = c'.get? oid) (m : PoolMarket) :
    contributeOrders fb h c m = contributeOrders fb' h c' m := by
  rw [contributeOrders, contributeOrders, sortedBy_id_eq_of_perm hk]
  simp only [hr.ownerOf hfb, hv]

theorem perm_keys_of_get?_eq {K V : Type} [DecidableEq K] {c c' : Dict K V}
    (h : ∀ k, c.get? k = c'.get? k) : c.keys.Perm c'.keys :=
  (List.perm_ext_iff_of_nodup c.nodup c'.nodup).mpr fun k ↦ by
    rw [← Dict.keys, ← Dict.keys, Dict.mem_keys_iff, Dict.mem_keys_iff, h]

variable {oid : String}

/-- An offer of everything binds the company's own orders, each to the same pools. -/
theorem get?_offered {h : String} {os : List Order} {pids v : List String} :
    (Dict.ofList ((ownOrders h os).map fun p ↦ (p.1, pids))).get? oid = some v ↔
      oid ∈ (ownOrders h os).map Prod.fst ∧ pids = v := by
  rw [Dict.get?_ofList_iff]
  · simp only [List.mem_map, Prod.mk.injEq]
    constructor
    · rintro ⟨p, hp, rfl, hv⟩
      exact ⟨⟨p, hp, rfl⟩, hv⟩
    · rintro ⟨⟨p, hp, rfl⟩, hv⟩
      exact ⟨p, hp, rfl, hv⟩
  · intro k v w hv hw
    obtain ⟨p, -, hp⟩ := List.mem_map.mp hv
    obtain ⟨q, -, hq⟩ := List.mem_map.mp hw
    rw [← (Prod.mk.inj hp).2, ← (Prod.mk.inj hq).2]

/-- What a company offers does not depend on the listing of its orders. -/
theorem contributeCompany_relisted (hr : Relisted fb fb') (hfb : fb.WellFiled)
    (ho : ctx.offer = offerAll) (st : PoolMarket × σ) (h : String) :
    contributeCompany ctx fb st h = contributeCompany ctx fb' st h := by
  rw [contributeCompany, contributeCompany, isEmpty_eq_of_perm (hr.orders h), ho, offerAll,
    offerAll]
  split
  · rfl
  · by_cases hp : (sortedPoolIds (st.1.poolsFor h)).isEmpty = true
    · rw [if_pos hp, if_pos hp]
      dsimp only
      rw [contributeOrders_congr hr hfb h (List.Perm.refl _) fun _ ↦ rfl]
    · have hsame : ∀ oid, (Dict.ofList ((ownOrders h (fb.ordersOf h)).map fun p ↦
            (p.1, sortedPoolIds (st.1.poolsFor h)))).get? oid =
          (Dict.ofList ((ownOrders h (fb'.ordersOf h)).map fun p ↦
            (p.1, sortedPoolIds (st.1.poolsFor h)))).get? oid := fun oid ↦ Option.ext fun v ↦ by
        rw [get?_offered, get?_offered, ownOrders, ownOrders,
          (((hr.orders h).filterMap _).map _).mem_iff]
      rw [if_neg hp, if_neg hp]
      dsimp only
      rw [contributeOrders_congr hr hfb h (perm_keys_of_get?_eq hsame) hsame]

theorem contributeAll_relisted (hr : Relisted fb fb') (hfb : fb.WellFiled)
    (ho : ctx.offer = offerAll) (m : PoolMarket) (s : σ) :
    contributeAll ctx fb m s = contributeAll ctx fb' m s := by
  rw [contributeAll, contributeAll, hr.companyIds]
  simp only [funext fun st ↦ funext fun h ↦ contributeCompany_relisted hr hfb ho st h]

/-! ## Plans -/

/-- The companies that may come to see an order of the owner: itself and those it shares a pool
with. -/
def mayCarry (pools : List Pool) (owner g : String) : Bool :=
  g = owner ∨ (init pools).pools.values.any fun p ↦ owner ∈ p.members ∧ g ∈ p.members

/-- A pair that a company may come to plan. -/
def MayPlan (ctx : PooledPlannerContext σ) (fb : FleetBook) (pools : List Pool) (g : String)
    (p : Pair) : Prop :=
  p.1 ∈ fb.trucksOf g ∧ (∃ owner, p.2 ∈ fb.ordersOf owner ∧ mayCarry pools owner g = true) ∧
    Servable ctx g p.1 p.2

/-- No two pairs that one company may plan and that cost the same share a tie-break hash. -/
def TieFree (R : Runtime σ) (ctx : PooledPlannerContext σ) (fb : FleetBook) (pools : List Pool) :
    Prop :=
  ∀ g p q, MayPlan ctx fb pools g p → MayPlan ctx fb pools g q →
    (floatCost ctx.cost p.1 p.2).toOption.map Double.rank =
      (floatCost ctx.cost q.1 q.2).toOption.map Double.rank →
    pairTiebreak R ctx.tickSeed p.2.entityId p.1.entityId =
      pairTiebreak R ctx.tickSeed q.2.entityId q.1.entityId → p = q

/-- The trucks that may serve an order among those the cap keeps of the bucket it goes through. -/
def cutCandidates (ctx : PooledPlannerContext σ) (fb : FleetBook) (m : PoolMarket)
    (carriers : SortedSet String) (o : Order) : List Truck :=
  (cutPart ctx.spatialParams.perOrder (reachedBuckets ctx.facilityCenter ctx.spatialParams
    (carriers.toList.flatMap (freeTrucks fb m)) o)).filter (allowedForCarrier ctx · o)

/-- For every free order the cap keeps the same trucks of the bucket it goes through in both
listings, as far as they may serve it. -/
def SameCut (ctx : PooledPlannerContext σ) (fb fb' : FleetBook) (m : PoolMarket) : Prop :=
  ∀ o ∈ freeOrders fb m, ∀ carriers ∈ carriersOf fb m o,
    (cutCandidates ctx fb m carriers o).Perm (cutCandidates ctx fb' m carriers o)

/-- Where a fleet is sampled, the sample holds the same trucks in both listings. -/
def SameSample (R : Runtime σ) (ctx : PooledPlannerContext σ) (fb fb' : FleetBook)
    (m₀ : PoolMarket) (h : String) (s : σ) : Prop :=
  let r := R.sample s (freeTrucks fb m₀ h) ctx.maxTrucksPerHaulier
  let r' := R.sample s (freeTrucks fb' m₀ h) ctx.maxTrucksPerHaulier
  ctx.maxTrucksPerHaulier < (freeTrucks fb m₀ h).length → r.1.Perm r'.1 ∧ r.2 = r'.2

/-- The caps of a round keep the same trucks in both listings: with the spatial index the cap on the
candidates of an order, without it the cap on the trucks of a company that has orders to plan. -/
def SameDraw (R : Runtime σ) (ctx : PooledPlannerContext σ) (fb fb' : FleetBook) (rnd : ℤ)
    (st : TickState σ) : Prop :=
  if ctx.useSpatial then SameCut ctx fb fb' st.market
  else EveryTurn R ctx fb (fun h turn ↦ candidateOrders fb turn.market h ≠ [] →
      SameSample R ctx fb fb' st.market h turn.rng)
    st.market (roundCandidates ctx fb st.market) rnd fb.companyIds
    { market := st.market, rng := st.rng, bids := [], privateCommits := 0 }

/-- A market of the tick: safe, over the pools of the start. -/
def OfTick (ctx : PooledPlannerContext σ) (fb : FleetBook) (pools : List Pool) (m : PoolMarket) :
    Prop :=
  MarketSafe (RuleLicence ctx) fb m ∧ m.pools = (init pools).pools

variable {m : PoolMarket} {owner : String}

theorem OfTick.mayCarry_of_visible {pools : List Pool} (hm : OfTick ctx fb pools m) {g : String}
    (how : fb.ownerOf oid = some owner) (hv : m.Visible g oid) : mayCarry pools owner g = true := by
  obtain ⟨pids, hp, pid, hpid, hg⟩ := hv
  obtain ⟨-, owner', ho', hall⟩ := hm.1.coherent oid pids hp
  obtain rfl : owner = owner' := Option.some_inj.mp (how.symm.trans (hm.1.contributor _ _ ho'))
  have howner := hall pid hpid
  rw [memberOf, hm.2] at hg howner
  cases hget : (init pools).pools.get? pid with
  | none => simp [hget] at hg
  | some pool =>
    rw [hget] at hg howner
    rw [mayCarry, decide_eq_true_eq, List.any_eq_true]
    exact Or.inr ⟨pool, Dict.mem_values_iff.mpr ⟨pid, hget⟩,
      decide_eq_true ⟨of_decide_eq_true howner, of_decide_eq_true hg⟩⟩

theorem mayCarry_self (pools : List Pool) (owner : String) : mayCarry pools owner owner = true :=
  decide_eq_true (Or.inl rfl)

theorem OfTick.mayCarry_of_owns_or_sees {pools : List Pool} (hm : OfTick ctx fb pools m)
    {g : String} (how : fb.ownerOf oid = some owner)
    (hv : fb.ownerOf oid = some g ∨ m.Visible g oid) : mayCarry pools owner g = true := by
  rcases hv with hg | hv
  · rw [how, Option.some_inj] at hg
    exact hg ▸ mayCarry_self pools owner
  · exact hm.mayCarry_of_visible how hv

variable {cost : Cost}

variable {rs : List Scored}

theorem scoreAll_perm {ps ps' : List Pair} (h : ps.Perm ps') (hrs : scoreAll cost ps = .ok rs) :
    ∃ rs', scoreAll cost ps' = .ok rs' ∧ rs.Perm rs' := by
  induction h generalizing rs with
  | nil => exact ⟨rs, hrs, List.Perm.refl _⟩
  | @cons p ps ps' _ ih =>
    rw [scoreAll] at hrs ⊢
    cases hp : score cost p with
    | error e => simp [hp] at hrs
    | ok r =>
      cases hps : scoreAll cost ps with
      | error e => simp [hp, hps] at hrs
      | ok us =>
        obtain ⟨us', hus', hperm⟩ := ih hps
        simp only [hp, hps, Except.ok.injEq] at hrs
        rw [hus', ← hrs]
        exact ⟨r :: us', rfl, hperm.cons r⟩
  | swap p q ps =>
    rw [scoreAll, scoreAll] at hrs ⊢
    cases hp : score cost p with
    | error e => cases hq : score cost q <;> simp [hp, hq] at hrs
    | ok r =>
      cases hq : score cost q with
      | error e => simp [hq] at hrs
      | ok u =>
        cases hps : scoreAll cost ps with
        | error e => simp [hp, hq, hps] at hrs
        | ok us =>
          simp only [hp, hq, hps, Except.ok.injEq] at hrs
          exact ⟨r :: u :: us, rfl, hrs ▸ List.Perm.swap r u us⟩
  | trans _ _ ih ih' =>
    obtain ⟨us, hus, h1⟩ := ih hrs
    obtain ⟨vs, hvs, h2⟩ := ih' hus
    exact ⟨vs, hvs, h1.trans h2⟩

theorem mem_scoreAll {ps : List Pair} (h : scoreAll cost ps = .ok rs) {r : Scored} (hr : r ∈ rs) :
    score cost r.pair = .ok r := by
  induction ps generalizing rs with
  | nil =>
    rw [← Except.ok.inj h] at hr
    exact absurd hr List.not_mem_nil
  | cons p ps ih =>
    rw [scoreAll] at h
    split at h
    · cases h
    · next u hu =>
      split at h
      · cases h
      · next us hus =>
        rw [← Except.ok.inj h] at hr
        rcases List.mem_cons.mp hr with rfl | hr
        · rw [score_pair hu, hu]
        · exact ih hus hr

/-- With a tie-break seed the greedy solve is the sweep of its sorted scores. -/
theorem greedySolvePairs_of_scoreAll {seed : ℤ} {pairs : List Pair}
    (hrs : scoreAll cost pairs = .ok rs) (s : σ) :
    greedySolvePairs R (some seed) pairs cost s =
      (.ok ((sweep (fun r ↦ r.pair.1.id) (fun r ↦ r.pair.2.id)
        (sortedBy (fun r ↦ toLex (r.cost, toLex (r.missing,
          pairTiebreak R seed r.pair.2.entityId r.pair.1.entityId))) rs)).map Scored.pair), s) := by
  rw [greedySolvePairs, hrs]
  cases rs <;> rfl

theorem score_cost_eq (hc : cost.Total) {p : Pair} {r : Scored} (h : score cost p = .ok r) :
    (floatCost cost p.1 p.2).toOption.map Double.rank = some r.cost := by
  obtain ⟨c, hcp⟩ := hc p.1 p.2
  rw [score, hcp] at h
  rw [hcp, ← Except.ok.inj h]
  rfl

/-- **The greedy solve forgets the order of its candidates**, when their tie-breaks tell apart those
of equal cost. -/
theorem greedySolvePairs_perm (hc : cost.Total) {seed : ℤ} {pairs pairs' : List Pair}
    (hp : pairs.Perm pairs')
    (htie : ∀ p ∈ pairs, ∀ q ∈ pairs,
      (floatCost cost p.1 p.2).toOption.map Double.rank =
      (floatCost cost q.1 q.2).toOption.map Double.rank →
      pairTiebreak R seed p.2.entityId p.1.entityId =
      pairTiebreak R seed q.2.entityId q.1.entityId → p = q)
    (s : σ) :
    greedySolvePairs R (some seed) pairs cost s = greedySolvePairs R (some seed) pairs' cost s := by
  obtain ⟨rs, hrs⟩ := hc.scoreAll pairs
  obtain ⟨rs', hrs', hperm⟩ := scoreAll_perm hp hrs
  rw [greedySolvePairs_of_scoreAll hrs, greedySolvePairs_of_scoreAll hrs',
    sortedBy_eq_of_perm hperm]
  intro r hr u hu hkey
  have hmem : ∀ v ∈ rs, v.pair ∈ pairs := fun v hv ↦
    scoreAll_pair hrs ▸ List.mem_map_of_mem hv
  obtain ⟨hcost, hrest⟩ := Prod.mk.inj hkey
  have hpair := htie r.pair (hmem r hr) u.pair (hmem u hu)
    (by rw [score_cost_eq hc (mem_scoreAll hrs hr), score_cost_eq hc (mem_scoreAll hrs hu), hcost])
    (Prod.mk.inj hrest).2
  have hru := mem_scoreAll hrs hr
  rw [hpair, mem_scoreAll hrs hu] at hru
  exact (Except.ok.inj hru).symm

theorem feasiblePairs_perm {trucks trucks' : List Truck} {orders orders' : List Order}
    (ht : trucks.Perm trucks') (ho : orders.Perm orders') (pairAllowed : PairAllowed) :
    (feasiblePairs trucks orders pairAllowed).Perm (feasiblePairs trucks' orders' pairAllowed) := by
  exact (List.Perm.flatMap_left _ fun t _ ↦ (ho.filter _).map _).trans (ht.flatMap_right _)

/-! ## Candidates -/

theorem candidateCount_eq (cands : Dict String (List Pair)) :
    candidateCount cands = cands.values.flatten.length := by
  rw [candidateCount, List.length_flatten]

section Relisting

variable {pools : List Pool} (hr : Relisted fb fb') (hfb : fb.WellFiled)
include hr hfb

theorem carriersOf_relisted (m : PoolMarket) : carriersOf fb' m = carriersOf fb m := by
  funext o
  rw [carriersOf, carriersOf, hr.ownerOf hfb]

omit hfb in
/-- What the cap lets through for an order is the same just when it is in the bucket it cuts. -/
theorem orderPart_perm_iff (m : PoolMarket) (carriers : SortedSet String) (o : Order) :
    (((reached ctx.facilityCenter ctx.spatialParams
        (carriers.toList.flatMap (freeTrucks fb m)) o).take ctx.spatialParams.perOrder).filter
          (allowedForCarrier ctx · o)).Perm
      (((reached ctx.facilityCenter ctx.spatialParams
        (carriers.toList.flatMap (freeTrucks fb' m)) o).take ctx.spatialParams.perOrder).filter
          (allowedForCarrier ctx · o)) ↔
      (cutCandidates ctx fb m carriers o).Perm (cutCandidates ctx fb' m carriers o) := by
  rw [← flatten_reachedBuckets, ← flatten_reachedBuckets]
  exact perm_take_flatten_iff _ (reachedBuckets_perm
    (List.Perm.flatMap_left carriers.toList fun h _ ↦ hr.freeTrucks m h)) _

/-- **Relisting permutes the candidates of a round**, company by company, where the cap keeps the
same trucks. -/
theorem roundCandidates_relisted {m : PoolMarket}
    (hcut : usesSpatial ctx = true → SameCut ctx fb fb' m) :
    candidateCount (roundCandidates ctx fb m) = candidateCount (roundCandidates ctx fb' m) ∧
      ∀ h, (((roundCandidates ctx fb m).get? h).getD []).Perm
        (((roundCandidates ctx fb' m).get? h).getD []) := by
  rw [roundCandidates, roundCandidates]
  by_cases hus : usesSpatial ctx = true
  · rw [if_pos hus, if_pos hus]
    have hall : ∀ carriers : SortedSet String,
        (groupCandidates ctx (freeTrucks fb m) carriers
          (((Dict.groupBy (carriersOf fb m) (freeOrders fb m)).get? carriers).getD [])).Perm
        (groupCandidates ctx (freeTrucks fb' m) carriers
          (((Dict.groupBy (carriersOf fb m) (freeOrders fb m)).get? carriers).getD [])) := by
      intro carriers
      rw [groupCandidates, groupCandidates, iterCandidatePairs_eq, iterCandidatePairs_eq]
      refine List.Perm.flatMap_left _ fun o ho ↦ ?_
      rw [Dict.getD_groupBy, List.mem_filter, decide_eq_true_eq] at ho
      exact ((orderPart_perm_iff hr m carriers o).mpr (hcut hus o ho.1 carriers ho.2)).map _
    rw [buildRoundCandidates, buildRoundCandidates, ← hr.freeOrders hfb,
      carriersOf_relisted hr hfb]
    have hpairs := List.Perm.flatMap_left
      (sortedBy SortedSet.toList (Dict.groupBy (carriersOf fb m) (freeOrders fb m)).keys)
      fun carriers _ ↦ hall carriers
    refine ⟨?_, fun h ↦ ?_⟩
    · rw [candidateCount_eq, candidateCount_eq, (Dict.flatten_values_groupBy _ _).length_eq,
        (Dict.flatten_values_groupBy _ _).length_eq, (hpairs.filter _).length_eq]
    · rw [Dict.getD_groupBy, Dict.getD_groupBy]
      exact hpairs.filter _
  · rw [if_neg hus, if_neg hus]
    exact ⟨rfl, fun h ↦ List.Perm.refl _⟩

/-- The candidates of an order of the round, over the fleets of its carriers. -/
def orderPart (ctx : PooledPlannerContext σ) (fb : FleetBook) (m : PoolMarket) (o : Order) :
    List Pair :=
  match carriersOf fb m o with
  | none => []
  | some carriers =>
    (((reached ctx.facilityCenter ctx.spatialParams
      (carriers.toList.flatMap (freeTrucks fb m)) o).take ctx.spatialParams.perOrder).filter
        (allowedForCarrier ctx · o)).map (·, o)

omit hr hfb in
theorem snd_of_mem_orderPart {m : PoolMarket} {o : Order} {p : Pair}
    (hp : p ∈ orderPart ctx fb m o) : p.2 = o := by
  rw [orderPart] at hp
  split at hp
  · exact absurd hp List.not_mem_nil
  · obtain ⟨t, -, rfl⟩ := List.mem_map.mp hp
    rfl

omit hr hfb in
/-- The candidates of a round, order by order. -/
theorem flatten_roundCandidates_perm (hus : usesSpatial ctx = true) (m : PoolMarket) :
    (roundCandidates ctx fb m).values.flatten.Perm
      ((freeOrders fb m).flatMap (orderPart ctx fb m)) := by
  rw [roundCandidates, if_pos hus, buildRoundCandidates]
  refine (Dict.flatten_values_groupBy _ _).trans ?_
  have hpairs : ((sortedBy SortedSet.toList
        (Dict.groupBy (carriersOf fb m) (freeOrders fb m)).keys).flatMap fun carriers ↦
          groupCandidates ctx (freeTrucks fb m) carriers
            (((Dict.groupBy (carriersOf fb m) (freeOrders fb m)).get? carriers).getD [])).Perm
      ((freeOrders fb m).flatMap (orderPart ctx fb m)) := by
    refine ((sortedBy_perm _ _).flatMap_right _).trans ?_
    rw [Dict.flatMap_keys _ fun carriers os ↦ groupCandidates ctx (freeTrucks fb m) carriers os]
    simp only [groupCandidates, iterCandidatePairs_eq]
    refine (@Dict.flatMap_entries_groupBy (SortedSet String) Order _ Pair (carriersOf fb m)
      (freeOrders fb m) (fun carriers o ↦ (((reached ctx.facilityCenter ctx.spatialParams
        (carriers.toList.flatMap (freeTrucks fb m)) o).take ctx.spatialParams.perOrder).filter
          (allowedForCarrier ctx · o)).map (·, o)) (orderPart ctx fb m)
      fun carriers o _ hc ↦ by rw [orderPart, hc]).trans (List.Perm.of_eq ?_)
    refine flatMap_filter_eq (fun o ho ↦ ?_) _
    rw [orderPart, Option.isNone_iff_eq_none.mp (Option.isSome_eq_false_iff.mp ho)]
  refine (hpairs.filter _).trans (List.Perm.of_eq (List.filter_eq_self.mpr fun p hp ↦ ?_))
  obtain ⟨o, -, hp⟩ := List.mem_flatMap.mp hp
  rw [orderPart] at hp
  split at hp
  · exact absurd hp List.not_mem_nil
  · obtain ⟨t, ht, rfl⟩ := List.mem_map.mp hp
    have hallowed := (List.mem_filter.mp ht).2
    rw [allowedForCarrier] at hallowed
    split at hallowed
    · exact absurd hallowed Bool.false_ne_true
    · next h => exact Option.isSome_iff_exists.mpr ⟨_, h⟩

omit hr in
/-- The candidates of one order among all those of a round. -/
theorem filter_orderParts {m : PoolMarket} {o : Order} (ho : o ∈ freeOrders fb m) :
    ((freeOrders fb m).flatMap (orderPart ctx fb m)).filter (fun p ↦ p.2 = o) =
      orderPart ctx fb m o := by
  have hother : ∀ o', decide (o' = o) = false →
      (orderPart ctx fb m o').filter (fun p ↦ p.2 = o) = [] := by
    intro o' hne
    refine List.filter_eq_nil_iff.mpr fun p hp hpo ↦ of_decide_eq_false hne ?_
    rw [← snd_of_mem_orderPart hp, of_decide_eq_true hpo]
  have hone : (freeOrders fb m).filter (fun o' ↦ decide (o' = o)) = [o] := by
    rw [List.filter_eq, List.count_eq_one_of_mem (freeOrders_nodup hfb m) ho]
    rfl
  rw [List.filter_flatMap, ← flatMap_filter_eq hother, hone, List.flatMap_singleton]
  exact List.filter_eq_self.mpr fun p hp ↦ decide_eq_true (snd_of_mem_orderPart hp)

/-- **The caps keep the same exactly when both listings have the same candidates.** -/
theorem sameCut_iff (hus : usesSpatial ctx = true) (m : PoolMarket) : SameCut ctx fb fb' m ↔
    (roundCandidates ctx fb m).values.flatten.Perm
      (roundCandidates ctx fb' m).values.flatten := by
  have hparts : SameCut ctx fb fb' m ↔ ∀ o ∈ freeOrders fb m,
      (orderPart ctx fb m o).Perm (orderPart ctx fb' m o) := by
    refine forall_congr' fun o ↦ forall_congr' fun _ ↦ ?_
    rw [orderPart, orderPart, carriersOf_relisted hr hfb]
    cases carriersOf fb m o with
    | none => simp
    | some carriers =>
      simp only [Option.mem_def, Option.some_inj, forall_eq']
      rw [← orderPart_perm_iff hr m carriers o]
      exact (List.map_perm_map_iff (Prod.mk_left_injective o)).symm
  rw [hparts, ((flatten_roundCandidates_perm hus m).congr_left _),
    ((flatten_roundCandidates_perm hus m).congr_right _)]
  constructor
  · intro h
    rw [← hr.freeOrders hfb m]
    exact List.Perm.flatMap_left _ h
  · intro h o ho
    have ho' : o ∈ freeOrders fb' m := hr.freeOrders hfb m ▸ ho
    rw [← filter_orderParts hfb ho, ← filter_orderParts (hr.wellFiled hfb) ho']
    exact h.filter _

section Tick

variable (hsolver : ctx.solver = greedyNearest R (some ctx.tickSeed)) (hc : ctx.cost.Total)
  (htie : TieFree R ctx fb pools)
include hsolver hc htie

variable {m₀ : PoolMarket}

theorem solveCompany_relisted {m : PoolMarket} (hm₀ : OfTick ctx fb pools m₀)
    (hm : OfTick ctx fb pools m) (h : String) (s : σ)
    (hcut : ctx.useSpatial = true → SameCut ctx fb fb' m₀)
    (hsample : ctx.useSpatial ≠ true → candidateOrders fb m h ≠ [] →
      SameSample R ctx fb fb' m₀ h s) :
    solveCompany R ctx (freeTrucks fb m₀ h) (candidateOrders fb m h) (pairAllowedFor ctx h)
        (((roundCandidates ctx fb m₀).get? h).getD []) s =
      solveCompany R ctx (freeTrucks fb' m₀ h) (candidateOrders fb' m h) (pairAllowedFor ctx h)
        (((roundCandidates ctx fb' m₀).get? h).getD []) s := by
  have htrucks := hr.freeTrucks m₀ h
  have horders := hr.candidateOrders hfb m h
  rw [solveCompany, solveCompany, hsolver]
  by_cases hu : ctx.useSpatial = true
  · have hus : usesSpatial ctx = true := by rw [usesSpatial, hu, hsolver]; rfl
    have hcands := (roundCandidates_relisted hr hfb fun _ ↦ hcut hu).2 h
    have hplan : ∀ p ∈ ((roundCandidates ctx fb m₀).get? h).getD [],
        MayPlan ctx fb pools h p := by
      intro p hp
      rw [roundCandidates, if_pos hus] at hp
      obtain ⟨ht, ho, hv, -⟩ := mem_buildRoundCandidates hfb hp
      obtain ⟨owner, hoo⟩ := ((mem_freeOrders hfb).mp ho).1
      exact ⟨(mem_freeTrucks.mp ht).1, ⟨owner, hoo, hm₀.mayCarry_of_owns_or_sees
        (hfb.ownerOf_eq_some.mpr ⟨p.2, hoo, rfl⟩) hv⟩, servable_of_mem_buildRoundCandidates hfb hp⟩
    rw [if_pos hu]
    dsimp only [greedyNearest]
    rw [isEmpty_eq_of_perm hcands, greedySolvePairs_perm hc hcands
      fun p hp q hq ↦ htie h p q (hplan p hp) (hplan q hq)]
  · rw [if_neg hu]
    dsimp only [greedyNearest]
    rw [isEmpty_eq_of_perm htrucks, isEmpty_eq_of_perm horders, htrucks.length_eq]
    split
    · rfl
    · next hne =>
      -- a company with orders to plan over sees them, so its pairs are told apart by the tie-break
      have hplan : ∀ ts : List Truck, ts ⊆ freeTrucks fb m₀ h →
          ∀ p ∈ feasiblePairs ts (candidateOrders fb m h) (pairAllowedFor ctx h),
            MayPlan ctx fb pools h p := by
        intro ts hts p hp
        obtain ⟨ht, ho, ha⟩ := mem_feasiblePairs.mp hp
        refine ⟨(mem_freeTrucks.mp (hts ht)).1, ?_, ha, fun h ↦ absurd h hu⟩
        rcases ((mem_candidateOrders hfb).mp ho).2 with ho | ⟨⟨owner, ho⟩, -, hv⟩
        · exact ⟨h, ho, mayCarry_self pools h⟩
        · exact ⟨owner, ho, hm.mayCarry_of_visible (hfb.ownerOf_eq_some.mpr ⟨p.2, ho, rfl⟩) hv⟩
      have hsolve : ∀ (ts ts' : List Truck) (s : σ), ts.Perm ts' → ts ⊆ freeTrucks fb m₀ h →
          greedySolvePairs R (some ctx.tickSeed)
              (feasiblePairs ts (candidateOrders fb m h) (pairAllowedFor ctx h)) ctx.cost s =
            greedySolvePairs R (some ctx.tickSeed)
              (feasiblePairs ts' (candidateOrders fb' m h) (pairAllowedFor ctx h)) ctx.cost s :=
        fun ts ts' s hperm hts ↦ greedySolvePairs_perm hc (feasiblePairs_perm hperm horders _)
          (fun p hp q hq ↦ htie h p q (hplan ts hts p hp) (hplan ts hts q hq)) s
      by_cases hlong : (freeTrucks fb' m₀ h).length > ctx.maxTrucksPerHaulier
      · have hnonempty : candidateOrders fb m h ≠ [] := by
          rw [Bool.or_eq_true, not_or, List.isEmpty_iff, List.isEmpty_iff] at hne
          exact fun hnil ↦ hne.2 (List.nil_perm.mp (hnil ▸ horders))
        obtain ⟨hperm, hrng⟩ := hsample hu hnonempty (htrucks.length_eq ▸ hlong)
        rw [if_pos hlong, if_pos hlong, ← hrng, isEmpty_eq_of_perm hperm]
        exact congrArg _ (hsolve _ _ _ hperm (R.sample_subperm s _ _).subset)
      · rw [if_neg hlong, if_neg hlong]
        exact hsolve _ _ _ htrucks (List.Subset.refl _)

/-! ## Rounds -/

theorem companyTurn_relisted (hm₀ : OfTick ctx fb pools m₀) (rnd : ℤ) (h : String)
    {st : TurnState σ} (hst : TurnSafe (RuleLicence ctx) fb m₀ st)
    (hcut : ctx.useSpatial = true → SameCut ctx fb fb' m₀)
    (hsample : ctx.useSpatial ≠ true → candidateOrders fb st.market h ≠ [] →
      SameSample R ctx fb fb' m₀ h st.rng) :
    companyTurn R ctx fb m₀ (roundCandidates ctx fb m₀) rnd h st =
      companyTurn R ctx fb' m₀ (roundCandidates ctx fb' m₀) rnd h st := by
  have hown : isOwnPair fb = isOwnPair fb' := by
    funext g p
    rw [isOwnPair, isOwnPair, hr.ownerOf hfb]
  rw [companyTurn, companyTurn, isEmpty_eq_of_perm (hr.freeTrucks m₀ h),
    isEmpty_eq_of_perm (hr.candidateOrders hfb st.market h),
    solveCompany_relisted hr hfb hsolver hc htie hm₀ ⟨hst.market, hst.book.1.trans hm₀.2⟩ h st.rng
      hcut hsample]
  simp only [actOnPlan, ownPrivatePairs, ownContributedPairs, foreignPairs, hown]

theorem companyTurns_relisted (hg : Greedy R ctx) (hm₀ : OfTick ctx fb pools m₀) (rnd : ℤ)
    (hcut : ctx.useSpatial = true → SameCut ctx fb fb' m₀) (hs : List String) {st : TurnState σ}
    (hst : TurnSafe (RuleLicence ctx) fb m₀ st)
    (hsample : ctx.useSpatial ≠ true → EveryTurn R ctx fb (fun h turn ↦
      candidateOrders fb turn.market h ≠ [] → SameSample R ctx fb fb' m₀ h turn.rng) m₀
      (roundCandidates ctx fb m₀) rnd hs st) :
    companyTurns R ctx fb m₀ (roundCandidates ctx fb m₀) rnd hs st =
      companyTurns R ctx fb' m₀ (roundCandidates ctx fb' m₀) rnd hs st := by
  induction hs generalizing st with
  | nil => rfl
  | cons h hs ih =>
    rw [companyTurns, companyTurns,
      ← companyTurn_relisted hr hfb hsolver hc htie hm₀ rnd h hst hcut fun hu ↦ (hsample hu).1]
    cases hturn : companyTurn R ctx fb m₀ (roundCandidates ctx fb m₀) rnd h st with
    | error e => rfl
    | ok st' =>
      refine ih (companyTurn_safe hfb hg.sound ruleLicence_privateSound hg.claimSound hst hturn)
        fun hu ↦ (hsample hu).2 st' ?_
      rw [hturn]
      rfl

theorem playRound_relisted (hg : Greedy R ctx) (rnd : ℤ) {st : TickState σ}
    (hst : OfTick ctx fb pools st.market) (hdraw : SameDraw R ctx fb fb' rnd st) :
    playRound R ctx fb rnd st = playRound R ctx fb' rnd st := by
  have hcut : ctx.useSpatial = true → SameCut ctx fb fb' st.market := by
    intro hu
    rwa [SameDraw, if_pos hu] at hdraw
  have hstart : TurnSafe (RuleLicence ctx) fb st.market
      { market := st.market, rng := st.rng, bids := [], privateCommits := 0 } :=
    ⟨hst.1, SameBook.refl _, nofun⟩
  have hturns := companyTurns_relisted hr hfb hsolver hc htie hg hst rnd hcut fb'.companyIds hstart
    fun hu ↦ by rwa [SameDraw, if_neg hu, hr.companyIds] at hdraw
  have hsettle : ∀ turn : TurnState σ, settleRound R ctx fb turn = settleRound R ctx fb' turn := by
    intro turn
    rw [settleRound, settleRound, funext (hr.ownerOf hfb)]
  have hcount : candidateCount (roundCandidates ctx fb st.market) =
      candidateCount (roundCandidates ctx fb' st.market) :=
    (roundCandidates_relisted hr hfb fun hus ↦ hcut ((Bool.and_eq_true _ _).mp hus).1).1
  simp only [playRound, hr.companyIds, hcount, hturns, hsettle]

theorem playRounds_relisted (hg : Greedy R ctx) (n : ℕ) (rnd : ℤ) {st : TickState σ}
    (hst : OfTick ctx fb pools st.market)
    (hdraw : EveryRound R ctx fb (SameDraw R ctx fb fb') n rnd st) :
    playRounds R ctx fb n rnd st = playRounds R ctx fb' n rnd st := by
  induction n generalizing rnd st with
  | zero => rfl
  | succ n ih =>
    rw [EveryRound] at hdraw
    rw [playRounds, playRounds, hr.inputOrderIds hfb] at *
    split
    · rfl
    · next hfree =>
      rw [if_neg hfree] at hdraw
      rw [← playRound_relisted hr hfb hsolver hc htie hg rnd hst hdraw.1]
      cases hround : playRound R ctx fb rnd st with
      | error e => rfl
      | ok st' =>
        obtain ⟨hm, hbook⟩ := playRound_safe hfb hg.sound ruleLicence_privateSound hg.claimSound
          hst.1 hround
        dsimp only
        split
        · rfl
        · next hgoes =>
          refine ih (rnd + 1) ⟨hm, hbook.1.trans hst.2⟩ (hdraw.2 st' ?_ ?_)
          · rw [hround]
            rfl
          · exact Bool.eq_false_iff.mpr hgoes

end Tick

end Relisting

/-! ## Accounting -/

/-- One truck of the owner's, in the search for its reserve. -/
def reserveStep (o : Order) (committed : List String) (pairAllowed : PairAllowed) (cost : Cost)
    (best : Option Double) (t : Truck) : Option Double :=
  if t.entityId ∈ committed ∨ pairAllowed t o = false then best else
    match floatCost cost t o with
    | .ok c => if c = .posInf ∨ c = .nan then best else Double.keepLeast best c
    | .error _ => best

theorem ownerReserveKm_eq (hc : cost.Total) (o : Order) (committed : List String)
    (pairAllowed : PairAllowed) (ts : List Truck) (best : Option Double) :
    ownerReserveKm o committed pairAllowed cost ts best =
      .ok (ts.foldl (reserveStep o committed pairAllowed cost) best) := by
  induction ts generalizing best with
  | nil => rfl
  | cons t ts ih =>
    rw [ownerReserveKm, List.foldl_cons, reserveStep]
    split
    · exact ih best
    · obtain ⟨c, hct⟩ := hc t o
      have hnum : cost t o = .ok (.num c) := by
        rw [floatCost] at hct
        cases hto : cost t o with
        | error e => rw [hto] at hct; cases hct
        | ok a =>
          rw [hto] at hct
          cases a with
          | num x => rw [Except.ok.inj hct]
          | notNumber => cases hct
      rw [hnum, hct]
      dsimp only
      split
      · exact ih best
      · cases best with
        | none => exact ih _
        | some b => exact ih _

theorem reserveStep_comm (o : Order) (committed : List String) (pairAllowed : PairAllowed)
    (cost : Cost) (t u : Truck) (best : Option Double) :
    reserveStep o committed pairAllowed cost
        (reserveStep o committed pairAllowed cost best t) u =
      reserveStep o committed pairAllowed cost
        (reserveStep o committed pairAllowed cost best u) t := by
  have hstep : ∀ t, (∀ b, reserveStep o committed pairAllowed cost b t = b) ∨
      ∃ c, c ≠ Double.nan ∧
        ∀ b, reserveStep o committed pairAllowed cost b t = Double.keepLeast b c := by
    intro t
    simp only [reserveStep]
    split
    · exact Or.inl fun _ ↦ rfl
    · split
      · next c _ =>
        split
        · exact Or.inl fun _ ↦ rfl
        · next hne => exact Or.inr ⟨c, (not_or.mp hne).2, fun _ ↦ rfl⟩
      · exact Or.inl fun _ ↦ rfl
  rcases hstep t with ht | ⟨c, hcn, ht⟩
  · rw [ht, ht]
  · rcases hstep u with hu | ⟨d, hdn, hu⟩
    · rw [hu, hu]
    · rw [ht, hu, hu, ht, Double.keepLeast_comm hcn hdn]

theorem account_relisted (hr : Relisted fb fb') (hfb : fb.WellFiled) (hc : ctx.cost.Total)
    (committed : List String) (as : List Award)
    (acc : List Pair × Dict (String × String) ShareTag) :
    account R ctx fb committed as acc = account R ctx fb' committed as acc := by
  have hreserve : ∀ (o : Order) (h : String),
      ownerReserveKm o committed ctx.pairAllowedOwn ctx.cost (fb.trucksOf h) none =
        ownerReserveKm o committed ctx.pairAllowedOwn ctx.cost (fb'.trucksOf h) none := by
    intro o h
    rw [ownerReserveKm_eq hc, ownerReserveKm_eq hc, (hr.trucks h).foldl_eq'
      (fun t _ u _ best ↦ reserveStep_comm o committed ctx.pairAllowedOwn ctx.cost t u best)]
  induction as generalizing acc with
  | nil => rfl
  | cons a as ih =>
    rw [account, account, hr.trucksById hfb, hr.ordersById hfb]
    simp only [ih, hreserve]

theorem closingAssertions_relisted (hr : Relisted fb fb') (hfb : fb.WellFiled)
    (as : List Award) : closingAssertions fb as = closingAssertions fb' as := by
  simp only [closingAssertions, hr.inputOrderIds hfb, hr.ownerOf hfb]

/-! ## The tick -/

/-- **Relisting the input changes nothing** when in every round the caps keep the same trucks of
both listings and no two pairs of equal cost share a tie-break hash: the tick returns the same
assignment in the same order, the same share tags and the same statistics, or is aborted by the same
error. -/
theorem runPooledMarket_relisted (hr : Relisted fb fb') (hfb : fb.WellFiled)
    (hsolver : ctx.solver = greedyNearest R (some ctx.tickSeed)) (ho : ctx.offer = offerAll)
    (hclaim : ctx.claim = claimAllPlanned) (hc : ctx.cost.Total) (pools : List Pool)
    (htie : TieFree R ctx fb pools) (s : σ)
    (hdraw : EveryRoundOf R ctx fb (SameDraw R ctx fb fb') pools s) :
    runPooledMarket R ctx fb pools s = runPooledMarket R ctx fb' pools s := by
  have hg : Greedy R ctx := ⟨⟨_, hsolver⟩, hclaim, hc⟩
  have hstart : Contributing (RuleLicence ctx) fb (init pools)
      (contributeAll ctx fb (init pools) s).1 := contributeAll_safe pools s
  have hrounds : tickRounds R ctx fb pools s = tickRounds R ctx fb' pools s := by
    rw [tickRounds, tickRounds, ← contributeAll_relisted hr hfb ho]
    exact playRounds_relisted hr hfb hsolver hc htie hg _ 1 ⟨hstart.1, hstart.2.2⟩ hdraw
  rw [runPooledMarket, runPooledMarket, hrounds]
  simp only [account_relisted hr hfb hc, closingAssertions_relisted hr hfb]

/-! ## One truck too many

A company with two trucks in the same place — here in none — an order it may serve with either, and
room for one candidate. -/

/-- The book of one company with one order and the trucks of a list. -/
def oneOrderBook (trucks : List Truck) : FleetBook where
  trucksByHaulier := Dict.ofList [("A", trucks)]
  ordersByHaulier := Dict.ofList [("A", [{ id := some "oA", haulierId := some "A" }])]

def truckOne : Truck := { id := some "t1", haulierId := some "A" }

def truckTwo : Truck := { id := some "t2", haulierId := some "A" }

/-- Everything allowed, at a cost that tells the two trucks apart, one candidate for each order. -/
def tightContext (perOrder : ℕ) : PooledPlannerContext Unit where
  solver := greedyNearest smallRuntime (some 7)
  offer := offerAll
  claim := claimAllPlanned
  arbitration := .lowestCost
  maxRounds := 20
  pairAllowedOwn _ _ := true
  pairAllowedPooled _ _ := true
  cost t _ := .ok (.num (.fin (if t.id = some "t1" then 1 else 2)))
  tickSeed := 7
  spatialParams := { perOrder := perOrder }

/-- The pairs of a tick of the one-order book. -/
def oneOrderTick (trucks : List Truck) : Option (List (Option String × Option String)) :=
  match runPooledMarket smallRuntime (tightContext 1) (oneOrderBook trucks) [] () with
  | .ok res => some (res.assignment.map fun p ↦ (p.1.id, p.2.id))
  | .error _ => none

theorem oneOrderBook_relisted : Relisted (oneOrderBook [truckOne, truckTwo])
    (oneOrderBook [truckTwo, truckOne]) where
  truckKeys := List.Perm.refl _
  orderKeys := List.Perm.refl _
  trucks h := by
    simp only [FleetBook.trucksOf, oneOrderBook]
    split
    · exact List.Perm.refl _
    · rw [Dict.ofList, Dict.update, Dict.ofList, Dict.update]
      simp only [List.foldl_cons, List.foldl_nil, Dict.get?_set]
      split
      · exact List.Perm.swap _ _ _
      · exact List.Perm.refl _
  orders h := List.Perm.refl _

theorem oneOrderBook_wellFiled : (oneOrderBook [truckOne, truckTwo]).WellFiled :=
  FleetBook.WellFiled.of_filed (by decide) (by decide) (by decide)

theorem tightContext_total (n : ℕ) : (tightContext n).cost.Total :=
  fun t _ ↦ ⟨.fin (if t.id = some "t1" then 1 else 2), rfl⟩

/-- **The truck listed first gets the order**: relisting the fleet changes what is assigned. -/
theorem listing_decides_at_the_cap : ¬ ∀ (σ : Type) (R : Runtime σ) (ctx : PooledPlannerContext σ)
    (fb fb' : FleetBook) (pools : List Pool) (s : σ) (res res' : PooledMarketResult),
    Relisted fb fb' → fb.WellFiled → ctx.solver = greedyNearest R (some ctx.tickSeed) →
    ctx.offer = offerAll → ctx.claim = claimAllPlanned → ctx.arbitration = .lowestCost →
    ctx.cost.Total → runPooledMarket R ctx fb pools s = .ok res →
    runPooledMarket R ctx fb' pools s = .ok res' →
    ∀ p ∈ res.assignment.map (fun p ↦ (p.1.id, p.2.id)),
      p ∈ res'.assignment.map fun p ↦ (p.1.id, p.2.id) := by
  intro hall
  have hone : oneOrderTick [truckOne, truckTwo] = some [(some "t1", some "oA")] := by
    decide +kernel
  have htwo : oneOrderTick [truckTwo, truckOne] = some [(some "t2", some "oA")] := by
    decide +kernel
  rw [oneOrderTick] at hone htwo
  split at hone
  · next res hres =>
    split at htwo
    · next res' hres' =>
      have hmem := hall Unit smallRuntime (tightContext 1) _ _ [] () res res' oneOrderBook_relisted
        oneOrderBook_wellFiled rfl rfl rfl rfl (tightContext_total 1) hres hres'
        (some "t1", some "oA") (by rw [Option.some_inj.mp hone]; exact List.mem_singleton_self _)
      rw [Option.some_inj.mp htwo] at hmem
      exact absurd hmem (by decide)
    · cases htwo
  · cases hone

/-! ## A cap that cuts, and decides nothing -/

/-- Distinct costs, or distinct hashes, of all filed pairs leave no ties. -/
theorem tieFree_of_filed {pools : List Pool}
    (h : ∀ x ∈ fb.filedTrucks, ∀ y ∈ fb.filedTrucks, ∀ u ∈ fb.filedOrders, ∀ v ∈ fb.filedOrders,
      (floatCost ctx.cost x.2 u.2).toOption.map Double.rank =
        (floatCost ctx.cost y.2 v.2).toOption.map Double.rank →
      pairTiebreak R ctx.tickSeed u.2.entityId x.2.entityId =
        pairTiebreak R ctx.tickSeed v.2.entityId y.2.entityId → x.2 = y.2 ∧ u.2 = v.2) :
    TieFree R ctx fb pools := by
  rintro g ⟨t, o⟩ ⟨t', o'⟩ ⟨ht, ⟨owner, ho, -⟩, -⟩ ⟨ht', ⟨owner', ho', -⟩, -⟩ hcost hhash
  obtain ⟨rfl, rfl⟩ := h (g, t) (FleetBook.mem_filedTrucks.mpr ht) (g, t')
    (FleetBook.mem_filedTrucks.mpr ht') (owner, o) (FleetBook.mem_filedOrders.mpr ho) (owner', o')
    (FleetBook.mem_filedOrders.mpr ho') hcost hhash
  rfl

/-- A truck at a place. -/
def placedTruck (id haulierId : String) (lat : ℚ) : Truck :=
  { id := some id
    haulierId := some haulierId
    profile := { currentLoc := some ⟨.float (.fin 0), .float (.fin lat)⟩ } }

/-- An order picked up at the origin. -/
def originOrderOf (id haulierId : String) : Order :=
  { id := some id
    haulierId := some haulierId
    pickupLoc := some ⟨.float (.fin 0), .float (.fin 0)⟩ }

/-- Company `A` has a truck in the cell of its two orders and two in the cell beside it; `B` has one
further out. -/
def ringBook : FleetBook where
  trucksByHaulier := Dict.ofList
    [("A", [placedTruck "t1" "A" 0, placedTruck "t2" "A" 1, placedTruck "t3" "A" 1]),
      ("B", [placedTruck "tB" "B" 2])]
  ordersByHaulier := Dict.ofList [("A", [originOrderOf "oA" "A", originOrderOf "oB" "A"])]

/-- The same with the companies, the trucks and the orders listed otherwise. -/
def ringBookRelisted : FleetBook where
  trucksByHaulier := Dict.ofList
    [("B", [placedTruck "tB" "B" 2]),
      ("A", [placedTruck "t2" "A" 1, placedTruck "t3" "A" 1, placedTruck "t1" "A" 0])]
  ordersByHaulier := Dict.ofList [("A", [originOrderOf "oB" "A", originOrderOf "oA" "A"])]

/-- A grid of one degree, one candidate for each order, and a cost for each pair of its own. -/
def ringContext : PooledPlannerContext Unit :=
  { tightContext 1 with
    cost := fun t o ↦ .ok (.num (.fin ((["t1", "t2", "t3", "tB"].idxOf t.entityId : ℚ) +
      if o.id = some "oB" then 10 else 0)))
    spatialParams := { cellDeg := .fin 1, perOrder := 1 } }

theorem ringBook_relisted : Relisted ringBook ringBookRelisted where
  truckKeys := List.Perm.swap _ _ _
  orderKeys := List.Perm.refl _
  trucks h := by
    by_cases hA : h = "A"
    · subst hA
      decide
    · by_cases hB : h = "B"
      · subst hB
        decide
      · simp [FleetBook.trucksOf, ringBook, ringBookRelisted, Dict.ofList, Dict.update,
          Dict.get?_set, hA, hB]
  orders h := by
    by_cases hA : h = "A"
    · subst hA
      decide
    · simp [FleetBook.ordersOf, ringBook, ringBookRelisted, Dict.ofList, Dict.update,
        Dict.get?_set, hA]

def ringPools : List Pool := [{ id := "p", members := SortedSet.ofList ["A", "B"] }]

/-- The rounds and the pairs of the tick of the ring book. -/
def ringTick : Option (ℤ × List (Option String × Option String)) :=
  match runPooledMarket smallRuntime ringContext ringBook ringPools () with
  | .ok res => some (res.roundsUsed, res.assignment.map fun p ↦ (p.1.id, p.2.id))
  | .error _ => none

instance (m : PoolMarket) : Decidable (SameCut ctx fb fb' m) :=
  inferInstanceAs (Decidable (∀ o ∈ _, ∀ carriers ∈ carriersOf fb m o, _))

/-- In the second round the cap cuts through the cell of two trucks, and keeps the same one of them
in both listings. -/
theorem runPooledMarket_relisted_rings :
    ringTick = some (2, [(some "t1", some "oA"), (some "t2", some "oB")]) ∧
      runPooledMarket smallRuntime ringContext ringBook ringPools () =
        runPooledMarket smallRuntime ringContext ringBookRelisted ringPools () := by
  have hcut : EveryRoundOf smallRuntime ringContext ringBook
      (fun _ st ↦ SameCut ringContext ringBook ringBookRelisted st.market) ringPools () := by
    decide +kernel
  have hdraw : EveryRoundOf smallRuntime ringContext ringBook
      (SameDraw smallRuntime ringContext ringBook ringBookRelisted) ringPools () :=
    have hu : ringContext.useSpatial = true := rfl
    EveryRound.imp (I := fun _ ↦ True) (fun _ _ _ _ _ ↦ trivial)
      (fun _ _ _ h ↦ by rw [SameDraw, if_pos hu]; exact h) trivial hcut
  exact ⟨by decide +kernel, runPooledMarket_relisted ringBook_relisted
    (FleetBook.WellFiled.of_filed (by decide) (by decide) (by decide)) rfl rfl rfl
    (fun t o ↦ ⟨_, rfl⟩) ringPools (tieFree_of_filed (by decide +kernel)) () hdraw⟩

end OpenRide.Assignment
