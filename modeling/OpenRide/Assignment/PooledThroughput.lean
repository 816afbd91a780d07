import OpenRide.Assignment.PooledConvergence
import OpenRide.Assignment.SpatialReach

/-!
# Pools and throughput

Does placing orders into pools ever cost service?  It can: a cheap foreign order may take the only
truck that could have served a company's own (`pools_can_halve`).  It costs at most half:
whatever the pools, a converged tick serves at least half as many orders as the same tick without
pools (`runPooledMarket_half`).

The bound is the usual one between two matchings of which one is maximal.  A pair of the tick
without pools is a truck and an order of one company that its rule allows and that are in reach of
each other; in the market a converged tick ends with such a pair is not executable, so its truck or
its order is taken, and an award takes one of each.  For this the candidate caps must cut nothing
off (`Uncapped`), since an order none of whose candidates could serve it stays unserved for good.
-/

namespace OpenRide.Assignment

open Lib PoolMarket

variable {σ : Type} {R : Runtime σ} {ctx : PooledPlannerContext σ} {fb : FleetBook}

/-- No candidate cap cuts anything off: with the spatial index no order has more trucks in reach
than it may have candidates, without it no fleet is larger than what is sampled from it. -/
def Uncapped (ctx : PooledPlannerContext σ) (fb : FleetBook) : Prop :=
  if ctx.useSpatial then
    ∀ p ∈ fb.filedOrders, (reached ctx.facilityCenter ctx.spatialParams
      (fb.companyIds.flatMap fb.trucksOf) p.2).length ≤ ctx.spatialParams.perOrder
  else ∀ g, (fb.trucksOf g).length ≤ ctx.maxTrucksPerHaulier

/-! ## Reach as part of the pair rule -/

/-- The same configuration, its pair rules restricted to the pairs in reach. -/
def withinReach (ctx : PooledPlannerContext σ) : PooledPlannerContext σ :=
  { ctx with
    pairAllowedOwn := fun t o ↦
      ctx.pairAllowedOwn t o && inReach ctx.facilityCenter ctx.spatialParams t o
    pairAllowedPooled := fun t o ↦
      ctx.pairAllowedPooled t o && inReach ctx.facilityCenter ctx.spatialParams t o }

theorem pairAllowedFor_withinReach (carrier : String) (t : Truck) (o : Order) :
    pairAllowedFor (withinReach ctx) carrier t o =
      (pairAllowedFor ctx carrier t o && inReach ctx.facilityCenter ctx.spatialParams t o) := by
  rw [pairAllowedFor, pairAllowedFor]
  split <;> rfl

theorem buildRoundCandidates_withinReach (free : String → List Truck) (orders : List Order)
    (m : PoolMarket) :
    buildRoundCandidates (withinReach ctx) fb free orders m =
      buildRoundCandidates ctx fb free orders m := by
  have hgroup : ∀ carriers group,
      groupCandidates (withinReach ctx) free carriers group =
        groupCandidates ctx free carriers group := by
    intro carriers group
    rw [groupCandidates, groupCandidates, iterCandidatePairs_eq, iterCandidatePairs_eq]
    refine List.flatMap_congr fun o _ ↦ congrArg _ (List.filter_congr fun t ht ↦ ?_)
    have hr := (mem_reached.mp (List.mem_of_mem_take ht)).2
    rw [allowedForCarrier, allowedForCarrier]
    split
    · rfl
    · rw [pairAllowedFor_withinReach]
      exact (congrArg _ hr).trans (Bool.and_true _)
  rw [buildRoundCandidates, buildRoundCandidates]
  simp only [hgroup]

theorem commitPrivate_withinReach (h : String) (rnd : ℤ) (ps : List Pair) (st : ℕ × PoolMarket) :
    commitPrivate (withinReach ctx) h rnd ps st = commitPrivate ctx h rnd ps st := by
  induction ps generalizing st with
  | nil => rfl
  | cons p ps ih =>
    simp only [commitPrivate, ih]
    rfl

/-- With the spatial index the pair rules act through the candidates alone. -/
theorem companyTurn_withinReach (hus : usesSpatial ctx = true) (m₀ : PoolMarket)
    (cands : Dict String (List Pair)) (rnd : ℤ) (h : String) (st : TurnState σ) :
    companyTurn R (withinReach ctx) fb m₀ cands rnd h st =
      companyTurn R ctx fb m₀ cands rnd h st := by
  obtain ⟨hu, hsp⟩ := (Bool.and_eq_true _ _).mp hus
  obtain ⟨solvePairs, hsp⟩ := Option.isSome_iff_exists.mp hsp
  have hsolve : ∀ trucks orders pairs s,
      solveCompany R (withinReach ctx) trucks orders (pairAllowedFor (withinReach ctx) h) pairs s =
        solveCompany R ctx trucks orders (pairAllowedFor ctx h) pairs s := by
    intro trucks orders pairs s
    have hu' : (withinReach ctx).useSpatial = true := hu
    have hsp' : (withinReach ctx).solver.solvePairs = some solvePairs := hsp
    rw [solveCompany, solveCompany, if_pos hu, if_pos hu', hsp, hsp']
    rfl
  simp only [companyTurn, hsolve, actOnPlan, commitPrivate_withinReach]
  rfl

theorem companyTurns_withinReach (hus : usesSpatial ctx = true) (m₀ : PoolMarket)
    (cands : Dict String (List Pair)) (rnd : ℤ) (hs : List String) (st : TurnState σ) :
    companyTurns R (withinReach ctx) fb m₀ cands rnd hs st =
      companyTurns R ctx fb m₀ cands rnd hs st := by
  induction hs generalizing st with
  | nil => rfl
  | cons h hs ih => simp only [companyTurns, companyTurn_withinReach hus, ih]

theorem playRound_withinReach (hus : usesSpatial ctx = true) (rnd : ℤ) (st : TickState σ) :
    playRound R (withinReach ctx) fb rnd st = playRound R ctx fb rnd st := by
  have hcands : roundCandidates (withinReach ctx) fb st.market =
      roundCandidates ctx fb st.market := by
    have hus' : usesSpatial (withinReach ctx) = true := hus
    rw [roundCandidates, roundCandidates, if_pos hus, if_pos hus',
      buildRoundCandidates_withinReach]
  simp only [playRound, hcands, companyTurns_withinReach hus]
  rfl

theorem playRounds_withinReach (hus : usesSpatial ctx = true) (n : ℕ) (rnd : ℤ)
    (st : TickState σ) :
    playRounds R (withinReach ctx) fb n rnd st = playRounds R ctx fb n rnd st := by
  induction n generalizing rnd st with
  | zero => rfl
  | succ n ih => simp only [playRounds, playRound_withinReach hus, ih]

/-- **Reading the reach into the pair rules changes no tick** that uses the spatial index. -/
theorem tickRounds_withinReach (hus : usesSpatial ctx = true) (pools : List Pool) (s : σ) :
    tickRounds R (withinReach ctx) fb pools s = tickRounds R ctx fb pools s :=
  playRounds_withinReach hus _ _ _

/-! ## What a tick awards -/

theorem Greedy.usesSpatial (hg : Greedy R ctx) (hu : ctx.useSpatial = true) :
    usesSpatial ctx = true := by
  obtain ⟨seed, hseed⟩ := hg.solver
  rw [Assignment.usesSpatial, hu, hseed]
  rfl

/-- The pair rule of a carrier, and with the spatial index the reach of the order. -/
def Servable (ctx : PooledPlannerContext σ) (carrier : String) (t : Truck) (o : Order) : Prop :=
  pairAllowedFor ctx carrier t o = true ∧
    (ctx.useSpatial = true → inReach ctx.facilityCenter ctx.spatialParams t o = true)

instance (ctx : PooledPlannerContext σ) (carrier : String) (t : Truck) (o : Order) :
    Decidable (Servable ctx carrier t o) :=
  inferInstanceAs (Decidable (_ ∧ _))

variable {m : PoolMarket} {h : String}

/-- Every prebuilt candidate is servable. -/
theorem servable_of_mem_buildRoundCandidates (hfb : fb.WellFiled) {p : Pair}
    (hp : p ∈ ((buildRoundCandidates ctx fb (freeTrucks fb m) (freeOrders fb m) m).get? h).getD [])
    : Servable ctx h p.1 p.2 := by
  rw [← buildRoundCandidates_withinReach] at hp
  obtain ⟨-, -, -, hrule⟩ := mem_buildRoundCandidates hfb hp
  rw [pairAllowedFor_withinReach, Bool.and_eq_true] at hrule
  exact ⟨hrule.1, fun _ ↦ hrule.2⟩

/-- An award is for a truck of its carrier and a known order that the truck may serve. -/
theorem servable_of_mem_awards (hfb : fb.WellFiled) (hg : Greedy R ctx) {pools : List Pool} {s : σ}
    {st : TickState σ} (hst : tickRounds R ctx fb pools s = .ok st) {a : Award}
    (ha : a ∈ st.market.awards) :
    ∃ owner t o, t ∈ fb.trucksOf a.carrierHaulierId ∧ t.entityId = a.truckId ∧
      o ∈ fb.ordersOf owner ∧ o.entityId = a.orderId ∧
      (a.carrierHaulierId = owner ∨ st.market.Visible a.carrierHaulierId a.orderId) ∧
      Servable ctx a.carrierHaulierId t o := by
  by_cases hu : ctx.useSpatial = true
  · have hg' : Greedy R (withinReach ctx) := ⟨hg.solver, hg.claim, hg.cost⟩
    rw [← tickRounds_withinReach (hg.usesSpatial hu)] at hst
    obtain ⟨hm, -⟩ := tickRounds_safe hfb hg'.sound ruleLicence_privateSound hg'.claimSound hst
    obtain ⟨owner, t, o, ht, hti, ho, hoi, -, hv, hrule⟩ := hm.licensed a ha
    rw [RuleLicence, pairAllowedFor_withinReach, Bool.and_eq_true] at hrule
    exact ⟨owner, t, o, ht, hti, ho, hoi, hv, hrule.1, fun _ ↦ hrule.2⟩
  · obtain ⟨hm, -⟩ := tickRounds_safe hfb hg.sound ruleLicence_privateSound hg.claimSound hst
    obtain ⟨owner, t, o, ht, hti, ho, hoi, -, hv, hrule⟩ := hm.licensed a ha
    exact ⟨owner, t, o, ht, hti, ho, hoi, hv, hrule, fun h ↦ absurd h hu⟩

/-! ## What is executable when nothing is cut off -/

theorem ne_empty_of_mem_ordersOf {o : Order} (ho : o ∈ fb.ordersOf h) : h ≠ "" := by
  rintro rfl
  exact absurd ho List.not_mem_nil

/-- The free trucks of a set of companies are listed in a part of all trucks of these. -/
theorem freeTrucks_sublist (m : PoolMarket) (carriers : SortedSet String) {hs : List String}
    (hsorted : hs.Pairwise (· < ·)) (hsub : ∀ g ∈ carriers, g ∈ fb.companyIds → g ∈ hs) :
    (carriers.toList.flatMap (freeTrucks fb m)).Sublist (hs.flatMap fb.trucksOf) := by
  have hcompanies : carriers.toList.flatMap fb.trucksOf =
      (carriers.toList.filter fun h ↦ h ∈ fb.companyIds).flatMap fb.trucksOf := by
    generalize carriers.toList = gs
    induction gs with
    | nil => rfl
    | cons g gs ih =>
      rw [List.flatMap_cons, ih]
      by_cases hg : g ∈ fb.companyIds
      · rw [List.filter_cons_of_pos (by simpa using hg), List.flatMap_cons]
      · have hnil : fb.trucksOf g = [] := List.eq_nil_iff_forall_not_mem.mpr fun t ht ↦
          hg (mem_companyIds_of_mem_trucksOf ht)
        rw [List.filter_cons_of_neg (by simpa using hg), hnil, List.nil_append]
  have hlist : (carriers.toList.filter fun h ↦ h ∈ fb.companyIds).Sublist hs := by
    refine List.sublist_of_subperm_of_pairwise ?_ (carriers.sorted.filter _) hsorted
    refine List.subperm_of_subset (carriers.nodup.filter _) fun g hg ↦ ?_
    obtain ⟨hgc, hg⟩ := List.mem_filter.mp hg
    exact hsub g (SortedSet.mem_def.mpr hgc) (of_decide_eq_true hg)
  refine (List.Sublist.flatMap_right _ fun h _ ↦ List.filter_sublist).trans ?_
  exact hcompanies ▸ hlist.flatMap _

/-- **A servable pair of a company is executable** while truck and order are free, when no cap
cuts anything off. -/
theorem executable_of_servable (hfb : fb.WellFiled) (hcap : Uncapped ctx fb) {owner : String}
    {t : Truck} {o : Order} (ht : t ∈ freeTrucks fb m h) (ho : o ∈ fb.ordersOf owner)
    (hf : m.isOrderFree o.entityId = true) (hv : h = owner ∨ m.Visible h o.entityId)
    (hs : Servable ctx h t o) : Executable ctx fb m h t o := by
  have hfree : o ∈ freeOrders fb m := (mem_freeOrders hfb).mpr ⟨⟨owner, ho⟩, hf⟩
  have how : fb.ownerOf o.entityId = some owner := hfb.ownerOf_eq_some.mpr ⟨o, ho, rfl⟩
  refine ⟨ht, hfree, hv.imp_left fun he : h = owner ↦ he.symm ▸ how, ?_⟩
  rw [Uncapped] at hcap
  by_cases hu : ctx.useSpatial = true
  · rw [if_pos hu] at hcap ⊢
    have hth := hfb.truck_haulier h t (mem_freeTrucks.mp ht).1
    have hc : carriersOf fb m o = some (m.eligibleCarriers o.entityId owner) := by
      rw [carriersOf, how]
      exact if_neg (ne_empty_of_mem_ordersOf ho)
    have hgroup : o ∈ ((Dict.groupBy (carriersOf fb m) (freeOrders fb m)).get?
        (m.eligibleCarriers o.entityId owner)).getD [] := by
      rw [Dict.getD_groupBy, List.mem_filter]
      exact ⟨hfree, decide_eq_true hc⟩
    rw [buildRoundCandidates, Dict.getD_groupBy, List.mem_filter, List.mem_flatMap]
    refine ⟨⟨m.eligibleCarriers o.entityId owner, ?_, ?_⟩, decide_eq_true hth⟩
    · rw [mem_sortedBy, Dict.mem_keys_groupBy]
      exact ⟨o, hfree, hc⟩
    · rw [groupCandidates]
      refine (mem_iterCandidatePairs_of_le ?_).mpr ⟨?_, hgroup, hs.2 hu, ?_⟩
      · have hsorted : fb.companyIds.Pairwise (· < ·) := SortedSet.sorted _
        have hsub := freeTrucks_sublist m (m.eligibleCarriers o.entityId owner) hsorted
          fun g _ hg ↦ hg
        exact (reached_sublist hsub).length_le.trans
          (hcap (owner, o) (FleetBook.mem_filedOrders.mpr ho))
      · exact List.mem_flatMap.mpr
          ⟨h, SortedSet.mem_def.mp (mem_eligibleCarriers.mpr hv), ht⟩
      · rw [allowedForCarrier, hth]
        exact hs.1
  · rw [if_neg hu] at hcap ⊢
    exact ⟨hcap, hs.1⟩

/-! ## Two ticks compared -/

theorem not_visible_of_no_pools (hpools : m.pools = (init []).pools) (h oid : String) :
    ¬ m.Visible h oid := by
  rintro ⟨pids, -, pid, -, hm⟩
  rw [memberOf, hpools] at hm
  exact absurd hm (by simp [init, Dict.ofList, Dict.update])

theorem tickRounds_of_runPooledMarket {pools : List Pool} {s : σ} {res : PooledMarketResult}
    (hrun : runPooledMarket R ctx fb pools s = .ok res) :
    ∃ st, tickRounds R ctx fb pools s = .ok st ∧ st.market = res.market := by
  rw [runPooledMarket] at hrun
  split at hrun
  · cases hrun
  · next st hst =>
    split at hrun
    · cases hrun
    · split at hrun
      · cases hrun
      · exact ⟨st, hst, congrArg PooledMarketResult.market (Except.ok.inj hrun)⟩

/-- **Pools cost at most half of the service.**  When no candidate cap cuts anything off, a
converged tick serves at least half as many orders as any tick without pools on the same input. -/
theorem runPooledMarket_half (hfb : fb.WellFiled) (hid : fb.Identified) (hg : Greedy R ctx)
    (hcap : Uncapped ctx fb) (pools : List Pool) (s s₀ : σ) (res res₀ : PooledMarketResult)
    (hrun : runPooledMarket R ctx fb pools s = .ok res) (hconv : res.converged = true)
    (hrun₀ : runPooledMarket R ctx fb [] s₀ = .ok res₀) :
    res₀.assignment.length ≤ 2 * res.assignment.length := by
  obtain ⟨hm, -, hf⟩ := (runPooledMarket_spec hfb hg.sound ruleLicence_privateSound
    hg.claimSound pools s).2 res hrun
  obtain ⟨hm₀, hpools₀, hf₀⟩ := (runPooledMarket_spec hfb hg.sound ruleLicence_privateSound
    hg.claimSound [] s₀).2 res₀ hrun₀
  rw [← hf.length_eq, ← hf₀.length_eq]
  refine @length_le_two_mul_of_blocked _ _ _ _ _ Award.orderId Award.truckId Award.orderId
    Award.truckId _ _ hm₀.ledger.orders_nodup hm₀.ledger.trucks_nodup fun a ha ↦ ?_
  rw [← hm.ledger.orders, ← hm.ledger.trucks]
  by_contra hfree
  obtain ⟨hof, htf⟩ := not_or.mp hfree
  obtain ⟨st₀, hst₀, hmk⟩ := tickRounds_of_runPooledMarket hrun₀
  obtain ⟨owner, t, o, ht, hti, ho, hoi, hv, hs⟩ :=
    servable_of_mem_awards hfb hg hst₀ (hmk ▸ ha)
  refine runPooledMarket_maximal hfb hid hg pools s res hrun hconv
    ⟨a.carrierHaulierId, t, o, executable_of_servable hfb hcap ?_ ho ?_ (Or.inl ?_) hs⟩
  · exact mem_freeTrucks.mpr ⟨ht, decide_eq_true (hti ▸ htf)⟩
  · exact decide_eq_true (hoi ▸ hof)
  · exact hv.resolve_right (hmk ▸ not_visible_of_no_pools hpools₀ _ _)

/-! ## A pool that costs a service

Companies `A` and `B` have a truck and an order each and share a pool.  `A`'s truck can only serve
`A`'s order; `B`'s truck can serve both and is nearer to `A`'s. -/

def contestedBook : FleetBook where
  trucksByHaulier := Dict.ofList
    [("A", [{ id := some "tA", haulierId := some "A" }]),
     ("B", [{ id := some "tB", haulierId := some "B" }])]
  ordersByHaulier := Dict.ofList
    [("A", [{ id := some "oA", haulierId := some "A" }]),
     ("B", [{ id := some "oB", haulierId := some "B" }])]

def contestedContext : PooledPlannerContext Unit where
  solver := greedyNearest smallRuntime (some 7)
  offer := offerAll
  claim := claimAllPlanned
  arbitration := .lowestCost
  maxRounds := 20
  pairAllowedOwn t o := t.haulier == o.haulier && (t.id != some "tA" || o.id != some "oB")
  pairAllowedPooled t o := t.id != some "tA" || o.id != some "oB"
  cost t o := .ok (.num (.fin (if t.id = some "tA" then 2 else if o.id = some "oA" then 1 else 3)))
  tickSeed := 7

theorem contestedBook_wellFiled : contestedBook.WellFiled :=
  FleetBook.WellFiled.of_filed (by decide) (by decide) (by decide)

theorem contestedContext_greedy : Greedy smallRuntime contestedContext :=
  ⟨⟨some 7, rfl⟩, rfl, fun t o ↦
    ⟨.fin (if t.id = some "tA" then 2 else if o.id = some "oA" then 1 else 3), rfl⟩⟩

theorem contestedContext_uncapped : Uncapped contestedContext contestedBook := by
  rw [Uncapped, if_pos (show contestedContext.useSpatial = true from rfl)]
  decide +kernel

/-- How many orders a tick of the contested book serves, and whether it converged. -/
def contestedTick (pools : List Pool) : Option (ℕ × Bool) :=
  match runPooledMarket smallRuntime contestedContext contestedBook pools () with
  | .ok res => some (res.assignment.length, res.converged)
  | .error _ => none

theorem exists_contested : ∃ res res₀,
    runPooledMarket smallRuntime contestedContext contestedBook smallPools () = .ok res ∧
      res.converged = true ∧ res.assignment.length = 1 ∧
    runPooledMarket smallRuntime contestedContext contestedBook [] () = .ok res₀ ∧
      res₀.converged = true ∧ res₀.assignment.length = 2 := by
  have hpool : contestedTick smallPools = some (1, true) := by decide +kernel
  have hnone : contestedTick [] = some (2, true) := by decide +kernel
  rw [contestedTick] at hpool hnone
  split at hpool
  · next res hres =>
    split at hnone
    · next res₀ hres₀ =>
      obtain ⟨hlen, hconv⟩ := Prod.mk.inj (Option.some_inj.mp hpool)
      obtain ⟨hlen₀, hconv₀⟩ := Prod.mk.inj (Option.some_inj.mp hnone)
      exact ⟨res, res₀, hres, hconv, hlen, hres₀, hconv₀, hlen₀⟩
    · cases hnone
  · cases hpool

/-- **The pool costs one of two services.** -/
theorem pools_can_halve : ¬ ∀ (σ : Type) (R : Runtime σ) (ctx : PooledPlannerContext σ)
    (fb : FleetBook) (pools : List Pool) (s : σ) (res res₀ : PooledMarketResult),
    fb.WellFiled → fb.Identified → Greedy R ctx → ctx.offer = offerAll →
    ctx.arbitration = .lowestCost → Uncapped ctx fb →
    runPooledMarket R ctx fb pools s = .ok res → res.converged = true →
    runPooledMarket R ctx fb [] s = .ok res₀ → res₀.converged = true →
    res₀.assignment.length ≤ res.assignment.length := by
  intro hall
  obtain ⟨res, res₀, hres, hconv, hlen, hres₀, hconv₀, hlen₀⟩ := exists_contested
  have hle := hall Unit smallRuntime contestedContext contestedBook smallPools () res res₀
    contestedBook_wellFiled (.of_filed (by decide) (by decide)) contestedContext_greedy rfl rfl
    contestedContext_uncapped hres hconv hres₀ hconv₀
  rw [hlen, hlen₀] at hle
  exact absurd hle (by decide)

/-- The bound is attained on the contested book. -/
theorem runPooledMarket_half_contested :
    ∃ res res₀, runPooledMarket smallRuntime contestedContext contestedBook smallPools () =
        .ok res ∧
      runPooledMarket smallRuntime contestedContext contestedBook [] () = .ok res₀ ∧
      res₀.assignment.length ≤ 2 * res.assignment.length := by
  obtain ⟨res, res₀, hres, hconv, -, hres₀, -⟩ := exists_contested
  exact ⟨res, res₀, hres, hres₀, runPooledMarket_half contestedBook_wellFiled
    (.of_filed (by decide) (by decide)) contestedContext_greedy contestedContext_uncapped
    smallPools () () res res₀ hres hconv hres₀⟩

end OpenRide.Assignment
