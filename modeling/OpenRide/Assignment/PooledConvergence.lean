import OpenRide.Assignment.PooledTick

/-!
# Convergence of the pooled market

A tick converges when no input order is left, or when a round commits nothing at all.  Here the
second case is shown to mean what it should: with the greedy solver and the claim policy that bids
on everything planned, a round that commits nothing started from a market in which no company had
a pair left to execute (`runPooledMarket_maximal`).

A round that commits nothing is *quiet*: no private pair was committed, so the market never moved
during the turns.  In a quiet round a company with a candidate left has a nonempty plan, because
the greedy sweep takes a maximal matching; none of its pairs can be private, since their orders and
trucks are free and a private pair would have been committed; so it bids (`companyTurn_quiet`).  A
bid on a free order with a free truck makes arbitration award something, the first award passes the
guard, and its commit goes through — the round was not quiet after all.
-/

namespace OpenRide.Assignment

open Lib PoolMarket

variable {σ : Type} {R : Runtime σ} {ctx : PooledPlannerContext σ} {fb : FleetBook}

/-- A pair of a company that the last round could still have executed: the truck is the company's
and free, the order is free and owned by the company or visible to it, and the pair was a
candidate — with prebuilt candidates one of them, without them one its pair rule allows, provided
that no fleet is above the cap. -/
def Executable (ctx : PooledPlannerContext σ) (fb : FleetBook) (m : PoolMarket) (h : String)
    (t : Truck) (o : Order) : Prop :=
  t ∈ freeTrucks fb m h ∧ o ∈ freeOrders fb m ∧
    (fb.ownerOf o.entityId = some h ∨ m.Visible h o.entityId) ∧
    if ctx.useSpatial then
      (t, o) ∈ ((buildRoundCandidates ctx fb (freeTrucks fb m) (freeOrders fb m) m).get? h).getD []
    else (∀ g, (fb.trucksOf g).length ≤ ctx.maxTrucksPerHaulier) ∧
      pairAllowedFor ctx h t o = true

/-- Every truck and every order carries an id that is not empty. -/
structure FleetBook.Identified (fb : FleetBook) : Prop where
  truck : ∀ h, ∀ t ∈ fb.trucksOf h, ∃ tid, t.id = some tid ∧ tid ≠ ""
  order : ∀ h, ∀ o ∈ fb.ordersOf h, ∃ oid, o.id = some oid ∧ oid ≠ ""

theorem exists_id_of_getD_ne {id : Option String} (h : id.getD "" ≠ "") :
    ∃ i, id = some i ∧ i ≠ "" := by
  cases id with
  | none => exact absurd rfl h
  | some i => exact ⟨i, rfl, h⟩

theorem FleetBook.Identified.of_filed (ht : ∀ p ∈ fb.filedTrucks, p.2.id.getD "" ≠ "")
    (ho : ∀ p ∈ fb.filedOrders, p.2.id.getD "" ≠ "") : fb.Identified :=
  ⟨fun h t hm ↦ exists_id_of_getD_ne (ht (h, t) (FleetBook.mem_filedTrucks.mpr hm)),
    fun h o hm ↦ exists_id_of_getD_ne (ho (h, o) (FleetBook.mem_filedOrders.mpr hm))⟩

/-- The set-up of a convergent market: greedy solver, total cost, bids on everything planned. -/
structure Greedy (R : Runtime σ) (ctx : PooledPlannerContext σ) : Prop where
  solver : ∃ seed, ctx.solver = greedyNearest R seed
  claim : ctx.claim = claimAllPlanned
  cost : ctx.cost.Total

theorem Greedy.sound (hg : Greedy R ctx) : ctx.solver.Sound := by
  obtain ⟨seed, hseed⟩ := hg.solver
  exact hseed ▸ greedyNearest_sound R seed

theorem Greedy.claimSound (hg : Greedy R ctx) : ClaimSound (RuleLicence ctx) ctx fb := by
  have hc : ctx.claim.Registered R.rnd := hg.claim ▸ .claimAllPlanned
  exact hc.faithful.claimSound

/-! ## Plans -/

variable {m : PoolMarket} {h : String}

/-- What a company plans in an unmoved market is open: truck and order free, the order its own or
visible. -/
theorem open_of_mem_plan (hfb : fb.WellFiled) (hg : Greedy R ctx) {s s' : σ} {plan : List Pair}
    (hsolve : solveCompany R ctx (freeTrucks fb m h) (candidateOrders fb m h)
      (pairAllowedFor ctx h) (((roundCandidates ctx fb m).get? h).getD []) s = (.ok plan, s'))
    {p : Pair} (hp : p ∈ plan) :
    m.isTruckFree p.1.entityId = true ∧ m.isOrderFree p.2.entityId = true ∧
      (fb.ownerOf p.2.entityId = some h ∨ m.Visible h p.2.entityId) := by
  rcases mem_solveCompany hg.sound hsolve hp with hp | ⟨ht, ho, -⟩
  · obtain ⟨ht, ho, hv, -⟩ := mem_buildRoundCandidates hfb hp
    exact ⟨(mem_freeTrucks.mp ht).2, ((mem_freeOrders hfb).mp ho).2, hv⟩
  · obtain ⟨hf, hv⟩ := (mem_candidateOrders hfb).mp ho
    refine ⟨(mem_freeTrucks.mp ht).2, hf, ?_⟩
    rcases hv with ho | ⟨-, -, hv⟩
    · exact Or.inl (hfb.ownerOf_eq_some.mpr ⟨_, ho, rfl⟩)
    · exact Or.inr hv

/-- The order of an executable pair is among the orders its company plans over. -/
theorem Executable.mem_candidateOrders (hfb : fb.WellFiled)
    (hown : ∀ oid g, m.contributionOwner.get? oid = some g → fb.ownerOf oid = some g) {t : Truck}
    {o : Order} (hx : Executable ctx fb m h t o) : o ∈ candidateOrders fb m h := by
  obtain ⟨-, ho, hv, -⟩ := hx
  obtain ⟨⟨g, hg⟩, hf⟩ := (mem_freeOrders hfb).mp ho
  have how : fb.ownerOf o.entityId = some g := hfb.ownerOf_eq_some.mpr ⟨o, hg, rfl⟩
  by_cases hgh : g = h
  · exact (Assignment.mem_candidateOrders hfb).mpr ⟨hf, Or.inl (hgh ▸ hg)⟩
  · have hne : fb.ownerOf o.entityId ≠ some h := by
      rw [how, ne_eq, Option.some_inj]
      exact hgh
    refine (Assignment.mem_candidateOrders hfb).mpr ⟨hf, Or.inr ⟨⟨g, hg⟩, ?_, ?_⟩⟩
    · exact fun hc ↦ hne (hown _ _ hc)
    · exact hv.resolve_left hne

/-- **A company with an executable pair has a nonempty plan.** -/
theorem Executable.plan_ne_nil (hfb : fb.WellFiled) (hg : Greedy R ctx)
    (hown : ∀ oid g, m.contributionOwner.get? oid = some g → fb.ownerOf oid = some g) {t : Truck}
    {o : Order} (hx : Executable ctx fb m h t o) (s : σ) :
    ∃ plan s', solveCompany R ctx (freeTrucks fb m h) (candidateOrders fb m h)
      (pairAllowedFor ctx h) (((roundCandidates ctx fb m).get? h).getD []) s = (.ok plan, s') ∧
        plan ≠ [] := by
  obtain ⟨seed, hseed⟩ := hg.solver
  have ho := hx.mem_candidateOrders hfb hown
  obtain ⟨ht, -, -, hcand⟩ := hx
  rw [solveCompany, hseed]
  by_cases hu : ctx.useSpatial = true
  · rw [if_pos hu] at hcand ⊢
    have hus : usesSpatial ctx = true := by rw [usesSpatial, hu, hseed]; rfl
    rw [roundCandidates, if_pos hus]
    have hne := List.ne_nil_of_mem hcand
    rw [greedyNearest]
    dsimp only
    rw [if_neg (by rw [List.isEmpty_iff]; exact hne)]
    exact greedySolvePairs_ne_nil R seed hg.cost s hne
  · rw [if_neg hu] at hcand ⊢
    obtain ⟨hcap, ha⟩ := hcand
    have hempty : ((freeTrucks fb m h).isEmpty || (candidateOrders fb m h).isEmpty) = false := by
      rw [Bool.or_eq_false_iff, List.isEmpty_eq_false_iff, List.isEmpty_eq_false_iff]
      exact ⟨List.ne_nil_of_mem ht, List.ne_nil_of_mem ho⟩
    have hlen : ¬ (freeTrucks fb m h).length > ctx.maxTrucksPerHaulier :=
      not_lt.mpr ((List.length_filter_le _ _).trans (hcap h))
    rw [greedyNearest]
    dsimp only
    rw [hempty, if_neg Bool.false_ne_true, if_neg hlen, if_neg Bool.false_ne_true]
    exact greedySolvePairs_ne_nil R seed hg.cost s
      (List.ne_nil_of_mem (mem_feasiblePairs (p := (t, o)).mpr ⟨ht, ho, ha⟩))

/-! ## Quiet turns -/

variable {rnd : ℤ}

theorem commitPrivate_le {ps : List Pair} {st st' : ℕ × PoolMarket}
    (he : commitPrivate ctx h rnd ps st = .ok st') : st.1 ≤ st'.1 := by
  induction ps generalizing st with
  | nil => rw [← Except.ok.inj he]
  | cons p ps ih =>
    rw [commitPrivate] at he
    split at he
    · cases he
    · exact (Nat.le_add_right _ _).trans (ih he)

/-- Private pairs that are all open leave a quiet turn only when there are none. -/
theorem commitPrivate_quiet {ps : List Pair} {st st' : ℕ × PoolMarket}
    (hopen : ∀ p ∈ ps, st.2.isTruckFree p.1.entityId = true ∧ st.2.isOrderFree p.2.entityId = true)
    (he : commitPrivate ctx h rnd ps st = .ok st') (hq : st'.1 ≤ st.1) : ps = [] ∧ st' = st := by
  cases ps with
  | nil => exact ⟨rfl, (Except.ok.inj he).symm⟩
  | cons p ps =>
    obtain ⟨ht, ho⟩ := hopen p List.mem_cons_self
    rw [commitPrivate] at he
    split at he
    · cases he
    · next c _ =>
      have hcommit : (st.2.commit (privateAward h rnd p c)).1 = true := commit_of_free ho ht
      have hle := commitPrivate_le he
      rw [hcommit] at hle
      exact absurd (hle.trans hq) (Nat.not_succ_le_self _)

/-- The bids a round needs: every bid is one the guard lets through. -/
def AllSeen (fb : FleetBook) (m : PoolMarket) (bids : List Bid) : Prop :=
  ∀ b ∈ bids, BidSees fb m b

/-- The bids of a company on a plan that is all pooled and open. -/
theorem claimBids_pooled (hid : fb.Identified) (hg : Greedy R ctx) (rnd : ℤ) (own : List Pair)
    {pooled : List Pair} (s : σ) (hplan : PlanSound ctx fb h pooled)
    (hopen : ∀ p ∈ pooled, m.isTruckFree p.1.entityId = true ∧ m.isOrderFree p.2.entityId = true ∧
      (fb.ownerOf p.2.entityId = some h ∨ m.Visible h p.2.entityId))
    :
    AllSeen fb m (claimBids ctx (claimRequest ctx m h rnd own pooled) s).1 ∧
      (pooled ≠ [] → ∃ b ∈ (claimBids ctx (claimRequest ctx m h rnd own pooled) s).1,
        m.bothFree b = true) := by
  rw [claimBids, hg.claim, claimAllPlanned]
  constructor
  · intro b hb
    split at hb
    · exact absurd hb List.not_mem_nil
    · obtain ⟨p, hp, hpb⟩ := List.mem_filterMap.mp hb
      obtain ⟨hh, -, ho⟩ := bidOn_eq_some hpb
      rw [BidSees, hh, ho]
      exact (hopen p hp).2.2
  · intro hne
    obtain ⟨p, hp⟩ := List.exists_mem_of_ne_nil _ hne
    obtain ⟨hpt, ⟨g, hpo⟩, -⟩ := hplan p hp
    obtain ⟨tid, htid, htid'⟩ := hid.truck h _ hpt
    obtain ⟨oid, hoid, hoid'⟩ := hid.order g _ hpo
    obtain ⟨b, hb⟩ := exists_bidOn (r := claimRequest ctx m h rnd own pooled) htid hoid htid' hoid'
    have hne' : ¬ (claimRequest ctx m h rnd own pooled).pooledPairs.isEmpty = true := by
      rw [List.isEmpty_iff]
      exact hne
    rw [if_neg hne']
    refine ⟨b, List.mem_filterMap.mpr ⟨p, hp, hb⟩, ?_⟩
    obtain ⟨-, ht, ho⟩ := bidOn_eq_some hb
    rw [bothFree, ht, ho, (hopen p hp).1, (hopen p hp).2.1]
    rfl

/-- The state of a quiet round: the market has not moved and every bid would pass the guard. -/
structure Quiet (fb : FleetBook) (m : PoolMarket) (st : TurnState σ) : Prop where
  market : st.market = m
  seen : AllSeen fb m st.bids

variable {st st' : TurnState σ}

/-- **A quiet turn**: the market stays put, earlier bids are kept, and a company with an executable
pair has bid on an open one. -/
theorem companyTurn_quiet (hfb : fb.WellFiled) (hid : fb.Identified) (hg : Greedy R ctx)
    (hm : MarketSafe (RuleLicence ctx) fb m) (hst : Quiet fb m st)
    (he : companyTurn R ctx fb m (roundCandidates ctx fb m) rnd h st = .ok st')
    (hq : st'.privateCommits ≤ st.privateCommits) :
    Quiet fb m st' ∧ (∀ b ∈ st.bids, b ∈ st'.bids) ∧
      ∀ t o, Executable ctx fb m h t o → ∃ b ∈ st'.bids, m.bothFree b = true := by
  obtain ⟨hmk, hseen⟩ := hst
  rw [companyTurn, hmk] at he
  by_cases hempty : ((freeTrucks fb m h).isEmpty || (candidateOrders fb m h).isEmpty) = true
  · rw [if_pos hempty] at he
    cases he
    refine ⟨⟨hmk, hseen⟩, fun b hb ↦ hb, fun t o hx ↦ ?_⟩
    rw [Bool.or_eq_true, List.isEmpty_iff, List.isEmpty_iff] at hempty
    rcases hempty with hempty | hempty
    · exact absurd hempty (List.ne_nil_of_mem hx.1)
    · exact absurd hempty (List.ne_nil_of_mem (hx.mem_candidateOrders hfb hm.contributor))
  · rw [if_neg hempty] at he
    split at he
    · next e s hsolve =>
      cases he
      refine ⟨⟨rfl, hseen⟩, fun b hb ↦ hb, fun t o hx ↦ ?_⟩
      obtain ⟨plan, s', hplan, -⟩ := hx.plan_ne_nil hfb hg hm.contributor st.rng
      rw [hsolve] at hplan
      cases (Prod.mk.inj hplan).1
    · next plan s hsolve =>
      have hopen := fun p (hp : p ∈ plan) ↦ open_of_mem_plan hfb hg hsolve hp
      have hsound := solveCompany_sound hfb hg.sound hsolve
      rw [actOnPlan] at he
      split at he
      · cases he
      · next commits m' hc =>
        cases he
        obtain ⟨hnil, hstay⟩ := commitPrivate_quiet
          (fun p hp ↦ ⟨(hopen p (mem_ownPrivatePairs hp).1).1,
            (hopen p (mem_ownPrivatePairs hp).1).2.1⟩) hc hq
        obtain ⟨rfl, rfl⟩ := Prod.mk.inj hstay
        have hpooled : ∀ p ∈ plan,
            p ∈ ownContributedPairs fb m' h plan ++ foreignPairs fb h plan := by
          intro p hp
          rw [List.mem_append, ownContributedPairs, foreignPairs, List.mem_filter, List.mem_filter]
          by_cases hown : isOwnPair fb h p = true
          · by_cases hcon : m'.isContributed p.2.entityId = true
            · exact Or.inl ⟨hp, by rw [hown, hcon]; rfl⟩
            · have hmem : p ∈ ownPrivatePairs fb m' h plan :=
                List.mem_filter.mpr ⟨hp, by rw [hown, Bool.eq_false_iff.mpr hcon]; rfl⟩
              rw [hnil] at hmem
              exact absurd hmem List.not_mem_nil
          · exact Or.inr ⟨hp, by rw [Bool.eq_false_iff.mpr hown]; rfl⟩
        have hsub : ∀ p ∈ ownContributedPairs fb m' h plan ++ foreignPairs fb h plan,
            p ∈ plan := by
          intro p hp
          rcases List.mem_append.mp hp with hp | hp
          · exact (List.mem_filter.mp hp).1
          · exact (List.mem_filter.mp hp).1
        obtain ⟨hall, hsome⟩ := claimBids_pooled hid hg rnd
          (ownPrivatePairs fb m' h plan ++ ownContributedPairs fb m' h plan) s
          (fun p hp ↦ hsound p (hsub p hp)) fun p hp ↦ hopen p (hsub p hp)
        refine ⟨⟨rfl, fun b hb ↦ ?_⟩, fun b hb ↦ List.mem_append_left _ hb, fun t o hx ↦ ?_⟩
        · rcases List.mem_append.mp hb with hb | hb
          · exact hseen b hb
          · exact hall b hb
        · obtain ⟨plan', s'', hplan', hne⟩ := hx.plan_ne_nil hfb hg hm.contributor st.rng
          rw [hsolve] at hplan'
          obtain ⟨p, hp⟩ := List.exists_mem_of_ne_nil _ hne
          rw [← Except.ok.inj (Prod.mk.inj hplan').1] at hp
          obtain ⟨b, hb, hbf⟩ := hsome (List.ne_nil_of_mem (hpooled p hp))
          exact ⟨b, List.mem_append_right _ hb, hbf⟩

theorem companyTurn_le {m₀ : PoolMarket} {cands : Dict String (List Pair)}
    (he : companyTurn R ctx fb m₀ cands rnd h st = .ok st') :
    st.privateCommits ≤ st'.privateCommits := by
  rw [companyTurn] at he
  split at he
  · rw [← Except.ok.inj he]
  · split at he
    · rw [← Except.ok.inj he]
    · rw [actOnPlan] at he
      split at he
      · cases he
      · next hc =>
        rw [← Except.ok.inj he]
        exact commitPrivate_le hc

theorem companyTurns_le {m₀ : PoolMarket} {cands : Dict String (List Pair)} {hs : List String}
    (he : companyTurns R ctx fb m₀ cands rnd hs st = .ok st') :
    st.privateCommits ≤ st'.privateCommits := by
  induction hs generalizing st with
  | nil => rw [← Except.ok.inj he]
  | cons h hs ih =>
    rw [companyTurns] at he
    split at he
    · cases he
    · next ht => exact (companyTurn_le ht).trans (ih he)

/-- The turns of a quiet round: every company with an executable pair has bid on an open one. -/
theorem companyTurns_quiet (hfb : fb.WellFiled) (hid : fb.Identified) (hg : Greedy R ctx)
    (hm : MarketSafe (RuleLicence ctx) fb m) {hs : List String} (hst : Quiet fb m st)
    (he : companyTurns R ctx fb m (roundCandidates ctx fb m) rnd hs st = .ok st')
    (hq : st'.privateCommits ≤ st.privateCommits) :
    Quiet fb m st' ∧ (∀ b ∈ st.bids, b ∈ st'.bids) ∧
      ∀ h ∈ hs, ∀ t o, Executable ctx fb m h t o → ∃ b ∈ st'.bids, m.bothFree b = true := by
  induction hs generalizing st with
  | nil =>
    cases he
    exact ⟨hst, fun b hb ↦ hb, nofun⟩
  | cons h hs ih =>
    rw [companyTurns] at he
    split at he
    · cases he
    · next st₁ h₁ =>
      have hle := companyTurns_le he
      obtain ⟨hq₁, hkeep₁, hx₁⟩ := companyTurn_quiet hfb hid hg hm hst h₁ (hle.trans hq)
      obtain ⟨hq₂, hkeep₂, hx₂⟩ := ih hq₁ he (hq.trans (companyTurn_le h₁))
      refine ⟨hq₂, fun b hb ↦ hkeep₂ b (hkeep₁ b hb), fun g hgm t o hx ↦ ?_⟩
      rcases List.mem_cons.mp hgm with rfl | hgm
      · obtain ⟨b, hb, hbf⟩ := hx₁ t o hx
        exact ⟨b, hkeep₂ b hb, hbf⟩
      · exact hx₂ g hgm t o hx

/-! ## Settling a quiet round -/

theorem commitAwards_of_true {as : List Award} {st : Bool × PoolMarket} (h : st.1 = true) :
    (commitAwards as st).1 = true := by
  induction as generalizing st with
  | nil => exact h
  | cons a as ih =>
    rw [commitAwards]
    split
    · exact ih (by rw [h]; rfl)
    · exact ih h

theorem commitAwards_of_false {as : List Award} {st : Bool × PoolMarket}
    (h : (commitAwards as st).1 = false) : st.1 = false ∧ (commitAwards as st).2 = st.2 := by
  induction as generalizing st with
  | nil => exact ⟨h, rfl⟩
  | cons a as ih =>
    rw [commitAwards] at h ⊢
    split at h
    · next hg =>
      rw [if_pos hg]
      obtain ⟨h1, h2⟩ := ih h
      obtain ⟨h1, h3⟩ := Bool.or_eq_false_iff.mp h1
      exact ⟨h1, h2.trans (commit_eq_false h3)⟩
    · next hg =>
      rw [if_neg hg]
      exact ih h

/-- A round that has converged committed nothing. -/
theorem settleRound_converged (h : (settleRound R ctx fb st).1 = true) :
    st.privateCommits = 0 ∧ (settleRound R ctx fb st).2.1 = st.market := by
  rw [settleRound] at h ⊢
  split at h
  · next hz =>
    rw [if_pos hz]
    exact ⟨eq_of_beq ((Bool.and_eq_true _ _).mp hz).2, rfl⟩
  · next hz =>
    rw [if_neg hz]
    obtain ⟨h1, h2⟩ := commitAwards_of_false (Bool.not_eq_true' _ ▸ h)
    exact ⟨by simpa using h1, h2⟩

/-- **An open bid among bids that pass the guard keeps a round from converging.** -/
theorem settleRound_of_open_bid (hst : Quiet fb m st) {b : Bid} (hb : b ∈ st.bids)
    (hf : m.bothFree b = true) : (settleRound R ctx fb st).1 = false := by
  obtain ⟨hmk, hseen⟩ := hst
  rw [settleRound]
  have hne : ¬ (st.bids.isEmpty && st.privateCommits == 0) = true := by
    rw [Bool.and_eq_true, List.isEmpty_iff]
    exact fun h ↦ List.ne_nil_of_mem hb h.1
  rw [if_neg hne]
  rw [Bool.not_eq_false', hmk]
  have hawards : (ctx.arbitration.resolve R st.bids m ctx.tickSeed fb.ownerOf st.rng).1 ≠ [] :=
    ArbitrationRule.resolve_ne_nil hb hf
  obtain ⟨a, as, has⟩ := List.exists_cons_of_ne_nil hawards
  obtain ⟨c, hc, hcf, rfl⟩ := ArbitrationRule.exists_bid_of_mem_resolve (has ▸ List.mem_cons_self)
  have hsees : carrierSees m (c.toAward fb.ownerOf) = true := carrierSees_iff.mpr (hseen c hc)
  obtain ⟨hfo, hft⟩ := (Bool.and_eq_true _ _).mp hcf
  have hcommit : (m.commit (c.toAward fb.ownerOf)).1 = true := commit_of_free hfo hft
  rw [has, commitAwards, if_pos hsees]
  exact commitAwards_of_true (by rw [hcommit, Bool.or_true])

/-! ## Convergence -/

theorem mem_companyIds_of_mem_trucksOf {t : Truck} (ht : t ∈ fb.trucksOf h) :
    h ∈ fb.companyIds := by
  refine SortedSet.mem_def.mp (SortedSet.mem_ofList.mpr ?_)
  rw [FleetBook.trucksOf] at ht
  split at ht
  · exact absurd ht List.not_mem_nil
  · next hne =>
    refine List.mem_filter.mpr ⟨List.mem_append_left _ (Dict.mem_keys_iff.mpr ?_),
      decide_eq_true hne⟩
    cases hg : fb.trucksByHaulier.get? h with
    | none => rw [hg] at ht; exact absurd ht List.not_mem_nil
    | some ts => exact ⟨ts, rfl⟩

/-- A round that has converged left nothing executable. -/
theorem playRound_converged (hfb : fb.WellFiled) (hid : fb.Identified) (hg : Greedy R ctx)
    {st st' : TickState σ} (hm : MarketSafe (RuleLicence ctx) fb st.market)
    (he : playRound R ctx fb rnd st = .ok st') (hconv : st'.converged = true) (h : String)
    (t : Truck) (o : Order) : ¬ Executable ctx fb st'.market h t o := by
  rw [playRound] at he
  split at he
  · cases he
  · next turn hturn =>
    cases he
    obtain ⟨hzero, hstay⟩ := settleRound_converged hconv
    obtain ⟨hquiet, -, hall⟩ := companyTurns_quiet hfb hid hg hm
      ⟨rfl, fun b hb ↦ absurd hb List.not_mem_nil⟩ hturn hzero.le
    rw [hstay, hquiet.market]
    intro hx
    obtain ⟨b, hb, hbf⟩ :=
      hall h (mem_companyIds_of_mem_trucksOf (mem_freeTrucks.mp hx.1).1) t o hx
    rw [settleRound_of_open_bid hquiet hb hbf] at hconv
    exact absurd hconv Bool.false_ne_true

theorem playRounds_converged (hfb : fb.WellFiled) (hid : fb.Identified) (hg : Greedy R ctx) {n : ℕ}
    {st st' : TickState σ} (hm : MarketSafe (RuleLicence ctx) fb st.market)
    (hst : st.converged = false) (he : playRounds R ctx fb n rnd st = .ok st')
    (hconv : st'.converged = true) (h : String) (t : Truck) (o : Order) :
    ¬ Executable ctx fb st'.market h t o := by
  induction n generalizing rnd st with
  | zero =>
    cases he
    rw [hst] at hconv
    exact absurd hconv Bool.false_ne_true
  | succ n ih =>
    rw [playRounds] at he
    split at he
    · next hnone =>
      cases he
      -- no input order is free, so no pair is executable
      rintro ⟨-, ho, -⟩
      obtain ⟨⟨g, hog⟩, hf⟩ := (mem_freeOrders hfb).mp ho
      have hin : o.entityId ∈ fb.inputOrderIds :=
        FleetBook.mem_inputOrderIds.mpr ⟨o, hfb.ordersById_eq_some.mpr ⟨rfl, g, hog⟩⟩
      rw [Bool.not_eq_true', List.any_eq_false] at hnone
      exact hnone _ hin hf
    · split at he
      · cases he
      · next st₁ h₁ =>
        split at he
        · cases he
          exact playRound_converged hfb hid hg hm h₁ hconv h t o
        · next hnot =>
          have hm₁ := (playRound_safe hfb hg.sound ruleLicence_privateSound hg.claimSound hm h₁).1
          exact ih hm₁ (Bool.eq_false_iff.mpr hnot) he

/-- **A converged tick is maximal**: no company has an executable pair left in the market the tick
ends with. -/
theorem runPooledMarket_maximal (hfb : fb.WellFiled) (hid : fb.Identified) (hg : Greedy R ctx)
    (pools : List Pool) (s : σ) (res : PooledMarketResult)
    (hrun : runPooledMarket R ctx fb pools s = .ok res) (hconv : res.converged = true) :
    ¬ ∃ h t o, Executable ctx fb res.market h t o := by
  rintro ⟨h, t, o, hx⟩
  rw [runPooledMarket] at hrun
  split at hrun
  · cases hrun
  · next st hst =>
    split at hrun
    · cases hrun
    · split at hrun
      · cases hrun
      · obtain rfl := Except.ok.inj hrun
        exact playRounds_converged hfb hid hg (contributeAll_safe pools s).1 rfl hst hconv h t o hx

theorem smallContext_greedy : Greedy smallRuntime (smallContext claimAllPlanned) :=
  ⟨⟨some 7, rfl⟩, rfl, fun _ _ ↦ ⟨.fin 1, rfl⟩⟩

theorem runPooledMarket_maximal_small :
    ∃ res, runPooledMarket smallRuntime (smallContext claimAllPlanned) smallBook smallPools () =
        .ok res ∧ res.converged = true ∧
      ¬ ∃ h t o, Executable (smallContext claimAllPlanned) smallBook res.market h t o := by
  have hconv : (runPooledMarket smallRuntime (smallContext claimAllPlanned) smallBook
      smallPools ()).toOption.any (fun res ↦ res.converged) = true := by
    decide +kernel
  cases hres :
    runPooledMarket smallRuntime (smallContext claimAllPlanned) smallBook smallPools () with
  | ok res =>
    rw [hres] at hconv
    exact ⟨res, rfl, hconv, runPooledMarket_maximal smallBook_wellFiled
      (.of_filed (by decide) (by decide)) smallContext_greedy smallPools () res hres hconv⟩
  | error e =>
    rw [hres] at hconv
    cases hconv

end OpenRide.Assignment
