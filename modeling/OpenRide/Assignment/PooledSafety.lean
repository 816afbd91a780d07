import OpenRide.Assignment.PooledPlanner

/-!
# Safety of a pooled tick

`MarketSafe P fb m` is the invariant of a tick: the ledger of `m` is consistent, contributions were
made by owners, and every award is `Licensed` — a truck of the carrier's own fleet, an order of its
recorded owner, the carrier being the owner or seeing the order through a pool, and `P` holding of
the award with the two.  `P` is the pair rule when the claim policies are registered ones, and where
a bid came from when they are arbitrary.

Each step of the tick keeps the invariant: contribution by `contributeAll_safe`, a company's turn by
`companyTurn_safe`, a round by `playRound_safe`, all the rounds by `playRounds_safe`.  The only
thing asked of a claim policy is that the bids the guard lets through are sound (`ClaimSound`).
-/

namespace OpenRide.Assignment

open Lib PoolMarket

/-! ## Reading the book -/

namespace FleetBook

variable {fb : FleetBook}

theorem mem_filedOrders {h : String} {o : Order} :
    (h, o) ∈ fb.filedOrders ↔ o ∈ fb.ordersOf h := by
  simp only [filedOrders, List.mem_flatMap, mem_sortedBy, List.mem_map, Prod.mk.injEq]
  constructor
  · rintro ⟨g, -, o', ho, rfl, rfl⟩
    exact ho
  · intro ho
    refine ⟨h, ?_, o, ho, rfl, rfl⟩
    rw [ordersOf] at ho
    split at ho
    · exact absurd ho List.not_mem_nil
    · refine Dict.mem_keys_iff.mpr ?_
      cases hg : fb.ordersByHaulier.get? h with
      | none => rw [hg] at ho; exact absurd ho List.not_mem_nil
      | some os => exact ⟨os, rfl⟩

theorem mem_filedTrucks {h : String} {t : Truck} :
    (h, t) ∈ fb.filedTrucks ↔ t ∈ fb.trucksOf h := by
  simp only [filedTrucks, List.mem_flatMap, mem_sortedBy, List.mem_map, Prod.mk.injEq]
  constructor
  · rintro ⟨g, -, t', ht, rfl, rfl⟩
    exact ht
  · intro ht
    refine ⟨h, ?_, t, ht, rfl, rfl⟩
    rw [trucksOf] at ht
    split at ht
    · exact absurd ht List.not_mem_nil
    · refine Dict.mem_keys_iff.mpr ?_
      cases hg : fb.trucksByHaulier.get? h with
      | none => rw [hg] at ht; exact absurd ht List.not_mem_nil
      | some ts => exact ⟨ts, rfl⟩

/-- A dictionary filled from pairs whose keys are distinct binds exactly the pairs. -/
theorem get?_ofList_map {α K V : Type} [DecidableEq K] {l : List α} {f : α → K} {g : α → V}
    (hn : (l.map f).Nodup) {k : K} {v : V} :
    (Dict.ofList (l.map fun a ↦ (f a, g a))).get? k = some v ↔ ∃ a ∈ l, f a = k ∧ g a = v := by
  rw [Dict.get?_ofList (by rw [List.map_map]; exact hn), List.mem_map]
  simp only [Prod.mk.injEq]

variable {oid : String}

theorem WellFiled.ownerOf_eq_some (hfb : fb.WellFiled) {h : String} :
    fb.ownerOf oid = some h ↔ ∃ o ∈ fb.ordersOf h, o.entityId = oid := by
  rw [ownerOf, ownerByOrderId, get?_ofList_map hfb.orderIds_nodup]
  constructor
  · rintro ⟨⟨g, o⟩, ho, rfl, rfl⟩
    exact ⟨o, mem_filedOrders.mp ho, rfl⟩
  · rintro ⟨o, ho, rfl⟩
    exact ⟨(h, o), mem_filedOrders.mpr ho, rfl, rfl⟩

theorem WellFiled.ordersById_eq_some (hfb : fb.WellFiled) {o : Order} :
    fb.ordersById.get? oid = some o ↔ o.entityId = oid ∧ ∃ h, o ∈ fb.ordersOf h := by
  rw [ordersById, get?_ofList_map hfb.orderIds_nodup]
  constructor
  · rintro ⟨⟨g, o⟩, ho, rfl, rfl⟩
    exact ⟨rfl, g, mem_filedOrders.mp ho⟩
  · rintro ⟨rfl, h, ho⟩
    exact ⟨(h, o), mem_filedOrders.mpr ho, rfl, rfl⟩

theorem WellFiled.trucksById_eq_some (hfb : fb.WellFiled) {tid : String} {t : Truck} :
    fb.trucksById.get? tid = some t ↔ t.entityId = tid ∧ ∃ h, t ∈ fb.trucksOf h := by
  rw [trucksById, get?_ofList_map hfb.truckIds_nodup]
  constructor
  · rintro ⟨⟨g, t⟩, ht, rfl, rfl⟩
    exact ⟨rfl, g, mem_filedTrucks.mp ht⟩
  · rintro ⟨rfl, h, ht⟩
    exact ⟨(h, t), mem_filedTrucks.mpr ht, rfl, rfl⟩

theorem mem_inputOrderIds : oid ∈ fb.inputOrderIds ↔ ∃ o, fb.ordersById.get? oid = some o := by
  rw [inputOrderIds, SortedSet.mem_ofList, Dict.mem_keys_iff]

end FleetBook

/-! ## The invariant -/

/-- What an award must be: a truck of the carrier's fleet on an order of its owner, which the
carrier owns or sees through a pool, with `P` holding of the three. -/
def Licensed (P : Award → Truck → Order → Prop) (fb : FleetBook) (m : PoolMarket) (a : Award) :
    Prop :=
  ∃ owner t o, t ∈ fb.trucksOf a.carrierHaulierId ∧ t.entityId = a.truckId ∧
    o ∈ fb.ordersOf owner ∧ o.entityId = a.orderId ∧ a.ownerHaulierId = some owner ∧
    (a.carrierHaulierId = owner ∨ m.Visible a.carrierHaulierId a.orderId) ∧
    P a t o

/-- The invariant of a tick. -/
structure MarketSafe (P : Award → Truck → Order → Prop) (fb : FleetBook) (m : PoolMarket) :
    Prop where
  ledger : m.Ledger
  coherent : m.Coherent
  /-- The recorded contributor of an order owns it. -/
  contributor : ∀ oid h, m.contributionOwner.get? oid = some h → fb.ownerOf oid = some h
  licensed : ∀ a ∈ m.awards, Licensed P fb m a

variable {P : Award → Truck → Order → Prop} {fb : FleetBook}

variable {m : PoolMarket}

theorem Licensed.sameBook {m' : PoolMarket} (h : SameBook m m') {a : Award} (ha : Licensed P fb m a)
    : Licensed P fb m' a := by
  obtain ⟨owner, t, o, ht, hti, ho, hoi, how, hv, hP⟩ := ha
  exact ⟨owner, t, o, ht, hti, ho, hoi, how, hv.imp_right h.visible.mpr, hP⟩

theorem MarketSafe.commit (hm : MarketSafe P fb m) {a : Award} (ha : Licensed P fb m a) :
    MarketSafe P fb (m.commit a).2 where
  ledger := hm.ledger.commit a
  coherent := (commit_sameBook m a).coherent hm.coherent
  contributor := by
    rw [(commit_sameBook m a).2.2]
    exact hm.contributor
  licensed := by
    intro b hb
    refine Licensed.sameBook (commit_sameBook m a) ?_
    cases h : (m.commit a).1 with
    | false =>
      rw [commit_eq_false h] at hb
      exact hm.licensed b hb
    | true =>
      rw [(commit_eq_true h).2.2] at hb
      rcases List.mem_append.mp hb with hb | hb
      · exact hm.licensed b hb
      · rw [List.mem_singleton.mp hb]
        exact ha

/-! ## Contribution -/

theorem init_safe (pools : List Pool) : MarketSafe P fb (init pools) where
  ledger := init_ledger pools
  coherent := init_coherent pools
  contributor := by
    intro oid h hc
    simp [init] at hc
  licensed := by
    intro a ha
    exact absurd ha List.not_mem_nil

/-- The market of the contribution step: safe, nothing awarded, the pools of the start. -/
def Contributing (P : Award → Truck → Order → Prop) (fb : FleetBook) (m₀ m : PoolMarket) : Prop :=
  MarketSafe P fb m ∧ m.awards = [] ∧ m.pools = m₀.pools

theorem Contributing.contribute {m₀ : PoolMarket} (hm : Contributing P fb m₀ m) {oid h : String}
    (ho : fb.ownerOf oid = some h) (ps : List String) :
    Contributing P fb m₀ (m.contribute oid h ps).2 := by
  have haw : (m.contribute oid h ps).2.awards = [] := by
    rw [(contribute_awards m oid h ps).1, hm.2.1]
  refine ⟨⟨hm.1.ledger.contribute oid h ps, hm.1.coherent.contribute oid h ps, ?_, ?_⟩, haw,
    (contribute_pools m oid h ps).trans hm.2.2⟩
  · intro x g hx
    rcases contribute_cases m oid h ps with he | ⟨-, -, -, hc⟩
    · rw [he] at hx
      exact hm.1.contributor x g hx
    · rw [hc, Dict.get?_set] at hx
      split at hx
      · next hxo => rw [hxo, ← Option.some_inj.mp hx, ho]
      · exact hm.1.contributor x g hx
  · intro a ha
    rw [haw] at ha
    exact absurd ha List.not_mem_nil

theorem contributeOrders_safe {m₀ : PoolMarket} (h : String)
    (contribution : Dict String (List String)) (hm : Contributing P fb m₀ m) :
    Contributing P fb m₀ (contributeOrders fb h contribution m) := by
  refine List.foldlRecOn _ _ hm fun m hm oid _ ↦ ?_
  split
  · next ho => exact hm.contribute ho _
  · exact hm

section Run

variable {σ : Type} {R : Runtime σ} {ctx : PooledPlannerContext σ}

variable {m₀ : PoolMarket}

theorem contributeCompany_safe {st : PoolMarket × σ} (hm : Contributing P fb m₀ st.1) (h : String) :
    Contributing P fb m₀ (contributeCompany ctx fb st h).1 := by
  rw [contributeCompany]
  split
  · exact hm
  · split
    · exact contributeOrders_safe h _ hm
    · exact hm

theorem contributeAll_safe (pools : List Pool) (s : σ) :
    Contributing P fb (init pools) (contributeAll ctx fb (init pools) s).1 := by
  have h0 : Contributing P fb (init pools) (init pools) := ⟨init_safe pools, rfl, rfl⟩
  rw [contributeAll]
  split
  · exact h0
  · exact List.foldlRecOn (motive := fun st : PoolMarket × σ ↦ Contributing P fb (init pools) st.1)
      _ _ h0 fun st hst h _ ↦ contributeCompany_safe hst h

/-! ## Plans -/

/-- What a company may plan: own trucks on known orders, by its pair rule. -/
def PlanSound (ctx : PooledPlannerContext σ) (fb : FleetBook) (h : String) (plan : List Pair) :
    Prop :=
  ∀ p ∈ plan, p.1 ∈ fb.trucksOf h ∧ (∃ owner, p.2 ∈ fb.ordersOf owner) ∧
    pairAllowedFor ctx h p.1 p.2 = true

variable {m : PoolMarket} {h : String}

theorem mem_freeTrucks {t : Truck} :
    t ∈ freeTrucks fb m h ↔ t ∈ fb.trucksOf h ∧ m.isTruckFree t.entityId = true := by
  rw [freeTrucks, List.mem_filter]

theorem mem_freeOrders (hfb : fb.WellFiled) {o : Order} :
    o ∈ freeOrders fb m ↔ (∃ h, o ∈ fb.ordersOf h) ∧ m.isOrderFree o.entityId = true := by
  rw [freeOrders, List.mem_filterMap]
  constructor
  · rintro ⟨oid, hoid, hg⟩
    obtain ⟨rfl, h, ho⟩ := hfb.ordersById_eq_some.mp hg
    exact ⟨⟨h, ho⟩, (List.mem_filter.mp hoid).2⟩
  · rintro ⟨⟨h, ho⟩, hf⟩
    have hg := hfb.ordersById_eq_some.mpr ⟨rfl, h, ho⟩
    exact ⟨o.entityId,
      List.mem_filter.mpr ⟨FleetBook.mem_inputOrderIds.mpr ⟨o, hg⟩, hf⟩, hg⟩

/-- The orders a company plans over are free, known, and its own or visible to it. -/
theorem mem_candidateOrders (hfb : fb.WellFiled) {o : Order} :
    o ∈ candidateOrders fb m h ↔ m.isOrderFree o.entityId = true ∧
      (o ∈ fb.ordersOf h ∨ (∃ g, o ∈ fb.ordersOf g) ∧
        m.contributionOwner.get? o.entityId ≠ some h ∧ m.Visible h o.entityId) := by
  rw [candidateOrders, List.mem_append, List.mem_filter, List.mem_filterMap]
  constructor
  · rintro (⟨ho, hf⟩ | ⟨oid, hoid, hg⟩)
    · exact ⟨hf, Or.inl ho⟩
    · obtain ⟨rfl, hk⟩ := hfb.ordersById_eq_some.mp hg
      obtain ⟨hv, hf⟩ := List.mem_filter.mp hoid
      exact ⟨((Bool.and_eq_true _ _).mp hf).2, Or.inr ⟨hk, mem_visiblePooledOrderIds.mp hv⟩⟩
  · rintro ⟨hf, ho | ⟨hk, hv⟩⟩
    · exact Or.inl ⟨ho, hf⟩
    · have hg := hfb.ordersById_eq_some.mpr ⟨rfl, hk⟩
      refine Or.inr ⟨o.entityId, List.mem_filter.mpr
        ⟨mem_visiblePooledOrderIds.mpr hv, (Bool.and_eq_true _ _).mpr ⟨?_, hf⟩⟩, hg⟩
      exact Dict.contains_iff.mpr ⟨o, hg⟩

/-- **A candidate of a carrier**: a free truck of its own on a free order it owns or sees, which
its pair rule allows. -/
theorem mem_buildRoundCandidates (hfb : fb.WellFiled) {p : Pair}
    (hp : p ∈ ((buildRoundCandidates ctx fb (freeTrucks fb m) (freeOrders fb m) m).get? h).getD [])
    :
    p.1 ∈ freeTrucks fb m h ∧ p.2 ∈ freeOrders fb m ∧
      (fb.ownerOf p.2.entityId = some h ∨ m.Visible h p.2.entityId) ∧
      pairAllowedFor ctx h p.1 p.2 = true := by
  rw [buildRoundCandidates, Dict.getD_groupBy, List.mem_filter, List.mem_flatMap,
    decide_eq_true_eq] at hp
  obtain ⟨⟨carriers, -, hp⟩, hh⟩ := hp
  obtain ⟨ht, ho, ha⟩ := mem_iterCandidatePairs hp
  rw [Dict.getD_groupBy, List.mem_filter, decide_eq_true_eq] at ho
  obtain ⟨g, hg, ht⟩ := List.mem_flatMap.mp ht
  have hgh : g = h := by
    have := hfb.truck_haulier g p.1 (mem_freeTrucks.mp ht).1
    rw [hh] at this
    exact (Option.some_inj.mp this).symm
  subst hgh
  refine ⟨ht, ho.1, ?_, ?_⟩
  · have hc := ho.2
    rw [carriersOf] at hc
    split at hc
    · cases hc
    · next owner how =>
      split at hc
      · cases hc
      · rw [← Option.some_inj.mp hc] at hg
        rcases mem_eligibleCarriers.mp (SortedSet.mem_def.mpr hg) with rfl | hv
        · exact Or.inl how
        · exact Or.inr hv
  · rw [allowedForCarrier, hh] at ha
    exact ha

variable {plan : List Pair}

variable {s : σ}

/-- Where a planned pair comes from: the candidates of the round, or the company's own cross
product. -/
theorem mem_solveCompany (hS : ctx.solver.Sound) {s' : σ}
    (hsolve : solveCompany R ctx (freeTrucks fb m₀ h) (candidateOrders fb m h)
      (pairAllowedFor ctx h) (((roundCandidates ctx fb m₀).get? h).getD []) s = (.ok plan, s'))
    {p : Pair} (hp : p ∈ plan) :
    p ∈ ((buildRoundCandidates ctx fb (freeTrucks fb m₀) (freeOrders fb m₀) m₀).get? h).getD [] ∨
      p.1 ∈ freeTrucks fb m₀ h ∧ p.2 ∈ candidateOrders fb m h ∧
        pairAllowedFor ctx h p.1 p.2 = true := by
  rw [solveCompany] at hsolve
  split at hsolve
  · next solvePairs hsp =>
    split at hsolve
    · rw [← Except.ok.inj (Prod.mk.inj hsolve).1] at hp
      exact absurd hp List.not_mem_nil
    · have hsp' : ctx.useSpatial = true ∧ ctx.solver.solvePairs = some solvePairs := by
        split at hsp
        · next hu => exact ⟨hu, hsp⟩
        · cases hsp
      have hu : usesSpatial ctx = true := by rw [usesSpatial, hsp'.1, hsp'.2]; rfl
      have hmem := hS.solvePairs hsp'.2 hsolve p hp
      rw [roundCandidates, if_pos hu] at hmem
      exact Or.inl hmem
  · split at hsolve
    · rw [← Except.ok.inj (Prod.mk.inj hsolve).1] at hp
      exact absurd hp List.not_mem_nil
    · split at hsolve
      · obtain ⟨ht, ho, ha⟩ := hS.solve hsolve p hp
        exact Or.inr ⟨(R.sample_subperm s _ _).subset ht, ho, ha⟩
      · exact Or.inr (hS.solve hsolve p hp)

theorem solveCompany_sound (hfb : fb.WellFiled) (hS : ctx.solver.Sound) {s' : σ}
    (hsolve : solveCompany R ctx (freeTrucks fb m₀ h) (candidateOrders fb m h)
      (pairAllowedFor ctx h) (((roundCandidates ctx fb m₀).get? h).getD []) s = (.ok plan, s'))
    : PlanSound ctx fb h plan := by
  intro p hp
  rcases mem_solveCompany hS hsolve hp with hp | ⟨ht, ho, ha⟩
  · obtain ⟨ht, ho, -, ha⟩ := mem_buildRoundCandidates hfb hp
    exact ⟨(mem_freeTrucks.mp ht).1, ((mem_freeOrders hfb).mp ho).1, ha⟩
  · refine ⟨(mem_freeTrucks.mp ht).1, ?_, ha⟩
    rcases ((mem_candidateOrders hfb).mp ho).2 with ho | ⟨hk, -⟩
    · exact ⟨h, ho⟩
    · exact hk

/-! ## Bids -/

/-- The guard's test on a bid: the company it names owns the order or sees it through a pool. -/
def BidSees (fb : FleetBook) (m : PoolMarket) (b : Bid) : Prop :=
  fb.ownerOf b.orderId = some b.haulierId ∨ m.Visible b.haulierId b.orderId

/-- A bid the guard lets through is on a truck of the company it names and a known order, with `P`
holding of the award it becomes. -/
def BidSound (P : Award → Truck → Order → Prop) (fb : FleetBook) (m : PoolMarket) (b : Bid) :
    Prop :=
  BidSees fb m b → ∃ owner t o, t ∈ fb.trucksOf b.haulierId ∧ t.entityId = b.truckId ∧
    o ∈ fb.ordersOf owner ∧ o.entityId = b.orderId ∧ P (b.toAward fb.ownerOf) t o

theorem BidSound.sameBook {m' : PoolMarket} (h : SameBook m m') {b : Bid} (hb : BidSound P fb m b) :
    BidSound P fb m' b :=
  fun hs ↦ hb (hs.imp_right h.visible.mp)

/-- What the planner needs of a claim policy: asked with a sound plan in a safe market, it returns
sound bids. -/
def ClaimSound (P : Award → Truck → Order → Prop) (ctx : PooledPlannerContext σ) (fb : FleetBook) :
    Prop :=
  ∀ r s bids s', MarketSafe P fb r.market → PlanSound ctx fb r.haulierId r.pooledPairs →
    ctx.claim r s = (.ok bids, s') → ∀ b ∈ bids, BidSound P fb r.market b

/-- What is asked of `P` itself: it holds of every award made for a planned private pair. -/
def PrivateSound (P : Award → Truck → Order → Prop) (ctx : PooledPlannerContext σ) : Prop :=
  ∀ h rnd p c, pairAllowedFor ctx h p.1 p.2 = true → P (privateAward h rnd p c) p.1 p.2

/-- The licence of a registered claim policy: the carrier's pair rule. -/
def RuleLicence (ctx : PooledPlannerContext σ) (a : Award) (t : Truck) (o : Order) : Prop :=
  pairAllowedFor ctx a.carrierHaulierId t o = true

theorem ClaimPolicy.Faithful.claimSound (hc : ctx.claim.Faithful) :
    ClaimSound (RuleLicence ctx) ctx fb := by
  intro r s bids s' _ hplan he b hb _
  obtain ⟨p, hp, hpb⟩ := hc r s bids s' he b hb
  obtain ⟨hh, ht, ho⟩ := bidOn_eq_some hpb
  obtain ⟨hpt, ⟨owner, hpo⟩, hP⟩ := hplan p hp
  refine ⟨owner, p.1, p.2, hh ▸ hpt, ht.symm, hpo, ho.symm, ?_⟩
  rw [RuleLicence, Bid.toAward, hh]
  exact hP

theorem ruleLicence_privateSound : PrivateSound (RuleLicence ctx) ctx := fun _ _ _ _ h ↦ h

/-! ## One company's turn -/

/-- The state between two turns of a round that started from `m₀`. -/
structure TurnSafe (P : Award → Truck → Order → Prop) (fb : FleetBook) (m₀ : PoolMarket)
    (st : TurnState σ) : Prop where
  market : MarketSafe P fb st.market
  book : SameBook m₀ st.market
  bids : ∀ b ∈ st.bids, BidSound P fb m₀ b

variable {rnd : ℤ}

/-- A company's own pair on a known order is on an order filed under the company. -/
theorem mem_ordersOf_of_isOwnPair (hfb : fb.WellFiled) {p : Pair}
    (hk : ∃ owner, p.2 ∈ fb.ordersOf owner) (hown : isOwnPair fb h p = true) :
    p.2 ∈ fb.ordersOf h := by
  rw [isOwnPair, decide_eq_true_eq, hfb.ownerOf_eq_some] at hown
  obtain ⟨o, ho, hoi⟩ := hown
  obtain ⟨g, hg⟩ := hk
  have h1 := hfb.ordersById_eq_some.mpr ⟨hoi, h, ho⟩
  have h2 := hfb.ordersById_eq_some.mpr ⟨rfl, g, hg⟩
  rw [h1, Option.some_inj] at h2
  exact h2 ▸ ho

theorem commitPrivate_safe (hfb : fb.WellFiled) (hP : PrivateSound P ctx) {ps : List Pair}
    (hps : PlanSound ctx fb h ps) (hown : ∀ p ∈ ps, isOwnPair fb h p = true)
    {st st' : ℕ × PoolMarket} (hm : MarketSafe P fb st.2)
    (he : commitPrivate ctx h rnd ps st = .ok st') :
    MarketSafe P fb st'.2 ∧ SameBook st.2 st'.2 := by
  induction ps generalizing st with
  | nil => rw [← Except.ok.inj he]; exact ⟨hm, SameBook.refl _⟩
  | cons p ps ih =>
    rw [commitPrivate] at he
    split at he
    · cases he
    · next c _ =>
      have hlic : Licensed P fb st.2 (privateAward h rnd p c) := by
        obtain ⟨ht, hk, hrule⟩ := hps p List.mem_cons_self
        have hpo := mem_ordersOf_of_isOwnPair hfb hk (hown p List.mem_cons_self)
        exact ⟨h, p.1, p.2, ht, rfl, hpo, rfl, rfl, Or.inl rfl, hP h rnd p c hrule⟩
      obtain ⟨h1, h2⟩ := ih (fun q hq ↦ hps q (List.mem_cons_of_mem _ hq))
        (fun q hq ↦ hown q (List.mem_cons_of_mem _ hq)) (hm.commit hlic) he
      exact ⟨h1, (commit_sameBook st.2 _).trans h2⟩

theorem mem_ownPrivatePairs {p : Pair} (hp : p ∈ ownPrivatePairs fb m h plan) :
    p ∈ plan ∧ isOwnPair fb h p = true := by
  obtain ⟨h1, h2⟩ := List.mem_filter.mp hp
  exact ⟨h1, ((Bool.and_eq_true _ _).mp h2).1⟩

theorem claimBids_sound {r : ClaimRequest} (hclaim : ClaimSound P ctx fb)
    (hm : MarketSafe P fb r.market) (hplan : PlanSound ctx fb r.haulierId r.pooledPairs) :
    ∀ b ∈ (claimBids ctx r s).1, BidSound P fb r.market b := by
  intro b hb
  rw [claimBids] at hb
  split at hb
  · exact absurd hb List.not_mem_nil
  · split at hb
    · next he => exact hclaim r s _ _ hm hplan he b hb
    · exact absurd hb List.not_mem_nil

variable {st : TurnState σ}

variable {st' : TurnState σ}

theorem actOnPlan_safe (hfb : fb.WellFiled) (hP : PrivateSound P ctx) (hclaim : ClaimSound P ctx fb)
    (hplan : PlanSound ctx fb h plan) (hst : TurnSafe P fb m₀ st)
    (he : actOnPlan ctx fb h rnd plan st = .ok st') : TurnSafe P fb m₀ st' := by
  rw [actOnPlan] at he
  split at he
  · cases he
  · next commits m hc =>
    obtain ⟨hm, hb⟩ := commitPrivate_safe hfb hP
      (fun p hp ↦ hplan p (mem_ownPrivatePairs hp).1) (fun p hp ↦ (mem_ownPrivatePairs hp).2)
      hst.market hc
    have hbook := hst.book.trans hb
    rw [← Except.ok.inj he]
    refine ⟨hm, hbook, fun b hmem ↦ ?_⟩
    rcases List.mem_append.mp hmem with hmem | hmem
    · exact hst.bids b hmem
    · have hreq : PlanSound ctx fb h
          (ownContributedPairs fb st.market h plan ++ foreignPairs fb h plan) := by
        intro p hp
        rcases List.mem_append.mp hp with hp | hp
        · exact hplan p (List.mem_filter.mp hp).1
        · exact hplan p (List.mem_filter.mp hp).1
      refine BidSound.sameBook ?_ (claimBids_sound hclaim hm hreq b hmem)
      exact ⟨hbook.1.symm, hbook.2.1.symm, hbook.2.2.symm⟩

theorem companyTurn_safe (hfb : fb.WellFiled) (hS : ctx.solver.Sound) (hP : PrivateSound P ctx)
    (hclaim : ClaimSound P ctx fb) (hst : TurnSafe P fb m₀ st)
    (he : companyTurn R ctx fb m₀ (roundCandidates ctx fb m₀) rnd h st = .ok st') :
    TurnSafe P fb m₀ st' := by
  rw [companyTurn] at he
  split at he
  · rw [← Except.ok.inj he]
    exact hst
  · split at he
    · rw [← Except.ok.inj he]
      exact ⟨hst.market, hst.book, hst.bids⟩
    · next plan s hsolve =>
      have hplan : PlanSound ctx fb h plan := solveCompany_sound hfb hS hsolve
      have hst' : TurnSafe P fb m₀ { st with rng := s } := ⟨hst.market, hst.book, hst.bids⟩
      exact actOnPlan_safe hfb hP hclaim hplan hst' he

theorem companyTurns_safe (hfb : fb.WellFiled) (hS : ctx.solver.Sound) (hP : PrivateSound P ctx)
    (hclaim : ClaimSound P ctx fb) {hs : List String} (hst : TurnSafe P fb m₀ st)
    (he : companyTurns R ctx fb m₀ (roundCandidates ctx fb m₀) rnd hs st = .ok st') :
    TurnSafe P fb m₀ st' := by
  induction hs generalizing st with
  | nil => rw [← Except.ok.inj he]; exact hst
  | cons h hs ih =>
    rw [companyTurns] at he
    split at he
    · cases he
    · next ht => exact ih (companyTurn_safe hfb hS hP hclaim hst ht) he

/-! ## Rounds -/

theorem carrierSees_iff {a : Award} : carrierSees m a = true ↔
    a.ownerHaulierId = some a.carrierHaulierId ∨ m.Visible a.carrierHaulierId a.orderId := by
  rw [carrierSees, Bool.or_eq_true, decide_eq_true_eq, poolOfOrder_isSome]

/-- The award of a sound bid that passes the guard is licensed. -/
theorem licensed_of_bidSound (hfb : fb.WellFiled) {b : Bid} (hb : BidSound P fb m b)
    (hg : carrierSees m (b.toAward fb.ownerOf) = true) :
    Licensed P fb m (b.toAward fb.ownerOf) := by
  have hs : BidSees fb m b := carrierSees_iff.mp hg
  obtain ⟨owner, t, o, ht, hti, ho, hoi, hp⟩ := hb hs
  have how : fb.ownerOf b.orderId = some owner := hfb.ownerOf_eq_some.mpr ⟨o, ho, hoi⟩
  refine ⟨owner, t, o, ht, hti, ho, hoi, how, ?_, hp⟩
  rcases hs with hs | hs
  · exact Or.inl (Option.some_inj.mp (hs.symm.trans how))
  · exact Or.inr hs

theorem commitAwards_safe (hfb : fb.WellFiled) {as : List Award} {st : Bool × PoolMarket}
    (hbook : SameBook m₀ st.2) (hm : MarketSafe P fb st.2)
    (has : ∀ a ∈ as, ∃ b, BidSound P fb m₀ b ∧ a = b.toAward fb.ownerOf) :
    MarketSafe P fb (commitAwards as st).2 ∧ SameBook m₀ (commitAwards as st).2 := by
  induction as generalizing st with
  | nil => exact ⟨hm, hbook⟩
  | cons a as ih =>
    have hrest : ∀ a ∈ as, ∃ b, BidSound P fb m₀ b ∧ a = b.toAward fb.ownerOf :=
      fun a ha ↦ has a (List.mem_cons_of_mem _ ha)
    rw [commitAwards]
    split
    · next hg =>
      obtain ⟨b, hb, rfl⟩ := has a List.mem_cons_self
      have hlic := licensed_of_bidSound hfb (hb.sameBook hbook) hg
      exact ih (hbook.trans (commit_sameBook _ _)) (hm.commit hlic) hrest
    · exact ih hbook hm hrest

theorem settleRound_safe (hfb : fb.WellFiled) (hst : TurnSafe P fb m₀ st) :
    MarketSafe P fb (settleRound R ctx fb st).2.1 ∧
      SameBook m₀ (settleRound R ctx fb st).2.1 := by
  rw [settleRound]
  split
  · exact ⟨hst.market, hst.book⟩
  · refine commitAwards_safe hfb hst.book hst.market fun a ha ↦ ?_
    obtain ⟨b, hb, -, rfl⟩ := ArbitrationRule.exists_bid_of_mem_resolve ha
    exact ⟨b, hst.bids b hb, rfl⟩

/-- **A round keeps the invariant.** -/
theorem playRound_safe (hfb : fb.WellFiled) (hS : ctx.solver.Sound) (hP : PrivateSound P ctx)
    (hclaim : ClaimSound P ctx fb) {st st' : TickState σ} (hst : MarketSafe P fb st.market)
    (he : playRound R ctx fb rnd st = .ok st') :
    MarketSafe P fb st'.market ∧ SameBook st.market st'.market := by
  rw [playRound] at he
  split at he
  · cases he
  · next turn ht =>
    have hturn : TurnSafe P fb st.market turn :=
      companyTurns_safe hfb hS hP hclaim
        ⟨hst, SameBook.refl _, fun b hb ↦ absurd hb List.not_mem_nil⟩ ht
    rw [← Except.ok.inj he]
    exact settleRound_safe hfb hturn

/-- **All the rounds keep the invariant**, however many there are. -/
theorem playRounds_safe (hfb : fb.WellFiled) (hS : ctx.solver.Sound) (hP : PrivateSound P ctx)
    (hclaim : ClaimSound P ctx fb) {n : ℕ} {st st' : TickState σ} (hst : MarketSafe P fb st.market)
    (he : playRounds R ctx fb n rnd st = .ok st') :
    MarketSafe P fb st'.market ∧ SameBook st.market st'.market := by
  induction n generalizing rnd st with
  | zero => rw [← Except.ok.inj he]; exact ⟨hst, SameBook.refl _⟩
  | succ n ih =>
    rw [playRounds] at he
    split at he
    · rw [← Except.ok.inj he]
      exact ⟨hst, SameBook.refl _⟩
    · split at he
      · cases he
      · next st₁ h₁ =>
        obtain ⟨hm, hb⟩ := playRound_safe hfb hS hP hclaim hst h₁
        split at he
        · rw [← Except.ok.inj he]
          exact ⟨hm, hb⟩
        · obtain ⟨hm', hb'⟩ := ih hm he
          exact ⟨hm', hb.trans hb'⟩

theorem tickRounds_safe (hfb : fb.WellFiled) (hS : ctx.solver.Sound) (hP : PrivateSound P ctx)
    (hclaim : ClaimSound P ctx fb) {pools : List Pool} {st : TickState σ}
    (he : tickRounds R ctx fb pools s = .ok st) :
    MarketSafe P fb st.market ∧ st.market.pools = (init pools).pools := by
  have hc : Contributing P fb (init pools) (contributeAll ctx fb (init pools) s).1 :=
    contributeAll_safe pools s
  obtain ⟨hm, hb⟩ := playRounds_safe hfb hS hP hclaim hc.1 he
  exact ⟨hm, hb.1.trans hc.2.2⟩

end Run

end OpenRide.Assignment
