import OpenRide.Assignment.PooledTick

/-!
# Bidding on gain

`ClaimIfGainExceeds` bids on a planned pair when its truck would cost at least `min_gain_km` more on
the best of the company's own planned orders.  What is promised of it is `BidsOnGain`: a foreign
pair is bid exactly when its gain is a number and large enough, and an own order that was
contributed is always bid, so that contributing it never makes the owner give it up.

Two things break the promise (`gain_exceptions`).  The test is `gain < min_gain_km`, which is false
of a NaN, so a pair whose gain is not defined is bid.  And the own orders a pair is compared with
include the contributed ones, the pair's own among them: its gain is then at most zero, and the
owner bids on it only where the threshold is zero and no other own order would cost the truck less.
`bidsOnGain_iff` says exactly when neither happens.
-/

namespace OpenRide.Assignment

open Lib

/-! ## The baseline -/

section Baseline

variable {cost : Cost} {t : Truck} {os : List Order}

/-- What the fold keeps: the start or a cost met, and nothing less than it was met. -/
theorem foldl_least (start : Double) (hstart : start ≠ .nan) (os : List Order) :
    let best := os.foldl (fun best o ↦
      let c := bidCost cost t o
      if c.lt best then c else best) start
    best ≠ .nan ∧ start.lt best = false ∧ (∀ o ∈ os, (bidCost cost t o).lt best = false) ∧
      (best = start ∨ ∃ o ∈ os, bidCost cost t o = best) := by
  induction os generalizing start with
  | nil =>
    refine ⟨hstart, ?_, fun o ho ↦ absurd ho List.not_mem_nil, Or.inl rfl⟩
    cases start <;> simp [Double.lt]
  | cons o os ih =>
    rw [List.foldl_cons]
    by_cases hlt : (bidCost cost t o).lt start = true
    · have hc : bidCost cost t o ≠ .nan := by
        intro hnan
        rw [hnan] at hlt
        cases hlt
      rw [if_pos hlt]
      obtain ⟨hne, hle, hall, hmet⟩ := ih _ hc
      refine ⟨hne, ?_, ?_, ?_⟩
      · by_contra hn
        rw [Bool.not_eq_false] at hn
        rw [Double.lt_trans hlt hn] at hle
        cases hle
      · exact List.forall_mem_cons.mpr ⟨hle, hall⟩
      · rcases hmet with hmet | ⟨o', ho', hmet⟩
        · exact Or.inr ⟨o, List.mem_cons_self, hmet.symm⟩
        · exact Or.inr ⟨o', List.mem_cons_of_mem o ho', hmet⟩
    · rw [if_neg hlt]
      obtain ⟨hne, hle, hall, hmet⟩ := ih start hstart
      refine ⟨hne, hle, ?_, ?_⟩
      · exact List.forall_mem_cons.mpr
          ⟨Double.not_lt_trans hstart (Bool.eq_false_iff.mpr hlt) hle, hall⟩
      · rcases hmet with hmet | ⟨o', ho', hmet⟩
        · exact Or.inl hmet
        · exact Or.inr ⟨o', List.mem_cons_of_mem o ho', hmet⟩

theorem bestOwn_ne_nan : bestOwn cost t os ≠ .nan :=
  (foldl_least .posInf (by decide) os).1

/-- No own order costs less than the baseline. -/
theorem not_lt_bestOwn {o : Order} (ho : o ∈ os) :
    (bidCost cost t o).lt (bestOwn cost t os) = false :=
  (foldl_least .posInf (by decide) os).2.2.1 o ho

theorem bestOwn_met (cost : Cost) (t : Truck) (os : List Order) :
    bestOwn cost t os = .posInf ∨ ∃ o ∈ os, bidCost cost t o = bestOwn cost t os :=
  (foldl_least .posInf (by decide) os).2.2.2

theorem bestOwn_eq_posInf_iff :
    bestOwn cost t os = .posInf ↔ ∀ o ∈ os, (bidCost cost t o).lt .posInf = false := by
  constructor
  · intro h o ho
    rw [← h]
    exact not_lt_bestOwn ho
  · intro hall
    by_contra hne
    obtain ⟨o, ho, hmet⟩ := (bestOwn_met cost t os).resolve_left hne
    have hlt := Double.lt_posInf bestOwn_ne_nan hne
    rw [← hmet, hall o ho] at hlt
    cases hlt

theorem bestOwn_eq_negInf_iff :
    bestOwn cost t os = .negInf ↔ ∃ o ∈ os, bidCost cost t o = .negInf := by
  constructor
  · intro h
    rcases bestOwn_met cost t os with hmet | ⟨o, ho, hmet⟩
    · rw [h] at hmet
      cases hmet
    · exact ⟨o, ho, hmet.trans h⟩
  · rintro ⟨o, ho, hc⟩
    by_contra hne
    have hlt := Double.negInf_lt bestOwn_ne_nan hne
    rw [← hc, not_lt_bestOwn ho] at hlt
    cases hlt

/-- The baseline is below a number exactly when an own order costs less. -/
theorem bestOwn_not_lt_iff {x : Double} :
    (bestOwn cost t os).lt x = false ↔ ∀ o ∈ os, (bidCost cost t o).lt x = false := by
  constructor
  · intro h o ho
    exact Double.not_lt_trans bestOwn_ne_nan (not_lt_bestOwn ho) h
  · intro hall
    rcases bestOwn_met cost t os with hmet | ⟨o, ho, hmet⟩
    · rw [hmet]
      cases x <;> rfl
    · rw [← hmet]
      exact hall o ho

end Baseline

/-! ## The gain of a pair -/

section Gain

variable {rnd : ℚ → Double} {r : ClaimRequest} {p : Pair} {minGainKm : Double}

/-- What the truck of a pair would cost more on the best own order, as the policy computes it. -/
def gainOf (rnd : ℚ → Double) (r : ClaimRequest) (p : Pair) : Double :=
  if (r.ownPairs.map Prod.snd).isEmpty then .posInf
  else (bestOwn r.cost p.1 (r.ownPairs.map Prod.snd)).sub rnd (bidCost r.cost p.1 p.2)

/-- The policy bids on the pairs whose gain is not below the threshold. -/
theorem claimIfGainExceeds_eq {σ : Type} (s : σ) :
    claimIfGainExceeds rnd minGainKm r s =
      (.ok ((r.pooledPairs.filter fun p ↦ !(gainOf rnd r p).lt minGainKm).filterMap (bidOn r)),
        s) :=
  rfl

/-- The cost of a pair can be subtracted from the baseline: there is no own plan; or the cost is a
number, and not infinite on the side on which the baseline is. -/
def Comparable (r : ClaimRequest) (p : Pair) : Prop :=
  r.ownPairs = [] ∨
    (bidCost r.cost p.1 p.2 ≠ .nan ∧
      ¬ (bidCost r.cost p.1 p.2 = .posInf ∧
        ∀ q ∈ r.ownPairs, (bidCost r.cost p.1 q.2).lt .posInf = false) ∧
      ¬ (bidCost r.cost p.1 p.2 = .negInf ∧
        ∃ q ∈ r.ownPairs, bidCost r.cost p.1 q.2 = .negInf))

/-- The truck of a pair has no cheaper order in the own plan, and the threshold is zero or the cost
is not finite. -/
def Kept (r : ClaimRequest) (minGainKm : Double) (p : Pair) : Prop :=
  (∀ q ∈ r.ownPairs, (bidCost r.cost p.1 q.2).lt (bidCost r.cost p.1 p.2) = false) ∧
    (minGainKm = .fin 0 ∨ (bidCost r.cost p.1 p.2).isFinite = false)

theorem ownOrders_isEmpty_iff : (r.ownPairs.map Prod.snd).isEmpty = true ↔ r.ownPairs = [] := by
  rw [List.isEmpty_iff, List.map_eq_nil_iff]

theorem forall_ownOrders_iff {x : Double} :
    (∀ o ∈ r.ownPairs.map Prod.snd, (bidCost r.cost p.1 o).lt x = false) ↔
      ∀ q ∈ r.ownPairs, (bidCost r.cost p.1 q.2).lt x = false :=
  List.forall_mem_map

theorem sub_ne_nan_iff (hrnd : Double.FloatRounding rnd) {x y : Double} (hx : x ≠ .nan) :
    x.sub rnd y ≠ .nan ↔
      y ≠ .nan ∧ ¬ (y = .posInf ∧ x = .posInf) ∧ ¬ (y = .negInf ∧ x = .negInf) := by
  cases x with
  | nan => exact absurd rfl hx
  | fin p =>
    cases y with
    | fin q => simpa [Double.sub] using hrnd.ne_nan (p - q)
    | _ => simp [Double.sub]
  | posInf => cases y <;> simp [Double.sub]
  | negInf => cases y <;> simp [Double.sub]

/-- **The gain of a pair is a number exactly when its cost can be subtracted.** -/
theorem gainOf_ne_nan_iff (hrnd : Double.FloatRounding rnd) :
    gainOf rnd r p ≠ .nan ↔ Comparable r p := by
  rw [gainOf, Comparable]
  by_cases hown : r.ownPairs = []
  · rw [if_pos (ownOrders_isEmpty_iff.mpr hown)]
    exact iff_of_true (by decide) (Or.inl hown)
  · rw [if_neg fun h ↦ hown (ownOrders_isEmpty_iff.mp h), sub_ne_nan_iff hrnd bestOwn_ne_nan,
      bestOwn_eq_posInf_iff, bestOwn_eq_negInf_iff, forall_ownOrders_iff]
    simp only [hown, false_or, List.mem_map, exists_exists_and_eq_and]

/-- A number less another one that is greater is below every threshold that is not negative. -/
theorem sub_lt_of_lt (hrnd : Double.FloatRounding rnd)
    (hmin : Double.AtLeast minGainKm (.fin 0)) {x y : Double}
    (hx : ∀ q, x = .fin q → rnd q = .fin q) (hy : ∀ q, y = .fin q → rnd q = .fin q)
    (h : x.lt y = true) : (x.sub rnd y).lt minGainKm = true := by
  obtain ⟨hnan, -, hle⟩ := hmin
  have hneg : Double.lt .negInf minGainKm = true := by
    refine Double.negInf_lt hnan fun heq ↦ ?_
    rw [heq] at hle
    cases hle
  cases x with
  | nan => cases h
  | posInf => cases y <;> cases h
  | negInf =>
    cases y with
    | nan => cases h
    | negInf => cases h
    | fin q => exact hneg
    | posInf => exact hneg
  | fin b =>
    cases y with
    | nan => cases h
    | negInf => cases h
    | posInf => exact hneg
    | fin c =>
      -- below zero, and zero is not above the threshold
      have hlt := hrnd.neg b c (hx b rfl) (hy c rfl) (of_decide_eq_true h)
      by_contra hn
      have hback := Double.not_lt_trans hnan (Bool.eq_false_iff.mpr hn) hle
      rw [Double.sub, hlt] at hback
      cases hback

/-- A number less itself is not below the threshold only where the threshold is zero, or the number
is infinite and the difference not defined. -/
theorem sub_self_lt_iff (hrnd : Double.FloatRounding rnd)
    (hmin : Double.AtLeast minGainKm (.fin 0)) (x : Double) :
    (x.sub rnd x).lt minGainKm = false ↔ minGainKm = .fin 0 ∨ x.isFinite = false := by
  cases x with
  | fin q =>
    obtain ⟨hnan, -, hle⟩ := hmin
    rw [Double.sub, sub_self, hrnd.zero]
    constructor
    · intro h
      exact Or.inl (Double.eq_of_not_lt hnan (by decide) hle h)
    · rintro (rfl | h)
      · exact decide_eq_false (lt_irrefl (0 : ℚ))
      · cases h
  | nan => exact iff_of_true rfl (Or.inr rfl)
  | posInf => exact iff_of_true rfl (Or.inr rfl)
  | negInf => exact iff_of_true rfl (Or.inr rfl)

/-- **An own planned pair is bid exactly when it is `Kept`.** -/
theorem gainOf_own_iff (hrnd : Double.FloatRounding rnd)
    (hfloat : ∀ t o q, bidCost r.cost t o = .fin q → rnd q = .fin q)
    (hmin : Double.AtLeast minGainKm (.fin 0)) (hp : p ∈ r.ownPairs) :
    (gainOf rnd r p).lt minGainKm = false ↔ Kept r minGainKm p := by
  have hne : ¬ (r.ownPairs.map Prod.snd).isEmpty = true :=
    fun h ↦ List.ne_nil_of_mem hp (ownOrders_isEmpty_iff.mp h)
  have hmem : p.2 ∈ r.ownPairs.map Prod.snd := List.mem_map_of_mem hp
  rw [gainOf, if_neg hne, Kept, ← forall_ownOrders_iff, ← bestOwn_not_lt_iff]
  by_cases hc : bidCost r.cost p.1 p.2 = .nan
  · rw [hc]
    cases bestOwn r.cost p.1 (r.ownPairs.map Prod.snd) <;>
      exact iff_of_true rfl ⟨rfl, Or.inr rfl⟩
  by_cases hlt : (bestOwn r.cost p.1 (r.ownPairs.map Prod.snd)).lt (bidCost r.cost p.1 p.2) = true
  · -- another own order costs the truck less
    have hbest : ∀ q, bestOwn r.cost p.1 (r.ownPairs.map Prod.snd) = .fin q → rnd q = .fin q := by
      intro q hq
      rcases bestOwn_met r.cost p.1 (r.ownPairs.map Prod.snd) with hmet | ⟨o, -, hmet⟩
      · rw [hq] at hmet
        cases hmet
      · exact hfloat p.1 o q (hmet.trans hq)
    have hgain := sub_lt_of_lt hrnd hmin hbest (hfloat p.1 p.2) hlt
    rw [hgain, hlt]
    exact iff_of_false Bool.false_ne_true.symm fun h ↦ Bool.false_ne_true h.1.symm
  · -- the pair is its own baseline
    have heq := Double.eq_of_not_lt bestOwn_ne_nan hc (Bool.eq_false_iff.mpr hlt)
      (not_lt_bestOwn hmem)
    rw [heq] at hlt ⊢
    rw [sub_self_lt_iff hrnd hmin]
    exact ⟨fun h ↦ ⟨Bool.eq_false_iff.mpr hlt, h⟩, fun h ↦ h.2⟩

end Gain

/-! ## The bids on a plan -/

section Bids

variable {σ : Type} {R : Runtime σ} {ctx : PooledPlannerContext σ} {fb : FleetBook}

/-- There is a bid for the truck and the order of a pair. -/
def HasBid (bids : List Bid) (p : Pair) : Prop :=
  ∃ b ∈ bids, b.truckId = p.1.entityId ∧ b.orderId = p.2.entityId

/-- The request a company's claim policy is asked about its plan.  The plan was made on the market
`m₀`, the policy is handed the market after the private commits. -/
def planRequest (ctx : PooledPlannerContext σ) (fb : FleetBook) (m₀ m : PoolMarket) (h : String)
    (rnd : ℤ) (plan : List Pair) : ClaimRequest :=
  claimRequest ctx m h rnd (ownPrivatePairs fb m₀ h plan ++ ownContributedPairs fb m₀ h plan)
    (ownContributedPairs fb m₀ h plan ++ foreignPairs fb h plan)

/-- What is promised of the bids on a plan. -/
structure BidsOnGain (rnd : ℚ → Double) (minGainKm : Double) (r : ClaimRequest)
    (contributed foreign : List Pair) (bids : List Bid) : Prop where
  /-- A foreign pair is bid exactly when its gain is a number that is at least the threshold. -/
  foreign : ∀ p ∈ foreign, (pairIds p).isSome = true →
    (HasBid bids p ↔ Double.AtLeast (gainOf rnd r p) minGainKm)
  /-- A pair on an own order that was contributed is bid. -/
  own : ∀ p ∈ contributed, (pairIds p).isSome = true → HasBid bids p

theorem mem_of_mem_pooledPairs {m₀ m : PoolMarket} {h : String} {rnd : ℤ} {plan : List Pair}
    {p : Pair} (hp : p ∈ (planRequest ctx fb m₀ m h rnd plan).pooledPairs) : p ∈ plan := by
  rcases List.mem_append.mp hp with hp | hp
  · exact List.mem_of_mem_filter hp
  · exact List.mem_of_mem_filter hp

theorem claimBids_gain {minGainKm : Double}
    (hclaim : ctx.claim = claimIfGainExceeds R.rnd minGainKm)
    (r : ClaimRequest) (s : σ) : (claimBids ctx r s).1 =
      (r.pooledPairs.filter fun p ↦ !(gainOf R.rnd r p).lt minGainKm).filterMap (bidOn r) := by
  rw [claimBids]
  split
  · next hempty =>
    rw [List.isEmpty_iff.mp hempty]
    rfl
  · rw [hclaim, claimIfGainExceeds_eq]

/-- The pairs of a plan are told apart by the ids of their truck and their order. -/
def Distinguished (plan : List Pair) : Prop :=
  ∀ p ∈ plan, ∀ q ∈ plan, p.1.entityId = q.1.entityId → p.2.entityId = q.2.entityId → p = q

/-- In a plan whose pairs are told apart by their ids, a pair is bid exactly when its gain is not
below the threshold. -/
theorem hasBid_iff {minGainKm : Double} (hclaim : ctx.claim = claimIfGainExceeds R.rnd minGainKm)
    {m₀ m : PoolMarket} {h : String} {rnd : ℤ} {plan : List Pair}
    (hplan : Distinguished plan) {s : σ} {p : Pair}
    (hp : p ∈ (planRequest ctx fb m₀ m h rnd plan).pooledPairs)
    (hids : (pairIds p).isSome = true) :
    HasBid (claimBids ctx (planRequest ctx fb m₀ m h rnd plan) s).1 p ↔
      (gainOf R.rnd (planRequest ctx fb m₀ m h rnd plan) p).lt minGainKm = false := by
  rw [HasBid, claimBids_gain hclaim]
  constructor
  · rintro ⟨b, hb, htruck, horder⟩
    obtain ⟨q, hq, hqb⟩ := List.mem_filterMap.mp hb
    obtain ⟨hq, hworth⟩ := List.mem_filter.mp hq
    have heq : q = p := by
      obtain ⟨-, hqt, hqo⟩ := bidOn_eq_some hqb
      exact hplan q (mem_of_mem_pooledPairs hq) p (mem_of_mem_pooledPairs hp)
        (hqt.symm.trans htruck) (hqo.symm.trans horder)
    subst heq
    simpa only [Bool.not_eq_true'] using hworth
  · intro hworth
    obtain ⟨ids, hids⟩ := Option.isSome_iff_exists.mp hids
    have hbid : ∃ b, bidOn (planRequest ctx fb m₀ m h rnd plan) p = some b := by
      rw [bidOn, hids]
      exact ⟨_, rfl⟩
    obtain ⟨b, hb⟩ := hbid
    refine ⟨b, List.mem_filterMap.mpr ⟨p, List.mem_filter.mpr ⟨hp, ?_⟩, hb⟩,
      (bidOn_eq_some hb).2⟩
    rw [hworth]
    rfl

/-- **When `ClaimIfGainExceeds` bids exactly on gain.**  It does for a plan exactly when the cost of
every foreign pair can be subtracted from its baseline and every own contributed pair is kept. -/
theorem bidsOnGain_iff (R : Runtime σ) (ctx : PooledPlannerContext σ) (fb : FleetBook)
    (m₀ m : PoolMarket) (h : String) (rnd : ℤ) (plan : List Pair) (minGainKm : Double) (s : σ)
    (hrnd : Double.FloatRounding R.rnd)
    (hfloat : ∀ t o q, bidCost ctx.cost t o = .fin q → R.rnd q = .fin q)
    (hclaim : ctx.claim = claimIfGainExceeds R.rnd minGainKm)
    (hmin : Double.AtLeast minGainKm (.fin 0)) (hplan : Distinguished plan) :
    BidsOnGain R.rnd minGainKm (planRequest ctx fb m₀ m h rnd plan)
        (ownContributedPairs fb m₀ h plan) (foreignPairs fb h plan)
        (claimBids ctx (planRequest ctx fb m₀ m h rnd plan) s).1 ↔
      (∀ p ∈ foreignPairs fb h plan, (pairIds p).isSome = true →
        Comparable (planRequest ctx fb m₀ m h rnd plan) p) ∧
      ∀ p ∈ ownContributedPairs fb m₀ h plan, (pairIds p).isSome = true →
        Kept (planRequest ctx fb m₀ m h rnd plan) minGainKm p := by
  have hforeign : ∀ p ∈ foreignPairs fb h plan, (pairIds p).isSome = true →
      ((HasBid (claimBids ctx (planRequest ctx fb m₀ m h rnd plan) s).1 p ↔
        Double.AtLeast (gainOf R.rnd (planRequest ctx fb m₀ m h rnd plan) p) minGainKm) ↔
      Comparable (planRequest ctx fb m₀ m h rnd plan) p) := by
    intro p hp hids
    rw [hasBid_iff hclaim hplan (List.mem_append_right _ hp) hids, ← gainOf_ne_nan_iff hrnd,
      Double.AtLeast]
    constructor
    · -- a gain that is not a number is not below the threshold, and not at least it
      intro hiff hnan
      rw [hnan] at hiff
      exact (hiff.mp rfl).1 rfl
    · exact fun hne ↦ ⟨fun hlt ↦ ⟨hne, hmin.1, hlt⟩, fun hat ↦ hat.2.2⟩
  have hown : ∀ p ∈ ownContributedPairs fb m₀ h plan, (pairIds p).isSome = true →
      (HasBid (claimBids ctx (planRequest ctx fb m₀ m h rnd plan) s).1 p ↔
        Kept (planRequest ctx fb m₀ m h rnd plan) minGainKm p) := by
    intro p hp hids
    rw [hasBid_iff hclaim hplan (List.mem_append_left _ hp) hids]
    exact gainOf_own_iff hrnd hfloat hmin (List.mem_append_right _ hp)
  constructor
  · intro hb
    exact ⟨fun p hp hids ↦ (hforeign p hp hids).mp (hb.foreign p hp hids),
      fun p hp hids ↦ (hown p hp hids).mp (hb.own p hp hids)⟩
  · rintro ⟨hf, ho⟩
    exact ⟨fun p hp hids ↦ (hforeign p hp hids).mpr (hf p hp hids),
      fun p hp hids ↦ (hown p hp hids).mpr (ho p hp hids)⟩

end Bids

/-! ## Two plans

Company `A` plans its own order `oA`, which is contributed, and the order `oB` of company `B`. -/

def gainBook : FleetBook where
  trucksByHaulier := Dict.ofList [("A", [{ id := some "t1" }, { id := some "t2" }])]
  ordersByHaulier := Dict.ofList [("A", [{ id := some "oA" }]), ("B", [{ id := some "oB" }])]

def gainMarket : PoolMarket :=
  ((((PoolMarket.init [{ id := "p", members := SortedSet.ofList ["A", "B"] }]).contribute "oA" "A"
    ["p"]).2).contribute "oB" "B" ["p"]).2

def gainPlan : List Pair :=
  [({ id := some "t1" }, { id := some "oA" }), ({ id := some "t2" }, { id := some "oB" })]

def gainContext (minGainKm : Double) (cost : Cost) : PooledPlannerContext Unit :=
  { smallContext (claimIfGainExceeds Double.fin minGainKm) with cost := cost }

/-- The request of company `A` about its plan. -/
def gainRequest (minGainKm : Double) (cost : Cost) : ClaimRequest :=
  planRequest (gainContext minGainKm cost) gainBook gainMarket gainMarket "A" 0 gainPlan

/-- Both orders are two kilometres from either truck. -/
def twoKm : Cost := fun _ _ ↦ .ok (.num (.fin 2))

/-- The bids of company `A` on its plan. -/
def gainBids (minGainKm : Double) (cost : Cost) : List Bid :=
  (claimBids (gainContext minGainKm cost) (gainRequest minGainKm cost) ()).1

/-- What is promised of them. -/
abbrev GainPromise (minGainKm : Double) (cost : Cost) : Prop :=
  BidsOnGain Double.fin minGainKm (gainRequest minGainKm cost)
    (ownContributedPairs gainBook gainMarket "A" gainPlan) (foreignPairs gainBook "A" gainPlan)
    (gainBids minGainKm cost)

/-- A cost function that raises on every pair leaves every gain undefined, and the foreign pair is
bid; with a threshold of five kilometres the owner does not bid on its own order. -/
theorem gain_exceptions :
    ((gainBids (.fin 0) fun _ _ ↦ .error .valueError).map Bid.orderId = ["oA", "oB"] ∧
      ¬ GainPromise (.fin 0) fun _ _ ↦ .error .valueError) ∧
    (gainBids (.fin 5) twoKm = [] ∧ ¬ GainPromise (.fin 5) twoKm) := by
  refine ⟨⟨by decide +kernel, fun h ↦ ?_⟩, ⟨by decide +kernel, fun h ↦ ?_⟩⟩
  · have hiff := h.foreign ({ id := some "t2" }, { id := some "oB" }) (by decide +kernel) rfl
    have hbid : HasBid (gainBids (.fin 0) fun _ _ ↦ .error .valueError)
        ({ id := some "t2" }, { id := some "oB" }) := by
      rw [HasBid]
      decide +kernel
    exact (hiff.mp hbid).1 (by decide +kernel)
  · have hbid := h.own ({ id := some "t1" }, { id := some "oA" }) (by decide +kernel) rfl
    have hno : gainBids (.fin 5) twoKm = [] := by decide +kernel
    obtain ⟨b, hb, -⟩ := hbid
    rw [hno] at hb
    cases hb

theorem floatRounding_fin : Double.FloatRounding Double.fin where
  ne_nan _ := nofun
  zero := rfl
  neg _ _ _ _ h := decide_eq_true (sub_neg.mpr h)

theorem bidsOnGain_iff_twoKm : GainPromise (.fin 0) twoKm := by
  refine (bidsOnGain_iff smallRuntime (gainContext (.fin 0) twoKm) gainBook gainMarket gainMarket
    "A" 0 gainPlan (.fin 0) () floatRounding_fin (fun _ _ _ _ ↦ rfl) rfl
    ⟨nofun, nofun, by decide⟩ (by rw [Distinguished]; decide +kernel)).mpr ⟨?_, ?_⟩
  · intro p _ _
    have hc : bidCost (gainRequest (.fin 0) twoKm).cost p.1 p.2 = .fin 2 := rfl
    exact Or.inr ⟨fun h ↦ (nomatch hc.symm.trans h), fun h ↦ (nomatch hc.symm.trans h.1),
      fun h ↦ (nomatch hc.symm.trans h.1)⟩
  · exact fun p _ _ ↦ ⟨fun _ _ ↦ decide_eq_false (lt_irrefl (2 : ℚ)), Or.inl rfl⟩

end OpenRide.Assignment
