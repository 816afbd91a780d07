import OpenRide.Assignment.PooledSafety

/-!
# What a pooled tick guarantees

The invariant of the rounds, read off at the end of the tick: what is in the returned assignment,
and what a tick can be aborted by.  The closing assertions never fire
(`closingAssertions_ok`); a tick that raises raises an exception of the cost function.
With registered claim policies every returned pair is lawful and allowed by its pair rule
(`runPooledMarket_safe`).
-/

namespace OpenRide.Assignment

open Lib PoolMarket

variable {σ : Type} {R : Runtime σ} {ctx : PooledPlannerContext σ} {fb : FleetBook}

/-! ## What a tick can be aborted by -/

/-- The cost function raises this exception on some pair. -/
def Cost.Raises (cost : Cost) (x : PyExc) : Prop := ∃ t o, floatCost cost t o = .error x

/-- The error is an exception of the cost function. -/
def TickError.FromCost (cost : Cost) (e : TickError) : Prop := ∃ x, e = .raised x ∧ cost.Raises x

variable {e : TickError}

variable {rnd : ℤ}

theorem commitPrivate_error {h : String} {ps : List Pair} {st : ℕ × PoolMarket}
    (he : commitPrivate ctx h rnd ps st = .error e) : e.FromCost ctx.cost := by
  induction ps generalizing st with
  | nil => cases he
  | cons p ps ih =>
    rw [commitPrivate] at he
    split at he
    · next x hx => exact ⟨x, (Except.error.inj he).symm, p.1, p.2, hx⟩
    · exact ih he

theorem companyTurn_error {m₀ : PoolMarket} {cands : Dict String (List Pair)} {h : String}
    {st : TurnState σ} (he : companyTurn R ctx fb m₀ cands rnd h st = .error e) :
    e.FromCost ctx.cost := by
  rw [companyTurn] at he
  split at he
  · cases he
  · split at he
    · cases he
    · rw [actOnPlan] at he
      split at he
      · next hc =>
        cases he
        exact commitPrivate_error hc
      · cases he

theorem companyTurns_error {m₀ : PoolMarket} {cands : Dict String (List Pair)} {hs : List String}
    {st : TurnState σ} (he : companyTurns R ctx fb m₀ cands rnd hs st = .error e) :
    e.FromCost ctx.cost := by
  induction hs generalizing st with
  | nil => cases he
  | cons h hs ih =>
    rw [companyTurns] at he
    split at he
    · next ht =>
      cases he
      exact companyTurn_error ht
    · exact ih he

theorem playRounds_error {n : ℕ} {st : TickState σ} (he : playRounds R ctx fb n rnd st = .error e) :
    e.FromCost ctx.cost := by
  induction n generalizing rnd st with
  | zero => cases he
  | succ n ih =>
    rw [playRounds] at he
    split at he
    · cases he
    · split at he
      · next hr =>
        cases he
        rw [playRound] at hr
        split at hr
        · next ht =>
          cases hr
          exact companyTurns_error ht
        · cases hr
      · split at he
        · cases he
        · exact ih he

variable {committed : List String}

theorem ownerReserveKm_error {o : Order} {allowed : PairAllowed} {cost : Cost} {ts : List Truck}
    {best : Option Double} (he : ownerReserveKm o committed allowed cost ts best = .error e) :
    e.FromCost cost := by
  induction ts generalizing best with
  | nil => cases he
  | cons t ts ih =>
    rw [ownerReserveKm] at he
    split at he
    · exact ih he
    · split at he
      · next x hx =>
        exact ⟨x, (Except.error.inj he).symm, t, o, by rw [floatCost, hx]; rfl⟩
      · exact ih he
      · split at he
        · exact ih he
        · split at he
          · exact ih he
          · exact ih he

variable {as : List Award}

theorem account_error {acc : List Pair × Dict (String × String) ShareTag}
    (he : account R ctx fb committed as acc = .error e) : e.FromCost ctx.cost := by
  induction as generalizing acc with
  | nil => cases he
  | cons a as ih =>
    rw [account] at he
    split at he
    · split at he
      · exact ih he
      · split at he
        · next hr =>
          cases he
          exact ownerReserveKm_error hr
        · exact ih he
    · exact ih he

/-! ## The assignment is the list of awards -/

/-- When every award names a known truck and order, the pairs are theirs, one for each award. -/
theorem account_assignment {acc acc' : List Pair × Dict (String × String) ShareTag}
    (hknown : ∀ a ∈ as, ∃ t o, fb.trucksById.get? a.truckId = some t ∧
      fb.ordersById.get? a.orderId = some o)
    (he : account R ctx fb committed as acc = .ok acc') :
    ∃ ps : List Pair, acc'.1 = acc.1 ++ ps ∧ List.Forall₂ (fun a p ↦
      fb.trucksById.get? a.truckId = some p.1 ∧ fb.ordersById.get? a.orderId = some p.2) as ps := by
  induction as generalizing acc with
  | nil =>
    rw [← Except.ok.inj he]
    exact ⟨[], (List.append_nil _).symm, List.Forall₂.nil⟩
  | cons a as ih =>
    obtain ⟨t, o, ht, ho⟩ := hknown a List.mem_cons_self
    have hrest := fun a ha ↦ hknown a (List.mem_cons_of_mem _ ha)
    have hstep : ∀ tags, account R ctx fb committed as (acc.1 ++ [(t, o)], tags) = .ok acc' →
        ∃ ps : List Pair, acc'.1 = acc.1 ++ ps ∧ List.Forall₂ (fun a p ↦
          fb.trucksById.get? a.truckId = some p.1 ∧ fb.ordersById.get? a.orderId = some p.2)
          (a :: as) ps := by
      intro tags h
      obtain ⟨ps, hps, hf⟩ := ih hrest h
      refine ⟨(t, o) :: ps, ?_, List.Forall₂.cons ⟨ht, ho⟩ hf⟩
      rw [hps, List.append_assoc, List.singleton_append]
    rw [account, ht, ho] at he
    dsimp only at he
    split at he
    · exact hstep _ he
    · split at he
      · cases he
      · exact hstep _ he

/-! ## The closing assertions -/

variable {P : Award → Truck → Order → Prop}

/-- An award names the company its order is filed under. -/
def NamesOwner (fb : FleetBook) (a : Award) : Prop :=
  ∃ owner, fb.ownerOf a.orderId = some owner ∧ a.ownerHaulierId = some owner

/-- **The closing assertions hold** of a ledger whose awards name the owners of their orders. -/
theorem closingAssertions_ok {m : PoolMarket} (hfb : fb.WellFiled) (hledger : m.Ledger)
    (howner : ∀ a ∈ m.awards, NamesOwner fb a) : closingAssertions fb m.awards = .ok () := by
  have hp1 : ∀ a ∈ m.awards, a.orderId ∈ fb.inputOrderIds := by
    intro a ha
    obtain ⟨owner, how, -⟩ := howner a ha
    obtain ⟨o, ho, hoi⟩ := hfb.ownerOf_eq_some.mp how
    exact FleetBook.mem_inputOrderIds.mpr ⟨o, hfb.ordersById_eq_some.mpr ⟨hoi, owner, ho⟩⟩
  have hp3 : ∀ a ∈ m.awards, a.ownerHaulierId = fb.ownerOf a.orderId := by
    intro a ha
    obtain ⟨owner, how, hname⟩ := howner a ha
    rw [how, hname]
  rw [closingAssertions, if_neg (not_not.mpr hp1), if_neg (not_not.mpr hledger.orders_nodup),
    if_neg (not_not.mpr hledger.trucks_nodup), if_neg (not_not.mpr hp3)]

theorem Licensed.namesOwner {m : PoolMarket} (hfb : fb.WellFiled) {a : Award}
    (ha : Licensed P fb m a) : NamesOwner fb a := by
  obtain ⟨owner, -, o, -, -, ho, hoi, how, -⟩ := ha
  exact ⟨owner, hfb.ownerOf_eq_some.mpr ⟨o, ho, hoi⟩, how⟩

/-! ## The tick -/

/-- The company sees the order through a pool the order's owner itself placed it into. -/
def SharedBy (m : PoolMarket) (owner carrier orderId : String) : Prop :=
  m.contributionOwner.get? orderId = some owner ∧ m.Visible carrier orderId

/-- A returned pair is lawful: a truck and an order of the input, the truck's haulier owning the
order or seeing it through a pool its owner placed it into. -/
def LawfulPair (fb : FleetBook) (m : PoolMarket) (carrier owner : String) (p : Pair) : Prop :=
  p.1 ∈ fb.trucksOf carrier ∧ p.1.haulier = some carrier ∧ p.2 ∈ fb.ordersOf owner ∧
    (carrier = owner ∨ SharedBy m owner carrier p.2.entityId)

theorem Licensed.lawfulPair {m : PoolMarket} (hfb : fb.WellFiled) (hm : MarketSafe P fb m)
    {a : Award} (ha : Licensed P fb m a) {p : Pair} (ht : fb.trucksById.get? a.truckId = some p.1)
    (ho : fb.ordersById.get? a.orderId = some p.2) :
    ∃ owner, LawfulPair fb m a.carrierHaulierId owner p ∧ P a p.1 p.2 := by
  obtain ⟨owner, t, o, htm, hti, hom, hoi, -, hv, hP⟩ := ha
  have hte : t = p.1 := Option.some_inj.mp
    ((hfb.trucksById_eq_some.mpr ⟨hti, _, htm⟩).symm.trans ht)
  have hoe : o = p.2 := Option.some_inj.mp
    ((hfb.ordersById_eq_some.mpr ⟨hoi, _, hom⟩).symm.trans ho)
  subst hte hoe
  refine ⟨owner, ⟨htm, hfb.truck_haulier _ _ htm, hom, hv.imp_right fun hvis ↦ ?_⟩, hP⟩
  rw [hoi]
  obtain ⟨w, hw⟩ := hm.coherent.contributionOwner_ne_none hvis
  have hwo := hm.contributor _ _ hw
  rw [hfb.ownerOf_eq_some.mpr ⟨_, hom, hoi⟩, Option.some_inj] at hwo
  exact ⟨hwo ▸ hw, hvis⟩

theorem MarketSafe.known {m : PoolMarket} (hfb : fb.WellFiled) (hm : MarketSafe P fb m) :
    ∀ a ∈ m.awards, ∃ t o, fb.trucksById.get? a.truckId = some t ∧
      fb.ordersById.get? a.orderId = some o := by
  intro a ha
  obtain ⟨owner, t, o, ht, hti, ho, hoi, -⟩ := hm.licensed a ha
  exact ⟨t, o, hfb.trucksById_eq_some.mpr ⟨hti, _, ht⟩,
    hfb.ordersById_eq_some.mpr ⟨hoi, _, ho⟩⟩

/-- What every tick of a market with invariant `MarketSafe P` returns. -/
theorem runPooledMarket_spec (hfb : fb.WellFiled) (hS : ctx.solver.Sound) (hP : PrivateSound P ctx)
    (hclaim : ClaimSound P ctx fb) (pools : List Pool) (s : σ) :
    (∀ e, runPooledMarket R ctx fb pools s = .error e → e.FromCost ctx.cost) ∧
    ∀ res, runPooledMarket R ctx fb pools s = .ok res →
      MarketSafe P fb res.market ∧ res.market.pools = (init pools).pools ∧
      List.Forall₂ (fun a p ↦ fb.trucksById.get? a.truckId = some p.1 ∧
        fb.ordersById.get? a.orderId = some p.2) res.market.awards res.assignment := by
  rw [runPooledMarket]
  cases hr : tickRounds R ctx fb pools s with
  | error e =>
    refine ⟨fun e' he' ↦ ?_, fun res hres ↦ nomatch hres⟩
    cases he'
    exact playRounds_error hr
  | ok st =>
    obtain ⟨hm, hpools⟩ := tickRounds_safe hfb hS hP hclaim hr
    dsimp only
    cases hacc : account R ctx fb (st.market.awards.map Award.truckId) st.market.awards
        ([], Dict.empty) with
    | error e =>
      refine ⟨fun e' he' ↦ ?_, fun res hres ↦ nomatch hres⟩
      cases he'
      exact account_error hacc
    | ok acc =>
      rw [closingAssertions_ok hfb hm.ledger fun a ha ↦ (hm.licensed a ha).namesOwner hfb]
      refine ⟨fun e' he' ↦ (nomatch he'), fun res hres ↦ ?_⟩
      rw [← Except.ok.inj hres]
      obtain ⟨ps, hps, hf⟩ := account_assignment (hm.known hfb) hacc
      exact ⟨hm, hpools, hps ▸ hf⟩

theorem forall₂_map_eq {α β γ : Type} {S : α → β → Prop} {f : α → γ} {g : β → γ}
    (hfg : ∀ a b, S a b → g b = f a) {as : List α} {bs : List β} (h : List.Forall₂ S as bs) :
    bs.map g = as.map f := by
  induction h with
  | nil => rfl
  | cons hab _ ih => rw [List.map_cons, List.map_cons, hfg _ _ hab, ih]

theorem exists_award_of_mem {S : Award → Pair → Prop} {ps : List Pair} (h : List.Forall₂ S as ps)
    {p : Pair} (hp : p ∈ ps) : ∃ a ∈ as, S a p := by
  induction h with
  | nil => exact absurd hp List.not_mem_nil
  | @cons a q as ps haq _ ih =>
    rcases List.mem_cons.mp hp with rfl | hp
    · exact ⟨a, List.mem_cons_self, haq⟩
    · obtain ⟨b, hb, hS⟩ := ih hp
      exact ⟨b, List.mem_cons_of_mem _ hb, hS⟩

/-- **A tick with registered policies is safe.**  A tick that does not return has been aborted by an
exception of the cost function, never by a closing assertion.  A tick that returns uses no truck
and no order twice, and each of its pairs is lawful and meets the rule of its carrier: the strict
one on an order that names the carrier as its haulier, the pooled one on any other.  For an order
filed under its own haulier that is the strict rule exactly when the carrier is the owner. -/
theorem runPooledMarket_safe (hfb : fb.WellFiled) (hS : ctx.solver.Registered R)
    (hclaim : ctx.claim.Registered R.rnd) (pools : List Pool) (s : σ) :
    (∀ e, runPooledMarket R ctx fb pools s = .error e → e.FromCost ctx.cost) ∧
    ∀ res, runPooledMarket R ctx fb pools s = .ok res →
      (res.assignment.map fun p ↦ p.1.entityId).Nodup ∧
      (res.assignment.map fun p ↦ p.2.entityId).Nodup ∧
      res.market.pools = (init pools).pools ∧
      ∀ p ∈ res.assignment, ∃ carrier owner, LawfulPair fb res.market carrier owner p ∧
        (p.2.haulier = some carrier → ctx.pairAllowedOwn p.1 p.2 = true) ∧
        (p.2.haulier ≠ some carrier → ctx.pairAllowedPooled p.1 p.2 = true) ∧
        (p.2.haulier = some owner → (carrier = owner → ctx.pairAllowedOwn p.1 p.2 = true) ∧
          (carrier ≠ owner → ctx.pairAllowedPooled p.1 p.2 = true)) := by
  obtain ⟨herr, hok⟩ := runPooledMarket_spec (R := R) hfb hS.sound ruleLicence_privateSound
    hclaim.faithful.claimSound pools s
  refine ⟨herr, fun res hres ↦ ?_⟩
  obtain ⟨hm, hpools, hf⟩ := hok res hres
  refine ⟨?_, ?_, hpools, fun p hp ↦ ?_⟩
  · rw [forall₂_map_eq (fun a p h ↦ (hfb.trucksById_eq_some.mp h.1).1) hf]
    exact hm.ledger.trucks_nodup
  · rw [forall₂_map_eq (fun a p h ↦ (hfb.ordersById_eq_some.mp h.2).1) hf]
    exact hm.ledger.orders_nodup
  · obtain ⟨a, ha, ht, ho⟩ := exists_award_of_mem hf hp
    obtain ⟨owner, hlaw, hrule⟩ := (hm.licensed a ha).lawfulPair hfb hm ht ho
    rw [RuleLicence, pairAllowedFor] at hrule
    have hown (h : p.2.haulier = some a.carrierHaulierId) : ctx.pairAllowedOwn p.1 p.2 = true := by
      rwa [if_pos h] at hrule
    have hpooled (h : p.2.haulier ≠ some a.carrierHaulierId) :
        ctx.pairAllowedPooled p.1 p.2 = true := by
      rwa [if_neg h] at hrule
    refine ⟨a.carrierHaulierId, owner, hlaw, hown, hpooled, fun hh ↦ ⟨fun hc ↦ ?_, fun hc ↦ ?_⟩⟩
    · exact hown (hc ▸ hh)
    · exact hpooled fun h ↦ hc (Option.some_inj.mp (h.symm.trans hh))

/-! ## A small market

Company `A` has an order and no truck, `B` has a truck and shares the pool `p` with `A`, and `C`
has a truck and is in no pool. -/

theorem FleetBook.WellFiled.of_filed {fb : FleetBook}
    (ht : (fb.filedTrucks.map fun p ↦ p.2.entityId).Nodup)
    (ho : (fb.filedOrders.map fun p ↦ p.2.entityId).Nodup)
    (hh : ∀ p ∈ fb.filedTrucks, p.2.haulier = some p.1) : fb.WellFiled :=
  ⟨ht, ho, fun h t hm ↦ hh (h, t) (FleetBook.mem_filedTrucks.mpr hm)⟩

def smallBook : FleetBook where
  trucksByHaulier := Dict.ofList
    [("B", [{ id := some "tB", haulierId := some "B" }]),
     ("C", [{ id := some "tC", haulierId := some "C" }])]
  ordersByHaulier := Dict.ofList [("A", [{ id := some "oA", haulierId := some "A" }])]

def smallPools : List Pool := [{ id := "p", members := SortedSet.ofList ["A", "B"] }]

/-- The runtime with a constant hash. -/
def smallRuntime : Runtime Unit := Runtime.plain fun _ ↦ 0

/-- Everything allowed, every cost `1`, and the given claim policy. -/
def smallContext (claim : ClaimPolicy Unit) : PooledPlannerContext Unit where
  solver := greedyNearest smallRuntime (some 7)
  offer := offerAll
  claim := claim
  arbitration := .lowestCost
  maxRounds := 20
  pairAllowedOwn _ _ := true
  pairAllowedPooled _ _ := true
  cost _ _ := .ok (.num (.fin 1))
  tickSeed := 7

theorem smallBook_wellFiled : smallBook.WellFiled :=
  FleetBook.WellFiled.of_filed (by decide) (by decide) (by decide)

theorem runPooledMarket_safe_small :
    smallBook.WellFiled ∧ ∀ res, runPooledMarket smallRuntime (smallContext claimAllPlanned)
      smallBook smallPools () = .ok res → (res.assignment.map fun p ↦ p.1.entityId).Nodup :=
  ⟨smallBook_wellFiled, fun res hres ↦
    ((runPooledMarket_safe smallBook_wellFiled
      (.greedyNearest (some 7)) .claimAllPlanned smallPools ()).2 res hres).1⟩

end OpenRide.Assignment
