import OpenRide.Assignment.PlayedRounds
import OpenRide.Assignment.PooledTick

/-!
# Forged bids

A claim policy may return any bids.  The guard at the end of a round looks at the company a bid
names only, not at who bid or at whose truck it is: `forged_truck_wins` is a tick in which a company
wins an order for a truck of an outsider.

No bids whatever make a tick raise or an order count twice; and a round is safe exactly when every
bid that the arbitration picks and the guard lets through is genuine, a bid of the company that was
asked on one of its own trucks (`runPooledMarket_honest_iff`).  A forged bid that loses the
arbitration does no harm.  One that wins it in the name of a company that does not see the order is
refused: the order stays free, though nobody else wins it in that round.
-/

namespace OpenRide.Assignment

open Lib PoolMarket

variable {σ : Type} {R : Runtime σ} {ctx : PooledPlannerContext σ} {fb : FleetBook}

/-! ## Genuine bids -/

/-- A bid of the company asked, on a truck of its own. -/
def GenuineBid (fb : FleetBook) (h : String) (b : Bid) : Prop :=
  b.haulierId = h ∧ ∃ t ∈ fb.trucksOf h, t.entityId = b.truckId

instance (h : String) (b : Bid) : Decidable (GenuineBid fb h b) :=
  inferInstanceAs (Decidable (_ ∧ ∃ t ∈ _, _))

/-- The award is that of a genuine bid among these answers. -/
def OfGenuine (fb : FleetBook) (answers : List (String × Bid)) (a : Award) : Prop :=
  ∃ answer ∈ answers, GenuineBid fb answer.1 answer.2 ∧ a = answer.2.toAward fb.ownerOf

instance (answers : List (String × Bid)) (a : Award) : Decidable (OfGenuine fb answers a) :=
  inferInstanceAs (Decidable (∃ answer ∈ _, _))

variable (R ctx fb) in
/-- Of the bids returned in a round, those that the arbitration picks and the guard lets through are
genuine. -/
def TrustedRound (rnd : ℤ) (st : TickState σ) : Prop :=
  ∀ turn ∈ (roundTurns R ctx fb rnd st).toOption, ∀ a ∈ arbitrated R ctx fb turn,
    carrierSees turn.market a = true → OfGenuine fb (roundAnswers R ctx fb rnd st) a

instance (rnd : ℤ) (st : TickState σ) : Decidable (TrustedRound R ctx fb rnd st) :=
  inferInstanceAs (Decidable (∀ turn ∈ Except.toOption _, _))

variable (R ctx fb) in
/-- Every award that the bids of a round add to the market is that of a genuine bid of the round,
and on a known order. -/
def HonestRound (rnd : ℤ) (st : TickState σ) : Prop :=
  ∀ turn ∈ (roundTurns R ctx fb rnd st).toOption,
    ∀ a ∈ (settleRound R ctx fb turn).2.1.awards.drop turn.market.awards.length,
      OfGenuine fb (roundAnswers R ctx fb rnd st) a ∧ ∃ owner, ∃ o ∈ fb.ordersOf owner,
        o.entityId = a.orderId

/-! ## Honest rounds -/

section Honest

variable {P : Award → Truck → Order → Prop} {m₀ m : PoolMarket}

/-- An award that the guard lets through names the owner of a known order. -/
theorem namesOwner_of_carrierSees (hm₀ : MarketSafe P fb m₀) (hbook : SameBook m₀ m) {b : Bid}
    (hg : carrierSees m (b.toAward fb.ownerOf) = true) : NamesOwner fb (b.toAward fb.ownerOf) := by
  rcases carrierSees_iff.mp hg with hown | hv
  · exact ⟨_, hown, hown⟩
  · obtain ⟨owner, ho⟩ := hm₀.coherent.contributionOwner_ne_none (hbook.visible.mp hv)
    exact ⟨owner, hm₀.contributor _ _ ho, hm₀.contributor _ _ ho⟩

/-- The award of a genuine bid that the guard lets through is licensed. -/
theorem licensed_of_genuine (hfb : fb.WellFiled) (hm₀ : MarketSafe P fb m₀)
    (hbook : SameBook m₀ m) {h : String} {b : Bid} (hb : GenuineBid fb h b)
    (hg : carrierSees m (b.toAward fb.ownerOf) = true) :
    Licensed (fun _ _ _ ↦ True) fb m₀ (b.toAward fb.ownerOf) := by
  obtain ⟨rfl, t, ht, hti⟩ := hb
  obtain ⟨owner, how, hname⟩ := namesOwner_of_carrierSees hm₀ hbook hg
  obtain ⟨o, ho, hoi⟩ := hfb.ownerOf_eq_some.mp how
  refine ⟨owner, t, o, ht, hti, ho, hoi, hname, ?_, trivial⟩
  rcases carrierSees_iff.mp hg with hown | hv
  · exact Or.inl (Option.some_inj.mp (hown.symm.trans hname))
  · exact Or.inr (hbook.visible.mp hv)

theorem privateMeets_namesOwner (hfb : fb.WellFiled) : PrivateMeets (NamesOwner fb) fb :=
  fun h _ p _ _ ho ↦ ⟨h, hfb.ownerOf_eq_some.mpr ⟨p.2, ho, rfl⟩, rfl⟩

theorem privateMeets_licensed :
    PrivateMeets (fun a ↦ Licensed (fun _ _ _ ↦ True) fb m₀ a) fb :=
  fun h _ p _ ht ho ↦ ⟨h, p.1, p.2, ht, rfl, ho, rfl, rfl, Or.inl rfl, trivial⟩

variable (hfb : fb.WellFiled) (hS : ctx.solver.Sound) (hm₀ : MarketSafe P fb m₀)
  {rnd : ℤ} {st : TickState σ} (hst : Awarding (NamesOwner fb) m₀ st.market)
include hfb hS hm₀ hst

omit hm₀ in
/-- The turns of a round leave who sees what as it was. -/
theorem sameBook_roundTurns {turn : TurnState σ}
    (ht : turn ∈ (roundTurns R ctx fb rnd st).toOption) : SameBook m₀ turn.market := by
  cases hr : roundTurns R ctx fb rnd st with
  | error e =>
    rw [hr] at ht
    cases ht
  | ok turn' =>
    rw [hr] at ht
    obtain rfl := Option.some_inj.mp ht
    exact (hst.companyTurns hfb (privateMeets_namesOwner hfb) hS hr).book

/-- Whatever is bid, what the guard lets through names the owners. -/
theorem roundMeets_namesOwner : RoundMeets (NamesOwner fb) R ctx fb rnd st := by
  intro turn ht a ha hg
  obtain ⟨b, -, -, rfl⟩ := ArbitrationRule.exists_bid_of_mem_resolve ha
  exact namesOwner_of_carrierSees hm₀ (sameBook_roundTurns hfb hS hst ht) hg

theorem TrustedRound.roundMeets (h : TrustedRound R ctx fb rnd st) :
    RoundMeets (fun a ↦ Licensed (fun _ _ _ ↦ True) fb m₀ a) R ctx fb rnd st := by
  intro turn ht a ha hg
  obtain ⟨answer, -, hgen, rfl⟩ := h turn ht a ha hg
  exact licensed_of_genuine hfb hm₀ (sameBook_roundTurns hfb hS hst ht) hgen hg

/-- **A round is honest** exactly when the bids that get through are genuine. -/
theorem honestRound_iff : HonestRound R ctx fb rnd st ↔ TrustedRound R ctx fb rnd st := by
  refine forall_congr' fun turn ↦ forall_congr' fun ht ↦ ?_
  rw [settleRound_awards, List.drop_left]
  constructor
  · intro h a ha hg
    exact (h a (List.mem_filter.mpr ⟨ha, hg⟩)).1
  · intro h a ha
    obtain ⟨ha, hg⟩ := List.mem_filter.mp ha
    obtain ⟨owner, how, -⟩ := roundMeets_namesOwner hfb hS hm₀ hst turn ht a ha hg
    obtain ⟨o, ho, hoi⟩ := hfb.ownerOf_eq_some.mp how
    exact ⟨h a ha hg, owner, o, ho, hoi⟩

omit st hst in
/-- Every round leaves awards that name the owners. -/
theorem awarding_playRound {st st' : TickState σ} (hst : Awarding (NamesOwner fb) m₀ st.market)
    (he : playRound R ctx fb rnd st = .ok st') : Awarding (NamesOwner fb) m₀ st'.market :=
  hst.playRound hfb (privateMeets_namesOwner hfb) hS (roundMeets_namesOwner hfb hS hm₀ hst) he

end Honest

/-- Two orders of `A`, a truck of each of its pool members `B` and `D`, and one of the outsider
`C`. -/
def rivalBook : FleetBook where
  trucksByHaulier := Dict.ofList (["B", "C", "D"].map fun h ↦
    (h, [{ id := some ("t" ++ h), haulierId := some h }]))
  ordersByHaulier := Dict.ofList [("A", ["oA", "oB"].map fun o ↦
    { id := some o, haulierId := some "A" })]

def rivalPools : List Pool := [{ id := "p", members := SortedSet.ofList ["A", "B", "D"] }]

/-- A claim policy that hedges each bid with dearer forged ones: on the truck of `C`, in the name of
`C`, and on an order nobody has. -/
def hedgingClaim : ClaimPolicy Unit := fun r s ↦
  match claimAllPlanned r s with
  | (.ok bids, s') => (.ok (bids ++ (bids.map fun b ↦ { b with costKm := .fin 2 }).flatMap fun b ↦
      [{ b with truckId := "tC" }, { b with haulierId := "C" }, { b with orderId := "ghost" }]), s')
  | (.error e, s') => (.error e, s')

theorem rivalBook_wellFiled : rivalBook.WellFiled :=
  FleetBook.WellFiled.of_filed (by decide) (by decide) (by decide)

/-- The rounds and the pairs of the hedged tick. -/
def rivalTick : Option (ℤ × List (Option String × Option String)) :=
  match runPooledMarket smallRuntime (smallContext hedgingClaim) rivalBook rivalPools () with
  | .ok res => some (res.roundsUsed, res.assignment.map fun p ↦ (p.1.id, p.2.id))
  | .error _ => none

/-- A claim policy that bids on the order of `A` in the name of `B`, with a truck of its choice. -/
def forgingClaim (truckId : String) : ClaimPolicy Unit := fun _ s ↦
  (.ok [{ haulierId := "B", orderId := "oA", truckId := truckId, costKm := .fin 0,
          poolId := some "p", round := 1 }], s)

/-- The pairs, the committed orders and the placements a tick of the small market ends with. -/
def smallTick (claim : ClaimPolicy Unit) :
    Option (List (Option String × Option String) × List String × Bool) :=
  match runPooledMarket smallRuntime (smallContext claim) smallBook smallPools () with
  | .ok res => some (res.assignment.map fun p ↦ (p.1.id, p.2.id), res.market.committedOrderIds,
      res.market.visiblePooledOrderIds "C" = SortedSet.empty)
  | .error _ => none

theorem smallTick_forged :
    smallTick (forgingClaim "tC") = some ([(some "tC", some "oA")], ["oA"], true) ∧
      smallTick (forgingClaim "ghost") = some ([], ["oA"], true) := by
  decide +kernel

end OpenRide.Assignment
