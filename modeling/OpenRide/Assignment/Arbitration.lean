import Mathlib.Data.Prod.Lex
import OpenRide.Assignment.Pools
import OpenRide.Lib.Matching

/-!
# Arbitration

A rule ranks the bids of a round and sweeps the ranking, awarding a bid when its order and its
truck are both still free.  The four registered rules differ in the ranking alone, so everything
said about what they award goes through `ArbitrationRule.ranked_perm` — a ranking is *some*
permutation of the bids — and through the sweep taking a maximal matching of the bids whose order
and truck the market still has free (`awardSweep_eq`).

The rank keys are tuples compared lexicographically, each ending in the tie-break and the identity
of the bid; a cost that is not finite goes to a class of its own behind all the finite ones.
-/

namespace OpenRide.Assignment

open Lib

/-! ## Tie-breaks -/

/-- A stable integer from a seed and identity parts. -/
def stableTiebreak {σ : Type} (R : Runtime σ) (seed : ℤ) (parts : List String) : ℕ :=
  R.blake2b ("|".intercalate (toString seed :: parts))

/-- The tie-break of a candidate pair in the greedy sweep. -/
def pairTiebreak {σ : Type} (R : Runtime σ) (seed : ℤ) (orderId truckId : String) : ℕ :=
  stableTiebreak R seed [orderId, truckId]

/-- The tie-break of a bid. -/
def bidTiebreak {σ : Type} (R : Runtime σ) (tickSeed : ℤ) (b : Bid) : ℕ :=
  stableTiebreak R tickSeed [b.orderId, b.haulierId, b.truckId]

/-! ## Rank keys -/

/-- The final component of every rank key. -/
def identityKey (b : Bid) : String ×ₗ String ×ₗ String :=
  toLex (b.orderId, toLex (b.truckId, b.haulierId))

/-- The cost component: finite costs by value, the others in a class behind them. -/
def costRank (b : Bid) : ℚ × ℚ :=
  match b.costKm with
  | .fin q => (0, q)
  | _ => (1, 0)

/-- A rank key: up to three leading numbers, the tie-break, the identity. -/
abbrev RankKey := ℚ ×ₗ ℚ ×ₗ ℚ ×ₗ ℕ ×ₗ String ×ₗ String ×ₗ String

def rankKey {σ : Type} (R : Runtime σ) (tickSeed : ℤ) (lead : ℚ) (rank : ℚ × ℚ) (b : Bid) :
    RankKey :=
  toLex (lead, toLex (rank.1, toLex (rank.2, toLex (bidTiebreak R tickSeed b, identityKey b))))

/-- The owner's least finite bid for each order, as `HighestBenefit` collects it. -/
def revealedReserve (ownerOf : String → Option String) (bids : List Bid) : Dict String Double :=
  bids.foldl (fun reserve b ↦
    if ownerOf b.orderId = some b.haulierId ∧ b.costKm.isFinite then
      match reserve.get? b.orderId with
      | none => reserve.set b.orderId b.costKm
      | some current =>
        if b.costKm.lt current then reserve.set b.orderId b.costKm else reserve
    else reserve) Dict.empty

/-- `own_reserve - cost`, when it is defined and finite. -/
def revealedBenefit {σ : Type} (R : Runtime σ) (reserve : Dict String Double) (b : Bid) :
    Option ℚ :=
  match reserve.get? b.orderId with
  | none => none
  | some ownReserve =>
    if b.costKm.isFinite then
      match ownReserve.sub R.rnd b.costKm with
      | .fin q => some q
      | _ => none
    else none

/-! ## The sweep -/

/-- The award a bid turns into. -/
def Bid.toAward (ownerOf : String → Option String) (b : Bid) : Award where
  orderId := b.orderId
  truckId := b.truckId
  carrierHaulierId := b.haulierId
  ownerHaulierId := ownerOf b.orderId
  costKm := b.costKm
  poolId := b.poolId
  round := b.round

/-- The market has the order and the truck of a bid free. -/
def PoolMarket.bothFree (m : PoolMarket) (b : Bid) : Bool :=
  m.isOrderFree b.orderId && m.isTruckFree b.truckId

/-- The sweep, with the orders and the trucks taken so far. -/
def awardSweepFrom (m : PoolMarket) (ownerOf : String → Option String) :
    List String → List String → List Bid → List Award
  | _, _, [] => []
  | takenOrders, takenTrucks, b :: ranked =>
    if b.orderId ∈ takenOrders ∨ b.truckId ∈ takenTrucks then
      awardSweepFrom m ownerOf takenOrders takenTrucks ranked
    else if !m.isOrderFree b.orderId || !m.isTruckFree b.truckId then
      awardSweepFrom m ownerOf takenOrders takenTrucks ranked
    else
      b.toAward ownerOf ::
        awardSweepFrom m ownerOf (b.orderId :: takenOrders) (b.truckId :: takenTrucks) ranked

/-- Walk ranked bids, awarding each one whose order and truck are still free. -/
def awardSweep (m : PoolMarket) (ownerOf : String → Option String) (ranked : List Bid) :
    List Award :=
  awardSweepFrom m ownerOf [] [] ranked

/-! ## The rules -/

/-- The registered rules. -/
inductive ArbitrationRule where
  | lowestCost
  | ownerFirst
  | highestBenefit
  | randomAward
deriving DecidableEq

/-- The bids in the order a rule considers them, and the generator after it. -/
def ArbitrationRule.ranked {σ : Type} (R : Runtime σ) (rule : ArbitrationRule) (bids : List Bid)
    (tickSeed : ℤ) (ownerOf : String → Option String) (s : σ) : List Bid × σ :=
  match rule with
  | .lowestCost => (sortedBy (fun b ↦ rankKey R tickSeed 0 (costRank b) b) bids, s)
  | .ownerFirst =>
    (sortedBy (fun b ↦
      rankKey R tickSeed (if ownerOf b.orderId = some b.haulierId then 0 else 1) (costRank b) b)
      bids, s)
  | .highestBenefit =>
    (sortedBy (fun b ↦
      match revealedBenefit R (revealedReserve ownerOf bids) b with
      | none => rankKey R tickSeed 1 (costRank b) b
      | some benefit => rankKey R tickSeed 0 (-benefit, 0) b) bids, s)
  | .randomAward => R.shuffle s (sortedBy (fun b ↦ rankKey R tickSeed 0 (0, 0) b) bids)

/-- `resolve`: the awards a rule returns, and the generator after it. -/
def ArbitrationRule.resolve {σ : Type} (R : Runtime σ) (rule : ArbitrationRule) (bids : List Bid)
    (m : PoolMarket) (tickSeed : ℤ) (ownerOf : String → Option String) (s : σ) :
    List Award × σ :=
  (awardSweep m ownerOf (rule.ranked R bids tickSeed ownerOf s).1,
    (rule.ranked R bids tickSeed ownerOf s).2)

/-! ## What a rule awards -/

/-- The sweep is the greedy sweep over the bids the market has free. -/
theorem awardSweepFrom_eq (m : PoolMarket) (ownerOf : String → Option String)
    (us vs : List String) (ranked : List Bid) :
    awardSweepFrom m ownerOf us vs ranked =
      (sweepFrom Bid.orderId Bid.truckId us vs (ranked.filter m.bothFree)).map
        (Bid.toAward ownerOf) := by
  induction ranked generalizing us vs with
  | nil => rfl
  | cons b ranked ih =>
    rw [awardSweepFrom]
    by_cases hf : m.bothFree b = true
    · have hf' : (!m.isOrderFree b.orderId || !m.isTruckFree b.truckId) = false := by
        rw [← Bool.not_and]
        exact congrArg not hf
      rw [List.filter_cons_of_pos hf, sweepFrom, hf']
      split
      · exact ih us vs
      · rw [if_neg Bool.false_ne_true, List.map_cons, ih]
    · have hf' : (!m.isOrderFree b.orderId || !m.isTruckFree b.truckId) = true := by
        rw [← Bool.not_and]
        exact congrArg not (Bool.eq_false_iff.mpr hf)
      rw [List.filter_cons_of_neg hf, hf', if_pos rfl, ih, ite_self]

theorem awardSweep_eq (m : PoolMarket) (ownerOf : String → Option String) (ranked : List Bid) :
    awardSweep m ownerOf ranked =
      (sweep Bid.orderId Bid.truckId (ranked.filter m.bothFree)).map (Bid.toAward ownerOf) :=
  awardSweepFrom_eq m ownerOf [] [] ranked

section Resolve

variable {σ : Type} {R : Runtime σ} {rule : ArbitrationRule} {bids : List Bid} {m : PoolMarket}
  {tickSeed : ℤ} {ownerOf : String → Option String} {s : σ}

theorem ArbitrationRule.ranked_perm : (rule.ranked R bids tickSeed ownerOf s).1.Perm bids := by
  cases rule with
  | lowestCost => exact sortedBy_perm _ bids
  | ownerFirst => exact sortedBy_perm _ bids
  | highestBenefit => exact sortedBy_perm _ bids
  | randomAward => exact (R.shuffle_perm s _).trans (sortedBy_perm _ bids)

/-- An award comes from a bid whose order and truck the market has free. -/
theorem ArbitrationRule.exists_bid_of_mem_resolve {a : Award}
    (h : a ∈ (rule.resolve R bids m tickSeed ownerOf s).1) :
    ∃ b ∈ bids, m.bothFree b = true ∧ a = b.toAward ownerOf := by
  rw [resolve, awardSweep_eq] at h
  obtain ⟨b, hb, rfl⟩ := List.mem_map.mp h
  obtain ⟨hb, hf⟩ := List.mem_filter.mp (mem_of_mem_sweep _ _ hb)
  exact ⟨b, ranked_perm.mem_iff.mp hb, hf, rfl⟩

/-- **A bid the market could honour forces an award**: the sweep leaves nothing free behind. -/
theorem ArbitrationRule.resolve_ne_nil {b : Bid} (hb : b ∈ bids) (hf : m.bothFree b = true) :
    (rule.resolve R bids m tickSeed ownerOf s).1 ≠ [] := by
  have hmem : b ∈ (rule.ranked R bids tickSeed ownerOf s).1.filter m.bothFree :=
    List.mem_filter.mpr ⟨ranked_perm.mem_iff.mpr hb, hf⟩
  obtain ⟨c, hc⟩ := (sweep_maximalMatching Bid.orderId Bid.truckId _).nonempty ⟨b, hmem⟩
  rw [resolve, awardSweep_eq]
  exact List.ne_nil_of_mem (List.mem_map.mpr ⟨c, hc, rfl⟩)

end Resolve

end OpenRide.Assignment
