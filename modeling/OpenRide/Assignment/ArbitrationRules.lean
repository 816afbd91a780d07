import OpenRide.Assignment.Arbitration

/-!
# What the registered rules guarantee

Three things are asked of every rule.

* **The order of the bids does not matter** (`ArbitrationRule.resolveIn_perm`).  Every rank key ends
  in the identity of the bid, so where identities differ the ranking is a function of the set of
  bids; the shuffle of the null control starts from such a ranking.  `HighestBenefit` reads a table
  of reserves off the bids first, and the table does not depend on their order either: an entry is
  the least of the owner's finite costs (`get?_revealedReserve`).
* **The awards are stable** (`ArbitrationRule.resolve_stable`): a bid that loses although the market
  had its order and its truck free shares one of them with an award that ranks no worse.
* **Owners are protected** by `OwnerFirst` (`ArbitrationRule.ownerFirst_protects`): where no truck
  is bid twice, an owner that bids on its own order gets it.

A rule reads the market and leaves it as it is.  `resolveIn` is the rule as it runs, with the market
as the state it could change; `resolveIn_run` says that it does not.
-/

namespace OpenRide.Assignment

open Lib

/-! ## The rules over the market as a state -/

/-- `_sweep`, reading the market as it goes. -/
def awardSweepIn (ownerOf : String → Option String) :
    List String → List String → List Bid → StateM PoolMarket (List Award)
  | _, _, [] => pure []
  | takenOrders, takenTrucks, b :: ranked => do
    if b.orderId ∈ takenOrders ∨ b.truckId ∈ takenTrucks then
      awardSweepIn ownerOf takenOrders takenTrucks ranked
    else
      let market ← get
      if !market.isOrderFree b.orderId || !market.isTruckFree b.truckId then
        awardSweepIn ownerOf takenOrders takenTrucks ranked
      else
        let awards ←
          awardSweepIn ownerOf (b.orderId :: takenOrders) (b.truckId :: takenTrucks) ranked
        pure (b.toAward ownerOf :: awards)

/-- `resolve`, as it runs on the market. -/
def ArbitrationRule.resolveIn {σ : Type} (R : Runtime σ) (rule : ArbitrationRule)
    (bids : List Bid) (tickSeed : ℤ) (ownerOf : String → Option String) (s : σ) :
    StateM PoolMarket (List Award × σ) := do
  let ranked := rule.ranked R bids tickSeed ownerOf s
  let awards ← awardSweepIn ownerOf [] [] ranked.1
  pure (awards, ranked.2)

theorem awardSweepIn_run (ownerOf : String → Option String) (us vs : List String)
    (ranked : List Bid) (m : PoolMarket) :
    (awardSweepIn ownerOf us vs ranked).run m = (awardSweepFrom m ownerOf us vs ranked, m) := by
  induction ranked generalizing us vs with
  | nil => rfl
  | cons b ranked ih =>
    rw [awardSweepIn, awardSweepFrom]
    by_cases hused : b.orderId ∈ us ∨ b.truckId ∈ vs
    · rw [if_pos hused, if_pos hused]
      exact ih us vs
    · rw [if_neg hused, if_neg hused, StateT.run_bind, StateT.run_get]
      by_cases hfree : (!m.isOrderFree b.orderId || !m.isTruckFree b.truckId) = true
      · simp only [hfree, if_true, pure_bind]
        exact ih us vs
      · simp only [hfree, if_false, pure_bind, StateT.run_bind, ih, Bool.false_eq_true]
        rfl

section Rules

variable {σ : Type} (R : Runtime σ) (rule : ArbitrationRule) (bids : List Bid) (m : PoolMarket)
  (tickSeed : ℤ) (ownerOf : String → Option String) (s : σ)

/-- **A rule hands the market back as it found it**, and awards what `resolve` says. -/
theorem ArbitrationRule.resolveIn_run :
    (rule.resolveIn R bids tickSeed ownerOf s).run m =
      (rule.resolve R bids m tickSeed ownerOf s, m) := by
  rw [resolveIn, StateT.run_bind, awardSweepIn_run]
  rfl

/-! ## The rank of a bid -/

/-- The key a rule sorts by; of the null control, the key of the list it shuffles. -/
def ArbitrationRule.key (b : Bid) : RankKey :=
  match rule with
  | .lowestCost => rankKey R tickSeed 0 (costRank b) b
  | .ownerFirst =>
    rankKey R tickSeed (if ownerOf b.orderId = some b.haulierId then 0 else 1) (costRank b) b
  | .highestBenefit =>
    match revealedBenefit R (revealedReserve ownerOf bids) b with
    | none => rankKey R tickSeed 1 (costRank b) b
    | some benefit => rankKey R tickSeed 0 (-benefit, 0) b
  | .randomAward => rankKey R tickSeed 0 (0, 0) b

/-- The bids sorted by the rule's key. -/
def ArbitrationRule.sorted : List Bid := sortedBy (rule.key R bids tickSeed ownerOf) bids

/-- The ranking is the sorted list, which the null control shuffles. -/
theorem ArbitrationRule.ranked_eq :
    rule.ranked R bids tickSeed ownerOf s =
      if rule = .randomAward then R.shuffle s (rule.sorted R bids tickSeed ownerOf)
      else (rule.sorted R bids tickSeed ownerOf, s) := by
  cases rule with
  | lowestCost => rfl
  | ownerFirst => rfl
  | highestBenefit => rfl
  | randomAward => rfl

/-- Every key tells bids of different identity apart. -/
theorem ArbitrationRule.identityKey_eq_of_key {b c : Bid}
    (h : rule.key R bids tickSeed ownerOf b = rule.key R bids tickSeed ownerOf c) :
    identityKey b = identityKey c := by
  have hlast : ∀ d, ∃ lead rank, rule.key R bids tickSeed ownerOf d =
      rankKey R tickSeed lead rank d := by
    intro d
    unfold key
    split
    · exact ⟨_, _, rfl⟩
    · exact ⟨_, _, rfl⟩
    · split
      · exact ⟨_, _, rfl⟩
      · exact ⟨_, _, rfl⟩
    · exact ⟨_, _, rfl⟩
  obtain ⟨lead, rank, hb⟩ := hlast b
  obtain ⟨lead', rank', hc⟩ := hlast c
  rw [hb, hc] at h
  simp only [rankKey, toLex_inj, Prod.mk.injEq] at h
  exact h.2.2.2.2

end Rules

/-! ## The order of the bids -/

section Order

variable {σ : Type} {R : Runtime σ} {rule : ArbitrationRule} {bids bids' : List Bid}
  {tickSeed : ℤ} {ownerOf : String → Option String} {s : σ}

/-- The costs a reserve is the least of: the finite bids of the owner on its order. -/
def ownerCosts (ownerOf : String → Option String) (bids : List Bid) (orderId : String) :
    List Double :=
  (bids.filter fun b ↦
    b.orderId = orderId ∧ ownerOf b.orderId = some b.haulierId ∧ b.costKm.isFinite).map Bid.costKm

theorem ownerCosts_cons_self {b : Bid}
    (h : ownerOf b.orderId = some b.haulierId ∧ b.costKm.isFinite = true) :
    ownerCosts ownerOf (b :: bids) b.orderId = b.costKm :: ownerCosts ownerOf bids b.orderId := by
  rw [ownerCosts, List.filter_cons_of_pos (by exact decide_eq_true ⟨rfl, h⟩), List.map_cons]
  rfl

theorem ownerCosts_cons_of_not {b : Bid} {orderId : String}
    (h : ¬ (b.orderId = orderId ∧ ownerOf b.orderId = some b.haulierId ∧
      b.costKm.isFinite = true)) :
    ownerCosts ownerOf (b :: bids) orderId = ownerCosts ownerOf bids orderId := by
  rw [ownerCosts, List.filter_cons_of_neg (by exact fun hb ↦ h (of_decide_eq_true hb))]
  rfl

/-- One entry of the table of reserves is the least of those costs. -/
theorem get?_revealedReserve (orderId : String) :
    (revealedReserve ownerOf bids).get? orderId =
      (ownerCosts ownerOf bids orderId).foldl Double.keepLeast none := by
  have hempty : (none : Option Double) = (Dict.empty : Dict String Double).get? orderId := rfl
  rw [revealedReserve, hempty]
  generalize Dict.empty = d
  induction bids generalizing d with
  | nil => rfl
  | cons b bids ih =>
    rw [List.foldl_cons, ih]
    by_cases hown : ownerOf b.orderId = some b.haulierId ∧ b.costKm.isFinite
    · rw [if_pos hown]
      by_cases ho : b.orderId = orderId
      · subst ho
        rw [ownerCosts_cons_self hown, List.foldl_cons]
        congr 1
        cases hget : d.get? b.orderId with
        | none => exact Dict.get?_set_self d _ _
        | some current =>
          by_cases hlt : b.costKm.lt current = true
          · simp only [hlt, if_true, Dict.get?_set_self, Double.keepLeast]
          · simp only [hlt, if_false, Double.keepLeast, hget, Bool.false_eq_true]
      · rw [ownerCosts_cons_of_not fun h ↦ ho h.1]
        congr 1
        cases hget : d.get? b.orderId with
        | none => exact Dict.get?_set_ne d _ (Ne.symm ho)
        | some current =>
          dsimp only
          split
          · exact Dict.get?_set_ne d _ (Ne.symm ho)
          · rfl
    · rw [if_neg hown, ownerCosts_cons_of_not fun h ↦ hown h.2]

theorem ne_nan_of_mem_ownerCosts {orderId : String} {x : Double}
    (h : x ∈ ownerCosts ownerOf bids orderId) : x ≠ .nan := by
  obtain ⟨b, hb, rfl⟩ := List.mem_map.mp h
  have hfin := (of_decide_eq_true (List.mem_filter.mp hb).2).2.2
  rintro hnan
  rw [hnan] at hfin
  exact absurd hfin Bool.false_ne_true

/-- The table of reserves does not depend on the order of the bids. -/
theorem get?_revealedReserve_perm (h : bids.Perm bids') (orderId : String) :
    (revealedReserve ownerOf bids).get? orderId =
      (revealedReserve ownerOf bids').get? orderId := by
  rw [get?_revealedReserve, get?_revealedReserve]
  refine ((h.filter _).map _).foldl_eq' (fun x hx y hy least ↦ ?_) none
  exact Double.keepLeast_comm (ne_nan_of_mem_ownerCosts hx) (ne_nan_of_mem_ownerCosts hy) least

theorem ArbitrationRule.key_perm (h : bids.Perm bids') :
    rule.key R bids tickSeed ownerOf = rule.key R bids' tickSeed ownerOf := by
  funext b
  cases rule with
  | lowestCost => rfl
  | ownerFirst => rfl
  | randomAward => rfl
  | highestBenefit =>
    have hbenefit : revealedBenefit R (revealedReserve ownerOf bids) b =
        revealedBenefit R (revealedReserve ownerOf bids') b := by
      rw [revealedBenefit, get?_revealedReserve_perm h]
      rfl
    rw [key, hbenefit]
    rfl

/-- Where identities differ, the sorted list is a function of the set of bids. -/
theorem ArbitrationRule.sorted_perm (h : bids.Perm bids') (hid : (bids.map identityKey).Nodup) :
    rule.sorted R bids tickSeed ownerOf = rule.sorted R bids' tickSeed ownerOf := by
  rw [sorted, sorted, ← key_perm h]
  refine sortedBy_eq_of_perm h fun b hb c hc hkey ↦ ?_
  exact List.inj_on_of_nodup_map hid hb hc (identityKey_eq_of_key R rule bids tickSeed ownerOf hkey)

/-- **Arbitration does not depend on the order of the bids, and never changes the market.** -/
theorem ArbitrationRule.resolveIn_perm (R : Runtime σ) (rule : ArbitrationRule)
    (bids bids' : List Bid) (m : PoolMarket) (tickSeed : ℤ) (ownerOf : String → Option String)
    (s : σ) (hid : (bids.map identityKey).Nodup) (h : bids.Perm bids') :
    (rule.resolveIn R bids' tickSeed ownerOf s).run m =
        (rule.resolveIn R bids tickSeed ownerOf s).run m ∧
      ((rule.resolveIn R bids tickSeed ownerOf s).run m).2 = m := by
  rw [resolveIn_run, resolveIn_run]
  refine ⟨?_, rfl⟩
  rw [resolve, resolve, ranked_eq, ranked_eq, sorted_perm h hid]

/-- Two bids on one order, one of them at no known cost, whichever is met first. -/
theorem ArbitrationRule.resolveIn_perm_swap :
    ([⟨"B", "o", "t2", .nan, none, 1⟩, ⟨"A", "o", "t1", .fin 3, none, 1⟩] : List Bid).Perm
        [⟨"A", "o", "t1", .fin 3, none, 1⟩, ⟨"B", "o", "t2", .nan, none, 1⟩] ∧
      (ArbitrationRule.highestBenefit.resolveIn (Runtime.plain String.length)
          [⟨"A", "o", "t1", .fin 3, none, 1⟩, ⟨"B", "o", "t2", .nan, none, 1⟩] 7
          (fun _ ↦ some "A") ()).run (PoolMarket.init []) =
        (ArbitrationRule.highestBenefit.resolveIn (Runtime.plain String.length)
          [⟨"B", "o", "t2", .nan, none, 1⟩, ⟨"A", "o", "t1", .fin 3, none, 1⟩] 7
          (fun _ ↦ some "A") ()).run (PoolMarket.init []) :=
  ⟨List.Perm.swap _ _ _, (ArbitrationRule.resolveIn_perm _ .highestBenefit _ _ _ _ _ _
    (by decide) (List.Perm.swap _ _ _)).1⟩

end Order

/-! ## Stability -/

section Stable

variable {σ : Type} {R : Runtime σ} {rule : ArbitrationRule} {bids : List Bid} {m : PoolMarket}
  {tickSeed : ℤ} {ownerOf : String → Option String} {s : σ}

/-- `b` ranks no worse than `c` under a rule: its key is no larger, or, for the null control, it
stands no later in the shuffled list. -/
def ArbitrationRule.RanksNoWorse (R : Runtime σ) (rule : ArbitrationRule) (bids : List Bid)
    (tickSeed : ℤ) (ownerOf : String → Option String) (s : σ) (b c : Bid) : Prop :=
  match rule with
  | .randomAward =>
    (rule.ranked R bids tickSeed ownerOf s).1.idxOf b ≤
      (rule.ranked R bids tickSeed ownerOf s).1.idxOf c
  | _ => rule.key R bids tickSeed ownerOf b ≤ rule.key R bids tickSeed ownerOf c

/-- What stands before the first `c` of the ranking ranks no worse than `c`. -/
theorem ArbitrationRule.ranksNoWorse_of_before {pre post : List Bid} {b c : Bid}
    (h : (rule.ranked R bids tickSeed ownerOf s).1 = pre ++ c :: post) (hc : c ∉ pre)
    (hb : b ∈ pre) : rule.RanksNoWorse R bids tickSeed ownerOf s b c := by
  have hsorted : rule ≠ .randomAward →
      rule.key R bids tickSeed ownerOf b ≤ rule.key R bids tickSeed ownerOf c := by
    intro hrule
    have hpair := sortedBy_pairwise (rule.key R bids tickSeed ownerOf) bids
    rw [ranked_eq, if_neg hrule, sorted] at h
    rw [show sortedBy (rule.key R bids tickSeed ownerOf) bids = pre ++ c :: post from h] at hpair
    exact (List.pairwise_append.mp hpair).2.2 b hb c List.mem_cons_self
  cases rule with
  | lowestCost => exact hsorted nofun
  | ownerFirst => exact hsorted nofun
  | highestBenefit => exact hsorted nofun
  | randomAward =>
    rw [RanksNoWorse, h, List.idxOf_append_of_mem hb, List.idxOf_append_of_notMem hc]
    exact ((List.idxOf_lt_length_of_mem hb).le).trans (Nat.le_add_right _ _)

theorem ArbitrationRule.RanksNoWorse.refl (b : Bid) :
    rule.RanksNoWorse R bids tickSeed ownerOf s b b := by
  cases rule with
  | lowestCost => exact le_refl _
  | ownerFirst => exact le_refl _
  | highestBenefit => exact le_refl _
  | randomAward => exact le_refl _

/-- The awards of a round are stable for the bids under a rule. -/
structure StableAwards (R : Runtime σ) (rule : ArbitrationRule) (bids : List Bid) (m : PoolMarket)
    (tickSeed : ℤ) (ownerOf : String → Option String) (s : σ) (awards : List Award) : Prop where
  /-- No order is awarded twice. -/
  orders_nodup : (awards.map Award.orderId).Nodup
  /-- No truck is awarded twice. -/
  trucks_nodup : (awards.map Award.truckId).Nodup
  /-- Every award is one of the bids, on an order and a truck the market has free. -/
  bid_of_award : ∀ a ∈ awards, ∃ b ∈ bids, m.bothFree b = true ∧ a = b.toAward ownerOf
  /-- A bid that loses although the market has its order and its truck free shares one of them with
  an award that ranks no worse. -/
  blocked : ∀ c ∈ bids, m.bothFree c = true → c.toAward ownerOf ∉ awards →
    ∃ b ∈ bids, b.toAward ownerOf ∈ awards ∧ (b.orderId = c.orderId ∨ b.truckId = c.truckId) ∧
      rule.RanksNoWorse R bids tickSeed ownerOf s b c
  /-- Under `LowestCost`, when the losing bid has a finite cost the award costs no more. -/
  cheaper : rule = .lowestCost → ∀ c ∈ bids, m.bothFree c = true → c.toAward ownerOf ∉ awards →
    ∀ q, c.costKm = .fin q → ∃ a ∈ awards, ∃ p ≤ q, a.costKm = .fin p ∧
      (a.orderId = c.orderId ∨ a.truckId = c.truckId)

/-- A free bid shares its order or its truck with an award that ranks no worse, its own perhaps. -/
theorem ArbitrationRule.exists_award_ranksNoWorse (R : Runtime σ) (rule : ArbitrationRule)
    (tickSeed : ℤ) (ownerOf : String → Option String) (s : σ) {c : Bid} (hc : c ∈ bids)
    (hfree : m.bothFree c = true) :
    ∃ b ∈ bids, b.toAward ownerOf ∈ (rule.resolve R bids m tickSeed ownerOf s).1 ∧
      (b.orderId = c.orderId ∨ b.truckId = c.truckId) ∧
      rule.RanksNoWorse R bids tickSeed ownerOf s b c := by
  have hranked : c ∈ (rule.ranked R bids tickSeed ownerOf s).1 := ranked_perm.mem_iff.mpr hc
  obtain ⟨pre, post, hsplit, hfirst⟩ := List.eq_append_cons_of_mem hranked
  -- the market's filter keeps `c` and what stands before it in their order
  have hfilter : (rule.ranked R bids tickSeed ownerOf s).1.filter m.bothFree =
      pre.filter m.bothFree ++ c :: post.filter m.bothFree := by
    rw [hsplit, List.filter_append, List.filter_cons_of_pos hfree]
  rcases sweepFrom_blocked_upTo Bid.orderId Bid.truckId [] [] (pre.filter m.bothFree) c
      (post.filter m.bothFree) with h | ⟨b, hb, hpre, hend⟩
  · exact absurd h (by simp)
  · rw [← hfilter] at hb
    refine ⟨b, ranked_perm.mem_iff.mp (List.mem_of_mem_filter (mem_of_mem_sweep _ _ hb)), ?_,
      hend, ?_⟩
    · rw [resolve, awardSweep_eq]
      exact List.mem_map_of_mem hb
    · rcases hpre with rfl | hpre
      · exact RanksNoWorse.refl b
      · exact ranksNoWorse_of_before hsplit hfirst (List.mem_of_mem_filter hpre)

/-- Under `LowestCost`, ranking no worse than a bid of finite cost is costing no more. -/
theorem ArbitrationRule.RanksNoWorse.cost_le {b c : Bid} {q : ℚ}
    (h : ArbitrationRule.lowestCost.RanksNoWorse R bids tickSeed ownerOf s b c)
    (hq : c.costKm = .fin q) : ∃ p ≤ q, b.costKm = .fin p := by
  have hrank : toLex (costRank b) ≤ toLex (costRank c) := by
    have hlex : rankKey R tickSeed 0 (costRank b) b ≤ rankKey R tickSeed 0 (costRank c) c := h
    simp only [rankKey, Prod.Lex.toLex_le_toLex, lt_self_iff_false, true_and, false_or] at hlex
    rw [Prod.Lex.toLex_le_toLex]
    rcases hlex with hlt | ⟨heq, hlt | ⟨heq', -⟩⟩
    · exact Or.inl hlt
    · exact Or.inr ⟨heq, hlt.le⟩
    · exact Or.inr ⟨heq, heq'.le⟩
  have hc : costRank c = (0, q) := by
    rw [costRank, hq]
  rw [hc, Prod.Lex.toLex_le_toLex] at hrank
  -- an unknown cost is in the trailing class, hence behind `c`
  have hunknown : ∀ {x : Double}, b.costKm = x → ¬ x.isFinite = true →
      ¬ ((costRank b).1 < (0 : ℚ) ∨ (costRank b).1 = 0 ∧ (costRank b).2 ≤ q) := by
    intro x hx hfin
    rw [costRank, hx]
    cases x with
    | fin p => exact absurd rfl hfin
    | nan => simp only [one_ne_zero, false_and, or_false, not_lt, zero_le_one]
    | negInf => simp only [one_ne_zero, false_and, or_false, not_lt, zero_le_one]
    | posInf => simp only [one_ne_zero, false_and, or_false, not_lt, zero_le_one]
  cases hcost : b.costKm with
  | fin p =>
    have hb : costRank b = (0, p) := by
      rw [costRank, hcost]
    rw [hb] at hrank
    exact ⟨p, (hrank.resolve_left (lt_irrefl _)).2, rfl⟩
  | nan => exact absurd hrank (hunknown hcost Bool.false_ne_true)
  | negInf => exact absurd hrank (hunknown hcost Bool.false_ne_true)
  | posInf => exact absurd hrank (hunknown hcost Bool.false_ne_true)

/-- **Every rule's awards are stable.** -/
theorem ArbitrationRule.resolve_stable (R : Runtime σ) (rule : ArbitrationRule) (bids : List Bid)
    (m : PoolMarket) (tickSeed : ℤ) (ownerOf : String → Option String) (s : σ) :
    StableAwards R rule bids m tickSeed ownerOf s
      (rule.resolve R bids m tickSeed ownerOf s).1 where
  orders_nodup := by
    rw [resolve, awardSweep_eq, List.map_map]
    exact (sweepFrom_nodup Bid.orderId Bid.truckId [] [] _).1
  trucks_nodup := by
    rw [resolve, awardSweep_eq, List.map_map]
    exact (sweepFrom_nodup Bid.orderId Bid.truckId [] [] _).2
  bid_of_award _ ha := exists_bid_of_mem_resolve ha
  blocked _ hc hfree _ := exists_award_ranksNoWorse R rule tickSeed ownerOf s hc hfree
  cheaper := by
    rintro rfl c hc hfree - q hq
    obtain ⟨b, -, hb, hend, hrank⟩ :=
      exists_award_ranksNoWorse R .lowestCost tickSeed ownerOf s hc hfree
    obtain ⟨p, hp, hbp⟩ := hrank.cost_le hq
    exact ⟨b.toAward ownerOf, hb, p, hp, hbp, hend⟩

/-! ## Owners under `OwnerFirst` -/

/-- Under `OwnerFirst`, what ranks no worse than an owner's bid is an owner's bid. -/
theorem ArbitrationRule.RanksNoWorse.of_owner {b c : Bid}
    (h : ArbitrationRule.ownerFirst.RanksNoWorse R bids tickSeed ownerOf s b c)
    (hc : ownerOf c.orderId = some c.haulierId) : ownerOf b.orderId = some b.haulierId := by
  by_contra hb
  have hlex : rankKey R tickSeed (if ownerOf b.orderId = some b.haulierId then 0 else 1)
      (costRank b) b ≤
    rankKey R tickSeed (if ownerOf c.orderId = some c.haulierId then 0 else 1) (costRank c) c := h
  rw [if_neg hb, if_pos hc, rankKey, rankKey, Prod.Lex.toLex_le_toLex] at hlex
  rcases hlex with hlt | ⟨heq, -⟩
  · exact absurd hlt (not_lt.mpr zero_le_one)
  · exact absurd heq one_ne_zero

/-- **Owner first protects owners**: where each company bids each of its trucks once and no two
companies bid the same truck, a free order whose owner bid a free truck on it goes to its owner. -/
theorem ArbitrationRule.ownerFirst_protects (R : Runtime σ) (bids : List Bid) (m : PoolMarket)
    (tickSeed : ℤ) (ownerOf : String → Option String) (s : σ)
    (hown : ∀ h, ((bids.filter fun b ↦ b.haulierId = h).map Bid.truckId).Nodup)
    (hapart : ∀ b ∈ bids, ∀ c ∈ bids, b.truckId = c.truckId → b.haulierId = c.haulierId)
    (c : Bid) (hc : c ∈ bids) (howner : ownerOf c.orderId = some c.haulierId)
    (horder : m.isOrderFree c.orderId = true) (htruck : m.isTruckFree c.truckId = true) :
    ∃ a ∈ (ArbitrationRule.ownerFirst.resolve R bids m tickSeed ownerOf s).1,
      a.orderId = c.orderId ∧ a.carrierHaulierId = c.haulierId := by
  have hfree : m.bothFree c = true := by
    rw [PoolMarket.bothFree, horder, htruck]
    rfl
  obtain ⟨b, hb, haward, hend, hrank⟩ :=
    exists_award_ranksNoWorse R .ownerFirst tickSeed ownerOf s hc hfree
  rcases hend with hsame | hsame
  · -- another bid on the same order: it ranks no worse, so it is an owner's, hence this owner's
    have hbowner := hrank.of_owner howner
    rw [hsame, howner] at hbowner
    exact ⟨_, haward, hsame, (Option.some_inj.mp hbowner).symm⟩
  · -- another bid on the same truck: there is none
    have hcompany := hapart b hb c hc hsame
    have heq : b = c := by
      refine List.inj_on_of_nodup_map (hown c.haulierId) (List.mem_filter.mpr ⟨hb, ?_⟩)
        (List.mem_filter.mpr ⟨hc, ?_⟩) hsame
      · exact decide_eq_true hcompany
      · exact decide_eq_true rfl
    subst heq
    exact ⟨_, haward, rfl, rfl⟩

/-- The owner bids at no known cost against a partner whose truck stands at the pickup. -/
theorem ArbitrationRule.ownerFirst_protects_unknown :
    ∃ a ∈ (ArbitrationRule.ownerFirst.resolve (Runtime.plain String.length)
        [⟨"B", "o", "t2", .fin 0, some "p", 1⟩, ⟨"A", "o", "t1", .posInf, none, 1⟩]
        (PoolMarket.init []) 7 (fun _ ↦ some "A") ()).1,
      a.orderId = "o" ∧ a.carrierHaulierId = "A" :=
  ArbitrationRule.ownerFirst_protects _ _ _ _ _ _
    (fun _ ↦ List.Nodup.sublist (List.filter_sublist.map _) (by decide)) (by decide)
    ⟨"A", "o", "t1", .posInf, none, 1⟩ (by decide) rfl rfl rfl

end Stable

end OpenRide.Assignment
