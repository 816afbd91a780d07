import OpenRide.Assignment.PooledSafety

/-!
# The rounds of a tick

`EveryRound Q` says of a tick that `Q` holds of each round it plays, with the number of the round
and the state the round starts from.  The bids of a round are those its companies return in their
turns (`roundAnswers`), and the round ends by committing exactly the awards of the arbitration that
pass the guard (`settleRound_awards`): no two of them name one order or one truck, and all of these
are free.
-/

namespace OpenRide.Assignment

open Lib PoolMarket

section Rounds

variable {σ : Type} (R : Runtime σ) (ctx : PooledPlannerContext σ) (fb : FleetBook)

/-! ## What holds of every round -/

/-- `Q` holds of every round that `playRounds` plays. -/
def EveryRound (Q : ℤ → TickState σ → Prop) : ℕ → ℤ → TickState σ → Prop
  | 0, _, _ => True
  | n + 1, rnd, st =>
    if !fb.inputOrderIds.toList.any st.market.isOrderFree then True
    else Q rnd st ∧ ∀ st' ∈ (playRound R ctx fb rnd st).toOption,
      st'.converged = false → EveryRound Q n (rnd + 1) st'

/-- `Q` holds of every round of a tick. -/
def EveryRoundOf (Q : ℤ → TickState σ → Prop) (pools : List Pool) (s : σ) : Prop :=
  EveryRound R ctx fb Q (maxRounds ctx).toNat 1
    { market := (contributeAll ctx fb (init pools) s).1
      rng := (contributeAll ctx fb (init pools) s).2 }

instance decidableEveryRound {Q : ℤ → TickState σ → Prop} [∀ rnd st, Decidable (Q rnd st)] :
    ∀ n rnd st, Decidable (EveryRound R ctx fb Q n rnd st)
  | 0, _, _ => inferInstanceAs (Decidable True)
  | n + 1, rnd, st =>
    have := decidableEveryRound (Q := Q) n
    inferInstanceAs (Decidable (if !fb.inputOrderIds.toList.any st.market.isOrderFree then True
      else Q rnd st ∧ ∀ st' ∈ (playRound R ctx fb rnd st).toOption,
        st'.converged = false → EveryRound R ctx fb Q n (rnd + 1) st'))

instance {Q : ℤ → TickState σ → Prop} [∀ rnd st, Decidable (Q rnd st)] (pools : List Pool)
    (s : σ) : Decidable (EveryRoundOf R ctx fb Q pools s) :=
  inferInstanceAs (Decidable (EveryRound ..))

/-- `Q` holds of every company of a list that takes its turn, and of the state it takes it in. -/
def EveryTurn (Q : String → TurnState σ → Prop) (m₀ : PoolMarket) (cands : Dict String (List Pair))
    (rnd : ℤ) : List String → TurnState σ → Prop
  | [], _ => True
  | h :: hs, st => Q h st ∧ ∀ st' ∈ (companyTurn R ctx fb m₀ cands rnd h st).toOption,
      EveryTurn Q m₀ cands rnd hs st'

section Imp

variable {R} {ctx} {fb} {I : TickState σ → Prop} {Q Q' : ℤ → TickState σ → Prop}

/-- What holds of every round may be weakened with an invariant of the rounds. -/
theorem EveryRound.imp
    (hI : ∀ rnd st st', I st → playRound R ctx fb rnd st = .ok st' → I st')
    (hQ : ∀ rnd st, I st → Q rnd st → Q' rnd st) {n : ℕ} {rnd : ℤ} {st : TickState σ} (h : I st)
    (hall : EveryRound R ctx fb Q n rnd st) : EveryRound R ctx fb Q' n rnd st := by
  induction n generalizing rnd st with
  | zero => trivial
  | succ n ih =>
    rw [EveryRound] at hall ⊢
    split
    · trivial
    · next hfree =>
      rw [if_neg hfree] at hall
      refine ⟨hQ rnd st h hall.1, fun st' hst' hgoes ↦ ?_⟩
      refine ih (hI rnd st st' h ?_) (hall.2 st' hst' hgoes)
      cases hr : playRound R ctx fb rnd st with
      | error e =>
        rw [hr] at hst'
        cases hst'
      | ok st₁ =>
        rw [hr] at hst'
        rw [Option.some_inj.mp hst']

theorem everyRound_true {n : ℕ} {rnd : ℤ} {st : TickState σ} :
    EveryRound R ctx fb (fun _ _ ↦ True) n rnd st := by
  induction n generalizing rnd st with
  | zero => trivial
  | succ n ih =>
    rw [EveryRound]
    split
    · trivial
    · exact ⟨trivial, fun st' _ _ ↦ ih⟩

end Imp

/-! ## The bids of a round -/

/-- The turns of a round, from the state it starts with. -/
def roundTurns (rnd : ℤ) (st : TickState σ) : Except TickError (TurnState σ) :=
  companyTurns R ctx fb st.market (roundCandidates ctx fb st.market) rnd fb.companyIds
    { market := st.market, rng := st.rng, bids := [], privateCommits := 0 }

/-- What the companies of a list bid in their turns, each with its company. -/
def answers (m₀ : PoolMarket) (cands : Dict String (List Pair)) (rnd : ℤ) :
    List String → TurnState σ → List (String × Bid)
  | [], _ => []
  | h :: hs, st =>
    match companyTurn R ctx fb m₀ cands rnd h st with
    | .error _ => []
    | .ok st' => (st'.bids.drop st.bids.length).map (h, ·) ++ answers m₀ cands rnd hs st'

/-- What the companies bid in a round. -/
def roundAnswers (rnd : ℤ) (st : TickState σ) : List (String × Bid) :=
  answers R ctx fb st.market (roundCandidates ctx fb st.market) rnd fb.companyIds
    { market := st.market, rng := st.rng, bids := [], privateCommits := 0 }

/-- The awards the arbitration makes of the bids of a round. -/
def arbitrated (turn : TurnState σ) : List Award :=
  (ctx.arbitration.resolve R turn.bids turn.market ctx.tickSeed fb.ownerOf turn.rng).1

variable {R} {ctx} {fb}

/-! ## The awards of a round -/

/-- Awards on free orders and trucks, no two on the same, are all committed if the guard lets them
through. -/
theorem awards_commitAwards {as : List Award} {st : Bool × PoolMarket}
    (ho : (as.map Award.orderId).Nodup) (ht : (as.map Award.truckId).Nodup)
    (hfree : ∀ a ∈ as, st.2.isOrderFree a.orderId = true ∧ st.2.isTruckFree a.truckId = true) :
    (commitAwards as st).2.awards = st.2.awards ++ as.filter (carrierSees st.2) := by
  induction as generalizing st with
  | nil => exact (List.append_nil _).symm
  | cons a as ih =>
    rw [List.map_cons, List.nodup_cons] at ho ht
    obtain ⟨ha, hrest⟩ := List.forall_mem_cons.mp hfree
    rw [commitAwards]
    split
    · next hg =>
      obtain ⟨-, -, hm⟩ := commit_eq_true (commit_of_free ha.1 ha.2)
      have hguard : carrierSees (st.2.commit a).2 = carrierSees st.2 := by
        funext b
        exact Bool.eq_iff_iff.mpr ((carrierSees_iff.trans
          (or_congr_right (commit_sameBook st.2 a).visible)).trans carrierSees_iff.symm)
      rw [ih ho.2 ht.2 fun b hb ↦ ?_, hguard, hm, List.filter_cons_of_pos hg, List.append_assoc,
        List.singleton_append]
      rw [hm, isOrderFree, isTruckFree, decide_eq_true_eq, decide_eq_true_eq]
      obtain ⟨hbo, hbt⟩ := hrest b hb
      rw [isOrderFree, decide_eq_true_eq] at hbo
      rw [isTruckFree, decide_eq_true_eq] at hbt
      simp only [List.mem_append, List.mem_singleton, not_or]
      exact ⟨⟨hbo, fun he ↦ ho.1 (he ▸ List.mem_map_of_mem hb)⟩, hbt,
        fun he ↦ ht.1 (he ▸ List.mem_map_of_mem hb)⟩
    · next hg => rw [ih ho.2 ht.2 hrest, List.filter_cons_of_neg hg]

theorem arbitrated_nodup (turn : TurnState σ) :
    ((arbitrated R ctx fb turn).map Award.orderId).Nodup ∧
      ((arbitrated R ctx fb turn).map Award.truckId).Nodup := by
  rw [arbitrated, ArbitrationRule.resolve, awardSweep_eq, List.map_map, List.map_map]
  exact sweepFrom_nodup Bid.orderId Bid.truckId [] [] _

/-- **What a round adds**: the awards of the arbitration that the guard lets through. -/
theorem settleRound_awards (turn : TurnState σ) : (settleRound R ctx fb turn).2.1.awards =
    turn.market.awards ++ (arbitrated R ctx fb turn).filter (carrierSees turn.market) := by
  have hnodup := @arbitrated_nodup σ R ctx fb turn
  have hfree : ∀ a ∈ arbitrated R ctx fb turn,
      turn.market.isOrderFree a.orderId = true ∧ turn.market.isTruckFree a.truckId = true := by
    intro a ha
    obtain ⟨b, -, hb, rfl⟩ := ArbitrationRule.exists_bid_of_mem_resolve ha
    exact (Bool.and_eq_true _ _).mp hb
  rw [settleRound]
  split
  · next hempty =>
    rw [Bool.and_eq_true, List.isEmpty_iff] at hempty
    have hnone : arbitrated R ctx fb turn = [] := by
      refine List.eq_nil_iff_forall_not_mem.mpr fun a ha ↦ ?_
      obtain ⟨b, hb, -⟩ := ArbitrationRule.exists_bid_of_mem_resolve ha
      rw [hempty.1] at hb
      exact absurd hb List.not_mem_nil
    rw [hnone, List.filter_nil, List.append_nil]
  · exact awards_commitAwards hnodup.1 hnodup.2 hfree

/-! ## Invariants of the market under any bids -/

/-- The market of a tick whose contributions ended with `m₀`, every award meeting `W`. -/
structure Awarding (W : Award → Prop) (m₀ m : PoolMarket) : Prop where
  book : SameBook m₀ m
  ledger : m.Ledger
  awards : ∀ a ∈ m.awards, W a

variable {W : Award → Prop} {m₀ : PoolMarket}

/-- The award of any own truck on any own order meets `W`. -/
def PrivateMeets (W : Award → Prop) (fb : FleetBook) : Prop :=
  ∀ h rnd p c, p.1 ∈ fb.trucksOf h → p.2 ∈ fb.ordersOf h → W (privateAward h rnd p c)

/-- The awards of a round that the guard lets through meet `W`. -/
def RoundMeets (W : Award → Prop) (R : Runtime σ) (ctx : PooledPlannerContext σ) (fb : FleetBook)
    (rnd : ℤ) (st : TickState σ) : Prop :=
  ∀ turn ∈ (roundTurns R ctx fb rnd st).toOption, ∀ a ∈ arbitrated R ctx fb turn,
    carrierSees turn.market a = true → W a

theorem Awarding.commit {m : PoolMarket} (hm : Awarding W m₀ m) {a : Award} (ha : W a) :
    Awarding W m₀ (m.commit a).2 where
  book := hm.book.trans (commit_sameBook m a)
  ledger := hm.ledger.commit a
  awards := by
    cases h : (m.commit a).1 with
    | false =>
      rw [commit_eq_false h]
      exact hm.awards
    | true =>
      rw [(commit_eq_true h).2.2]
      exact List.forall_mem_append.mpr ⟨hm.awards, List.forall_mem_singleton.mpr ha⟩

variable (hfb : fb.WellFiled) (hW : PrivateMeets W fb) {rnd : ℤ} {h : String}
include hfb hW

theorem Awarding.commitPrivate {ps : List Pair} (hps : PlanSound ctx fb h ps)
    (hown : ∀ p ∈ ps, isOwnPair fb h p = true) {st st' : ℕ × PoolMarket}
    (hm : Awarding W m₀ st.2) (he : commitPrivate ctx h rnd ps st = .ok st') :
    Awarding W m₀ st'.2 := by
  induction ps generalizing st with
  | nil => exact Except.ok.inj he ▸ hm
  | cons p ps ih =>
    rw [OpenRide.Assignment.commitPrivate] at he
    split at he
    · cases he
    · next c _ =>
      obtain ⟨ht, hk, -⟩ := hps p List.mem_cons_self
      have ho := mem_ordersOf_of_isOwnPair hfb hk (hown p List.mem_cons_self)
      exact ih (fun q hq ↦ hps q (List.mem_cons_of_mem _ hq))
        (fun q hq ↦ hown q (List.mem_cons_of_mem _ hq)) (hm.commit (hW h rnd p c ht ho)) he

variable (hS : ctx.solver.Sound)
include hS

/-- **A company's turn keeps the awards**, whatever it bids. -/
theorem Awarding.companyTurn {st st' : TurnState σ} (hm : Awarding W m₀ st.market)
    {m₁ : PoolMarket}
    (he : companyTurn R ctx fb m₁ (roundCandidates ctx fb m₁) rnd h st = .ok st') :
    Awarding W m₀ st'.market := by
  rw [OpenRide.Assignment.companyTurn] at he
  split at he
  · exact Except.ok.inj he ▸ hm
  · split at he
    · exact Except.ok.inj he ▸ hm
    · next plan s hsolve =>
      rw [actOnPlan] at he
      split at he
      · cases he
      · next hc =>
        have hplan := solveCompany_sound hfb hS hsolve
        rw [← Except.ok.inj he]
        exact hm.commitPrivate hfb hW (fun p hp ↦ hplan p (mem_ownPrivatePairs hp).1)
          (fun p hp ↦ (mem_ownPrivatePairs hp).2) hc

theorem Awarding.companyTurns {hs : List String} {st st' : TurnState σ}
    (hm : Awarding W m₀ st.market) {m₁ : PoolMarket}
    (he : companyTurns R ctx fb m₁ (roundCandidates ctx fb m₁) rnd hs st = .ok st') :
    Awarding W m₀ st'.market := by
  induction hs generalizing st with
  | nil => exact Except.ok.inj he ▸ hm
  | cons h hs ih =>
    rw [OpenRide.Assignment.companyTurns] at he
    split at he
    · cases he
    · next ht => exact ih (hm.companyTurn hfb hW hS ht) he

omit hfb hW hS in
/-- **The end of a round keeps the awards** if those the guard lets through meet `W`. -/
theorem Awarding.settleRound {turn : TurnState σ} (hm : Awarding W m₀ turn.market)
    (hguard : ∀ a ∈ arbitrated R ctx fb turn, carrierSees turn.market a = true → W a) :
    Awarding W m₀ (settleRound R ctx fb turn).2.1 := by
  have hcommit : ∀ (as : List Award) (st : Bool × PoolMarket), SameBook m₀ st.2 → st.2.Ledger →
      SameBook m₀ (commitAwards as st).2 ∧ (commitAwards as st).2.Ledger := by
    intro as
    induction as with
    | nil => exact fun st hbook hledger ↦ ⟨hbook, hledger⟩
    | cons a as ih =>
      intro st hbook hledger
      rw [commitAwards]
      split
      · exact ih _ (hbook.trans (commit_sameBook _ _)) (hledger.commit a)
      · exact ih _ hbook hledger
  have hboth : SameBook m₀ (OpenRide.Assignment.settleRound R ctx fb turn).2.1 ∧
      (OpenRide.Assignment.settleRound R ctx fb turn).2.1.Ledger := by
    rw [OpenRide.Assignment.settleRound]
    split
    · exact ⟨hm.book, hm.ledger⟩
    · exact hcommit _ _ hm.book hm.ledger
  refine ⟨hboth.1, hboth.2, ?_⟩
  rw [settleRound_awards]
  refine List.forall_mem_append.mpr ⟨hm.awards, fun a ha ↦ ?_⟩
  exact hguard a (List.mem_filter.mp ha).1 (List.mem_filter.mp ha).2

/-- **A round keeps the awards.** -/
theorem Awarding.playRound {st st' : TickState σ} (hm : Awarding W m₀ st.market)
    (hround : RoundMeets W R ctx fb rnd st) (he : playRound R ctx fb rnd st = .ok st') :
    Awarding W m₀ st'.market := by
  rw [OpenRide.Assignment.playRound] at he
  split at he
  · cases he
  · next turn ht =>
    have hturn : roundTurns R ctx fb rnd st = .ok turn := ht
    rw [← Except.ok.inj he]
    refine (hm.companyTurns hfb hW hS ht).settleRound fun a ha hg ↦ ?_
    exact hround turn (by rw [hturn]; rfl) a ha hg

/-- **All the rounds keep the awards.** -/
theorem Awarding.playRounds {n : ℕ} {st st' : TickState σ} (hm : Awarding W m₀ st.market)
    (hrounds : EveryRound R ctx fb (RoundMeets W R ctx fb) n rnd st)
    (he : playRounds R ctx fb n rnd st = .ok st') : Awarding W m₀ st'.market := by
  induction n generalizing rnd st with
  | zero => exact Except.ok.inj he ▸ hm
  | succ n ih =>
    rw [OpenRide.Assignment.playRounds] at he
    rw [EveryRound] at hrounds
    split at he
    · exact Except.ok.inj he ▸ hm
    · next hfree =>
      rw [if_neg hfree] at hrounds
      split at he
      · cases he
      · next st₁ h₁ =>
        have hm₁ := hm.playRound hfb hW hS hrounds.1 h₁
        split at he
        · exact Except.ok.inj he ▸ hm₁
        · next hgoes =>
          refine ih hm₁ (hrounds.2 st₁ (by rw [h₁]; rfl) ?_) he
          exact Bool.eq_false_iff.mpr hgoes

end Rounds

end OpenRide.Assignment
