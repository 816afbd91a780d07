import OpenRide.Assignment.PooledConvergence

/-!
# The backstop on the number of rounds

`max_rounds` is meant to be a safety net: an auction that has not converged by then is cut off,
and nothing else about it changes.  Two things are shown about it.

* **It only truncates.**  No step of a round reads the cap (`playRound_withCap`), so an auction
  with a larger cap is the auction with the smaller one, continued from the very state the smaller
  one stopped in (`playRounds_add`).  Every step appends to the awards, so the awards of the one
  are a prefix of the awards of the other, and a converged auction is the same under every larger
  cap (`cap_only_truncates`).
* **What its report is worth.**  A round reports convergence exactly when it committed nothing
  (`playRound_grown`), but the loop leaves through the cap without asking whether there is
  anything left.  An auction that spends its last permitted round on its last possible awards is
  reported as truncated.  `truncation_report_iff` says that this happens for the caps that fit the
  auction exactly and for no others.
-/

namespace OpenRide.Assignment

open Lib PoolMarket

variable {σ : Type} {R : Runtime σ} {ctx : PooledPlannerContext σ} {fb : FleetBook}

/-! ## A round does not read the cap -/

/-- The same configuration with another cap. -/
def PooledPlannerContext.withCap (ctx : PooledPlannerContext σ) (k : ℤ) : PooledPlannerContext σ :=
  { ctx with maxRounds := k }

theorem maxRounds_withCap {k : ℤ} (h1 : 1 ≤ k) (h100 : k ≤ 100) :
    maxRounds (ctx.withCap k) = k := by
  show max 1 (min 100 (if k = 0 then 20 else k)) = k
  omega

theorem commitPrivate_withCap (k : ℤ) (h : String) (rnd : ℤ) (ps : List Pair)
    (st : ℕ × PoolMarket) :
    commitPrivate (ctx.withCap k) h rnd ps st = commitPrivate ctx h rnd ps st := by
  induction ps generalizing st with
  | nil => rfl
  | cons p ps ih => simp only [commitPrivate, ih]; rfl

theorem companyTurn_withCap (k : ℤ) (m₀ : PoolMarket) (cands : Dict String (List Pair)) (rnd : ℤ)
    (h : String) (st : TurnState σ) :
    companyTurn R (ctx.withCap k) fb m₀ cands rnd h st =
      companyTurn R ctx fb m₀ cands rnd h st := by
  simp only [companyTurn, actOnPlan, commitPrivate_withCap]
  rfl

theorem companyTurns_withCap (k : ℤ) (m₀ : PoolMarket) (cands : Dict String (List Pair)) (rnd : ℤ)
    (hs : List String) (st : TurnState σ) :
    companyTurns R (ctx.withCap k) fb m₀ cands rnd hs st
      = companyTurns R ctx fb m₀ cands rnd hs st := by
  induction hs generalizing st with
  | nil => rfl
  | cons h hs ih => simp only [companyTurns, companyTurn_withCap, ih]

theorem playRound_withCap (k : ℤ) (rnd : ℤ) (st : TickState σ) :
    playRound R (ctx.withCap k) fb rnd st = playRound R ctx fb rnd st := by
  simp only [playRound, companyTurns_withCap]
  rfl

theorem playRounds_withCap (k : ℤ) (n : ℕ) (rnd : ℤ) (st : TickState σ) :
    playRounds R (ctx.withCap k) fb n rnd st = playRounds R ctx fb n rnd st := by
  induction n generalizing rnd st with
  | zero => rfl
  | succ n ih => simp only [playRounds, playRound_withCap, ih]

theorem account_withCap (k : ℤ) (committed : List String) (as : List Award)
    (acc : List Pair × Dict (String × String) ShareTag) :
    account R (ctx.withCap k) fb committed as acc = account R ctx fb committed as acc := by
  induction as generalizing acc with
  | nil => rfl
  | cons a as ih =>
    simp only [account, ih]
    rfl

theorem contributeAll_withCap (k : ℤ) (m : PoolMarket) (s : σ) :
    contributeAll (ctx.withCap k) fb m s = contributeAll ctx fb m s := rfl

/-! ## The awards only grow -/

/-- The market has moved on by `n` commits: in front of `n` new awards it has those it had. -/
def GrownBy (n : ℕ) (m m' : PoolMarket) : Prop :=
  ∃ as, m'.awards = m.awards ++ as ∧ as.length = n

theorem GrownBy.refl (m : PoolMarket) : GrownBy 0 m m := ⟨[], by simp⟩

variable {n : ℕ} {m : PoolMarket}

theorem GrownBy.trans {k : ℕ} {m' m'' : PoolMarket} (h : GrownBy n m m') (h' : GrownBy k m' m'') :
    GrownBy (n + k) m m'' := by
  obtain ⟨as, ha, rfl⟩ := h
  obtain ⟨bs, hb, rfl⟩ := h'
  exact ⟨as ++ bs, by rw [hb, ha, List.append_assoc], by simp⟩

theorem GrownBy.prefix {m' : PoolMarket} (h : GrownBy n m m') : m.awards <+: m'.awards := by
  obtain ⟨as, ha, -⟩ := h
  exact ⟨as, ha.symm⟩

theorem GrownBy.length {m' : PoolMarket} (h : GrownBy n m m') :
    m'.awards.length = m.awards.length + n := by
  obtain ⟨as, ha, rfl⟩ := h
  rw [ha, List.length_append]

theorem commit_grown (m : PoolMarket) (a : Award) :
    GrownBy (m.commit a).1.toNat m (m.commit a).2 := by
  cases h : (m.commit a).1 with
  | false =>
    rw [commit_eq_false h]
    exact GrownBy.refl m
  | true =>
    obtain ⟨-, -, he⟩ := commit_eq_true h
    exact ⟨[a], by rw [he], rfl⟩

variable {rnd : ℤ}

theorem commitPrivate_grown {h : String} {ps : List Pair} {st st' : ℕ × PoolMarket}
    (he : commitPrivate ctx h rnd ps st = .ok st') :
    ∃ n, GrownBy n st.2 st'.2 ∧ st'.1 = st.1 + n := by
  induction ps generalizing st with
  | nil => exact ⟨0, Except.ok.inj he ▸ GrownBy.refl _, by rw [← Except.ok.inj he]; rfl⟩
  | cons p ps ih =>
    rw [commitPrivate] at he
    cases hc : floatCost ctx.cost p.1 p.2 with
    | error e => simp [hc] at he
    | ok c =>
      rw [hc] at he
      obtain ⟨n, hn, hsum⟩ := ih he
      refine ⟨_, (commit_grown st.2 (privateAward h rnd p c)).trans hn, ?_⟩
      omega

theorem companyTurn_grown {m₀ : PoolMarket} {cands : Dict String (List Pair)} {h : String}
    {st st' : TurnState σ} (he : companyTurn R ctx fb m₀ cands rnd h st = .ok st') :
    ∃ n, GrownBy n st.market st'.market ∧ st'.privateCommits = st.privateCommits + n := by
  have hstay : ∃ n, GrownBy n st.market st.market ∧ st.privateCommits = st.privateCommits + n :=
    ⟨0, GrownBy.refl _, rfl⟩
  rw [companyTurn] at he
  split at he
  · cases he
    exact hstay
  · split at he
    · cases he
      exact hstay
    · rw [actOnPlan] at he
      split at he
      · cases he
      · next hc =>
        cases he
        exact commitPrivate_grown hc

theorem companyTurns_grown {m₀ : PoolMarket} {cands : Dict String (List Pair)} {hs : List String}
    {st st' : TurnState σ} (he : companyTurns R ctx fb m₀ cands rnd hs st = .ok st') :
    ∃ n, GrownBy n st.market st'.market ∧ st'.privateCommits = st.privateCommits + n := by
  induction hs generalizing st with
  | nil =>
    cases he
    exact ⟨0, GrownBy.refl _, rfl⟩
  | cons h hs ih =>
    rw [companyTurns] at he
    split at he
    · cases he
    · next st₁ ht =>
      obtain ⟨n, hn, hsum⟩ := companyTurn_grown ht
      obtain ⟨k, hk, hsum'⟩ := ih he
      exact ⟨n + k, hn.trans hk, by omega⟩

theorem commitAwards_grown (as : List Award) (st : Bool × PoolMarket) :
    ∃ n, GrownBy n st.2 (commitAwards as st).2 ∧
      (commitAwards as st).1 = (st.1 || decide (n ≠ 0)) := by
  induction as generalizing st with
  | nil => exact ⟨0, GrownBy.refl _, by simp [commitAwards]⟩
  | cons a as ih =>
    rw [commitAwards]
    split
    · obtain ⟨n, hn, hflag⟩ := ih (st.1 || (st.2.commit a).1, (st.2.commit a).2)
      refine ⟨_, (commit_grown st.2 a).trans hn, ?_⟩
      rw [hflag]
      cases (st.2.commit a).1 <;> simp
    · exact ih st

theorem settleRound_grown (st : TurnState σ) :
    ∃ n, GrownBy n st.market (settleRound R ctx fb st).2.1 ∧
      (settleRound R ctx fb st).1 = decide (st.privateCommits + n = 0) := by
  rw [settleRound]
  split
  · next hz =>
    rw [Bool.and_eq_true, beq_iff_eq] at hz
    exact ⟨0, GrownBy.refl _, by simp [hz.2]⟩
  · obtain ⟨n, hn, hflag⟩ := commitAwards_grown
      (ctx.arbitration.resolve R st.bids st.market ctx.tickSeed fb.ownerOf st.rng).1
      (st.privateCommits != 0, st.market)
    refine ⟨n, hn, ?_⟩
    dsimp only
    rw [hflag]
    by_cases hp : st.privateCommits = 0 <;> by_cases hz : n = 0 <;> simp [hp, hz]

variable {st st' : TickState σ}

/-- **A round has converged exactly when it committed nothing.** -/
theorem playRound_grown (he : playRound R ctx fb rnd st = .ok st') :
    ∃ n, GrownBy n st.market st'.market ∧ st'.converged = decide (n = 0) := by
  rw [playRound] at he
  split at he
  · cases he
  · next turn ht =>
    cases he
    obtain ⟨n, hn, hsum⟩ := companyTurns_grown ht
    obtain ⟨k, hk, hflag⟩ := @settleRound_grown σ R ctx fb turn
    refine ⟨n + k, hn.trans hk, ?_⟩
    rw [hflag, hsum, Nat.zero_add]

theorem playRounds_grown (he : playRounds R ctx fb n rnd st = .ok st') :
    ∃ k, GrownBy k st.market st'.market := by
  induction n generalizing rnd st with
  | zero =>
    cases he
    exact ⟨0, GrownBy.refl _⟩
  | succ n ih =>
    rw [playRounds] at he
    split at he
    · cases he
      exact ⟨0, GrownBy.refl _⟩
    · split at he
      · cases he
      · next st₁ h₁ =>
        obtain ⟨k, hk, -⟩ := playRound_grown h₁
        split at he
        · cases he
          exact ⟨k, hk⟩
        · obtain ⟨l, hl⟩ := ih he
          exact ⟨k + l, hk.trans hl⟩

/-! ## A larger cap continues the auction -/

/-- An auction with `d` more rounds: unless it raised or converged within the first `n`, it goes
on from the state those left behind. -/
theorem playRounds_add (n d : ℕ) (rnd : ℤ) (hst : st.converged = false) :
    playRounds R ctx fb (n + d) rnd st =
      match playRounds R ctx fb n rnd st with
      | .error e => .error e
      | .ok st' => if st'.converged then .ok st' else playRounds R ctx fb d (rnd + n) st' := by
  induction n generalizing rnd st with
  | zero => simp [playRounds, hst]
  | succ n ih =>
    rw [Nat.add_right_comm, playRounds, playRounds]
    by_cases hfree : (!fb.inputOrderIds.toList.any st.market.isOrderFree) = true
    · rw [if_pos hfree, if_pos hfree]
      rfl
    · rw [if_neg hfree, if_neg hfree]
      cases playRound R ctx fb rnd st with
      | error e => rfl
      | ok st' =>
        by_cases hconv : st'.converged = true
        · simp [hconv]
        · have hnext : rnd + 1 + (n : ℤ) = rnd + ((n + 1 : ℕ) : ℤ) := by omega
          simp only [if_neg hconv]
          rw [ih (rnd + 1) (Bool.eq_false_iff.mpr hconv), hnext]

/-- The tick with the cap `k`, started after the contributions. -/
theorem tickRounds_withCap {k : ℤ} (h1 : 1 ≤ k) (h100 : k ≤ 100) (pools : List Pool) (s : σ) :
    tickRounds R (ctx.withCap k) fb pools s = playRounds R ctx fb k.toNat 1
      { market := (contributeAll ctx fb (init pools) s).1
        rng := (contributeAll ctx fb (init pools) s).2 } := by
  rw [tickRounds, maxRounds_withCap h1 h100, playRounds_withCap, contributeAll_withCap]

/-- **The backstop only truncates.**  Of two caps within `1..100`, the tick with the smaller one
raises only what the tick with the larger one raises too, and otherwise its awards are a prefix of
the other's; and when it has converged the two ticks return the same. -/
theorem cap_only_truncates (R : Runtime σ) (ctx : PooledPlannerContext σ) (fb : FleetBook)
    (pools : List Pool) (s : σ) {k k' : ℤ} (h1 : 1 ≤ k) (hk : k ≤ k') (h100 : k' ≤ 100) :
    (∀ e, tickRounds R (ctx.withCap k) fb pools s = .error e →
        tickRounds R (ctx.withCap k') fb pools s = .error e) ∧
      (∀ st st', tickRounds R (ctx.withCap k) fb pools s = .ok st →
        tickRounds R (ctx.withCap k') fb pools s = .ok st' →
        st.market.awards <+: st'.market.awards) ∧
      ∀ res, runPooledMarket R (ctx.withCap k) fb pools s = .ok res → res.converged = true →
        runPooledMarket R (ctx.withCap k') fb pools s = .ok res := by
  obtain ⟨d, hd⟩ : ∃ d : ℕ, k'.toNat = k.toNat + d := ⟨k'.toNat - k.toNat, by omega⟩
  have hlong := @tickRounds_withCap σ R ctx fb k' (h1.trans hk) h100 pools s
  rw [hd, playRounds_add _ _ _ rfl, ← tickRounds_withCap h1 (hk.trans h100)] at hlong
  refine ⟨fun e he ↦ ?_, fun st st' he he' ↦ ?_, fun res hres hconv ↦ ?_⟩
  · rw [hlong, he]
  · rw [hlong, he] at he'
    dsimp only at he'
    split at he'
    · obtain rfl := Except.ok.inj he'
      exact List.prefix_rfl
    · obtain ⟨n, hn⟩ := playRounds_grown he'
      exact hn.prefix
  · cases he : tickRounds R (ctx.withCap k) fb pools s with
    | error e => simp [runPooledMarket, he] at hres
    | ok st =>
      have hst : st.converged = true := by
        rw [runPooledMarket, he] at hres
        dsimp only at hres
        split at hres
        · cases hres
        · split at hres
          · cases hres
          · rw [← hconv, ← Except.ok.inj hres]
      have hsame : tickRounds R (ctx.withCap k') fb pools s = .ok st := by
        rw [hlong, he]
        simp [hst]
      rw [← hres, runPooledMarket, runPooledMarket, he, hsame]
      simp only [account_withCap]

theorem cap_only_truncates_small :
    ∃ res, runPooledMarket smallRuntime ((smallContext claimAllPlanned).withCap 2) smallBook
        smallPools () = .ok res ∧
      runPooledMarket smallRuntime ((smallContext claimAllPlanned).withCap 20) smallBook
        smallPools () = .ok res := by
  have hconv : (runPooledMarket smallRuntime ((smallContext claimAllPlanned).withCap 2) smallBook
      smallPools ()).toOption.any (fun res ↦ res.converged) = true := by
    decide +kernel
  cases hres : runPooledMarket smallRuntime ((smallContext claimAllPlanned).withCap 2) smallBook
      smallPools () with
  | error e => simp [hres, Except.toOption] at hconv
  | ok res =>
    rw [hres] at hconv
    exact ⟨res, rfl, (cap_only_truncates smallRuntime (smallContext claimAllPlanned) smallBook
      smallPools () (by omega : (1 : ℤ) ≤ 2) (by omega : (2 : ℤ) ≤ 20) (by omega)).2.2 res hres
        hconv⟩

/-! ## What the report of a truncation is worth -/

/-- The auction without a cap is over, in a state about to play round `rnd`: no input order is
free, or the round commits nothing or raises. -/
def AuctionOver (R : Runtime σ) (ctx : PooledPlannerContext σ) (fb : FleetBook) (rnd : ℤ)
    (st : TickState σ) : Prop :=
  (∀ oid ∈ fb.inputOrderIds, st.market.isOrderFree oid = false) ∨
    ∀ st', playRound R ctx fb rnd st = .ok st' →
      st'.market.awards.length ≤ st.market.awards.length

/-- The auction without a cap lasts for `n` rounds: it plays `n` rounds that commit something, and
is over then. -/
def AuctionLasts (R : Runtime σ) (ctx : PooledPlannerContext σ) (fb : FleetBook) :
    ℕ → ℤ → TickState σ → Prop
  | 0, rnd, st => AuctionOver R ctx fb rnd st
  | n + 1, rnd, st => ¬ AuctionOver R ctx fb rnd st ∧
      ∃ st', playRound R ctx fb rnd st = .ok st' ∧ AuctionLasts R ctx fb n (rnd + 1) st'

/-- The state a tick starts its rounds in. -/
def roundsStart (ctx : PooledPlannerContext σ) (fb : FleetBook) (pools : List Pool) (s : σ) :
    TickState σ where
  market := (contributeAll ctx fb (init pools) s).1
  rng := (contributeAll ctx fb (init pools) s).2

theorem not_auctionOver : ¬ AuctionOver R ctx fb rnd st ↔
    (∃ oid ∈ fb.inputOrderIds, st.market.isOrderFree oid = true) ∧
      ∃ st', playRound R ctx fb rnd st = .ok st' ∧
        st.market.awards.length < st'.market.awards.length := by
  simp [AuctionOver]

theorem any_isOrderFree : fb.inputOrderIds.toList.any m.isOrderFree = true ↔
    ∃ oid ∈ fb.inputOrderIds, m.isOrderFree oid = true := by
  simp [List.any_eq_true, SortedSet.mem_def]

/-- Leaving through the cap means that each of the rounds committed something, so the auction
without a cap lasts for as many rounds if it is over by then, and for more if it is not. -/
theorem auctionLasts_iff_over (hst : st.converged = false)
    (he : playRounds R ctx fb n rnd st = .ok st') (hcut : st'.converged = false) :
    AuctionLasts R ctx fb n rnd st ↔ AuctionOver R ctx fb (rnd + n) st' := by
  induction n generalizing rnd st with
  | zero =>
    cases he
    simp [AuctionLasts]
  | succ n ih =>
    rw [playRounds] at he
    by_cases hfree : fb.inputOrderIds.toList.any st.market.isOrderFree = true
    · rw [if_neg (by simp [hfree])] at he
      cases hr : playRound R ctx fb rnd st with
      | error e => simp [hr] at he
      | ok st₁ =>
        rw [hr] at he
        dsimp only at he
        by_cases hconv : st₁.converged = true
        · rw [if_pos hconv] at he
          cases he
          simp [hconv] at hcut
        · rw [if_neg hconv] at he
          obtain ⟨k, hk, hflag⟩ := playRound_grown hr
          have hnot : ¬ AuctionOver R ctx fb rnd st := by
            refine not_auctionOver.mpr ⟨any_isOrderFree.mp hfree, st₁, hr, ?_⟩
            have hlen := hk.length
            have hpos : k ≠ 0 := fun h0 ↦ hconv (by simp [hflag, h0])
            omega
          have hnext : rnd + ((n + 1 : ℕ) : ℤ) = rnd + 1 + (n : ℤ) := by omega
          rw [hnext, ← ih (Bool.eq_false_iff.mpr hconv) he, AuctionLasts]
          constructor
          · rintro ⟨-, st₂, h₂, hl⟩
            rw [hr, Except.ok.injEq] at h₂
            exact h₂ ▸ hl
          · exact fun hl ↦ ⟨hnot, st₁, hr, hl⟩
    · rw [if_pos (by simp [hfree])] at he
      cases he
      simp at hcut

/-- An auction that lasts for `n` rounds leaves a tick of `n` rounds through the cap. -/
theorem AuctionLasts.playRounds (hl : AuctionLasts R ctx fb n rnd st) (hst : st.converged = false) :
    ∃ st', playRounds R ctx fb n rnd st = .ok st' ∧ st'.converged = false := by
  induction n generalizing rnd st with
  | zero => exact ⟨st, rfl, hst⟩
  | succ n ih =>
    obtain ⟨hnot, st₁, hr, hl⟩ := hl
    obtain ⟨hfree, st₂, hr', hlt⟩ := not_auctionOver.mp hnot
    rw [hr, Except.ok.injEq] at hr'
    subst hr'
    obtain ⟨k, hk, hflag⟩ := playRound_grown hr
    have hconv : st₁.converged = false := by
      rw [hflag, decide_eq_false_iff_not]
      have hlen := hk.length
      omega
    obtain ⟨st', he, hcut⟩ := ih hl hconv
    refine ⟨st', ?_, hcut⟩
    rw [Assignment.playRounds, if_neg (by simp [any_isOrderFree.mpr hfree]), hr]
    simpa [hconv] using he

theorem one_le_maxRounds (ctx : PooledPlannerContext σ) : 1 ≤ maxRounds ctx :=
  le_max_left 1 _

/-- What a tick returns, read off the state its rounds end in. -/
theorem runPooledMarket_of_tickRounds {pools : List Pool} {s : σ} {res : PooledMarketResult}
    (hst : tickRounds R ctx fb pools s = .ok st) (hres : runPooledMarket R ctx fb pools s = .ok res)
    :
    res.converged = st.converged ∧ res.market = st.market ∧
      closingAssertions fb st.market.awards = .ok () := by
  rw [runPooledMarket, hst] at hres
  dsimp only at hres
  split at hres
  · cases hres
  · split at hres
    · cases hres
    · next hclose =>
      cases hres
      exact ⟨rfl, rfl, hclose⟩

/-- **When a report of a truncation is true.**  A tick that reports no convergence has left an
input order free and would commit a further award in one more round — unless its cap is exactly
the number of rounds the auction lasts for. -/
theorem truncation_report_iff (R : Runtime σ) (ctx : PooledPlannerContext σ) (fb : FleetBook)
    (pools : List Pool) (s : σ) {st : TickState σ} {res : PooledMarketResult}
    (hst : tickRounds R ctx fb pools s = .ok st)
    (hres : runPooledMarket R ctx fb pools s = .ok res) :
    (res.converged = false →
        (∃ oid ∈ fb.inputOrderIds, res.market.isOrderFree oid = true) ∧
          ∃ st', playRound R ctx fb (maxRounds ctx + 1) st = .ok st' ∧
            res.market.awards.length < st'.market.awards.length) ↔
      ¬ AuctionLasts R ctx fb (maxRounds ctx).toNat 1 (roundsStart ctx fb pools s) := by
  obtain ⟨hconv, hmk, -⟩ := runPooledMarket_of_tickRounds hst hres
  have hnext : (1 : ℤ) + ((maxRounds ctx).toNat : ℤ) = maxRounds ctx + 1 := by
    have h1 := one_le_maxRounds ctx
    omega
  rw [hconv, hmk, ← not_auctionOver, ← hnext]
  constructor
  · intro hclaim hl
    obtain ⟨st', he, hcut⟩ := hl.playRounds rfl
    obtain rfl : st' = st := Except.ok.inj (he.symm.trans hst)
    exact hclaim hcut ((auctionLasts_iff_over rfl hst hcut).mp hl)
  · exact fun hl hcut hover ↦ hl ((auctionLasts_iff_over rfl hst hcut).mpr hover)

/-! ### A cap fitting the auction exactly

One order and one truck that may serve it, under a cap of one round. -/

/-- The cap of one round serves the only order and reports a truncation, with no order free. -/
theorem tight_cap_reported :
    ∃ res, runPooledMarket smallRuntime ((smallContext claimAllPlanned).withCap 1) smallBook
        smallPools () = .ok res ∧ res.converged = false ∧ res.assignment.length = 1 ∧
      ¬ ∃ oid ∈ smallBook.inputOrderIds, res.market.isOrderFree oid = true := by
  have hrun : (runPooledMarket smallRuntime ((smallContext claimAllPlanned).withCap 1) smallBook
      smallPools ()).toOption.any (fun res ↦ !res.converged && res.assignment.length == 1 &&
        !smallBook.inputOrderIds.toList.any res.market.isOrderFree) = true := by
    decide +kernel
  cases hres : runPooledMarket smallRuntime ((smallContext claimAllPlanned).withCap 1) smallBook
      smallPools () with
  | error e => simp [hres, Except.toOption] at hrun
  | ok res =>
    rw [hres, Except.toOption, Option.any_some, Bool.and_eq_true, Bool.and_eq_true] at hrun
    obtain ⟨⟨hconv, hlen⟩, hfree⟩ := hrun
    refine ⟨res, rfl, by simpa using hconv, by simpa using hlen, ?_⟩
    rw [← any_isOrderFree]
    simpa using hfree

/-- Two orders of `A`, with a truck of `A` and one of `B` that both go for the first. -/
def twoOrderBook : FleetBook where
  trucksByHaulier := Dict.ofList
    [("A", [{ id := some "tA", haulierId := some "A" }]),
     ("B", [{ id := some "tB", haulierId := some "B" }])]
  ordersByHaulier := Dict.ofList
    [("A", ["o1", "o2"].map fun id ↦ { id := some id, haulierId := some "A" })]

/-- One round serves one order.  That is all there is in the first book, and half in the second. -/
theorem truncation_report_iff_small :
    let ctx := (smallContext claimAllPlanned).withCap 1
    ∀ book ∈ [(smallBook, false), (twoOrderBook, true)], ∃ st res,
      tickRounds smallRuntime ctx book.1 smallPools () = .ok st ∧
      runPooledMarket smallRuntime ctx book.1 smallPools () = .ok res ∧ res.converged = false ∧
      book.1.inputOrderIds.toList.any res.market.isOrderFree = book.2 ∧
      ((res.converged = false →
        (∃ oid ∈ book.1.inputOrderIds, res.market.isOrderFree oid = true) ∧
          ∃ st', playRound smallRuntime ctx book.1 (maxRounds ctx + 1) st = .ok st' ∧
            res.market.awards.length < st'.market.awards.length) ↔
        ¬ AuctionLasts smallRuntime ctx book.1 (maxRounds ctx).toNat 1
          (roundsStart ctx book.1 smallPools ())) := by
  intro ctx book hbook
  have hrun : (runPooledMarket smallRuntime ctx book.1 smallPools ()).toOption.any (fun res ↦
      !res.converged && book.1.inputOrderIds.toList.any res.market.isOrderFree == book.2) =
        true := by
    revert book
    decide +kernel
  cases hst : tickRounds smallRuntime ctx book.1 smallPools () with
  | error e => simp [runPooledMarket, hst, Except.toOption] at hrun
  | ok st =>
    cases hres : runPooledMarket smallRuntime ctx book.1 smallPools () with
    | error e => simp [hres, Except.toOption] at hrun
    | ok res =>
      rw [hres, Except.toOption, Option.any_some, Bool.and_eq_true] at hrun
      exact ⟨st, res, rfl, rfl, by simpa using hrun.1, by simpa using hrun.2,
        truncation_report_iff _ _ _ _ _ hst hres⟩

/-! ### Caps that are large enough -/

theorem playRounds_cut (he : playRounds R ctx fb n rnd st = .ok st') (hcut : st'.converged = false)
    : st.market.awards.length + n ≤ st'.market.awards.length := by
  induction n generalizing rnd st with
  | zero =>
    cases he
    exact le_rfl
  | succ n ih =>
    rw [playRounds] at he
    split at he
    · cases he
      simp at hcut
    · split at he
      · cases he
      · next st₁ h₁ =>
        obtain ⟨k, hk, hflag⟩ := playRound_grown h₁
        have hlen := hk.length
        split at he
        · next hconv =>
          cases he
          simp [hconv] at hcut
        · next hconv =>
          have hpos : k ≠ 0 := fun h0 ↦ hconv (by simp [hflag, h0])
          have hrest := ih he
          omega

/-- **A cap above the number of orders never binds**: every round before the last commits an
order. -/
theorem converged_of_orders_lt (pools : List Pool) (s : σ) (res : PooledMarketResult)
    (hres : runPooledMarket R ctx fb pools s = .ok res)
    (hcap : (fb.inputOrderIds.toList.length : ℤ) < maxRounds ctx) : res.converged = true := by
  cases hst : tickRounds R ctx fb pools s with
  | error e => simp [runPooledMarket, hst] at hres
  | ok st =>
    obtain ⟨hconv, -, hclose⟩ := runPooledMarket_of_tickRounds hst hres
    rw [hconv]
    by_contra hcut
    have hlen := playRounds_cut hst (Bool.eq_false_iff.mpr hcut)
    rw [closingAssertions] at hclose
    split at hclose
    · cases hclose
    · next hknown =>
      split at hclose
      · cases hclose
      · next hnodup =>
        have hsub : st.market.awards.map Award.orderId ⊆ fb.inputOrderIds.toList := by
          intro oid hoid
          obtain ⟨a, ha, rfl⟩ := List.mem_map.mp hoid
          exact SortedSet.mem_def.mp (not_not.mp hknown a ha)
        have hle := ((not_not.mp hnodup).subperm hsub).length_le
        rw [List.length_map] at hle
        omega

theorem converged_small :
    ∃ res, runPooledMarket smallRuntime ((smallContext claimAllPlanned).withCap 20) smallBook
        smallPools () = .ok res ∧ res.converged = true := by
  have hrun : (runPooledMarket smallRuntime ((smallContext claimAllPlanned).withCap 20) smallBook
      smallPools ()).isOk = true := by decide
  cases hres : runPooledMarket smallRuntime ((smallContext claimAllPlanned).withCap 20) smallBook
      smallPools () with
  | error e =>
    rw [hres] at hrun
    cases hrun
  | ok res => exact ⟨res, rfl, converged_of_orders_lt smallPools () res hres (by decide)⟩

end OpenRide.Assignment
