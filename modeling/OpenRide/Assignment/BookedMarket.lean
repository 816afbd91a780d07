import OpenRide.Assignment.Untrusted
import OpenRide.Lib.Fallible

/-!
# What the awards of a tick keep, whatever is bid

A tick whose policies answer anything can still be trusted with three things: no order and no truck
is awarded twice, whoever contributed an order owns it, and an award is on an order that is known
and names its owner.  `Booked` says so of the market; it holds at the start of a tick and every step
keeps it.
-/

namespace OpenRide.Assignment

open Lib PoolMarket

namespace Untrusted

section Booked

variable {σ : Type} {R : Runtime σ} {ctx : PooledPlannerContext σ} {pol : Policies σ}
  {fb : FleetBook}

variable {h : String}

/-- The invariant of a tick whose bids may say anything. -/
structure Booked (fb : FleetBook) (m : PoolMarket) : Prop where
  ledger : m.Ledger
  coherent : m.Coherent
  /-- The recorded contributor of an order owns it. -/
  contributor : ∀ oid h, m.contributionOwner.get? oid = some h → fb.ownerOf oid = some h
  /-- An award is on an order that is known, and names its owner. -/
  owned : ∀ a ∈ m.awards, a.ownerHaulierId = fb.ownerOf a.orderId ∧
    ∃ h, fb.ownerOf a.orderId = some h

theorem Booked.init (pools : List Pool) : Booked fb (PoolMarket.init pools) where
  ledger := init_ledger pools
  coherent := init_coherent pools
  contributor _ _ h := nomatch h
  owned _ ha := absurd ha List.not_mem_nil

variable {m : PoolMarket}

theorem Booked.contribute (hm : Booked fb m) {oid : String} (ho : fb.ownerOf oid = some h)
    (ps : List String) : Booked fb (m.contribute oid h ps).2 where
  ledger := hm.ledger.contribute oid h ps
  coherent := hm.coherent.contribute oid h ps
  contributor := by
    intro x g hx
    rcases contribute_cases m oid h ps with he | ⟨-, -, -, hc⟩
    · rw [he] at hx
      exact hm.contributor x g hx
    · rw [hc, Dict.get?_set] at hx
      split at hx
      · next hxo => rw [hxo, ← Option.some_inj.mp hx, ho]
      · exact hm.contributor x g hx
  owned := by
    rw [(contribute_awards m oid h ps).1]
    exact hm.owned

theorem Booked.commit (hm : Booked fb m) {a : Award}
    (ha : a.ownerHaulierId = fb.ownerOf a.orderId ∧ ∃ h, fb.ownerOf a.orderId = some h) :
    Booked fb (m.commit a).2 where
  ledger := hm.ledger.commit a
  coherent := (commit_sameBook m a).coherent hm.coherent
  contributor := by
    rw [(commit_sameBook m a).2.2]
    exact hm.contributor
  owned := by
    intro b hb
    cases h : (m.commit a).1 with
    | false =>
      rw [commit_eq_false h] at hb
      exact hm.owned b hb
    | true =>
      rw [(commit_eq_true h).2.2] at hb
      rcases List.mem_append.mp hb with hb | hb
      · exact hm.owned b hb
      · rw [List.mem_singleton.mp hb]
        exact ha

theorem contributeOrders_booked {contribution : Dict AnswerKey (Answer String)}
    {ks : List AnswerKey} {m' : PoolMarket} (hm : Booked fb m)
    (he : contributeOrders fb h contribution ks m = .ok m') : Booked fb m' := by
  induction ks generalizing m with
  | nil => exact Except.ok.inj he ▸ hm
  | cons k ks ih =>
    obtain ⟨poolIds, -, he⟩ := bind_eq_ok.mp he
    split at he
    · next hown =>
      obtain ⟨pids, -, he⟩ := bind_eq_ok.mp he
      exact ih (hm.contribute hown pids) he
    · exact ih hm he

theorem contributeCompany_booked {st st' : PoolMarket × σ} (hm : Booked fb st.1)
    (he : contributeCompany ctx pol fb st h = .ok st') : Booked fb st'.1 := by
  rw [contributeCompany] at he
  split at he
  · exact Except.ok.inj he ▸ hm
  · obtain ⟨m, hto, he⟩ := bind_eq_ok.mp he
    rw [← Except.ok.inj he]
    cases hans : (pol.offer (offerRequest ctx fb st.1 h) st.2).1 with
    | error e =>
      rw [hans] at hto
      exact Except.ok.inj hto ▸ hm
    | ok answer =>
      rw [hans] at hto
      cases answer with
      | notDict => exact Except.ok.inj hto ▸ hm
      | dict contribution =>
        obtain ⟨ks, -, hto⟩ := bind_eq_ok.mp hto
        exact contributeOrders_booked hm hto

theorem contributeAll_booked {s : σ} {st : PoolMarket × σ} (hm : Booked fb m)
    (he : contributeAll ctx pol fb m s = .ok st) : Booked fb st.1 := by
  have heach : ∀ (hs : List String) (st₀ : PoolMarket × σ), Booked fb st₀.1 →
      contributeEach ctx pol fb hs st₀ = .ok st → Booked fb st.1 := by
    intro hs
    induction hs with
    | nil => exact fun st₀ hm he ↦ Except.ok.inj he ▸ hm
    | cons h hs ih =>
      intro st₀ hm he
      obtain ⟨st₁, hstep, he⟩ := bind_eq_ok.mp he
      exact ih st₁ (contributeCompany_booked hm hstep) he
  rw [contributeAll] at he
  split at he
  · exact Except.ok.inj he ▸ hm
  · exact heach _ _ hm he

variable {rnd : ℤ}

theorem commitPrivate_booked {ps : List Pair} {st st' : ℕ × PoolMarket}
    (hown : ∀ p ∈ ps, fb.ownerOf p.2.entityId = some h) (hm : Booked fb st.2)
    (he : commitPrivate ctx h rnd ps st = .ok st') : Booked fb st'.2 := by
  induction ps generalizing st with
  | nil => exact Except.ok.inj he ▸ hm
  | cons p ps ih =>
    rw [commitPrivate] at he
    split at he
    · cases he
    · next c _ =>
      have hp := hown p List.mem_cons_self
      refine ih (fun q hq ↦ hown q (List.mem_cons_of_mem p hq)) (hm.commit ?_) he
      exact ⟨hp.symm, h, hp⟩

theorem liftTick_eq_ok {α : Type} {x : Except TickError α} {a : α} (h : liftTick x = .ok a) :
    x = .ok a := by
  cases x with
  | error e => cases h
  | ok b => exact congrArg Except.ok (Except.ok.inj h)

theorem companyTurn_booked {m₀ : PoolMarket} {cands : Dict String (List Pair)}
    {st st' : TurnState σ} (hm : Booked fb st.market)
    (he : companyTurn R ctx pol fb m₀ cands rnd h st = .ok st') : Booked fb st'.market := by
  rw [companyTurn] at he
  split at he
  · exact Except.ok.inj he ▸ hm
  · split at he
    · exact Except.ok.inj he ▸ hm
    · next plan s _ =>
      obtain ⟨c, hc, he⟩ := bind_eq_ok.mp he
      obtain ⟨r, -, he⟩ := bind_eq_ok.mp he
      rw [← Except.ok.inj he]
      refine commitPrivate_booked (fun p hp ↦ ?_) hm (liftTick_eq_ok hc)
      have hown := (Bool.and_eq_true_iff.mp (List.mem_filter.mp hp).2).1
      exact of_decide_eq_true hown

theorem companyTurns_booked {m₀ : PoolMarket} {cands : Dict String (List Pair)} {hs : List String}
    {st st' : TurnState σ} (hm : Booked fb st.market)
    (he : companyTurns R ctx pol fb m₀ cands rnd hs st = .ok st') : Booked fb st'.market := by
  induction hs generalizing st with
  | nil => exact Except.ok.inj he ▸ hm
  | cons h hs ih =>
    obtain ⟨st₁, hstep, he⟩ := bind_eq_ok.mp he
    exact ih (companyTurn_booked hm hstep) he

/-- The guard lets no award through on an order nobody owns. -/
theorem Booked.known_of_carrierSees (hm : Booked fb m) {a : Award}
    (ha : a.ownerHaulierId = fb.ownerOf a.orderId) (hsees : carrierSees m a = true) :
    ∃ h, fb.ownerOf a.orderId = some h := by
  rcases carrierSees_iff.mp hsees with hown | hvis
  · exact ⟨_, ha ▸ hown⟩
  · obtain ⟨owner, how⟩ := hm.coherent.contributionOwner_ne_none hvis
    exact ⟨owner, hm.contributor _ _ how⟩

theorem commitAwards_booked {as : List Award} {st : Bool × PoolMarket}
    (has : ∀ a ∈ as, a.ownerHaulierId = fb.ownerOf a.orderId) (hm : Booked fb st.2) :
    Booked fb (commitAwards as st).2 := by
  induction as generalizing st with
  | nil => exact hm
  | cons a as ih =>
    have hrest := fun b hb ↦ has b (List.mem_cons_of_mem a hb)
    have ha := has a List.mem_cons_self
    rw [commitAwards]
    split
    · next hsees => exact ih hrest (hm.commit ⟨ha, hm.known_of_carrierSees ha hsees⟩)
    · exact ih hrest hm

theorem settleRound_booked {st : Assignment.TurnState σ} (hm : Booked fb st.market) :
    Booked fb (Assignment.settleRound R ctx fb st).2.1 := by
  rw [Assignment.settleRound]
  split
  · exact hm
  · refine commitAwards_booked (fun a ha ↦ ?_) hm
    obtain ⟨b, -, -, rfl⟩ := ArbitrationRule.exists_bid_of_mem_resolve ha
    rfl

variable {st : TickState σ}

theorem playRound_booked {st' : TickState σ} (hm : Booked fb st.market)
    (he : playRound R ctx pol fb rnd st = .ok st') : Booked fb st'.market := by
  obtain ⟨turn, hturn, he⟩ := bind_eq_ok.mp he
  obtain ⟨r, hr, he⟩ := bind_eq_ok.mp he
  obtain ⟨bids, -, hr⟩ := bind_eq_ok.mp hr
  rw [← Except.ok.inj he, ← Except.ok.inj hr]
  exact settleRound_booked (companyTurns_booked (by exact hm) hturn)

theorem playRounds_booked {n : ℕ} {st' : TickState σ} (hm : Booked fb st.market)
    (he : playRounds R ctx pol fb n rnd st = .ok st') : Booked fb st'.market := by
  induction n generalizing rnd st with
  | zero => exact Except.ok.inj he ▸ hm
  | succ n ih =>
    rw [playRounds] at he
    split at he
    · rw [← Except.ok.inj he]
      exact hm
    · obtain ⟨st₁, hstep, he⟩ := bind_eq_ok.mp he
      have hm₁ := playRound_booked hm hstep
      split at he
      · exact Except.ok.inj he ▸ hm₁
      · exact ih hm₁ he

end Booked

end Untrusted

end OpenRide.Assignment
