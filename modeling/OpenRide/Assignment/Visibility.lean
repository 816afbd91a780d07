import OpenRide.Assignment.Pools
import OpenRide.Lib.Machine

/-!
# Visibility over a whole tick

`PoolMarket` answers "who may carry this order" three times, from the same two tables: candidate
building asks `eligibleCarriers`, bidding asks `visiblePooledOrderIds`, and the commit guard and
the award ask `poolOfOrder`.  This file runs the market as a machine whose events are its two
mutators, with whatever arguments a caller may pass — unknown pools, contributors who are no
members, a second claimed owner, awards that are refused — and shows that the three answers stay
one.

The tables are tied together by two invariants.  `Coherent` says that a placed order has a
recorded owner who belongs to each of its pools; `Recorded` is the converse, that only placed
orders have a recorded owner.  What a run never does is hand an order to another owner
(`Reach.keeps_owner`).
-/

namespace OpenRide.Assignment

open Lib

namespace PoolMarket

/-! ## The market as a machine -/

/-- A call of one of the two mutators. -/
inductive Call
  | contribute (orderId owner : String) (poolIds : List String)
  | commit (award : Award)

/-- The market after a call.  A rejected call leaves it as it was. -/
def play (m : PoolMarket) : Call → PoolMarket
  | .contribute orderId owner poolIds => (m.contribute orderId owner poolIds).2
  | .commit award => (m.commit award).2

/-- Any call may come at any time. -/
def machine : Machine PoolMarket Call where
  step m c := some (m.play c)

/-- The markets some sequence of calls leads to. -/
abbrev Leads (m m' : PoolMarket) : Prop := machine.Reach (fun _ _ ↦ True) m m'

variable {m : PoolMarket}

theorem Leads.invariant {m' : PoolMarket} (h : Leads m m') {P : PoolMarket → Prop} (h0 : P m)
    (hstep : ∀ a c, P a → P (a.play c)) : P m' :=
  Machine.Reach.invariant h h0 fun a c _ ha _ hb ↦ Option.some_inj.mp hb ▸ hstep a c ha

/-! ## What the calls keep -/

theorem Coherent.play (hm : m.Coherent) (c : Call) : (m.play c).Coherent := by
  cases c with
  | contribute o h ps => exact hm.contribute o h ps
  | commit a => exact (commit_sameBook m a).coherent hm

/-- Only placed orders have a recorded owner. -/
def Recorded (m : PoolMarket) : Prop :=
  ∀ o owner, m.contributionOwner.get? o = some owner → ∃ pids, m.contributions.get? o = some pids

theorem init_recorded (pools : List Pool) : (init pools).Recorded := by
  intro o owner h
  simp [init] at h

theorem Recorded.contribute (hm : m.Recorded) (o h : String) (ps : List String) :
    (m.contribute o h ps).2.Recorded := by
  rcases contribute_cases m o h ps with he | ⟨-, -, hc, ho⟩
  · rw [he]; exact hm
  intro x owner hx
  rw [hc]
  by_cases hxo : x = o
  · subst hxo
    exact ⟨_, Dict.get?_set_self _ _ _⟩
  · rw [ho, Dict.get?_set_ne _ _ hxo] at hx
    rw [Dict.get?_set_ne _ _ hxo]
    exact hm x owner hx

theorem Recorded.play (hm : m.Recorded) (c : Call) : (m.play c).Recorded := by
  cases c with
  | contribute o h ps => exact hm.contribute o h ps
  | commit a =>
    obtain ⟨-, hc, ho⟩ := commit_sameBook m a
    intro x owner hx
    simp only [PoolMarket.play, hc, ho] at hx ⊢
    exact hm x owner hx

variable {o owner : String}

/-- A call never moves an order to another owner: a second claimed owner is refused, and the
recorded one only records itself again. -/
theorem keeps_owner_play (c : Call) (h : m.contributionOwner.get? o = some owner) :
    (m.play c).contributionOwner.get? o = some owner := by
  cases c with
  | commit a =>
    simp only [PoolMarket.play, (commit_sameBook m a).2.2]
    exact h
  | contribute x g ps =>
    simp only [PoolMarket.play]
    rcases contribute_cases m x g ps with he | ⟨hown, -, -, ho⟩
    · rw [he]; exact h
    by_cases hox : o = x
    · subst hox
      rw [ho, Dict.get?_set_self]
      rcases hown with hn | hs
      · simp [hn] at h
      · rw [← hs, h]
    · rw [ho, Dict.get?_set_ne _ _ hox]
      exact h

theorem Leads.keeps_owner {m' : PoolMarket} (hr : Leads m m')
    (h : m.contributionOwner.get? o = some owner) : m'.contributionOwner.get? o = some owner :=
  hr.invariant (P := fun a ↦ a.contributionOwner.get? o = some owner) h
    fun _ c ↦ keeps_owner_play c

theorem isContributed_iff (hc : m.Coherent) (hr : m.Recorded) :
    m.isContributed o = true ↔ ∃ owner, m.contributionOwner.get? o = some owner := by
  rw [isContributed]
  constructor
  · intro h
    cases hp : m.contributions.get? o with
    | none => simp [hp] at h
    | some pids =>
      obtain ⟨-, owner, ho, -⟩ := hc o pids hp
      exact ⟨owner, ho⟩
  · rintro ⟨owner, ho⟩
    obtain ⟨pids, hp⟩ := hr o owner ho
    obtain ⟨hne, -⟩ := hc o pids hp
    simpa [hp] using hne

/-! ## The three queries agree -/

/-- The owner's own orders are left out of what it sees in the pools, so the two tests together
say the same as `eligibleCarriers`. -/
theorem mem_eligibleCarriers_iff_visible {h : String} (ho : m.contributionOwner.get? o = some owner)
    : h ∈ m.eligibleCarriers o owner ↔ h = owner ∨ o ∈ m.visiblePooledOrderIds h := by
  rw [mem_eligibleCarriers, mem_visiblePooledOrderIds, ho]
  by_cases hh : h = owner
  · simp [hh]
  · simp [hh, Ne.symm hh]

theorem mem_eligibleCarriers_iff_poolOfOrder (m : PoolMarket) (o owner h : String) :
    h ∈ m.eligibleCarriers o owner ↔ h = owner ∨ m.poolOfOrder o h ≠ none := by
  rw [mem_eligibleCarriers, ← poolOfOrder_isSome, Option.isSome_iff_ne_none]

/-- **Visibility stays coherent.**  After any sequence of calls on a market of any pools, an order
is contributed just when it has a recorded owner; for that owner the three queries name the same
companies, whether or not the order is free; each pool the order is in exists and has the owner
for a member; and no further calls change the owner. -/
theorem visibility_coherent {pools : List Pool} {m : PoolMarket} (hm : Leads (init pools) m)
    (o : String) :
    (m.isContributed o = true ↔ ∃ owner, m.contributionOwner.get? o = some owner) ∧
      ∀ owner, m.contributionOwner.get? o = some owner →
        (∀ h, (h ∈ m.eligibleCarriers o owner ↔ h = owner ∨ o ∈ m.visiblePooledOrderIds h) ∧
          (h ∈ m.eligibleCarriers o owner ↔ h = owner ∨ m.poolOfOrder o h ≠ none)) ∧
        (∀ pids, m.contributions.get? o = some pids → ∀ pid ∈ pids,
          ∃ pool, m.pools.get? pid = some pool ∧ owner ∈ pool.members) ∧
        ∀ m', Leads m m' → m'.contributionOwner.get? o = some owner := by
  have hc : m.Coherent := hm.invariant (init_coherent pools) fun _ c h ↦ h.play c
  have hr : m.Recorded := hm.invariant (init_recorded pools) fun _ c h ↦ h.play c
  refine ⟨isContributed_iff hc hr, fun owner ho ↦ ⟨fun h ↦ ?_, fun pids hp pid hpid ↦ ?_, ?_⟩⟩
  · exact ⟨mem_eligibleCarriers_iff_visible ho, mem_eligibleCarriers_iff_poolOfOrder m o owner h⟩
  · obtain ⟨-, owner', ho', hall⟩ := hc o pids hp
    obtain rfl : owner = owner' := Option.some_inj.mp (ho ▸ ho')
    have hmem := hall pid hpid
    rw [memberOf] at hmem
    cases hpool : m.pools.get? pid with
    | none => simp [hpool] at hmem
    | some pool =>
      rw [hpool] at hmem
      exact ⟨pool, rfl, decide_eq_true_eq.mp hmem⟩
  · exact fun m' h ↦ h.keeps_owner ho

/-- One pool of two companies; an order is placed by its owner, claimed by the other member and
by a stranger, and awarded. -/
theorem visibility_coherent_small :
    ∃ m : PoolMarket, Leads (init [⟨"p", SortedSet.ofList ["a", "b"]⟩]) m ∧
      m.contributionOwner.get? "o" = some "a" ∧
      ("b" ∈ m.eligibleCarriers "o" "a" ↔ "b" = "a" ∨ "o" ∈ m.visiblePooledOrderIds "b") ∧
      m.awards.length = 1 := by
  let calls : List Call :=
    [.contribute "o" "a" ["p", "q"], .contribute "o" "b" ["p"], .contribute "o" "c" ["p"],
      .commit ⟨"o", "t", "b", some "a", .fin 3, some "p", 1⟩]
  let m : PoolMarket := calls.foldl play (init [⟨"p", SortedSet.ofList ["a", "b"]⟩])
  have hm : Leads (init [⟨"p", SortedSet.ofList ["a", "b"]⟩]) m :=
    Machine.reach_of_exec calls rfl fun _ _ _ ↦ trivial
  have ho : m.contributionOwner.get? "o" = some "a" := by decide
  exact ⟨m, hm, ho, (((visibility_coherent hm "o").2 "a" ho).1 "b").1, by decide⟩

end PoolMarket

end OpenRide.Assignment
