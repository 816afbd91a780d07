import OpenRide.Assignment.InputOrder

/-!
# What the greedy solver returns

`greedySolvePairs` scores its candidates, sorts them and sweeps.  A cost that raises a `TypeError`
or a `ValueError`, is not a number, is infinite or is a NaN counts as unknown and comes behind every
known cost; any other exception is the caller's (`HandledCost`).  So the score of a candidate is a
function of the candidate (`scoreOf`), and with a tie-break seed the sort key is that score followed
by the hash of the pair (`pairKey`).

Where the hash tells the candidates apart, the key does, and the sweep of the sorted list is the one
greedy matching for it: whoever is left out shares a truck or an order with someone chosen whose key
is no larger, and no permutation of the candidates changes anything (`greedySolvePairs_stable`).
-/

namespace OpenRide.Assignment

open Lib

/-! ## Scores -/

section Scores

variable (cost : Cost)

/-- The solver's handler covers what the cost of a candidate may raise. -/
def HandledCost (p : Pair) : Prop :=
  ∀ e, floatCost cost p.1 p.2 = .error e → e.isTypeOrValue = true

/-- The cost a candidate is sorted by: unknown costs at the top. -/
def knownCost (p : Pair) : WithTop ℚ :=
  match floatCost cost p.1 p.2 with
  | .ok c => c.rank
  | .error _ => ⊤

/-- The score of a candidate whose cost the solver handles. -/
def scoreOf (p : Pair) : Scored where
  cost := knownCost cost p
  missing := if knownCost cost p = ⊤ then 1 else 0
  pair := p

/-- The sort key of a candidate: its cost, then its tie-break. -/
def pairKey {σ : Type} (R : Runtime σ) (seed : ℤ) (p : Pair) : WithTop ℚ ×ₗ ℕ :=
  toLex (knownCost cost p, pairTiebreak R seed p.2.entityId p.1.entityId)

variable {cost}

theorem score_of_handled {p : Pair} (h : HandledCost cost p) :
    score cost p = .ok (scoreOf cost p) := by
  rw [score, scoreOf, knownCost]
  cases hc : floatCost cost p.1 p.2 with
  | ok c => cases c <;> simp [Double.rank, Double.isFinite]
  | error e =>
    dsimp only
    rw [if_pos (h e hc), if_pos rfl]

/-- An exception outside the handler is the solver's own result. -/
theorem score_of_not_handled {p : Pair} (h : ¬ HandledCost cost p) :
    ∃ e, score cost p = .error e := by
  obtain ⟨e, he, hcaught⟩ : ∃ e, floatCost cost p.1 p.2 = .error e ∧ ¬ e.isTypeOrValue = true := by
    simpa only [HandledCost, not_forall, exists_prop] using h
  refine ⟨e, ?_⟩
  rw [score, he]
  exact if_neg hcaught

theorem scoreAll_of_handled {ps : List Pair} (h : ∀ p ∈ ps, HandledCost cost p) :
    scoreAll cost ps = .ok (ps.map (scoreOf cost)) := by
  induction ps with
  | nil => rfl
  | cons p ps ih =>
    rw [scoreAll, score_of_handled (h p List.mem_cons_self),
      ih fun q hq ↦ h q (List.mem_cons_of_mem p hq)]
    rfl

theorem scoreAll_of_not_handled {ps : List Pair} (h : ∃ p ∈ ps, ¬ HandledCost cost p) :
    ∃ e, scoreAll cost ps = .error e := by
  induction ps with
  | nil =>
    obtain ⟨p, hp, -⟩ := h
    exact absurd hp List.not_mem_nil
  | cons p ps ih =>
    rw [scoreAll]
    by_cases hp : HandledCost cost p
    · have hrest : ∃ q ∈ ps, ¬ HandledCost cost q := by
        obtain ⟨q, hq, hn⟩ := h
        rcases List.mem_cons.mp hq with rfl | hq
        · exact absurd hp hn
        · exact ⟨q, hq, hn⟩
      obtain ⟨e, he⟩ := ih hrest
      rw [score_of_handled hp, he]
      exact ⟨e, rfl⟩
    · obtain ⟨e, he⟩ := score_of_not_handled hp
      rw [he]
      exact ⟨e, rfl⟩

end Scores

/-! ## The sweep -/

section Sweep

variable {σ : Type} {R : Runtime σ} {cost : Cost} {seed : ℤ} {pairs : List Pair}

/-- The candidates in the order the sweep meets them. -/
def pairsInOrder (R : Runtime σ) (seed : ℤ) (cost : Cost) (pairs : List Pair) : List Pair :=
  sortedBy (pairKey cost R seed) pairs

/-- The greedy plan: the sweep of the candidates in order. -/
def greedyPlan (R : Runtime σ) (seed : ℤ) (cost : Cost) (pairs : List Pair) : List Pair :=
  sweep (fun p : Pair ↦ p.1.id) (fun p ↦ p.2.id) (pairsInOrder R seed cost pairs)

/-- Scores sort as their candidates do: whether a cost is known is a function of the cost. -/
theorem scored_le_iff (p q : Pair) :
    toLex ((scoreOf cost p).cost, toLex ((scoreOf cost p).missing,
        pairTiebreak R seed p.2.entityId p.1.entityId)) ≤
      toLex ((scoreOf cost q).cost, toLex ((scoreOf cost q).missing,
        pairTiebreak R seed q.2.entityId q.1.entityId)) ↔
      pairKey cost R seed p ≤ pairKey cost R seed q := by
  simp only [pairKey, scoreOf, Prod.Lex.toLex_le_toLex]
  refine or_congr Iff.rfl (and_congr_right fun hcost ↦ ?_)
  rw [hcost]
  simp only [lt_self_iff_false, true_and, false_or]

theorem sortedBy_scoreOf :
    sortedBy (fun r : Scored ↦ toLex (r.cost, toLex (r.missing,
        pairTiebreak R seed r.pair.2.entityId r.pair.1.entityId))) (pairs.map (scoreOf cost)) =
      (pairsInOrder R seed cost pairs).map (scoreOf cost) :=
  sortedBy_map fun p _ q _ ↦ (scored_le_iff p q).symm

/-- With a tie-break seed, and costs the solver handles, it returns the greedy plan. -/
theorem greedySolvePairs_eq (h : ∀ p ∈ pairs, HandledCost cost p) (s : σ) :
    greedySolvePairs R (some seed) pairs cost s = (.ok (greedyPlan R seed cost pairs), s) := by
  rw [greedySolvePairs_of_scoreAll (scoreAll_of_handled h), sortedBy_scoreOf, sweep, sweepFrom_map,
    List.map_map]
  exact congrArg (fun plan ↦ (Except.ok plan, s)) (List.map_id _)

theorem greedySolvePairs_error (h : ∃ p ∈ pairs, ¬ HandledCost cost p) (s : σ) :
    ∃ e, greedySolvePairs R (some seed) pairs cost s = (.error e, s) := by
  obtain ⟨e, he⟩ := scoreAll_of_not_handled h
  refine ⟨e, ?_⟩
  rw [greedySolvePairs, he]

/-- The greedy plan is a greedy matching of the candidates. -/
theorem greedyPlan_greedyMatching (R : Runtime σ) (seed : ℤ) (cost : Cost) (pairs : List Pair) :
    GreedyMatching (fun p : Pair ↦ p.1.id) (fun p ↦ p.2.id) (pairKey cost R seed)
      {p | p ∈ pairs} {p | p ∈ greedyPlan R seed cost pairs} := by
  have h := sweep_greedyMatching (fun p : Pair ↦ p.1.id) (fun p ↦ p.2.id)
    (sortedBy_pairwise (pairKey cost R seed) pairs)
  simp only [mem_sortedBy] at h
  exact h

theorem greedyPlan_perm {pairs' : List Pair} (hp : pairs.Perm pairs')
    (hinj : ∀ p ∈ pairs, ∀ q ∈ pairs, pairTiebreak R seed p.2.entityId p.1.entityId =
      pairTiebreak R seed q.2.entityId q.1.entityId → p = q) :
    greedyPlan R seed cost pairs' = greedyPlan R seed cost pairs := by
  rw [greedyPlan, greedyPlan, pairsInOrder, pairsInOrder, sortedBy_eq_of_perm hp]
  intro p hpm q hqm hkey
  exact hinj p hpm q hqm (Prod.mk.inj hkey).2

end Sweep

/-- **The greedy solver returns a stable maximal matching, whatever order its candidates are in.**
With costs it handles and a tie-break that tells the candidates apart, it returns candidates of
which no two share a truck or an order; every candidate left out shares one of them with a chosen
pair that is no worse in cost and then tie-break; and every permutation of the candidates gives the
same plan. When some cost raises what it does not handle, it raises, on every permutation. -/
theorem greedySolvePairs_stable {σ : Type} (R : Runtime σ) (seed : ℤ) (cost : Cost)
    (pairs : List Pair) (s : σ)
    (hinj : ∀ p ∈ pairs, ∀ q ∈ pairs, pairTiebreak R seed p.2.entityId p.1.entityId =
      pairTiebreak R seed q.2.entityId q.1.entityId → p = q) :
    ((∀ p ∈ pairs, HandledCost cost p) → ∃ plan : List Pair,
      (∀ p ∈ plan, p ∈ pairs) ∧
      (plan.map fun p ↦ p.1.id).Nodup ∧ (plan.map fun p ↦ p.2.id).Nodup ∧
      (∀ p ∈ pairs, p ∉ plan → ∃ q ∈ plan, (q.1.id = p.1.id ∨ q.2.id = p.2.id) ∧
        pairKey cost R seed q ≤ pairKey cost R seed p) ∧
      ∀ pairs', pairs.Perm pairs' →
        greedySolvePairs R (some seed) pairs' cost s = (.ok plan, s)) ∧
    ((∃ p ∈ pairs, ¬ HandledCost cost p) → ∀ pairs', pairs.Perm pairs' →
      ∃ e, greedySolvePairs R (some seed) pairs' cost s = (.error e, s)) := by
  constructor
  · intro hcost
    have hmatch := greedyPlan_greedyMatching R seed cost pairs
    have hnodup := sweepFrom_nodup (fun p : Pair ↦ p.1.id) (fun p ↦ p.2.id) [] []
      (pairsInOrder R seed cost pairs)
    refine ⟨greedyPlan R seed cost pairs, fun p hp ↦ hmatch.subset hp, hnodup.1, hnodup.2,
      fun p hp _ ↦ hmatch.blocked p hp, fun pairs' hp ↦ ?_⟩
    rw [greedySolvePairs_eq fun p hp' ↦ hcost p (hp.mem_iff.mpr hp'), greedyPlan_perm hp hinj]
  · rintro ⟨p, hp, hcost⟩ pairs' hperm
    exact greedySolvePairs_error ⟨p, hperm.mem_iff.mp hp, hcost⟩ s

/-- A candidate whose cost is a NaN and one whose cost raises a `TypeError`, both for one truck. -/
theorem greedySolvePairs_stable_unknown : ∃ plan : List Pair,
    (plan.map fun p ↦ p.1.id).Nodup ∧
      greedySolvePairs (Runtime.plain String.length) (some 1)
        [({ id := some "t" }, { id := some "oo" }), ({ id := some "t" }, { id := some "o" })]
        (fun _ o ↦ if o.id = some "o" then .ok (.num .nan) else .error .typeError) () =
          (.ok plan, ()) := by
  obtain ⟨plan, -, htrucks, -, -, hsame⟩ := (greedySolvePairs_stable (Runtime.plain String.length) 1
    (fun _ o ↦ if o.id = some "o" then .ok (.num .nan) else .error .typeError)
    [({ id := some "t" }, { id := some "o" }), ({ id := some "t" }, { id := some "oo" })] ()
    (by decide)).1 (by
      intro p hp e he
      simp only [List.mem_cons, List.not_mem_nil, or_false] at hp
      rcases hp with rfl | rfl
      · cases he
      · cases he
        rfl)
  exact ⟨plan, htrucks, hsame _ (List.Perm.swap _ _ _)⟩

end OpenRide.Assignment
