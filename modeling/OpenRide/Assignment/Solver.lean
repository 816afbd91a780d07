import OpenRide.Assignment.Arbitration
import OpenRide.Assignment.Spatial

/-!
# The registered solvers

A solver matches the trucks and orders of one company.  `GreedyNearest` scores every candidate
pair, sorts by cost and sweeps; `RandomAssignment` walks the orders in random order and gives each
one a random feasible truck.  Only the first takes pairs built beforehand (`solvePairs`).

What the planner relies on is that a solver only ever returns pairs it was offered (`Solver.Sound`,
for both solvers), and for convergence that the greedy sweep never comes back empty-handed from a
nonempty list of candidates (`greedySolvePairs_ne_nil`).
-/

namespace OpenRide.Assignment

open Lib

/-- A candidate or a match. -/
abbrev Pair := Truck × Order

/-- A solver: `solve`, and `solve_pairs` if it has one.  Each may raise, and each returns the
random generator after the call. -/
structure Solver (σ : Type) where
  solve : List Truck → List Order → PairAllowed → Cost → σ → Except PyExc (List Pair) × σ
  solvePairs : Option (List Pair → Cost → σ → Except PyExc (List Pair) × σ)

/-- The pairs of a cross product that a rule allows, trucks in the outer loop. -/
def feasiblePairs (trucks : List Truck) (orders : List Order) (pairAllowed : PairAllowed) :
    List Pair :=
  trucks.flatMap fun t ↦ (orders.filter (pairAllowed t)).map (t, ·)

variable {p : Pair}

theorem mem_feasiblePairs {trucks : List Truck} {orders : List Order} {pairAllowed : PairAllowed} :
    p ∈ feasiblePairs trucks orders pairAllowed ↔
      p.1 ∈ trucks ∧ p.2 ∈ orders ∧ pairAllowed p.1 p.2 = true := by
  obtain ⟨t, o⟩ := p
  simp only [feasiblePairs, List.mem_flatMap, List.mem_map, List.mem_filter, Prod.mk.injEq]
  constructor
  · rintro ⟨t', ht, o', ⟨ho, ha⟩, rfl, rfl⟩
    exact ⟨ht, ho, ha⟩
  · rintro ⟨ht, ho, ha⟩
    exact ⟨t, ht, o, ⟨ho, ha⟩, rfl, rfl⟩

/-! ## GreedyNearest -/

/-- A candidate with its cost, the costs that are not finite at the top. -/
structure Scored where
  cost : WithTop ℚ
  missing : ℕ
  pair : Pair

/-- `cost` read as a score: a `TypeError` or `ValueError` counts as an unknown cost. -/
def score (cost : Cost) (p : Pair) : Except PyExc Scored :=
  match floatCost cost p.1 p.2 with
  | .ok c => .ok { cost := c.rank, missing := if c.isFinite then 0 else 1, pair := p }
  | .error e => if e.isTypeOrValue then .ok { cost := ⊤, missing := 1, pair := p } else .error e

/-- Score the candidates in order, giving up at the first exception that is not caught. -/
def scoreAll (cost : Cost) : List Pair → Except PyExc (List Scored)
  | [] => .ok []
  | p :: ps =>
    match score cost p with
    | .error e => .error e
    | .ok r =>
      match scoreAll cost ps with
      | .error e => .error e
      | .ok rs => .ok (r :: rs)

/-- The order in which `GreedyNearest` sweeps: without a tie-break seed a shuffle followed by a
stable sort on the cost, with one a sort that breaks ties by hash. -/
def greedyOrder {σ : Type} (R : Runtime σ) (tiebreakSeed : Option ℤ) (scored : List Scored)
    (s : σ) : List Scored × σ :=
  match tiebreakSeed with
  | none =>
    (sortedBy (fun r ↦ toLex (r.cost, r.missing)) (R.shuffle s scored).1, (R.shuffle s scored).2)
  | some seed =>
    (sortedBy (fun r ↦ toLex (r.cost, toLex (r.missing,
      pairTiebreak R seed r.pair.2.entityId r.pair.1.entityId))) scored, s)

/-- `GreedyNearestSolver.solve_pairs`. -/
def greedySolvePairs {σ : Type} (R : Runtime σ) (tiebreakSeed : Option ℤ)
    (candidatePairs : List Pair)
    (cost : Cost) (s : σ) : Except PyExc (List Pair) × σ :=
  match scoreAll cost candidatePairs with
  | .error e => (.error e, s)
  | .ok [] => (.ok [], s)
  | .ok scored =>
    (.ok ((sweep (fun r ↦ r.pair.1.id) (fun r ↦ r.pair.2.id)
      (greedyOrder R tiebreakSeed scored s).1).map Scored.pair),
      (greedyOrder R tiebreakSeed scored s).2)

/-- `GreedyNearestSolver`. -/
def greedyNearest {σ : Type} (R : Runtime σ) (tiebreakSeed : Option ℤ) : Solver σ where
  solve trucks orders pairAllowed cost s :=
    if trucks.isEmpty || orders.isEmpty then (.ok [], s) else
      greedySolvePairs R tiebreakSeed (feasiblePairs trucks orders pairAllowed) cost s
  solvePairs := some fun pairs cost s ↦ greedySolvePairs R tiebreakSeed pairs cost s

/-! ## RandomAssignment -/

/-- Give each order a random feasible truck whose id is not used yet. -/
def randomMatch {σ : Type} (R : Runtime σ) (trucks : List Truck) (pairAllowed : PairAllowed) :
    List (Option String) → List Order → σ → List Pair × σ
  | _, [], s => ([], s)
  | used, o :: orders, s =>
    let candidates := trucks.filter fun t ↦ t.id ∉ used ∧ pairAllowed t o
    match R.shuffle s candidates with
    | ([], _) => randomMatch R trucks pairAllowed used orders s
    | (chosen :: _, s') =>
      ((chosen, o) :: (randomMatch R trucks pairAllowed (chosen.id :: used) orders s').1,
        (randomMatch R trucks pairAllowed (chosen.id :: used) orders s').2)

/-- `RandomAssignmentSolver`. -/
def randomAssignment {σ : Type} (R : Runtime σ) : Solver σ where
  solve trucks orders pairAllowed _ s :=
    let r := randomMatch R trucks pairAllowed [] (R.shuffle s orders).1 (R.shuffle s orders).2
    (.ok r.1, r.2)
  solvePairs := none

/-- A solver of the registry, with or without an injected tie-break seed. -/
inductive Solver.Registered {σ : Type} (R : Runtime σ) : Solver σ → Prop
  | greedyNearest (tiebreakSeed : Option ℤ) : Registered R (greedyNearest R tiebreakSeed)
  | randomAssignment : Registered R (randomAssignment R)

/-! ## A solver returns pairs it was offered -/

/-- What the planner relies on: nothing comes back that was not offered. -/
structure Solver.Sound {σ : Type} (S : Solver σ) : Prop where
  solve : ∀ {trucks orders pairAllowed cost s plan s'},
    S.solve trucks orders pairAllowed cost s = (.ok plan, s') →
      ∀ p ∈ plan, p.1 ∈ trucks ∧ p.2 ∈ orders ∧ pairAllowed p.1 p.2 = true
  solvePairs : ∀ {f pairs cost s plan s'}, S.solvePairs = some f →
    f pairs cost s = (.ok plan, s') → ∀ p ∈ plan, p ∈ pairs

variable {cost : Cost}

theorem score_pair {r : Scored} (h : score cost p = .ok r) : r.pair = p := by
  rw [score] at h
  split at h
  · rw [← Except.ok.inj h]
  · split at h
    · rw [← Except.ok.inj h]
    · cases h

theorem scoreAll_pair {ps : List Pair} {rs : List Scored} (h : scoreAll cost ps = .ok rs) :
    rs.map Scored.pair = ps := by
  induction ps generalizing rs with
  | nil => rw [← Except.ok.inj h]; rfl
  | cons p ps ih =>
    rw [scoreAll] at h
    split at h
    · cases h
    · next r hr =>
      split at h
      · cases h
      · next rs' hrs =>
        rw [← Except.ok.inj h, List.map_cons, score_pair hr, ih hrs]

variable {σ : Type}

theorem greedyOrder_perm (R : Runtime σ) (seed : Option ℤ) (rs : List Scored) (s : σ) :
    (greedyOrder R seed rs s).1.Perm rs := by
  cases seed with
  | none => exact (sortedBy_perm _ _).trans (R.shuffle_perm s rs)
  | some seed => exact sortedBy_perm _ rs

variable {R : Runtime σ}

theorem mem_of_mem_greedySolvePairs {seed : Option ℤ} {pairs plan : List Pair} {s s' : σ}
    (h : greedySolvePairs R seed pairs cost s = (.ok plan, s')) (hp : p ∈ plan) : p ∈ pairs := by
  rw [greedySolvePairs] at h
  split at h
  · cases (Prod.mk.inj h).1
  · rw [← Except.ok.inj (Prod.mk.inj h).1] at hp
    exact absurd hp List.not_mem_nil
  · next rs _ hrs =>
    rw [← Except.ok.inj (Prod.mk.inj h).1, List.mem_map] at hp
    obtain ⟨r, hr, rfl⟩ := hp
    rw [← scoreAll_pair hrs]
    exact List.mem_map.mpr
      ⟨r, (greedyOrder_perm R seed rs s).mem_iff.mp (mem_of_mem_sweep _ _ hr), rfl⟩

theorem greedyNearest_sound (R : Runtime σ) (seed : Option ℤ) :
    (greedyNearest R seed).Sound where
  solve := by
    intro trucks orders pairAllowed cost s plan s' h p hp
    rw [greedyNearest] at h
    dsimp only at h
    split at h
    · rw [← Except.ok.inj (Prod.mk.inj h).1] at hp
      exact absurd hp List.not_mem_nil
    · exact mem_feasiblePairs.mp (mem_of_mem_greedySolvePairs h hp)
  solvePairs := by
    intro f pairs cost s plan s' hf h p hp
    rw [greedyNearest, Option.some_inj] at hf
    rw [← hf] at h
    exact mem_of_mem_greedySolvePairs h hp

theorem mem_randomMatch {trucks : List Truck} {pairAllowed : PairAllowed} {orders : List Order}
    {used : List (Option String)} {s : σ}
    (hp : p ∈ (randomMatch R trucks pairAllowed used orders s).1) :
    p.1 ∈ trucks ∧ p.2 ∈ orders ∧ pairAllowed p.1 p.2 = true := by
  induction orders generalizing used s with
  | nil => exact absurd hp List.not_mem_nil
  | cons o orders ih =>
    rw [randomMatch] at hp
    split at hp
    · obtain ⟨h1, h2, h3⟩ := ih hp
      exact ⟨h1, List.mem_cons_of_mem _ h2, h3⟩
    · next chosen rest s' hsh =>
      rcases List.mem_cons.mp hp with rfl | hp
      · have hmem : chosen ∈ (R.shuffle s (trucks.filter fun t ↦
            t.id ∉ used ∧ pairAllowed t o)).1 := by rw [hsh]; exact List.mem_cons_self
        obtain ⟨ht, ha⟩ := List.mem_filter.mp ((R.shuffle_perm s _).mem_iff.mp hmem)
        exact ⟨ht, List.mem_cons_self, (of_decide_eq_true ha).2⟩
      · obtain ⟨h1, h2, h3⟩ := ih hp
        exact ⟨h1, List.mem_cons_of_mem _ h2, h3⟩

theorem randomAssignment_sound (R : Runtime σ) : (randomAssignment R).Sound where
  solve := by
    intro trucks orders pairAllowed cost s plan s' h p hp
    rw [randomAssignment] at h
    rw [← Except.ok.inj (Prod.mk.inj h).1] at hp
    obtain ⟨h1, h2, h3⟩ := mem_randomMatch hp
    exact ⟨h1, (R.shuffle_perm s orders).mem_iff.mp h2, h3⟩
  solvePairs := by
    intro f pairs cost s plan s' hf
    cases hf

theorem Solver.Registered.sound {S : Solver σ} (h : S.Registered R) : S.Sound := by
  cases h with
  | greedyNearest seed => exact greedyNearest_sound R seed
  | randomAssignment => exact randomAssignment_sound R

/-! ## The greedy sweep takes something -/

/-- A cost that returns a number for every pair. -/
def Cost.Total (cost : Cost) : Prop := ∀ t o, ∃ c, floatCost cost t o = .ok c

theorem Cost.Total.scoreAll (hc : cost.Total) (ps : List Pair) :
    ∃ rs, scoreAll cost ps = .ok rs := by
  induction ps with
  | nil => exact ⟨[], rfl⟩
  | cons p ps ih =>
    obtain ⟨rs, hrs⟩ := ih
    obtain ⟨c, hpc⟩ := hc p.1 p.2
    rw [Assignment.scoreAll, score, hpc, hrs]
    exact ⟨_, rfl⟩

/-- **With a total cost a nonempty candidate list yields a nonempty plan.** -/
theorem greedySolvePairs_ne_nil (R : Runtime σ) (seed : Option ℤ) {pairs : List Pair}
    (hc : cost.Total) (s : σ) (hpairs : pairs ≠ []) :
    ∃ plan s', greedySolvePairs R seed pairs cost s = (.ok plan, s') ∧ plan ≠ [] := by
  obtain ⟨rs, hrs⟩ := hc.scoreAll pairs
  have hne : rs ≠ [] := by
    rintro rfl
    exact hpairs (scoreAll_pair hrs).symm
  obtain ⟨r, rest, rfl⟩ := List.exists_cons_of_ne_nil hne
  rw [greedySolvePairs, hrs]
  refine ⟨_, _, rfl, ?_⟩
  obtain ⟨c, hcm⟩ := (sweep_maximalMatching (fun r : Scored ↦ r.pair.1.id) (fun r ↦ r.pair.2.id)
    (greedyOrder R seed (r :: rest) s).1).nonempty
      ⟨r, (greedyOrder_perm R seed (r :: rest) s).mem_iff.mpr List.mem_cons_self⟩
  exact List.ne_nil_of_mem (List.mem_map.mpr ⟨c, hcm, rfl⟩)

end OpenRide.Assignment
