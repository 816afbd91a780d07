import OpenRide.Assignment.SpatialRings

/-!
# Orders that are crowded out of their candidates

Candidate generation cuts the trucks around a pickup at `per_order` and applies the pair rule to
what is left.  Trucks the rule forbids therefore use up the cut: an order gets a candidate just when
the cut reaches past the forbidden trucks in front of the first one the rule allows, and the
generator gets to the order at all (`exists_candidate_iff`).  Over a whole call, every order that
some allowed truck is near gets a candidate if and only if that is so of each of them
(`near_orders_get_candidates_iff`).
-/

namespace OpenRide.Assignment

open Lib

/-- The truck stands within `max_rings` of the cell of the pickup. -/
def WithinRings (center : String → Option Point) (sp : SpatialParams) (t : Truck) (o : Order) :
    Prop :=
  ∃ pickup cell place own, orderPickupLoc o = some pickup ∧ sp.cellAt pickup = .ok cell ∧
    truckAnchorLoc center t = some place ∧ sp.cellAt place = .ok own ∧
      chebyshev cell own ≤ sp.maxRings

/-- Some truck within the rings may serve the order. -/
def HasTruckNearby (center : String → Option Point) (sp : SpatialParams) (trucks : List Truck)
    (pairAllowed : PairAllowed) (o : Order) : Prop :=
  ∃ t ∈ trucks, pairAllowed t o = true ∧ WithinRings center sp t o

/-- How many trucks the rule forbids stand in front of the first one it allows, the fleet being
listed ring after ring around the pickup. -/
def crowd (center : String → Option Point) (sp : SpatialParams) (trucks : List Truck)
    (pairAllowed : PairAllowed) (o : Order) : ℕ :=
  ((reached center sp trucks o).takeWhile fun t ↦ !pairAllowed t o).length

/-- The generator gets to the order: all trucks can be filed, and the pickups of the orders before
it have cells. -/
def ComesTo (center : String → Option Point) (sp : SpatialParams) (trucks : List Truck)
    (orders : List Order) (o : Order) : Prop :=
  sp.CoversAll center trucks ∧
    ∀ before ∈ orders.takeWhile (· ≠ o), sp.CoversAny (orderPickupLoc before)

variable {center : String → Option Point} {sp : SpatialParams} {trucks : List Truck}
  {orders : List Order} {pairAllowed : PairAllowed} {o : Order}

/-- A truck within the rings is in reach. -/
theorem WithinRings.mem_reached {t : Truck} (h : WithinRings center sp t o) (ht : t ∈ trucks) :
    t ∈ reached center sp trucks o := by
  obtain ⟨pickup, cell, place, own, hp, hcell, hplace, hown, hd⟩ := h
  obtain ⟨-, rfl⟩ := Grid.Covers.of_cellAt hcell
  obtain ⟨-, rfl⟩ := Grid.Covers.of_cellAt hown
  have hc : anchorCell center sp.toGrid t = some (sp.cell place) := by rw [anchorCell, hplace]; rfl
  refine Assignment.mem_reached.mpr ⟨ht, ?_⟩
  simp only [inReach, hp, hc, List.any_eq_true, List.mem_range, decide_eq_true_eq]
  exact ⟨_, by omega, mem_ring.mpr rfl⟩

theorem WithinRings.coversAny {t : Truck} (h : WithinRings center sp t o) :
    sp.CoversAny (orderPickupLoc o) := by
  obtain ⟨pickup, cell, -, -, hp, hcell, -⟩ := h
  intro p hp'
  obtain rfl := Option.some.inj (hp.symm.trans hp')
  exact ⟨cell, hcell⟩

/-- An element is reached by a walk that stops at the first failure just when nothing before it
fails. -/
theorem mem_takeWhile_iff_forall {α : Type} [DecidableEq α] {p : α → Bool} {a : α} {l : List α}
    (ha : a ∈ l) (hp : p a = true) :
    a ∈ l.takeWhile p ↔ ∀ b ∈ l.takeWhile (· ≠ a), p b = true := by
  induction l with
  | nil => exact absurd ha List.not_mem_nil
  | cons x l ih =>
    by_cases hx : x = a
    · simp [hx, hp]
    · have hmem : a ∈ l := (List.mem_cons.mp ha).resolve_left (Ne.symm hx)
      cases hpx : p x with
      | false => simp [hx, hpx]
      | true => simpa [hx, hpx, Ne.symm hx] using ih hmem

/-- **An order gets a candidate when the generator comes to it and the cut reaches past the
crowd.** -/
theorem exists_candidate_iff (ho : o ∈ orders)
    (hnear : HasTruckNearby center sp trucks pairAllowed o) :
    (∃ t, (t, o) ∈ (iterPairs center sp trucks orders pairAllowed).1) ↔
      ComesTo center sp trucks orders o ∧
        crowd center sp trucks pairAllowed o < sp.perOrder := by
  classical
  obtain ⟨t, ht, hallowed, hrings⟩ := hnear
  have hempty : ¬ (trucks.isEmpty || orders.isEmpty) = true := by
    rw [Bool.or_eq_true, List.isEmpty_iff, List.isEmpty_iff, not_or]
    exact ⟨List.ne_nil_of_mem ht, List.ne_nil_of_mem ho⟩
  rw [iterPairs, if_neg hempty, ComesTo, crowd,
    ← exists_mem_take_iff ⟨t, hrings.mem_reached ht, hallowed⟩]
  split
  · next e he =>
    refine iff_of_false (not_exists.mpr fun _ ↦ List.not_mem_nil) fun h ↦ ?_
    cases he.symm.trans (buildIndex_eq_ok.mpr ⟨h.1.1, rfl⟩)
  · next ix hix =>
    obtain ⟨htrucks, rfl⟩ := buildIndex_eq_ok.mp hix
    rw [(yieldPairs_eq _).1]
    simp only [List.mem_flatMap, List.mem_map, List.mem_filter, Prod.mk.injEq,
      candidatesFor_eq_take]
    have hreach := mem_takeWhile_iff_forall
      (p := fun o ↦ decide (sp.CoversAny (orderPickupLoc o))) ho (decide_eq_true hrings.coversAny)
    simp only [decide_eq_true_eq] at hreach
    rw [and_iff_right htrucks, ← hreach]
    constructor
    · rintro ⟨t', o', ho', t'', ⟨hmem, ha⟩, rfl, rfl⟩
      exact ⟨ho', t'', hmem, ha⟩
    · rintro ⟨ho', t', hmem, ha⟩
      exact ⟨t', o, ho', t', ⟨hmem, ha⟩, rfl, rfl⟩

/-- **Every order with a truck nearby gets a candidate** exactly where the generator comes to each
of them and no crowd of forbidden trucks fills the cut. -/
theorem near_orders_get_candidates_iff (center : String → Option Point) (sp : SpatialParams)
    (trucks : List Truck) (orders : List Order) (pairAllowed : PairAllowed) :
    (∀ o ∈ orders, HasTruckNearby center sp trucks pairAllowed o →
      ∃ t, (t, o) ∈ (iterPairs center sp trucks orders pairAllowed).1) ↔
    ∀ o ∈ orders, HasTruckNearby center sp trucks pairAllowed o →
      ComesTo center sp trucks orders o ∧ crowd center sp trucks pairAllowed o < sp.perOrder :=
  forall₂_congr fun _ ho ↦ forall_congr' fun hnear ↦ exists_candidate_iff ho hnear

/-! ## A crowd of one -/

/-- One candidate for each order, from its own cell. -/
def ownCellOnly : SpatialParams := { cellDeg := .fin 1, perOrder := 1, maxRings := 0 }

/-- An order at the origin. -/
def originOrder : Order :=
  { id := some "o", pickupLoc := some ⟨.float (.fin 0), .float (.fin 0)⟩ }

/-- Two trucks at the pickup, of which the rule forbids the first: the order gets no candidate. -/
theorem crowded_out : ∃ o ∈ [originOrder], HasTruckNearby (fun _ ↦ none) ownCellOnly
      [originTruck, { originTruck with id := some "u" }] (fun t _ ↦ t.id = some "u") o ∧
    ∀ t, (t, o) ∉ (iterPairs (fun _ ↦ none) ownCellOnly
      [originTruck, { originTruck with id := some "u" }] [originOrder]
      (fun t _ ↦ t.id = some "u")).1 := by
  have hnone : (iterPairs (fun _ ↦ none) ownCellOnly
      [originTruck, { originTruck with id := some "u" }] [originOrder]
      (fun t _ ↦ t.id = some "u")).1 = [] := by decide +kernel
  refine ⟨originOrder, by simp, ⟨{ originTruck with id := some "u" }, by simp, by decide,
    ⟨.float (.fin 0), .float (.fin 0)⟩, (0, 0), ⟨.float (.fin 0), .float (.fin 0)⟩, (0, 0), rfl,
    by decide +kernel, rfl, by decide +kernel, by decide +kernel⟩, ?_⟩
  simp [hnone]

end OpenRide.Assignment
