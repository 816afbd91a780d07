import Mathlib.Data.List.Flatten
import Mathlib.Data.List.Forall2
import OpenRide.Assignment.Spatial

/-!
# The trucks in reach of an order

A query of the spatial index stops as soon as it has `per_order` trucks.  What it would list if it
never stopped is `reached`: the trucks of the cells around the pickup, ring after ring, then the
trucks without a position.  The query returns the first `per_order` of these
(`candidatesFor_eq_take`), so the whole of candidate generation is a statement about `reached`,
and `mem_reached` says which trucks it lists.

Where no more than `per_order` trucks are in reach, nothing is cut off, and the candidates of an
order are the trucks in reach that pass the pair rule, whatever the order of the fleet
(`mem_iterCandidatePairs_of_le`).
-/

namespace OpenRide.Assignment

open Lib

/-! ## The index over a list of trucks -/

namespace SpatialTruckIndex

variable {center : String → Option Point} {g : Grid}

/-- The index has filed exactly the trucks of a list, each cell in the order of the list. -/
structure Files (center : String → Option Point) (g : Grid) (trucks : List Truck)
    (ix : SpatialTruckIndex) : Prop where
  grid : ∀ c, (ix.grid.get? c).getD [] = trucks.filter fun t ↦ anchorCell center g t = some c
  unplaced : ix.unplaced = trucks.filter fun t ↦ anchorCell center g t = none

theorem Files.file {trucks : List Truck} {ix : SpatialTruckIndex} (h : ix.Files center g trucks)
    (t : Truck) : (ix.file t (anchorCell center g t)).Files center g (trucks ++ [t]) := by
  cases hc : anchorCell center g t with
  | none =>
    refine ⟨fun c ↦ ?_, ?_⟩
    · rw [List.filter_append, ← h.grid c]
      simp [hc, SpatialTruckIndex.file]
    · rw [List.filter_append, ← h.unplaced]
      simp [hc, SpatialTruckIndex.file]
  | some own =>
    refine ⟨fun c ↦ ?_, ?_⟩
    · refine (Dict.getD_append ix.grid own c t).trans ?_
      rw [List.filter_append, ← h.grid c]
      by_cases hx : c = own
      · simp [hc, hx]
      · simp [hc, hx, Ne.symm hx]
    · rw [List.filter_append, ← h.unplaced]
      simp [hc, SpatialTruckIndex.file]

/-- **What the index holds.** -/
theorem build_files (trucks : List Truck) : (build center g trucks).Files center g trucks := by
  suffices h : ∀ (l done : List Truck) (ix : SpatialTruckIndex), ix.Files center g done →
      (l.foldl (fun ix t ↦ ix.file t (anchorCell center g t)) ix).Files center g (done ++ l) by
    exact h trucks [] _ ⟨fun _ ↦ rfl, rfl⟩
  intro l
  induction l with
  | nil => exact fun done ix h ↦ (List.append_nil done).symm ▸ h
  | cons t l ih =>
    intro done ix h
    rw [List.foldl_cons, List.append_cons]
    exact ih _ _ (h.file t)

/-- The trucks of `n` rings from ring `r` on. -/
def ringTrucks (ix : SpatialTruckIndex) (c : Cell) (n r : ℕ) : List Truck :=
  (List.range' r n).flatMap fun k ↦ (ring c k).flatMap fun cell ↦ (ix.grid.get? cell).getD []

/-- Stopping at the cap, and topping up with the trucks without a position, is the same as listing
everything and cutting at the cap. -/
theorem expand_take (ix : SpatialTruckIndex) (c : Cell) (cap n r : ℕ) (out : List Truck) :
    (if (ix.expand c cap n r out).length < cap then ix.expand c cap n r out ++ ix.unplaced
      else ix.expand c cap n r out).take cap =
      (out ++ ix.ringTrucks c n r ++ ix.unplaced).take cap := by
  have hfull : ∀ l : List Truck, ¬ out.length < cap → out.take cap = (out ++ l).take cap :=
    fun l h ↦ (List.take_append_of_le_length (not_lt.mp h)).symm
  induction n generalizing r out with
  | zero =>
    rw [expand, ringTrucks, List.range'_zero, List.flatMap_nil, List.append_nil]
    split
    · rfl
    · next h => exact hfull _ h
  | succ n ih =>
    rw [expand]
    by_cases hlt : out.length < cap
    · rw [if_pos hlt, ih _ _ fun l h ↦ (List.take_append_of_le_length (not_lt.mp h)).symm]
      rw [ringTrucks, ringTrucks, List.range'_succ, List.flatMap_cons, List.append_assoc out]
    · rw [if_neg hlt, if_neg hlt, List.append_assoc]
      exact hfull _ hlt

end SpatialTruckIndex

/-! ## Everything in reach -/

/-- The trucks in reach of an order in the order a query meets them: ring after ring, cell after
cell, the trucks without a position last.  Every truck is in reach of an order without a pickup. -/
def reached (center : String → Option Point) (sp : SpatialParams) (trucks : List Truck)
    (o : Order) : List Truck :=
  match orderPickupLoc o with
  | none => trucks
  | some pickup =>
    ((List.range (sp.maxRings + 1)).flatMap fun r ↦
      (ring (sp.cell pickup) r).flatMap fun c ↦
        trucks.filter fun t ↦ anchorCell center sp.toGrid t = some c) ++
      trucks.filter fun t ↦ anchorCell center sp.toGrid t = none

/-- The truck is in one of the cells around the pickup of the order, or one of the two has no
position. -/
def inReach (center : String → Option Point) (sp : SpatialParams) : PairAllowed := fun t o ↦
  match orderPickupLoc o with
  | none => true
  | some pickup =>
    match anchorCell center sp.toGrid t with
    | none => true
    | some c => (List.range (sp.maxRings + 1)).any fun r ↦ c ∈ ring (sp.cell pickup) r

section Reached

variable {center : String → Option Point} {sp : SpatialParams} {trucks : List Truck} {o : Order}

/-- **A query returns the first trucks in reach**, as many as the cap lets through. -/
theorem candidatesFor_eq_take :
    candidatesFor sp trucks (SpatialTruckIndex.build center sp.toGrid trucks) o =
      (reached center sp trucks o).take sp.perOrder := by
  have hf := @SpatialTruckIndex.build_files center sp.toGrid trucks
  rw [candidatesFor, reached]
  cases orderPickupLoc o with
  | none => rfl
  | some pickup =>
    dsimp only
    rw [SpatialTruckIndex.nearby, SpatialTruckIndex.expand_take, List.nil_append,
      SpatialTruckIndex.ringTrucks, hf.unplaced, List.range_eq_range']
    simp only [hf.grid]

theorem mem_reached {t : Truck} :
    t ∈ reached center sp trucks o ↔ t ∈ trucks ∧ inReach center sp t o = true := by
  rw [reached, inReach]
  cases orderPickupLoc o with
  | none => simp
  | some pickup =>
    simp only [List.mem_append, List.mem_flatMap, List.mem_filter, decide_eq_true_eq]
    cases hc : anchorCell center sp.toGrid t with
    | none => simp
    | some c =>
      simp only [List.any_eq_true, decide_eq_true_eq]
      constructor
      · rintro (⟨r, hr, c', hc', ht, he⟩ | ⟨-, he⟩)
        · exact ⟨ht, r, hr, Option.some_inj.mp he ▸ hc'⟩
        · cases he
      · rintro ⟨ht, r, hr, hc'⟩
        exact Or.inl ⟨r, hr, c, hc', ht, rfl⟩

variable {trucks' : List Truck}

theorem reached_sublist (h : trucks.Sublist trucks') :
    (reached center sp trucks o).Sublist (reached center sp trucks' o) := by
  rw [reached, reached]
  cases orderPickupLoc o with
  | none => exact h
  | some pickup =>
    refine List.Sublist.append ?_ (h.filter _)
    exact List.Sublist.flatMap_right _ fun r _ ↦
      List.Sublist.flatMap_right _ fun c _ ↦ h.filter _

/-- The same trucks, bucket by bucket: the cells around the pickup, then the trucks without a
position. -/
def reachedBuckets (center : String → Option Point) (sp : SpatialParams) (trucks : List Truck)
    (o : Order) : List (List Truck) :=
  match orderPickupLoc o with
  | none => [trucks]
  | some pickup =>
    (((List.range (sp.maxRings + 1)).flatMap fun r ↦ ring (sp.cell pickup) r).map
      fun c ↦ trucks.filter fun t ↦ anchorCell center sp.toGrid t = some c) ++
      [trucks.filter fun t ↦ anchorCell center sp.toGrid t = none]

theorem flatten_reachedBuckets :
    (reachedBuckets center sp trucks o).flatten = reached center sp trucks o := by
  rw [reachedBuckets, reached]
  cases orderPickupLoc o with
  | none => exact List.append_nil trucks
  | some pickup =>
    rw [List.flatten_append, ← List.flatMap_def, List.flatMap_assoc, List.flatten_singleton]

/-- Relisting the fleet reorders the trucks inside the buckets only. -/
theorem reachedBuckets_perm (h : trucks.Perm trucks') :
    List.Forall₂ List.Perm (reachedBuckets center sp trucks o)
      (reachedBuckets center sp trucks' o) := by
  rw [reachedBuckets, reachedBuckets]
  cases orderPickupLoc o with
  | none => exact List.Forall₂.cons h List.Forall₂.nil
  | some pickup =>
    refine List.rel_append ?_ (List.Forall₂.cons (h.filter _) List.Forall₂.nil)
    rw [List.forall₂_map_left_iff, List.forall₂_map_right_iff, List.forall₂_same]
    exact fun c _ ↦ h.filter _

/-! ## Candidates -/

theorem iterCandidatePairs_eq (center : String → Option Point) (sp : SpatialParams)
    (trucks : List Truck) (orders : List Order) (pairAllowed : PairAllowed) :
    iterCandidatePairs center sp trucks orders pairAllowed = orders.flatMap fun o ↦
      (((reached center sp trucks o).take sp.perOrder).filter (pairAllowed · o)).map (·, o) := by
  rw [iterCandidatePairs]
  split
  · next h =>
    rw [Bool.or_eq_true, List.isEmpty_iff, List.isEmpty_iff] at h
    rcases h with rfl | rfl
    · refine (List.flatMap_eq_nil_iff.mpr fun o _ ↦ ?_).symm
      have hnil : reached center sp [] o = [] := by
        refine List.eq_nil_iff_forall_not_mem.mpr fun t ht ↦ ?_
        exact absurd (mem_reached.mp ht).1 List.not_mem_nil
      rw [hnil, List.take_nil, List.filter_nil, List.map_nil]
    · rfl
  · simp only [candidatesFor_eq_take]

theorem mem_iterCandidatePairs_iff {orders : List Order} {pairAllowed : PairAllowed}
    {p : Truck × Order} : p ∈ iterCandidatePairs center sp trucks orders pairAllowed ↔
      p.2 ∈ orders ∧ p.1 ∈ (reached center sp trucks p.2).take sp.perOrder ∧
        pairAllowed p.1 p.2 = true := by
  rw [iterCandidatePairs_eq, List.mem_flatMap]
  obtain ⟨t, o⟩ := p
  simp only [List.mem_map, List.mem_filter, Prod.mk.injEq]
  constructor
  · rintro ⟨o', ho, t', ⟨ht, ha⟩, rfl, rfl⟩
    exact ⟨ho, ht, ha⟩
  · rintro ⟨ho, ht, ha⟩
    exact ⟨o, ho, t, ⟨ht, ha⟩, rfl, rfl⟩

/-- **Where the cap cuts nothing off**, the candidates are the pairs in reach that the rule
allows. -/
theorem mem_iterCandidatePairs_of_le {orders : List Order} {pairAllowed : PairAllowed}
    {p : Truck × Order} (hcap : (reached center sp trucks p.2).length ≤ sp.perOrder) :
    p ∈ iterCandidatePairs center sp trucks orders pairAllowed ↔
      p.1 ∈ trucks ∧ p.2 ∈ orders ∧ inReach center sp p.1 p.2 = true ∧
        pairAllowed p.1 p.2 = true := by
  rw [mem_iterCandidatePairs_iff, List.take_of_length_le hcap, mem_reached]
  tauto

end Reached

end OpenRide.Assignment
