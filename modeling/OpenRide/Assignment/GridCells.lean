import Mathlib.Data.List.TakeWhile
import OpenRide.Assignment.SpatialReach
import OpenRide.Lib.Fallible

/-!
# Positions without a cell

The cell of a position is the floor of a quotient of floats.  It does not exist where the cell size
is zero, where a quotient is an infinity or a NaN, or where a coordinate is no float to begin with
(`Grid.covers_iff`); `_cell_of` raises there.  An index over a list of trucks is built only if each
of them has a cell or no position (`buildIndex_eq_ok`), and candidate generation, a generator, stops
at the first order whose pickup has none, with what it has yielded so far.

Where all cells exist this is the candidate generation of `Spatial` (`iterPairs_of_covered`).
-/

namespace OpenRide.Assignment

open Lib

/-! ## Cells that exist -/

/-- The point has a cell. -/
def Grid.Covers (g : Grid) (p : Point) : Prop := ∃ c, g.cellAt p = .ok c

/-- A place that is given has a cell. -/
def Grid.CoversAny (g : Grid) (loc : Option Point) : Prop := ∀ p, loc = some p → g.Covers p

/-- Every truck of the list has a cell, or no position. -/
def Grid.CoversAll (g : Grid) (center : String → Option Point) (trucks : List Truck) : Prop :=
  ∀ t ∈ trucks, g.CoversAny (truckAnchorLoc center t)

namespace Grid

variable {g : Grid} {p : Point}

theorem floorOf_eq_ok {x : Double} : (∃ n, floorOf x = .ok n) ↔ x.isFinite = true := by
  cases x <;> simp [floorOf, Double.isFinite]

theorem cellOf_eq_ok {lon lat : Double} : (∃ c, g.cellOf lon lat = .ok c) ↔
    g.cellDeg ≠ .fin 0 ∧ (lon.div g.rnd g.cellDeg).isFinite = true ∧
      (lat.div g.rnd g.cellDeg).isFinite = true := by
  rw [cellOf, quotient, quotient]
  by_cases hzero : g.cellDeg = .fin 0
  · rw [if_pos hzero, if_pos hzero]
    exact iff_of_false (fun ⟨_, h⟩ ↦ nomatch h) fun h ↦ h.1 hzero
  · rw [if_neg hzero, if_neg hzero, and_iff_right hzero, ← floorOf_eq_ok, ← floorOf_eq_ok]
    simp only [ok_bind]
    constructor
    · rintro ⟨c, h⟩
      obtain ⟨row, hrow, h⟩ := bind_eq_ok.mp h
      obtain ⟨column, hcolumn, -⟩ := bind_eq_ok.mp h
      exact ⟨⟨column, hcolumn⟩, row, hrow⟩
    · rintro ⟨⟨column, hcolumn⟩, row, hrow⟩
      exact ⟨(row, column), bind_eq_ok.mpr ⟨row, hrow, bind_eq_ok.mpr ⟨column, hcolumn, rfl⟩⟩⟩

/-- **Which points have a cell**: the cell size is not zero, the coordinates are floats, and their
quotients are finite. -/
theorem covers_iff : g.Covers p ↔ g.cellDeg ≠ .fin 0 ∧ ∃ lon lat, p.lon = .float lon ∧
    p.lat = .float lat ∧ (lon.div g.rnd g.cellDeg).isFinite = true ∧
      (lat.div g.rnd g.cellDeg).isFinite = true := by
  rw [Covers, cellAt]
  split
  · next lon lat hlon hlat =>
    rw [cellOf_eq_ok, hlon, hlat]
    constructor
    · exact fun ⟨hzero, h⟩ ↦ ⟨hzero, lon, lat, rfl, rfl, h⟩
    · rintro ⟨hzero, lon', lat', h, h', hfinite⟩
      cases h
      cases h'
      exact ⟨hzero, hfinite⟩
  · next hnot =>
    refine iff_of_false (fun ⟨_, h⟩ ↦ nomatch h) ?_
    rintro ⟨-, lon, lat, hlon, hlat, -⟩
    exact hnot lon lat hlon hlat

theorem Covers.cellAt (h : g.Covers p) : g.cellAt p = .ok (g.cell p) := by
  obtain ⟨c, hc⟩ := h
  rw [cell, hc]

theorem Covers.of_cellAt {c : Cell} (h : g.cellAt p = .ok c) : g.Covers p ∧ g.cell p = c :=
  ⟨⟨c, h⟩, by rw [cell, h]⟩

end Grid

/-! ## The index -/

/-- `SpatialTruckIndex(trucks)`, from an index over the trucks before. -/
def buildIndex (center : String → Option Point) (g : Grid) :
    List Truck → SpatialTruckIndex → Except PyExc SpatialTruckIndex
  | [], ix => .ok ix
  | t :: ts, ix =>
    match truckAnchorLoc center t with
    | none => buildIndex center g ts (ix.file t none)
    | some pt => do
      let cell ← g.cellAt pt
      buildIndex center g ts (ix.file t (some cell))

variable {center : String → Option Point} {g : Grid} {trucks : List Truck}

theorem buildIndex_from_eq_ok {ix ix' : SpatialTruckIndex} :
    buildIndex center g trucks ix = .ok ix' ↔ g.CoversAll center trucks ∧
      ix' = trucks.foldl (fun ix t ↦ ix.file t (anchorCell center g t)) ix := by
  induction trucks generalizing ix with
  | nil =>
    rw [buildIndex, Except.ok.injEq, eq_comm]
    exact (and_iff_right fun t ht ↦ absurd ht List.not_mem_nil).symm
  | cons t ts ih =>
    rw [Grid.CoversAll, List.forall_mem_cons, ← Grid.CoversAll, Grid.CoversAny, buildIndex,
      List.foldl_cons, anchorCell]
    cases hloc : truckAnchorLoc center t with
    | none =>
      rw [ih]
      exact and_congr_left' (by simp)
    | some pt =>
      simp only [Option.some_inj, forall_eq', Option.map_some]
      rw [bind_eq_ok]
      constructor
      · rintro ⟨cell, hcell, h⟩
        obtain ⟨hcovers, rfl⟩ := Grid.Covers.of_cellAt hcell
        obtain ⟨hrest, rfl⟩ := ih.mp h
        exact ⟨⟨hcovers, hrest⟩, rfl⟩
      · rintro ⟨⟨hcovers, hrest⟩, rfl⟩
        exact ⟨_, hcovers.cellAt, ih.mpr ⟨hrest, rfl⟩⟩

/-- **The index is built** just when every truck has a cell or no position. -/
theorem buildIndex_eq_ok {ix : SpatialTruckIndex} : buildIndex center g trucks {} = .ok ix ↔
    g.CoversAll center trucks ∧ ix = SpatialTruckIndex.build center g trucks :=
  buildIndex_from_eq_ok

/-! ## The generator -/

variable {sp : SpatialParams} {pairAllowed : PairAllowed} {orders : List Order}

/-- The trucks tried for one order. -/
def candidatesAt (sp : SpatialParams) (trucks : List Truck) (ix : SpatialTruckIndex) (o : Order) :
    Except PyExc (List Truck) :=
  match orderPickupLoc o with
  | none => .ok (trucks.take sp.perOrder)
  | some pickup => do
    let cell ← sp.cellAt pickup
    return ix.nearby cell sp.perOrder sp.maxRings

/-- The loop of `iter_candidate_pairs`: what it yields, and what it raises after that. -/
def yieldPairs (sp : SpatialParams) (trucks : List Truck) (ix : SpatialTruckIndex)
    (pairAllowed : PairAllowed) : List Order → List (Truck × Order) × Option PyExc
  | [] => ([], none)
  | o :: os =>
    match candidatesAt sp trucks ix o with
    | .error e => ([], some e)
    | .ok ts =>
      let r := yieldPairs sp trucks ix pairAllowed os
      ((ts.filter (pairAllowed · o)).map (·, o) ++ r.1, r.2)

/-- `iter_candidate_pairs`. -/
def iterPairs (center : String → Option Point) (sp : SpatialParams) (trucks : List Truck)
    (orders : List Order) (pairAllowed : PairAllowed) : List (Truck × Order) × Option PyExc :=
  if trucks.isEmpty || orders.isEmpty then ([], none) else
    match buildIndex center sp.toGrid trucks {} with
    | .error e => ([], some e)
    | .ok ix => yieldPairs sp trucks ix pairAllowed orders

theorem candidatesAt_eq_ok {ix : SpatialTruckIndex} {o : Order} {ts : List Truck} :
    candidatesAt sp trucks ix o = .ok ts ↔
      sp.CoversAny (orderPickupLoc o) ∧ ts = candidatesFor sp trucks ix o := by
  rw [candidatesAt, candidatesFor, Grid.CoversAny]
  cases orderPickupLoc o with
  | none => simp [eq_comm]
  | some pickup =>
    simp only [Option.some_inj, forall_eq']
    rw [bind_eq_ok]
    constructor
    · rintro ⟨cell, hcell, h⟩
      obtain ⟨hcovers, rfl⟩ := Grid.Covers.of_cellAt hcell
      exact ⟨hcovers, (Except.ok.inj h).symm⟩
    · rintro ⟨hcovers, rfl⟩
      exact ⟨_, hcovers.cellAt, rfl⟩

/-- The orders are gone through up to the first one whose pickup has no cell. -/
theorem yieldPairs_eq (ix : SpatialTruckIndex) [DecidablePred fun o : Order ↦
      sp.CoversAny (orderPickupLoc o)] :
    (yieldPairs sp trucks ix pairAllowed orders).1 =
        (orders.takeWhile fun o ↦ decide (sp.CoversAny (orderPickupLoc o))).flatMap (fun o ↦
          ((candidatesFor sp trucks ix o).filter (pairAllowed · o)).map (·, o)) ∧
      ((yieldPairs sp trucks ix pairAllowed orders).2 = none ↔
        ∀ o ∈ orders, sp.CoversAny (orderPickupLoc o)) := by
  induction orders with
  | nil => exact ⟨rfl, by simp [yieldPairs]⟩
  | cons o os ih =>
    rw [yieldPairs, List.takeWhile_cons, List.forall_mem_cons]
    split
    · next e he =>
      have hnot : ¬ sp.CoversAny (orderPickupLoc o) := fun h ↦ by
        cases he.symm.trans (candidatesAt_eq_ok.mpr ⟨h, rfl⟩)
      simp [hnot]
    · next ts hts =>
      obtain ⟨hcovers, rfl⟩ := candidatesAt_eq_ok.mp hts
      simp [hcovers, ih.1, ih.2]

/-- **Where all cells exist, candidate generation is what it would be without errors.** -/
theorem iterPairs_of_covered (htrucks : sp.CoversAll center trucks)
    (horders : ∀ o ∈ orders, sp.CoversAny (orderPickupLoc o)) :
    iterPairs center sp trucks orders pairAllowed =
      (iterCandidatePairs center sp trucks orders pairAllowed, none) := by
  classical
  rw [iterPairs, iterCandidatePairs]
  split
  · rfl
  · rw [buildIndex_eq_ok.mpr ⟨htrucks, rfl⟩]
    obtain ⟨hyield, hnone⟩ := @yieldPairs_eq trucks sp pairAllowed orders
      (SpatialTruckIndex.build center sp.toGrid trucks) _
    refine Prod.ext (hyield.trans ?_) (hnone.mpr horders)
    rw [List.takeWhile_eq_self_iff.mpr fun o ho ↦ decide_eq_true (horders o ho)]

/-- **When candidate generation raises**: where there are trucks and orders, and one of them has a
position without a cell. -/
theorem iterPairs_snd_eq_none : (iterPairs center sp trucks orders pairAllowed).2 = none ↔
    trucks = [] ∨ orders = [] ∨
      sp.CoversAll center trucks ∧ ∀ o ∈ orders, sp.CoversAny (orderPickupLoc o) := by
  classical
  rw [iterPairs]
  by_cases hempty : trucks.isEmpty || orders.isEmpty
  · rw [if_pos hempty]
    rw [Bool.or_eq_true, List.isEmpty_iff, List.isEmpty_iff] at hempty
    exact iff_of_true rfl (or_assoc.mp (Or.inl hempty))
  · rw [if_neg hempty]
    rw [Bool.or_eq_true, List.isEmpty_iff, List.isEmpty_iff, not_or] at hempty
    rw [or_iff_right hempty.1, or_iff_right hempty.2]
    split
    · next e he =>
      refine iff_of_false nofun fun h ↦ ?_
      cases he.symm.trans (buildIndex_eq_ok.mpr ⟨h.1, rfl⟩)
    · next ix hix =>
      obtain ⟨htrucks, rfl⟩ := buildIndex_eq_ok.mp hix
      rw [(yieldPairs_eq _).2, and_iff_right htrucks]

/-! ## All the pairs -/

/-- All that the generator yields; the caller that goes through it raises what it raises. -/
def allPairs (r : List (Truck × Order) × Option PyExc) : Except PyExc (List (Truck × Order)) :=
  match r.2 with
  | none => .ok r.1
  | some e => .error e

/-- The candidates of an order can be drawn from a fleet: there are no trucks to draw from, or the
trucks and the pickup have cells or no positions. -/
def Drawable (center : String → Option Point) (sp : SpatialParams) (fleet : List Truck)
    (o : Order) : Prop :=
  fleet = [] ∨ sp.CoversAll center fleet ∧ sp.CoversAny (orderPickupLoc o)

theorem drawable_perm {fleet fleet' : List Truck} (h : fleet.Perm fleet') {o : Order} :
    Drawable center sp fleet o ↔ Drawable center sp fleet' o := by
  have hall : sp.CoversAll center fleet ↔ sp.CoversAll center fleet' :=
    forall_congr' fun t ↦ imp_congr_left h.mem_iff
  have hnil : fleet = [] ↔ fleet' = [] :=
    ⟨fun hn ↦ (hn ▸ h).nil_eq.symm, fun hn ↦ (hn ▸ h).eq_nil⟩
  rw [Drawable, Drawable, hall, hnil]

/-- **All pairs are there** just when the candidates of every order can be drawn. -/
theorem allPairs_eq_ok {ps : List (Truck × Order)} :
    allPairs (iterPairs center sp trucks orders pairAllowed) = .ok ps ↔
      (∀ o ∈ orders, Drawable center sp trucks o) ∧
        ps = iterCandidatePairs center sp trucks orders pairAllowed := by
  have hdraw : (∀ o ∈ orders, Drawable center sp trucks o) ↔ trucks = [] ∨ orders = [] ∨
      sp.CoversAll center trucks ∧ ∀ o ∈ orders, sp.CoversAny (orderPickupLoc o) := by
    by_cases ht : trucks = []
    · exact iff_of_true (fun o _ ↦ Or.inl ht) (Or.inl ht)
    · cases orders with
      | nil => exact iff_of_true (fun o ho ↦ absurd ho List.not_mem_nil) (Or.inr (Or.inl rfl))
      | cons o os =>
        rw [or_iff_right ht, or_iff_right (List.cons_ne_nil o os)]
        constructor
        · exact fun h ↦ ⟨((h o List.mem_cons_self).resolve_left ht).1,
            fun o' ho' ↦ ((h o' ho').resolve_left ht).2⟩
        · exact fun h o' ho' ↦ Or.inr ⟨h.1, h.2 o' ho'⟩
  rw [hdraw, ← @iterPairs_snd_eq_none center trucks sp pairAllowed orders, allPairs]
  cases hr : (iterPairs center sp trucks orders pairAllowed).2 with
  | some e => exact iff_of_false nofun fun h ↦ nomatch h.1
  | none =>
    rw [Except.ok.injEq, and_iff_right rfl, eq_comm]
    refine Eq.congr_right ?_
    rcases iterPairs_snd_eq_none.mp hr with rfl | rfl | ⟨htrucks, horders⟩
    · rfl
    · rw [iterPairs, iterCandidatePairs, List.isEmpty_nil, Bool.or_true]
      rfl
    · rw [iterPairs_of_covered htrucks horders]

end OpenRide.Assignment
