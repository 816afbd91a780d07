import Mathlib.Data.Rat.Floor
import OpenRide.Assignment.Runtime
import OpenRide.Lib.Dict
import OpenRide.Lib.Sorted

/-!
# Trucks, orders, and which trucks an order gets to see

A truck or an order is a document; what is kept of it here is what the planner itself reads — the
id, the haulier id (at the top level or in the profile) and the positions.  Feasibility and cost
are callables handed to the planner, so whatever else they read is theirs.

The spatial index buckets trucks into a uniform grid and answers a query by expanding square rings
around a cell until it has enough of them.  `mem_iterCandidatePairs` is all the planner needs to
know about it: a pair it yields is made of a truck and an order it was given, and the pair rule
accepted it.

The cell of a position is computed with floats and need not exist (`Grid.cellAt`); where it does not
candidate generation raises.  The functions here are those of a grid in which every position has a
cell, and nothing about the tick depends on which one.
-/

namespace OpenRide.Assignment

open Lib

/-! ## Documents -/

/-- A coordinate: a float, or an integer that is too large for one, at which `float` raises. -/
inductive Coordinate where
  | float (x : Double)
  | tooLarge
deriving DecidableEq

/-- A GeoJSON point. -/
structure Point where
  lon : Coordinate
  lat : Coordinate
deriving DecidableEq

/-- The `profile` of a truck. -/
structure TruckProfile where
  haulierId : Option String := none
  currentLoc : Option Point := none
  lastKnownLoc : Option Point := none
  initLoc : Option Point := none
  homeFacilityName : Option String := none
deriving DecidableEq

/-- A truck document. -/
structure Truck where
  id : Option String
  haulierId : Option String := none
  profile : TruckProfile := {}
deriving DecidableEq

/-- The `profile` of an order. -/
structure OrderProfile where
  haulierId : Option String := none
  pickupLoc : Option Point := none
deriving DecidableEq

/-- An order document. -/
structure Order where
  id : Option String
  haulierId : Option String := none
  pickupLoc : Option Point := none
  profile : OrderProfile := {}
deriving DecidableEq

/-- A feasibility rule on pairs. -/
abbrev PairAllowed := Truck → Order → Bool

/-- A cost on pairs: it may raise, and what it returns need not be a number. -/
abbrev Cost := Truck → Order → Except PyExc NumArg

/-- `float(cost(truck, order))`. -/
def floatCost (cost : Cost) (t : Truck) (o : Order) : Except PyExc Double :=
  (cost t o).bind NumArg.toFloat

/-- `str(entity.get("_id"))`. -/
def entityId (id : Option String) : String := id.getD "None"

/-- The id the planner knows a truck by. -/
abbrev Truck.entityId (t : Truck) : String := Assignment.entityId t.id

/-- The id the planner knows an order by. -/
abbrev Order.entityId (o : Order) : String := Assignment.entityId o.id

/-- The haulier id of a document: top level first, then the profile; an empty id is none. -/
def haulierOf (top prof : Option String) : Option String :=
  (top.or prof).filter (· ≠ "")

/-- The haulier of a truck. -/
def Truck.haulier (t : Truck) : Option String := haulierOf t.haulierId t.profile.haulierId

/-- The haulier of an order. -/
def Order.haulier (o : Order) : Option String := haulierOf o.haulierId o.profile.haulierId

theorem haulierOf_ne_empty {top prof : Option String} {h : String}
    (hh : haulierOf top prof = some h) : h ≠ "" := by
  simpa using (Option.filter_eq_some_iff.mp hh).2

/-- Best-effort truck position: current, last known, initial, else the centre of its home
facility.  `center` looks a facility up by name. -/
def truckAnchorLoc (center : String → Option Point) (t : Truck) : Option Point :=
  t.profile.currentLoc <|> t.profile.lastKnownLoc <|> t.profile.initLoc <|>
    (t.profile.homeFacilityName.filter (· ≠ "")).bind center

/-- The pickup position of an order. -/
def orderPickupLoc (o : Order) : Option Point := o.pickupLoc <|> o.profile.pickupLoc

/-! ## The grid -/

/-- A grid cell, `(lat index, lon index)`. -/
abbrev Cell := ℤ × ℤ

/-- `math.floor`. -/
def floorOf : Double → Except PyExc ℤ
  | .fin q => .ok ⌊q⌋
  | .nan => .error .valueError
  | _ => .error .other

/-- How positions are turned into cells: the size of a cell, and how a quotient is rounded. -/
structure Grid where
  rnd : ℚ → Double := .fin
  /-- `DEFAULT_CELL_DEG` is the float nearest to `0.02`. -/
  cellDeg : Double := .fin (5764607523034235 / 288230376151711744)

namespace Grid

variable (g : Grid)

/-- `x / cell_deg`. -/
def quotient (x : Double) : Except PyExc Double :=
  if g.cellDeg = .fin 0 then .error .other else .ok (x.div g.rnd g.cellDeg)

/-- `_cell_of`. -/
def cellOf (lon lat : Double) : Except PyExc Cell := do
  let row ← floorOf (← g.quotient lat)
  let column ← floorOf (← g.quotient lon)
  return (row, column)

/-- The cell of a point; its coordinates are made floats first. -/
def cellAt (p : Point) : Except PyExc Cell :=
  match p.lon, p.lat with
  | .float lon, .float lat => g.cellOf lon lat
  | _, _ => .error .other

/-- The cell of a point that has one. -/
def cell (p : Point) : Cell :=
  match g.cellAt p with
  | .ok c => c
  | .error _ => (0, 0)

end Grid

/-- The cells at Chebyshev distance exactly `r` from a centre. -/
def ring (center : Cell) (r : ℕ) : List Cell :=
  if r = 0 then [center] else
    ((List.range (2 * r + 1)).flatMap fun i ↦
      let dx := (i : ℤ) - r
      [(center.1 - r, center.2 + dx), (center.1 + r, center.2 + dx)]) ++
    ((List.range (2 * r - 1)).flatMap fun i ↦
      let dy := (i : ℤ) - r + 1
      [(center.1 + dy, center.2 - r), (center.1 + dy, center.2 + r)])

/-- Trucks bucketed by the cell of their anchor; the ones without a position are kept apart. -/
structure SpatialTruckIndex where
  grid : Dict Cell (List Truck) := Dict.empty
  unplaced : List Truck := []

/-- File a truck under a cell, or with the trucks without a position. -/
def SpatialTruckIndex.file (ix : SpatialTruckIndex) (t : Truck) : Option Cell → SpatialTruckIndex
  | none => { ix with unplaced := ix.unplaced ++ [t] }
  | some cell => { ix with grid := ix.grid.set cell ((ix.grid.get? cell).getD [] ++ [t]) }

/-- The cell of a truck, `none` for a truck without a position. -/
def anchorCell (center : String → Option Point) (g : Grid) (t : Truck) : Option Cell :=
  (truckAnchorLoc center t).map g.cell

/-- The index over a list of trucks. -/
def SpatialTruckIndex.build (center : String → Option Point) (g : Grid) (trucks : List Truck) :
    SpatialTruckIndex :=
  trucks.foldl (fun ix t ↦ ix.file t (anchorCell center g t)) {}

/-- Expand rings from `r` on, at most `n` of them, until `cap` trucks are gathered. -/
def SpatialTruckIndex.expand (ix : SpatialTruckIndex) (center : Cell) (cap : ℕ) :
    ℕ → ℕ → List Truck → List Truck
  | 0, _, out => out
  | n + 1, r, out =>
    if out.length < cap then
      expand ix center cap n (r + 1)
        (out ++ (ring center r).flatMap fun cell ↦ (ix.grid.get? cell).getD [])
    else out

/-- Up to `cap` trucks near a cell, nearest rings first, then the ones without a position. -/
def SpatialTruckIndex.nearby (ix : SpatialTruckIndex) (center : Cell) (cap maxRings : ℕ) :
    List Truck :=
  let out := ix.expand center cap (maxRings + 1) 0 []
  (if out.length < cap then out ++ ix.unplaced else out).take cap

/-- The knobs of candidate generation, with their defaults. -/
structure SpatialParams extends Grid where
  perOrder : ℕ := 40
  maxRings : ℕ := 8

/-- The trucks tried for one order. -/
def candidatesFor (sp : SpatialParams) (trucks : List Truck) (ix : SpatialTruckIndex) (o : Order) :
    List Truck :=
  match orderPickupLoc o with
  | none => trucks.take sp.perOrder
  | some pickup => ix.nearby (sp.cell pickup) sp.perOrder sp.maxRings

/-- The feasible pairs of each order with the trucks near its pickup. -/
def iterCandidatePairs (center : String → Option Point) (sp : SpatialParams) (trucks : List Truck)
    (orders : List Order) (pairAllowed : PairAllowed) : List (Truck × Order) :=
  if trucks.isEmpty || orders.isEmpty then [] else
    let ix := SpatialTruckIndex.build center sp.toGrid trucks
    orders.flatMap fun o ↦
      ((candidatesFor sp trucks ix o).filter (pairAllowed · o)).map (·, o)

/-! ## What a candidate is -/

/-- Every truck an index holds comes from `S`. -/
def SpatialTruckIndex.Over (S : Truck → Prop) (ix : SpatialTruckIndex) : Prop :=
  (∀ cell ts, ix.grid.get? cell = some ts → ∀ t ∈ ts, S t) ∧ ∀ t ∈ ix.unplaced, S t

variable {center : String → Option Point} {ix : SpatialTruckIndex}

variable {S : Truck → Prop}

theorem SpatialTruckIndex.Over.file (h : ix.Over S) {t : Truck} (ht : S t) (c : Option Cell) :
    (ix.file t c).Over S := by
  cases c with
  | none =>
    refine ⟨h.1, fun x hx ↦ ?_⟩
    rcases List.mem_append.mp hx with hx | hx
    · exact h.2 x hx
    · exact List.mem_singleton.mp hx ▸ ht
  | some own =>
    refine ⟨fun cell ts hc x hx ↦ ?_, h.2⟩
    rw [SpatialTruckIndex.file, Dict.get?_set] at hc
    split at hc
    · rw [← Option.some_inj.mp hc, List.mem_append, List.mem_singleton] at hx
      rcases hx with hx | rfl
      · cases hg : ix.grid.get? own with
        | none => rw [hg] at hx; simp at hx
        | some us => rw [hg] at hx; exact h.1 _ us hg x hx
      · exact ht
    · exact h.1 cell ts hc x hx

variable {trucks : List Truck}

theorem SpatialTruckIndex.build_over {g : Grid} :
    (SpatialTruckIndex.build center g trucks).Over (· ∈ trucks) := by
  have h : ∀ (l : List Truck) (ix : SpatialTruckIndex), ix.Over (· ∈ trucks) →
      (∀ t ∈ l, t ∈ trucks) →
      (l.foldl (fun ix t ↦ ix.file t (anchorCell center g t)) ix).Over (· ∈ trucks) := by
    intro l
    induction l with
    | nil => exact fun ix h _ ↦ h
    | cons t l ih =>
      intro ix h hl
      exact ih _ (h.file (hl t (by simp)) _) fun x hx ↦ hl x (List.mem_cons_of_mem _ hx)
  exact h trucks _ ⟨by simp, by simp⟩ fun _ ht ↦ ht

theorem SpatialTruckIndex.Over.expand (h : ix.Over S) (center : Cell) (cap n r : ℕ)
    (out : List Truck) (hout : ∀ t ∈ out, S t) : ∀ t ∈ ix.expand center cap n r out, S t := by
  induction n generalizing r out with
  | zero => exact hout
  | succ n ih =>
    rw [SpatialTruckIndex.expand]
    split
    · refine ih _ _ fun t ht ↦ ?_
      rcases List.mem_append.mp ht with ht | ht
      · exact hout t ht
      · obtain ⟨cell, -, ht⟩ := List.mem_flatMap.mp ht
        cases hg : ix.grid.get? cell with
        | none => rw [hg] at ht; simp at ht
        | some ts => rw [hg] at ht; exact h.1 cell ts hg t ht
    · exact hout

theorem SpatialTruckIndex.Over.nearby (h : ix.Over S) (c : Cell) (cap maxRings : ℕ) :
    ∀ t ∈ ix.nearby c cap maxRings, S t := by
  have hout := h.expand c cap (maxRings + 1) 0 [] (by simp)
  intro t ht
  have ht := List.mem_of_mem_take ht
  split at ht
  · rcases List.mem_append.mp ht with ht | ht
    · exact hout t ht
    · exact h.2 t ht
  · exact hout t ht

theorem mem_of_mem_candidatesFor {sp : SpatialParams} {o : Order} {t : Truck}
    (h : t ∈ candidatesFor sp trucks (SpatialTruckIndex.build center sp.toGrid trucks) o) :
    t ∈ trucks := by
  rw [candidatesFor] at h
  split at h
  · exact List.mem_of_mem_take h
  · exact SpatialTruckIndex.build_over.nearby _ _ _ t h

/-- **A candidate pair is a given truck and a given order that the pair rule accepts.** -/
theorem mem_iterCandidatePairs {sp : SpatialParams} {orders : List Order}
    {pairAllowed : PairAllowed} {p : Truck × Order}
    (h : p ∈ iterCandidatePairs center sp trucks orders pairAllowed) :
    p.1 ∈ trucks ∧ p.2 ∈ orders ∧ pairAllowed p.1 p.2 = true := by
  rw [iterCandidatePairs] at h
  split at h
  · simp at h
  · obtain ⟨o, ho, h⟩ := List.mem_flatMap.mp h
    obtain ⟨t, ht, rfl⟩ := List.mem_map.mp h
    obtain ⟨ht, hp⟩ := List.mem_filter.mp ht
    exact ⟨mem_of_mem_candidatesFor ht, ho, hp⟩

end OpenRide.Assignment
