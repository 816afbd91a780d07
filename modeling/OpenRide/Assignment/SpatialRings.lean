import Mathlib.Data.ENat.Basic
import OpenRide.Assignment.GridCells
import OpenRide.Lib.Buckets

/-!
# The nearest rings first

A query of the spatial index walks the rings around a cell and stops at a cap.  `ring` lists exactly
the cells at its Chebyshev distance (`mem_ring`), each once (`ring_nodup`), so the rings up to a
limit list every cell within it once, ring after ring.  What a query would list without a cap is
then the truck list by bucket, one bucket a cell and a last one for the trucks without a position,
and `Lib.listBy` says what such a listing holds and in what order.

`query` is a query as a caller makes it: a cap and a ring limit are integers, and a position need
not have a cell.  `query_nearest` is the contract: a query returns where all cells exist, nothing
more often than the truck list has it, no more than the cap, by ring, and nothing in reach left out
but for trucks that are at least as near.  The contract speaks of how often a truck is returned and
of a cap that is not negative; a truck list that holds a truck twice, or a negative cap, is why, and
a cell size of zero raises (`query_exceptions`).
-/

namespace OpenRide.Assignment

open Lib

/-! ## Rings -/

/-- The Chebyshev distance of two cells. -/
def chebyshev (a b : Cell) : ℕ := max (a.1 - b.1).natAbs (a.2 - b.2).natAbs

theorem ring_eq {c : Cell} {r : ℕ} (hr : r ≠ 0) : ring c r =
    ((List.range (2 * r + 1)).flatMap fun i : ℕ ↦
      [(c.1 - (r : ℤ), c.2 + ((i : ℤ) - r)), (c.1 + (r : ℤ), c.2 + ((i : ℤ) - r))]) ++
    ((List.range (2 * r - 1)).flatMap fun i : ℕ ↦
      [(c.1 + ((i : ℤ) - r + 1), c.2 - (r : ℤ)), (c.1 + ((i : ℤ) - r + 1), c.2 + (r : ℤ))]) := by
  have hcast (n : ℕ) (f : ℤ → List Cell) : (do let a ← List.range n; pure (a : ℤ)).flatMap f =
      (List.range n).flatMap fun i : ℕ ↦ f i := by
    simp only [List.bind_eq_flatMap, List.flatMap_assoc, List.pure_def, List.flatMap_singleton]
  rw [ring, if_neg hr, hcast, hcast]

/-- **A ring lists the cells at its distance**, corners and sides alike. -/
theorem mem_ring {c x : Cell} {r : ℕ} : x ∈ ring c r ↔ chebyshev c x = r := by
  obtain ⟨cy, cx⟩ := c
  obtain ⟨y, x⟩ := x
  rw [chebyshev]
  by_cases hr : r = 0
  · rw [ring, if_pos hr, List.mem_singleton, Prod.mk.injEq]
    omega
  · rw [ring_eq hr]
    simp only [List.mem_append, List.mem_flatMap, List.mem_range, List.mem_cons, List.not_mem_nil,
      or_false, Prod.mk.injEq]
    constructor
    · rintro (⟨i, hi, ⟨hy, hx⟩ | ⟨hy, hx⟩⟩ | ⟨i, hi, ⟨hy, hx⟩ | ⟨hy, hx⟩⟩) <;> omega
    · intro h
      by_cases hrow : (cy - y).natAbs = r
      · -- on one of the two rows, which have the corners
        refine Or.inl ⟨(x - cx + r).toNat, by omega, ?_⟩
        omega
      · refine Or.inr ⟨(y - cy + r - 1).toNat, by omega, ?_⟩
        omega

theorem nodup_pairs (n : ℕ) {f g : ℕ → Cell}
    (h : ∀ i j, (f i = f j → i = j) ∧ (g i = g j → i = j) ∧ f i ≠ g j) :
    ((List.range n).flatMap fun i ↦ [f i, g i]).Nodup := by
  refine List.nodup_flatMap.mpr ⟨fun i _ ↦ ?_, List.nodup_range.imp ?_⟩
  · exact List.nodup_cons.mpr
      ⟨fun hm ↦ (h i i).2.2 (List.mem_singleton.mp hm), List.nodup_singleton _⟩
  · intro i j hij x hi hj
    simp only [List.mem_cons, List.not_mem_nil, or_false] at hi hj
    rcases hi with rfl | rfl
    · rcases hj with hj | hj
      · exact hij ((h i j).1 hj)
      · exact (h i j).2.2 hj
    · rcases hj with hj | hj
      · exact (h j i).2.2 hj.symm
      · exact hij ((h i j).2.1 hj)

/-- **No cell is on a ring twice.** -/
theorem ring_nodup (c : Cell) (r : ℕ) : (ring c r).Nodup := by
  by_cases hr : r = 0
  · rw [ring, if_pos hr]
    exact List.nodup_singleton _
  · rw [ring_eq hr]
    refine List.nodup_append.mpr ⟨nodup_pairs _ fun i j ↦ ?_, nodup_pairs _ fun i j ↦ ?_, ?_⟩
    · simp only [Prod.mk.injEq, ne_eq]
      omega
    · simp only [Prod.mk.injEq, ne_eq]
      omega
    · -- a row is `r` away in latitude, a cell of a side is nearer
      intro x hx y hy
      simp only [List.mem_flatMap, List.mem_range, List.mem_cons, List.not_mem_nil, or_false,
        Prod.ext_iff] at hx hy
      rintro rfl
      omega

/-- The cells of the first `n` rings, ring after ring. -/
def ringCells (c : Cell) (n : ℕ) : List Cell := (List.range n).flatMap (ring c)

theorem mem_ringCells {c x : Cell} {n : ℕ} : x ∈ ringCells c n ↔ chebyshev c x < n := by
  simp only [ringCells, List.mem_flatMap, List.mem_range, mem_ring]
  constructor
  · rintro ⟨r, hr, rfl⟩
    exact hr
  · exact fun h ↦ ⟨_, h, rfl⟩

theorem ringCells_nodup (c : Cell) (n : ℕ) : (ringCells c n).Nodup := by
  refine List.nodup_flatMap.mpr ⟨fun r _ ↦ ring_nodup c r, List.nodup_range.imp fun {r r'} hne ↦ ?_⟩
  intro x hx hx'
  exact hne ((mem_ring.mp hx).symm.trans (mem_ring.mp hx'))

theorem ringCells_pairwise (c : Cell) (n : ℕ) :
    (ringCells c n).Pairwise fun x y ↦ chebyshev c x ≤ chebyshev c y := by
  refine List.pairwise_flatMap.mpr ⟨fun r _ ↦ ?_, List.pairwise_lt_range.imp fun {r r'} hlt ↦ ?_⟩
  · refine List.pairwise_of_forall_mem_list fun x hx y hy ↦ ?_
    rw [mem_ring.mp hx, mem_ring.mp hy]
  · intro x hx y hy
    rw [mem_ring.mp hx, mem_ring.mp hy]
    exact hlt.le

/-! ## A query -/

/-- `l[:stop]`. -/
def sliceTo {α : Type} (l : List α) (stop : ℤ) : List α :=
  if stop < 0 then l.take (l.length - stop.natAbs) else l.take stop.toNat

/-- The walk over the rings from `r` on, for a cap and a limit that are integers; `n` rings are left
up to the limit. -/
def SpatialTruckIndex.walk (ix : SpatialTruckIndex) (center : Cell) (cap maxRings : ℤ) :
    ℕ → ℕ → List Truck → List Truck
  | 0, _, out => out
  | n + 1, r, out =>
    if (r : ℤ) ≤ maxRings ∧ (out.length : ℤ) < cap then
      walk ix center cap maxRings n (r + 1)
        (out ++ (ring center r).flatMap fun cell ↦ (ix.grid.get? cell).getD [])
    else out

/-- An index over a list of trucks, asked once. -/
def query (center : String → Option Point) (g : Grid) (trucks : List Truck) (lon lat : Double)
    (cap maxRings : ℤ) : Except PyExc (List Truck) := do
  let ix ← buildIndex center g trucks {}
  let c ← g.cellOf lon lat
  let out := ix.walk c cap maxRings (maxRings + 1).toNat 0 []
  return sliceTo (if (out.length : ℤ) < cap then out ++ ix.unplaced else out) cap

theorem SpatialTruckIndex.walk_eq_expand (ix : SpatialTruckIndex) (c : Cell) {cap maxRings : ℤ}
    {n r : ℕ} (h : r + n = (maxRings + 1).toNat) (out : List Truck) :
    ix.walk c cap maxRings n r out = ix.expand c cap.toNat n r out := by
  induction n generalizing r out with
  | zero => rfl
  | succ n ih =>
    rw [walk, expand]
    by_cases hlt : out.length < cap.toNat
    · rw [if_pos hlt, if_pos (by omega)]
      exact ih (by omega) _
    · rw [if_neg hlt, if_neg (by omega)]

theorem SpatialTruckIndex.expand_zero (ix : SpatialTruckIndex) (c : Cell) (n r : ℕ) :
    ix.expand c 0 n r [] = [] := by
  cases n <;> rfl

section Query

variable {center : String → Option Point} {g : Grid} {trucks : List Truck} {c : Cell}
  {cap maxRings : ℤ}

/-- The buckets of a query: the cells of the rings, and the trucks without a position. -/
def queryKeys (c : Cell) (maxRings : ℤ) : List (Option Cell) :=
  (ringCells c (maxRings + 1).toNat).map some ++ [none]

/-- What a query would list without a cap: the truck list by bucket. -/
def found (center : String → Option Point) (g : Grid) (trucks : List Truck) (c : Cell)
    (maxRings : ℤ) : List Truck :=
  listBy (anchorCell center g) (queryKeys c maxRings) trucks

/-- **A query is the truck list by bucket, cut at the cap.** -/
theorem query_eq_ok {lon lat : Double} {out : List Truck} :
    query center g trucks lon lat cap maxRings = .ok out ↔ g.CoversAll center trucks ∧
      ∃ c, g.cellOf lon lat = .ok c ∧ out = (found center g trucks c maxRings).take cap.toNat := by
  have hf := @SpatialTruckIndex.build_files center g trucks
  have hwalk (c : Cell) : sliceTo (if ((((SpatialTruckIndex.build center g trucks).walk c cap
        maxRings (maxRings + 1).toNat 0 []).length : ℤ)) < cap then
          (SpatialTruckIndex.build center g trucks).walk c cap maxRings (maxRings + 1).toNat 0 [] ++
            (SpatialTruckIndex.build center g trucks).unplaced
        else (SpatialTruckIndex.build center g trucks).walk c cap maxRings (maxRings + 1).toNat 0
          []) cap = (found center g trucks c maxRings).take cap.toNat := by
    rw [SpatialTruckIndex.walk_eq_expand _ _ (Nat.zero_add _)]
    have hslice : ∀ l : List Truck, (cap < 0 → l = []) → sliceTo l cap = l.take cap.toNat := by
      intro l hl
      rw [sliceTo]
      split
      · next hneg => rw [hl hneg, List.take_nil, List.take_nil]
      · rfl
    rw [hslice]
    · have hlist : found center g trucks c maxRings =
          [] ++ (SpatialTruckIndex.build center g trucks).ringTrucks c (maxRings + 1).toNat 0 ++
            (SpatialTruckIndex.build center g trucks).unplaced := by
        rw [found, listBy, queryKeys, List.flatMap_append, List.flatMap_map, ringCells,
          List.flatMap_assoc, List.flatMap_singleton, List.nil_append, SpatialTruckIndex.ringTrucks,
          hf.unplaced, List.range_eq_range']
        simp only [hf.grid]
      rw [hlist, ← SpatialTruckIndex.expand_take]
      have hlt (l : List Truck) : ((l.length : ℤ) < cap) = (l.length < cap.toNat) := by
        rw [eq_iff_iff]
        omega
      simp only [hlt]
    · intro hneg
      have hzero : cap.toNat = 0 := by omega
      rw [hzero, SpatialTruckIndex.expand_zero, if_neg]
      omega
  rw [query, bind_eq_ok]
  constructor
  · rintro ⟨ix, hix, h⟩
    obtain ⟨htrucks, rfl⟩ := buildIndex_eq_ok.mp hix
    obtain ⟨c, hc, h⟩ := bind_eq_ok.mp h
    exact ⟨htrucks, c, hc, (Except.ok.inj h).symm.trans (hwalk c)⟩
  · rintro ⟨htrucks, c, hc, rfl⟩
    exact ⟨_, buildIndex_eq_ok.mpr ⟨htrucks, rfl⟩,
      bind_eq_ok.mpr ⟨c, hc, congrArg Except.ok (hwalk c)⟩⟩

/-! ## The contract -/

/-- The ring a truck is on, seen from a cell; the trucks without a position are beyond every
ring. -/
def ringOf (center : String → Option Point) (g : Grid) (c : Cell) (t : Truck) : ℕ∞ :=
  match anchorCell center g t with
  | none => ⊤
  | some own => (chebyshev c own : ℕ)

/-- A truck a query may return: on a ring within the limit, or without a position. -/
def Offered (center : String → Option Point) (g : Grid) (c : Cell) (maxRings : ℤ) (t : Truck) :
    Prop :=
  ringOf center g c t = ⊤ ∨
    ∃ r : ℕ, ringOf center g c t = r ∧ (r : ℤ) ≤ maxRings

/-- What a query promises of the trucks it returns. -/
structure NearestRings (center : String → Option Point) (g : Grid) (trucks : List Truck)
    (c : Cell) (cap maxRings : ℤ) (out : List Truck) : Prop where
  /-- No truck is returned more often than the list holds it. -/
  subperm : out.Subperm trucks
  length_le : (out.length : ℤ) ≤ max cap 0
  /-- Nearer rings come first, the trucks without a position last. -/
  byRing : out.Pairwise fun t u ↦ ringOf center g c t ≤ ringOf center g c u
  offered : ∀ t ∈ out, Offered center g c maxRings t
  /-- A truck is left out only for a full answer of trucks that are at least as near. -/
  complete : ∀ t, Offered center g c maxRings t → out.count t < trucks.count t →
    (out.length : ℤ) = max cap 0 ∧
      ∀ u ∈ out, ringOf center g c u ≤ ringOf center g c t
  /-- A truck without a position is returned only together with every truck in the rings. -/
  unplaced : ∀ u ∈ out, ringOf center g c u = ⊤ → ∀ (t : Truck) (r : ℕ),
    ringOf center g c t = r → (r : ℤ) ≤ maxRings → out.count t = trucks.count t

theorem queryKeys_nodup : (queryKeys c maxRings).Nodup := by
  refine List.nodup_append.mpr ⟨?_, List.nodup_singleton _, fun k hk l hl ↦ ?_⟩
  · exact (ringCells_nodup _ _).map (Option.some_injective _)
  · obtain ⟨c, -, rfl⟩ := List.mem_map.mp hk
    rw [List.mem_singleton.mp hl]
    exact Option.some_ne_none c

theorem mem_queryKeys {t : Truck} :
    anchorCell center g t ∈ queryKeys c maxRings ↔
      Offered center g c maxRings t := by
  rw [queryKeys, Offered, ringOf, List.mem_append, List.mem_singleton]
  cases hc : anchorCell center g t with
  | none => exact iff_of_true (Or.inr rfl) (Or.inl rfl)
  | some c =>
    simp only [List.mem_map, Option.some_inj, exists_eq_right, mem_ringCells,
      reduceCtorEq, or_false,
      ENat.natCast_ne_top, false_or, Nat.cast_inj, exists_eq_left']
    omega

/-- The rank of a bucket: its ring. -/
def keyRank (q : Cell) : Option Cell → ℕ∞
  | none => ⊤
  | some c => (chebyshev q c : ℕ)

theorem queryKeys_pairwise : (queryKeys c maxRings).Pairwise fun k l ↦
    keyRank c k ≤ keyRank c l := by
  refine List.pairwise_append.mpr ⟨?_, List.pairwise_singleton _ _, fun k _ l hl ↦ ?_⟩
  · exact List.pairwise_map.mpr ((ringCells_pairwise _ _).imp fun h ↦ Nat.cast_le.mpr h)
  · rw [List.mem_singleton.mp hl]
    exact le_top

theorem found_pairwise : (found center g trucks c maxRings).Pairwise fun t u ↦
    ringOf center g c t ≤ ringOf center g c u := by
  have hrank (t : Truck) : ringOf center g c t =
      keyRank c (anchorCell center g t) := rfl
  exact pairwise_listBy queryKeys_pairwise

theorem mem_found {t : Truck} : t ∈ found center g trucks c maxRings ↔
    t ∈ trucks ∧ Offered center g c maxRings t := by
  rw [found, mem_listBy, mem_queryKeys]

/-- Without a cap, nothing that may be returned is left out. -/
theorem count_found {t : Truck} (h : Offered center g c maxRings t) :
    (found center g trucks c maxRings).count t = trucks.count t := by
  rw [found, count_listBy queryKeys_nodup, if_pos (mem_queryKeys.mpr h)]

theorem nearestRings_take :
    NearestRings center g trucks c cap maxRings
      ((found center g trucks c maxRings).take cap.toNat) := by
  have hcap : ((cap.toNat : ℕ) : ℤ) = max cap 0 := by omega
  have hsub : ((found center g trucks c maxRings).take cap.toNat).Subperm trucks :=
    (List.take_sublist _ _).subperm.trans (listBy_subperm queryKeys_nodup trucks)
  have hcomplete (t : Truck) (ht : Offered center g c maxRings t)
      (hlt : ((found center g trucks c maxRings).take cap.toNat).count t < trucks.count t) :
      ((found center g trucks c maxRings).take cap.toNat).length = cap.toNat ∧
        ∀ u ∈ (found center g trucks c maxRings).take cap.toNat,
          ringOf center g c u ≤ ringOf center g c t :=
    of_count_take_lt found_pairwise (by rwa [count_found ht])
  refine ⟨hsub, ?_, found_pairwise.sublist (List.take_sublist _ _), ?_, ?_, ?_⟩
  · rw [← hcap, Nat.cast_le]
    exact List.length_take_le _ _
  · exact fun t ht ↦ (mem_found.mp (List.mem_of_mem_take ht)).2
  · intro t ht hlt
    obtain ⟨hlen, hnear⟩ := hcomplete t ht hlt
    exact ⟨by rw [hlen, hcap], hnear⟩
  · -- a truck of the rings that is left out would be no nearer than one without a position
    intro u hu htop t r ht hr
    by_contra hne
    have hlt := lt_of_le_of_ne (hsub.count_le t) hne
    have hle := (hcomplete t (Or.inr ⟨r, ht, hr⟩) hlt).2 u hu
    rw [htop, ht, top_le_iff] at hle
    exact ENat.natCast_ne_top r hle

/-- **The nearest rings come first.**  A query returns just when every truck with a position and the
point asked about have a cell, and what it returns meets the contract, whatever the truck list, the
point, the cap and the limit. -/
theorem query_nearest (center : String → Option Point) (g : Grid) (trucks : List Truck)
    (lon lat : Double) (cap maxRings : ℤ) :
    ((∃ out, query center g trucks lon lat cap maxRings = .ok out) ↔
      g.CoversAll center trucks ∧ ∃ c, g.cellOf lon lat = .ok c) ∧
    ∀ out, query center g trucks lon lat cap maxRings = .ok out →
      ∃ c, g.cellOf lon lat = .ok c ∧ NearestRings center g trucks c cap maxRings out := by
  refine ⟨⟨fun ⟨out, h⟩ ↦ ?_, fun ⟨htrucks, c, hc⟩ ↦ ?_⟩, fun out h ↦ ?_⟩
  · obtain ⟨htrucks, c, hc, -⟩ := query_eq_ok.mp h
    exact ⟨htrucks, c, hc⟩
  · exact ⟨_, query_eq_ok.mpr ⟨htrucks, c, hc, rfl⟩⟩
  · obtain ⟨-, c, hc, rfl⟩ := query_eq_ok.mp h
    exact ⟨c, hc, nearestRings_take⟩

end Query

/-- A truck at the origin. -/
def originTruck : Truck :=
  { id := some "t", profile := { currentLoc := some ⟨.float (.fin 0), .float (.fin 0)⟩ } }

/-- The grid whose cells are as wide as a degree. -/
def degreeGrid : Grid := { cellDeg := .fin 1 }

/-- The nearer of two trucks is returned first, and the one that is too far off is not. -/
theorem query_nearest_three : ∃ c, degreeGrid.cellOf (.fin 0) (.fin 0) = .ok c ∧
    NearestRings (fun _ ↦ none) degreeGrid
      [{ id := some "far", profile := { currentLoc := some ⟨.float (.fin 5), .float (.fin 0)⟩ } },
        { id := some "near", profile := { currentLoc := some ⟨.float (.fin 1), .float (.fin 0)⟩ } },
        originTruck] c 2 1
      [originTruck,
        { id := some "near",
          profile := { currentLoc := some ⟨.float (.fin 1), .float (.fin 0)⟩ } }] :=
  (query_nearest (fun _ ↦ none) degreeGrid _ (.fin 0) (.fin 0) 2 1).2 _ (by decide +kernel)

/-- A truck the list holds twice is returned twice, no answer is within a negative cap, and a cell
size of zero or a position without a finite quotient raises. -/
theorem query_exceptions :
    (∃ out, query (fun _ ↦ none) degreeGrid [originTruck, originTruck] (.fin 0) (.fin 0) 2 0 =
      .ok out ∧ ¬ out.Nodup) ∧
    (∃ out, query (fun _ ↦ none) degreeGrid [originTruck] (.fin 0) (.fin 0) (-1) 0 = .ok out ∧
      ¬ (out.length : ℤ) ≤ -1) ∧
    query (fun _ ↦ none) { cellDeg := .fin 0 } [originTruck] (.fin 0) (.fin 0) 1 0 =
      .error .other ∧
    query (fun _ ↦ none) degreeGrid [originTruck] (.fin 0) .posInf 1 0 = .error .other :=
  ⟨⟨[originTruck, originTruck], by decide +kernel, by decide +kernel⟩,
    ⟨[], by decide +kernel, by decide +kernel⟩, by decide +kernel, by decide +kernel⟩

end OpenRide.Assignment
