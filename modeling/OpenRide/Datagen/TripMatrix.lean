import Mathlib.Algebra.BigOperators.Group.List.Basic
import Mathlib.Algebra.Field.Rat
import Mathlib.Algebra.Order.Field.Basic
import Mathlib.Algebra.Order.Ring.Rat
import OpenRide.Datagen.Values
import OpenRide.Lib.Sorted

/-!
# Trip matrices

A trip matrix says how often a container goes from one kind of location to another.  An author
writes weights, keyed by any spelling of the location codes; `parseTripMatrix` reads them into a
grid over the codes that occur, without a diagonal and with sum one, and `restrictTripMatrix` keeps
the codes that have addresses and scales the grid to sum one again.

The result is written back as weights when a scenario is saved.  Reading those gives the same grid
(`fromWeights_gridRaw`): the codes are their own keys and in order, no weight is negative, and the
two sums to divide by are both one.
-/

namespace OpenRide.Datagen

open Lib

/-- A grid of weights: for each code its row, for each code in the row a weight. -/
abbrev Grid := List (String × List (String × ℚ))

/-- The sum of all weights. -/
def gridTotal (g : Grid) : ℚ := (g.map fun row ↦ (row.2.map Prod.snd).sum).sum

/-- Every weight divided by `total`. -/
def scaleGrid (total : ℚ) (g : Grid) : Grid :=
  g.map fun row ↦ (row.1, row.2.map fun cell ↦ (cell.1, cell.2 / total))

/-- A grid as the dictionary that is persisted. -/
def gridRaw (g : Grid) : Raw :=
  .dict (g.map fun row ↦ (row.1, .dict (row.2.map fun cell ↦ (cell.1, .num cell.2))))

/-- `DEFAULT_TRIP_MATRIX`. -/
def defaultTripMatrix : Raw :=
  .dict [("CT", .dict [("CT", .int 0), ("CU", .int 15), ("MT", .int 4)]),
    ("CU", .dict [("CT", .int 11), ("CU", .int 0), ("MT", .int 14)]),
    ("MT", .dict [("CT", .int 3), ("CU", .int 14), ("MT", .int 0)])]

section

variable (H : PyHost)

/-! ## Reading weights -/

/-- `_codes_in`. -/
def codesIn (raw : Raw) : List String :=
  (SortedSet.ofList ((raw.asDict.flatMap fun row ↦
    codeKey H row.1 :: row.2.asDict.map fun cell ↦ codeKey H cell.1).filter (· ≠ ""))).toList

/-- The weight an authored cell sets, if it sets any. -/
def readCell (codes : List String) (p : String) (cell : String × Raw) :
    Except PyError (List ((String × String) × ℚ)) :=
  let d := codeKey H cell.1
  -- the diagonal is forced to zero
  if d ∉ codes ∨ p = d then .ok [] else do
    match ← caught (pyFloat H cell.2) with
    | none => return []
    | some weight => return [((p, d), ← atLeastZero weight)]

/-- The weights the cells of an authored row set, one after the other. -/
def readRow (codes : List String) (row : String × Raw) :
    Except PyError (List ((String × String) × ℚ)) :=
  if codeKey H row.1 ∉ codes then .ok [] else do
    let cells ← each (readCell H codes (codeKey H row.1)) row.2.asDict
    return cells.flatten

/-- The grid of a list of weights; a later weight of a cell replaces an earlier one. -/
def gridOf (codes : List String) (weights : List ((String × String) × ℚ)) : Grid :=
  codes.map fun p ↦ (p, codes.map fun d ↦ (d, ((Dict.ofList weights).get? (p, d)).getD 0))

/-- `parse_trip_matrix`. -/
def parseTripMatrix (raw : Raw) : Except PyError Grid := do
  let codes := codesIn H raw
  let rows ← each (readRow H codes) raw.asDict
  let grid := gridOf codes rows.flatten
  if gridTotal grid ≤ 0 then
    let got := H.repr raw
    throw (.valueError ("A pickup->delivery trip matrix must be provided with at least one " ++
      s!"positive off-diagonal weight; got: {got}"))
  else return scaleGrid (gridTotal grid) grid

/-- The rows and columns of allowed codes, without the diagonal. -/
def allowedPart (allowed : List String) (g : Grid) : Grid :=
  (g.filter fun row ↦ row.1 ∈ allowed).map fun row ↦
    (row.1, row.2.filter fun cell ↦ cell.1 ∈ allowed ∧ cell.1 ≠ row.1)

/-- `restrict_trip_matrix`. -/
def restrictTripMatrix (g : Grid) (allowedCodes : List String) : Except PyError Grid :=
  let allowed := allowedCodes.map (codeKey H)
  let grid := allowedPart allowed g
  if gridTotal grid ≤ 0 then
    let shown := H.repr (.list ((SortedSet.ofList allowed).toList.map .str))
    .error (.valueError s!"No trip-matrix weight remains after restricting to codes {shown}")
  else .ok (scaleGrid (gridTotal grid) grid)

/-- `ProbabilityMatrix.from_weights(raw).restrict(codes).as_grid()`. -/
def fromWeights (raw : Raw) (codes : List String) : Except PyError Grid := do
  let g ← parseTripMatrix H raw
  restrictTripMatrix H g codes

end

/-! ## Grids with sum one -/

@[simp] theorem gridTotal_scaleGrid (total : ℚ) (g : Grid) :
    gridTotal (scaleGrid total g) = gridTotal g / total := by
  have hrow : ∀ cells : List (String × ℚ),
      ((cells.map fun cell ↦ (cell.1, cell.2 / total)).map Prod.snd).sum =
        (cells.map Prod.snd).sum / total := by
    intro cells
    induction cells with
    | nil => exact (zero_div total).symm
    | cons c cells ih => simp only [List.map_cons, List.sum_cons, ih, add_div]
  induction g with
  | nil => exact (zero_div total).symm
  | cons row g ih =>
    rw [scaleGrid, List.map_cons, ← scaleGrid, gridTotal, List.map_cons, List.sum_cons, ← gridTotal,
      ih, hrow, gridTotal, gridTotal, List.map_cons, List.sum_cons, add_div]

@[simp] theorem scaleGrid_one (g : Grid) : scaleGrid 1 g = g := by
  simp [scaleGrid]

/-- A grid over codes, without the diagonal. -/
def offDiagonal (codes : List String) (weight : String → String → ℚ) : Grid :=
  codes.map fun p ↦ (p, (codes.filter (· ≠ p)).map fun d ↦ (d, weight p d))

/-- What a compiled trip matrix is: weights that are not negative and have sum one, over codes in
order, each its own key and allowed, without the diagonal. -/
structure IsTripMatrix (H : PyHost) (allowed : List String) (codes : List String)
    (weight : String → String → ℚ) : Prop where
  sorted : codes.Pairwise (· < ·)
  key : ∀ c ∈ codes, codeKey H c = c
  ne_empty : ∀ c ∈ codes, c ≠ ""
  allowed : ∀ c ∈ codes, c ∈ allowed.map (codeKey H)
  nonneg : ∀ p ∈ codes, ∀ d ∈ codes, 0 ≤ weight p d
  total : gridTotal (offDiagonal codes weight) = 1

/-! ### What reading weights returns -/

/-- A grid over codes, the diagonal included. -/
def fullGrid (codes : List String) (weight : String → String → ℚ) : Grid :=
  codes.map fun p ↦ (p, codes.map fun d ↦ (d, weight p d))

theorem scaleGrid_fullGrid (total : ℚ) (codes : List String) (weight : String → String → ℚ) :
    scaleGrid total (fullGrid codes weight) = fullGrid codes fun p d ↦ weight p d / total := by
  simp [scaleGrid, fullGrid, Function.comp_def]

theorem scaleGrid_offDiagonal (total : ℚ) (codes : List String) (weight : String → String → ℚ) :
    scaleGrid total (offDiagonal codes weight) =
      offDiagonal codes fun p d ↦ weight p d / total := by
  simp [scaleGrid, offDiagonal, Function.comp_def]

/-- The allowed part of a grid is the grid over the allowed codes. -/
theorem allowedPart_fullGrid (allowed codes : List String) (weight : String → String → ℚ) :
    allowedPart allowed (fullGrid codes weight) =
      offDiagonal (codes.filter (· ∈ allowed)) weight := by
  have hrow : ∀ p, (codes.map fun d ↦ (d, weight p d)).filter
      (fun cell ↦ cell.1 ∈ allowed ∧ cell.1 ≠ p) =
      ((codes.filter (· ∈ allowed)).filter (· ≠ p)).map fun d ↦ (d, weight p d) := by
    intro p
    rw [List.filter_map, List.filter_filter]
    congr 1
    refine List.filter_congr fun d _ ↦ ?_
    simp [and_comm]
  rw [allowedPart, fullGrid, List.filter_map, List.map_map, offDiagonal]
  exact List.map_congr_left fun p _ ↦ congrArg (p, ·) (hrow p)

section

variable (H : PyHost)

theorem mem_codesIn {raw : Raw} {c : String} (h : c ∈ codesIn H raw) :
    codeKey H c = c ∧ c ≠ "" := by
  rw [codesIn, ← SortedSet.mem_def, SortedSet.mem_ofList, List.mem_filter, List.mem_flatMap,
    decide_eq_true_eq] at h
  obtain ⟨⟨row, -, hc⟩, hne⟩ := h
  refine ⟨?_, hne⟩
  rcases List.mem_cons.mp hc with rfl | hc
  · exact codeKey_codeKey H _
  · obtain ⟨cell, -, rfl⟩ := List.mem_map.mp hc
    exact codeKey_codeKey H _

theorem readRow_nonneg {codes : List String} {row : String × Raw}
    {weights : List ((String × String) × ℚ)} (h : readRow H codes row = .ok weights) :
    ∀ w ∈ weights, 0 ≤ w.2 := by
  rw [readRow] at h
  split at h
  · cases h
    exact nofun
  · obtain ⟨cells, hcells, h⟩ := bind_eq_ok.mp h
    cases h
    intro w hw
    obtain ⟨ws, hws, hw⟩ := List.mem_flatten.mp hw
    obtain ⟨cell, -, hcell⟩ := mem_of_each hcells hws
    rw [readCell] at hcell
    split at hcell
    · cases hcell
      exact absurd hw List.not_mem_nil
    · obtain ⟨read, -, hcell⟩ := bind_eq_ok.mp hcell
      split at hcell
      · cases hcell
        exact absurd hw List.not_mem_nil
      · obtain ⟨weight, hweight, hcell⟩ := bind_eq_ok.mp hcell
        cases hcell
        rw [List.mem_singleton.mp hw]
        exact nonneg_of_atLeastZero hweight

/-- **What reading weights returns is a trip matrix.** -/
theorem fromWeights_isTripMatrix {raw : Raw} {allowed : List String} {g : Grid}
    (h : fromWeights H raw allowed = .ok g) :
    ∃ codes weight, IsTripMatrix H allowed codes weight ∧ g = offDiagonal codes weight := by
  obtain ⟨parsed, hparse, hrestrict⟩ := bind_eq_ok.mp h
  obtain ⟨rows, hrows, hparse⟩ := bind_eq_ok.mp hparse
  dsimp only at hparse
  split at hparse
  · cases hparse
  · next hpos =>
    cases hparse
    have hweights : ∀ w ∈ rows.flatten, 0 ≤ w.2 := by
      intro w hw
      obtain ⟨ws, hws, hw⟩ := List.mem_flatten.mp hw
      obtain ⟨row, -, hrow⟩ := mem_of_each hrows hws
      exact readRow_nonneg H hrow w hw
    have hgrid : gridOf (codesIn H raw) rows.flatten = fullGrid (codesIn H raw) fun p d ↦
      ((Dict.ofList rows.flatten).get? (p, d)).getD 0 := rfl
    have hcell : ∀ p d, 0 ≤ ((Dict.ofList rows.flatten).get? (p, d)).getD 0 := by
      intro p d
      cases hget : (Dict.ofList rows.flatten).get? (p, d) with
      | none => exact le_refl 0
      | some q => exact hweights _ (Dict.mem_of_get?_ofList hget)
    generalize gridTotal (gridOf (codesIn H raw) rows.flatten) = total at hpos hrestrict
    rw [hgrid, scaleGrid_fullGrid, restrictTripMatrix, allowedPart_fullGrid] at hrestrict
    split at hrestrict
    · cases hrestrict
    · next hpos' =>
      cases hrestrict
      rw [scaleGrid_offDiagonal]
      refine ⟨_, _, ⟨?_, ?_, ?_, ?_, ?_, ?_⟩, rfl⟩
      · exact (SortedSet.sorted _).filter _
      · exact fun c hc ↦ (mem_codesIn H (List.mem_filter.mp hc).1).1
      · exact fun c hc ↦ (mem_codesIn H (List.mem_filter.mp hc).1).2
      · exact fun c hc ↦ of_decide_eq_true (List.mem_filter.mp hc).2
      · intro p _ d _
        exact div_nonneg (div_nonneg (hcell p d) (le_of_not_ge hpos)) (le_of_not_ge hpos')
      · rw [← scaleGrid_offDiagonal, gridTotal_scaleGrid]
        exact div_self (ne_of_gt (not_le.mp hpos'))

/-! ## Reading a trip matrix back -/

/-- The weights a persisted row sets. -/
def rowWeights (codes : List String) (weight : String → String → ℚ) (p : String) :
    List ((String × String) × ℚ) :=
  (codes.filter (· ≠ p)).map fun d ↦ ((p, d), weight p d)

/-- A persisted row. -/
def rowRaw (codes : List String) (weight : String → String → ℚ) (p : String) : String × Raw :=
  (p, .dict ((codes.filter (· ≠ p)).map fun d ↦ (d, .num (weight p d))))

theorem asDict_gridRaw (codes : List String) (weight : String → String → ℚ) :
    (gridRaw (offDiagonal codes weight)).asDict = codes.map (rowRaw codes weight) := by
  simp only [gridRaw, Raw.asDict, offDiagonal, List.map_map]
  refine List.map_congr_left fun p _ ↦ ?_
  simp only [Function.comp_apply, List.map_map, rowRaw]
  rfl

theorem asDict_rowRaw (codes : List String) (weight : String → String → ℚ) (p : String) :
    (rowRaw codes weight p).2.asDict =
      (codes.filter (· ≠ p)).map fun d ↦ (d, .num (weight p d)) := rfl

variable {H} {codes allowed : List String} {weight : String → String → ℚ}

theorem IsTripMatrix.codesIn_eq (h : IsTripMatrix H allowed codes weight) :
    codesIn H (gridRaw (offDiagonal codes weight)) = codes := by
  have hset : SortedSet.ofList (((gridRaw (offDiagonal codes weight)).asDict.flatMap fun row ↦
      codeKey H row.1 :: row.2.asDict.map fun cell ↦ codeKey H cell.1).filter (· ≠ "")) =
      (⟨codes, h.sorted⟩ : SortedSet String) := by
    refine SortedSet.ext fun c ↦ ?_
    rw [SortedSet.mem_ofList, List.mem_filter, asDict_gridRaw, List.mem_flatMap, decide_eq_true_eq,
      SortedSet.mem_def]
    constructor
    · rintro ⟨⟨row, hrow, hc⟩, -⟩
      obtain ⟨p, hp, rfl⟩ := List.mem_map.mp hrow
      rcases List.mem_cons.mp hc with rfl | hc
      · show codeKey H p ∈ codes
        rw [h.key p hp]
        exact hp
      · rw [asDict_rowRaw, List.map_map, List.mem_map] at hc
        obtain ⟨d, hd, rfl⟩ := hc
        have hd := (List.mem_filter.mp hd).1
        show codeKey H d ∈ codes
        rw [h.key d hd]
        exact hd
    · intro hc
      exact ⟨⟨_, List.mem_map_of_mem hc, List.mem_cons.mpr (Or.inl (h.key c hc).symm)⟩,
        h.ne_empty c hc⟩
  rw [codesIn, hset]

theorem IsTripMatrix.readRow_eq (h : IsTripMatrix H allowed codes weight) {p : String}
    (hp : p ∈ codes) :
    readRow H codes (rowRaw codes weight p) = .ok (rowWeights codes weight p) := by
  have hkey : codeKey H (rowRaw codes weight p).1 = p := h.key p hp
  have hcells : each (readCell H codes p) (rowRaw codes weight p).2.asDict =
      .ok ((codes.filter (· ≠ p)).map fun d ↦ [((p, d), weight p d)]) := by
    rw [asDict_rowRaw, each_eq_ok, List.forall₂_map_left_iff, List.forall₂_map_right_iff,
      List.forall₂_same]
    intro d hd
    obtain ⟨hd, hne⟩ := List.mem_filter.mp hd
    have hne : ¬ p = d := Ne.symm (of_decide_eq_true hne)
    rw [readCell]
    rw [h.key d hd, if_neg (not_or.mpr ⟨not_not.mpr hd, hne⟩), pyFloat_num, caught_ok, ok_bind]
    dsimp only
    rw [atLeastZero_fin, max_eq_right (h.nonneg p hp d hd)]
    rfl
  rw [readRow, hkey, if_neg (not_not.mpr hp), hcells, ok_bind]
  rw [← List.flatMap_def, rowWeights, List.map_eq_flatMap]
  rfl

theorem gridOf_rowWeights (codes : List String) (weight : String → String → ℚ) :
    gridOf codes (codes.map (rowWeights codes weight)).flatten =
      fullGrid codes fun p d ↦ if p = d then 0 else weight p d := by
  have hmem : ∀ p d q, ((p, d), q) ∈ (codes.map (rowWeights codes weight)).flatten ↔
      p ∈ codes ∧ d ∈ codes ∧ p ≠ d ∧ q = weight p d := by
    intro p d q
    rw [List.mem_flatten]
    constructor
    · rintro ⟨ws, hws, hw⟩
      obtain ⟨p', hp', rfl⟩ := List.mem_map.mp hws
      obtain ⟨d', hd', he⟩ := List.mem_map.mp hw
      obtain ⟨hd', hne⟩ := List.mem_filter.mp hd'
      simp only [Prod.mk.injEq] at he
      obtain ⟨⟨rfl, rfl⟩, rfl⟩ := he
      exact ⟨hp', hd', Ne.symm (of_decide_eq_true hne), rfl⟩
    · rintro ⟨hp, hd, hne, rfl⟩
      exact ⟨_, List.mem_map_of_mem hp, List.mem_map.mpr
        ⟨d, List.mem_filter.mpr ⟨hd, decide_eq_true (Ne.symm hne)⟩, rfl⟩⟩
  have hcell : ∀ p ∈ codes, ∀ d ∈ codes,
      ((Dict.ofList (codes.map (rowWeights codes weight)).flatten).get? (p, d)).getD 0 =
        if p = d then 0 else weight p d := by
    intro p hp d hd
    have hiff : ∀ q, (Dict.ofList (codes.map (rowWeights codes weight)).flatten).get? (p, d) =
        some q ↔ ((p, d), q) ∈ (codes.map (rowWeights codes weight)).flatten := by
      refine fun q ↦ Dict.get?_ofList_iff fun k v w hv hw ↦ ?_
      rw [((hmem k.1 k.2 v).mp hv).2.2.2, ((hmem k.1 k.2 w).mp hw).2.2.2]
    split
    · next he =>
      cases hget : (Dict.ofList (codes.map (rowWeights codes weight)).flatten).get? (p, d) with
      | none => rfl
      | some q => exact absurd he ((hmem p d q).mp ((hiff q).mp hget)).2.2.1
    · next hne =>
      rw [(hiff _).mpr ((hmem p d _).mpr ⟨hp, hd, hne, rfl⟩)]
      rfl
  refine List.map_congr_left fun p hp ↦ congrArg (p, ·) (List.map_congr_left fun d hd ↦ ?_)
  rw [hcell p hp d hd]

theorem gridTotal_fullGrid (codes : List String) (weight : String → String → ℚ) :
    gridTotal (fullGrid codes fun p d ↦ if p = d then 0 else weight p d) =
      gridTotal (offDiagonal codes weight) := by
  have hrow : ∀ p : String, ∀ ds : List String,
      ((ds.map fun d ↦ (d, if p = d then 0 else weight p d)).map Prod.snd).sum =
        (((ds.filter (· ≠ p)).map fun d ↦ (d, weight p d)).map Prod.snd).sum := by
    intro p ds
    induction ds with
    | nil => rfl
    | cons d ds ih =>
      rw [List.map_cons, List.map_cons, List.sum_cons, ih]
      by_cases hd : d = p
      · subst hd
        simp
      · simp [hd, Ne.symm hd]
  rw [gridTotal, gridTotal, fullGrid, offDiagonal, List.map_map, List.map_map]
  exact congrArg List.sum (List.map_congr_left fun p _ ↦ hrow p codes)

/-- **A trip matrix read back is the same trip matrix.** -/
theorem IsTripMatrix.fromWeights_gridRaw (h : IsTripMatrix H allowed codes weight) :
    fromWeights H (gridRaw (offDiagonal codes weight)) allowed =
      .ok (offDiagonal codes weight) := by
  have hrows : each (readRow H codes) (gridRaw (offDiagonal codes weight)).asDict =
      .ok (codes.map (rowWeights codes weight)) := by
    rw [asDict_gridRaw, each_eq_ok, List.forall₂_map_left_iff, List.forall₂_map_right_iff,
      List.forall₂_same]
    exact fun p hp ↦ h.readRow_eq hp
  have hgrid := gridOf_rowWeights codes weight
  have htotal : gridTotal (fullGrid codes fun p d ↦ if p = d then 0 else weight p d) = 1 :=
    (gridTotal_fullGrid codes weight).trans h.total
  have hpos : ¬ (1 : ℚ) ≤ 0 := by decide +kernel
  have hpart : allowedPart (allowed.map (codeKey H))
      (fullGrid codes fun p d ↦ if p = d then 0 else weight p d) = offDiagonal codes weight := by
    rw [allowedPart_fullGrid,
      List.filter_eq_self.mpr fun c hc ↦ decide_eq_true (h.allowed c hc)]
    refine List.map_congr_left fun p _ ↦ congrArg (p, ·) (List.map_congr_left fun d hd ↦ ?_)
    exact congrArg (d, ·) (if_neg (Ne.symm (of_decide_eq_true (List.mem_filter.mp hd).2)))
  rw [fromWeights, parseTripMatrix, h.codesIn_eq, hrows, ok_bind]
  dsimp only
  rw [hgrid, htotal, if_neg hpos, scaleGrid_one]
  show restrictTripMatrix H _ allowed = _
  rw [restrictTripMatrix, hpart]
  rw [h.total, if_neg hpos, scaleGrid_one]

end

end OpenRide.Datagen
