import Mathlib.Data.Int.ConditionallyCompleteOrder
import Mathlib.Data.Prod.Lex
import Mathlib.Order.ConditionallyCompleteLattice.Indexed
import Mathlib.Order.Interval.Set.Basic
import OpenRide.Dataplane.FrameCodec
import OpenRide.Lib.Grouping

/-!
# Replaying the stored frames of a run

The rows of all frames lie in one table, in no order that could be relied on.  `iter_frames` reads
them a window of frame indices at a time and cuts what it gets into frames: `np.unique` finds the
indices in the window and where each first occurs, and a frame is what lies between one such place
and the next.  This needs the rows of a window to be sorted, which the query asks for.

`iterFrames_replays` says that nothing is lost: every stored index comes once, in order, with all
its rows, and the loop ends.
-/

namespace OpenRide.Dataplane.Wire

open Lib

/-- A row of the table `frames`. -/
structure StoredRow where
  runId : String
  frameIdx : UInt32
  simTimeMs : F64
  slot : UInt32
  lng : F64
  lat : F64
  state : UInt8
  haulier : UInt8
deriving DecidableEq

/-- The frame index as `np.unique` and Python compare it. -/
def StoredRow.idx (r : StoredRow) : ℤ := r.frameIdx.toNat

/-- The rows of a run. -/
def rowsOf (table : List StoredRow) (runId : String) : List StoredRow :=
  table.filter (·.runId = runId)

/-! ## The code -/

/-- `frame_range`: the least and the greatest stored frame index. -/
def frameRange (table : List StoredRow) (runId : String) : Option (ℤ × ℤ) :=
  let idx := (rowsOf table runId).map StoredRow.idx
  match idx.min?, idx.max? with
  | some lo, some hi => some (lo, hi)
  | _, _ => none

/-- The columns of some rows. -/
def columnsOf (rows : List StoredRow) : Columns where
  lng := rows.map StoredRow.lng
  lat := rows.map StoredRow.lat
  slot := rows.map StoredRow.slot
  state := rows.map StoredRow.state
  haulier := rows.map StoredRow.haulier
  length_lat := by rw [List.length_map, List.length_map]
  length_slot := by rw [List.length_map, List.length_map]
  length_state := by rw [List.length_map, List.length_map]
  length_haulier := by rw [List.length_map, List.length_map]

/-- `_frame_from_columns`, of the rows that were selected: the time is that of the first. -/
def frameFromColumns (frameIdx : ℤ) : List StoredRow → Option Frame
  | [] => none
  | r :: rows =>
    some { frameIdx := frameIdx, simTimeMs := r.simTimeMs, columns := columnsOf (r :: rows) }

/-- The frames of one window: `np.unique` with the first places, these sorted by place, and the rows
between one place and the next. -/
def framesOf (rows : List StoredRow) : List Frame :=
  let idx := rows.map StoredRow.idx
  if idx.length = 0 then []
  else (cuts idx.length (sortedBy Prod.snd (firstOf idx))).filterMap fun c ↦
    frameFromColumns c.1 (slice rows c.2.1 c.2.2)

/-- The loop of `iter_frames`: what it yields from `cursor` on, if it ends within `fuel` windows.
`readFrames` is the query, `window` the number of indices a window has. -/
def iterFrom (readFrames : ℤ → ℤ → List StoredRow) (window hi : ℤ) : ℕ → ℤ → Option (List Frame)
  | 0, _ => none
  | fuel + 1, cursor =>
    if cursor ≤ hi then
      let windowHi := min (cursor + window - 1) hi
      (iterFrom readFrames window hi fuel (windowHi + 1)).map
        (framesOf (readFrames cursor windowHi) ++ ·)
    else some []

/-- `iter_frames`. -/
def iterFrames (table : List StoredRow) (readFrames : ℤ → ℤ → List StoredRow) (window : ℤ)
    (runId : String) (fuel : ℕ) : Option (List Frame) :=
  match frameRange table runId with
  | none => some []
  | some (lo, hi) => iterFrom readFrames window hi fuel lo

/-! ## What it should do -/

/-- The database answers the query of `read_frames` with the rows of the run whose index is in the
range, ordered by index and slot.  In what order it returns rows of one slot is left to it. -/
structure Answers (table : List StoredRow) (runId : String)
    (readFrames : ℤ → ℤ → List StoredRow) : Prop where
  perm : ∀ lo hi, (readFrames lo hi).Perm
    ((rowsOf table runId).filter fun r ↦ lo ≤ r.idx ∧ r.idx ≤ hi)
  ordered : ∀ lo hi, (readFrames lo hi).Pairwise fun r s ↦
    r.idx < s.idx ∨ r.idx = s.idx ∧ r.slot ≤ s.slot

/-- Every stored index of a range is replayed once, in ascending order, with all its rows. -/
structure Replays (stored : List StoredRow) (range : Set ℤ) (frames : List Frame) : Prop where
  ascending : (frames.map Frame.frameIdx).Pairwise (· < ·)
  indices : ∀ i, i ∈ frames.map Frame.frameIdx ↔ i ∈ range ∧ i ∈ stored.map StoredRow.idx
  rows : ∀ f ∈ frames, ∃ rows, rows.Perm (stored.filter (·.idx = f.frameIdx)) ∧
    rows.Pairwise (fun r s ↦ r.slot ≤ s.slot) ∧ frameFromColumns f.frameIdx rows = some f

/-! ## One window -/

section

variable {table stored rows : List StoredRow} {runId : String}
  {readFrames : ℤ → ℤ → List StoredRow}

/-- The frames of sorted rows: one for each index, of the rows that have it. -/
theorem framesOf_eq (h : rows.Pairwise fun r s ↦ r.idx ≤ s.idx) :
    framesOf rows = (sortedBy id (rows.map StoredRow.idx).dedup).filterMap fun i ↦
      frameFromColumns i (rows.filter (·.idx = i)) := by
  have hcuts := cuts_firstOf h
  rw [framesOf]
  split
  · next hempty =>
    rw [List.eq_nil_of_length_eq_zero hempty]
    rfl
  · have hframes := congrArg
      (List.filterMap fun c : ℤ × List StoredRow ↦ frameFromColumns c.1 c.2) hcuts
    rw [List.filterMap_map, List.filterMap_map] at hframes
    rw [firstOf_sorted h, List.length_map]
    exact hframes

theorem frameFromColumns_group {i : ℤ} (hi : i ∈ rows.map StoredRow.idx) :
    ∃ f, frameFromColumns i (rows.filter (·.idx = i)) = some f ∧ f.frameIdx = i := by
  obtain ⟨r, hr, hri⟩ := List.mem_map.mp hi
  have hmem : r ∈ rows.filter (·.idx = i) := List.mem_filter.mpr ⟨hr, decide_eq_true hri⟩
  cases hrows : rows.filter (·.idx = i) with
  | nil =>
    rw [hrows] at hmem
    cases hmem
  | cons s rest => exact ⟨_, rfl, rfl⟩

theorem frameIdx_framesOf (h : rows.Pairwise fun r s ↦ r.idx ≤ s.idx) :
    (framesOf rows).map Frame.frameIdx = sortedBy id (rows.map StoredRow.idx).dedup := by
  rw [framesOf_eq h]
  have hall : ∀ l : List ℤ, (∀ i ∈ l, i ∈ rows.map StoredRow.idx) →
      (l.filterMap fun i ↦ frameFromColumns i (rows.filter (·.idx = i))).map Frame.frameIdx =
        l := by
    intro l hl
    induction l with
    | nil => rfl
    | cons i l ih =>
      obtain ⟨f, hf, hi⟩ := frameFromColumns_group (hl i List.mem_cons_self)
      rw [List.filterMap_cons, hf, List.map_cons, hi,
        ih fun j hj ↦ hl j (List.mem_cons_of_mem i hj)]
  exact hall _ fun i hi ↦ mem_keys.mp hi

/-- **A window** is replayed as it should be. -/
theorem Answers.window (h : Answers table runId readFrames) (lo hi : ℤ) :
    Replays (rowsOf table runId) (Set.Icc lo hi) (framesOf (readFrames lo hi)) := by
  have hsorted : (readFrames lo hi).Pairwise fun r s ↦ r.idx ≤ s.idx :=
    (h.ordered lo hi).imp fun hrs ↦ hrs.elim le_of_lt fun heq ↦ heq.1.le
  have hmem : ∀ r, r ∈ readFrames lo hi ↔ r ∈ rowsOf table runId ∧ lo ≤ r.idx ∧ r.idx ≤ hi := by
    intro r
    rw [(h.perm lo hi).mem_iff, List.mem_filter, decide_eq_true_iff]
  refine ⟨?_, fun i ↦ ?_, fun f hf ↦ ?_⟩
  · rw [frameIdx_framesOf hsorted]
    exact keys_pairwise
  · rw [frameIdx_framesOf hsorted, mem_keys, List.mem_map, List.mem_map]
    constructor
    · rintro ⟨r, hr, rfl⟩
      obtain ⟨hstored, hrange⟩ := (hmem r).mp hr
      exact ⟨hrange, r, hstored, rfl⟩
    · rintro ⟨hrange, r, hr, rfl⟩
      exact ⟨r, (hmem r).mpr ⟨hr, hrange⟩, rfl⟩
  · rw [framesOf_eq hsorted] at hf
    obtain ⟨i, hkey, hframe⟩ := List.mem_filterMap.mp hf
    have hidx : f.frameIdx = i := by
      obtain ⟨g, hg, hgi⟩ := frameFromColumns_group (mem_keys.mp hkey)
      rw [hg] at hframe
      exact Option.some_inj.mp hframe ▸ hgi
    rw [hidx]
    obtain ⟨r, hr, rfl⟩ := List.mem_map.mp (mem_keys.mp hkey)
    have hrange := ((hmem r).mp hr).2
    refine ⟨_, ?_, ?_, hframe⟩
    · have hfilter := (h.perm lo hi).filter fun s ↦ decide (s.idx = r.idx)
      rw [List.filter_filter] at hfilter
      refine hfilter.trans (List.Perm.of_eq (List.filter_congr fun s _ ↦ ?_))
      by_cases hs : s.idx = r.idx
      · simp [hs, hrange.1, hrange.2]
      · simp [hs]
    · refine (List.Pairwise.filter _ (h.ordered lo hi)).imp_of_mem fun {s u} hs hu hsu ↦ ?_
      have hs' := of_decide_eq_true (List.mem_filter.mp hs).2
      have hu' := of_decide_eq_true (List.mem_filter.mp hu).2
      rcases hsu with hlt | ⟨-, hle⟩
      · omega
      · exact hle

end

/-! ## The loop -/

section

variable {table stored : List StoredRow} {runId : String} {frames frames' : List Frame}
  {readFrames : ℤ → ℤ → List StoredRow} {window : ℤ}

theorem Replays.append {lo mid hi : ℤ} (hmid : lo ≤ mid + 1) (hle : mid ≤ hi)
    (h : Replays stored (Set.Icc lo mid) frames)
    (h' : Replays stored (Set.Icc (mid + 1) hi) frames') :
    Replays stored (Set.Icc lo hi) (frames ++ frames') := by
  refine ⟨?_, fun i ↦ ?_, fun f hf ↦ ?_⟩
  · rw [List.map_append, List.pairwise_append]
    refine ⟨h.ascending, h'.ascending, fun i hi j hj ↦ ?_⟩
    have hi' := ((h.indices i).mp hi).1.2
    have hj' := ((h'.indices j).mp hj).1.1
    omega
  · rw [List.map_append, List.mem_append, h.indices, h'.indices, ← or_and_right]
    refine and_congr_left fun _ ↦ ?_
    rw [Set.mem_Icc, Set.mem_Icc, Set.mem_Icc]
    omega
  · rcases List.mem_append.mp hf with hf | hf
    · exact h.rows f hf
    · exact h'.rows f hf

theorem Replays.nil {lo hi : ℤ} (hlt : hi < lo) : Replays stored (Set.Icc lo hi) [] where
  ascending := List.Pairwise.nil
  indices i := by
    rw [List.map_nil, Set.mem_Icc]
    refine iff_of_false List.not_mem_nil fun hrange ↦ ?_
    omega
  rows _ hf := absurd hf List.not_mem_nil

/-- **The loop ends** and replays its range: by induction on the windows that are left. -/
theorem iterFrom_replays (h : Answers table runId readFrames) (hwindow : 0 < window) (lo hi : ℤ) :
    ∃ fuel frames, iterFrom readFrames window hi fuel lo = some frames ∧
      Replays (rowsOf table runId) (Set.Icc lo hi) frames := by
  induction hleft : (hi + 1 - lo).toNat using Nat.strong_induction_on generalizing lo with
  | _ left ih =>
    by_cases hmore : lo ≤ hi
    · obtain ⟨fuel, rest, hrest, hreplays⟩ := ih _ (by omega) (min (lo + window - 1) hi + 1) rfl
      refine ⟨fuel + 1, _, ?_, Replays.append (by omega) (min_le_right _ _)
        (h.window lo (min (lo + window - 1) hi)) hreplays⟩
      rw [iterFrom, if_pos hmore]
      dsimp only
      rw [hrest]
      rfl
    · refine ⟨1, [], ?_, Replays.nil (not_le.mp hmore)⟩
      rw [iterFrom, if_neg hmore]

/-- The range of a run holds all its rows. -/
theorem frameRange_spec {lo hi : ℤ} (h : frameRange table runId = some (lo, hi)) :
    ∀ r ∈ rowsOf table runId, lo ≤ r.idx ∧ r.idx ≤ hi := by
  intro r hr
  have hmem : r.idx ∈ (rowsOf table runId).map StoredRow.idx := List.mem_map_of_mem hr
  rw [frameRange] at h
  split at h
  · next lo' hi' hmin hmax =>
    obtain ⟨rfl, rfl⟩ := Prod.mk.inj (Option.some_inj.mp h)
    exact ⟨(List.min?_eq_some_iff.mp hmin).2 _ hmem, (List.max?_eq_some_iff.mp hmax).2 _ hmem⟩
  · cases h

theorem frameRange_eq_none (h : frameRange table runId = none) : rowsOf table runId = [] := by
  cases hrows : rowsOf table runId with
  | nil => rfl
  | cons r rows =>
    rw [frameRange, hrows, List.map_cons] at h
    simp at h

/-- **Replaying a run in windows loses nothing.**  For every range the loop ends and yields each
stored index of it once, in order, with all its rows; and `iter_frames` does so for all indices of
the run. -/
theorem iterFrames_replays (h : Answers table runId readFrames) (hwindow : 0 < window) :
    (∀ lo hi, ∃ fuel frames, iterFrom readFrames window hi fuel lo = some frames ∧
      Replays (rowsOf table runId) (Set.Icc lo hi) frames) ∧
    ∃ fuel frames, iterFrames table readFrames window runId fuel = some frames ∧
      Replays (rowsOf table runId) Set.univ frames := by
  refine ⟨iterFrom_replays h hwindow, ?_⟩
  cases hrange : frameRange table runId with
  | none =>
    refine ⟨0, [], by rw [iterFrames, hrange], ?_⟩
    have hempty := frameRange_eq_none hrange
    rw [hempty]
    exact ⟨List.Pairwise.nil, fun i ↦ by simp, fun _ hf ↦ absurd hf List.not_mem_nil⟩
  | some range =>
    obtain ⟨lo, hi⟩ := range
    obtain ⟨fuel, frames, hframes, hreplays⟩ := iterFrom_replays h hwindow lo hi
    refine ⟨fuel, frames, by rw [iterFrames, hrange]; exact hframes, hreplays.ascending,
      fun i ↦ ?_, hreplays.rows⟩
    rw [hreplays.indices, and_congr_left_iff]
    intro hstored
    obtain ⟨r, hr, rfl⟩ := List.mem_map.mp hstored
    exact iff_of_true (frameRange_spec hrange r hr) (Set.mem_univ _)

end

/-- A database that sorts. -/
def sortedRead (table : List StoredRow) (runId : String) (lo hi : ℤ) : List StoredRow :=
  sortedBy (fun r ↦ toLex (r.idx, r.slot.toNat))
    ((rowsOf table runId).filter fun r ↦ lo ≤ r.idx ∧ r.idx ≤ hi)

theorem answers_sortedRead (table : List StoredRow) (runId : String) :
    Answers table runId (sortedRead table runId) where
  perm _ _ := sortedBy_perm _ _
  ordered lo hi := by
    have hsorted := sortedBy_pairwise (fun r : StoredRow ↦ toLex (r.idx, r.slot.toNat))
      ((rowsOf table runId).filter fun r ↦ lo ≤ r.idx ∧ r.idx ≤ hi)
    refine hsorted.imp fun {r s} hrs ↦ ?_
    have hlex : r.idx < s.idx ∨ r.idx = s.idx ∧ r.slot.toNat ≤ s.slot.toNat :=
      Prod.Lex.toLex_le_toLex.mp hrs
    exact hlex.imp_right fun heq ↦ ⟨heq.1, UInt32.le_iff_toNat_le.mpr heq.2⟩

/-- Three frames far apart, stored in no order, the last of two rows; and another run. -/
def farApart : List StoredRow :=
  [⟨"run", 40, ⟨0⟩, 1, ⟨0⟩, ⟨0⟩, 1, 0⟩, ⟨"run", 7, ⟨0⟩, 0, ⟨0⟩, ⟨0⟩, 1, 0⟩,
   ⟨"other", 8, ⟨0⟩, 0, ⟨0⟩, ⟨0⟩, 1, 0⟩, ⟨"run", 40, ⟨0⟩, 0, ⟨0⟩, ⟨0⟩, 1, 0⟩,
   ⟨"run", 0, ⟨0⟩, 0, ⟨0⟩, ⟨0⟩, 1, 0⟩]

theorem iterFrames_replays_farApart :
    Answers farApart "run" (sortedRead farApart "run") ∧ (0 : ℤ) < 3 ∧
      ∃ fuel frames, iterFrames farApart (sortedRead farApart "run") 3 "run" fuel = some frames ∧
        Replays (rowsOf farApart "run") Set.univ frames :=
  ⟨answers_sortedRead _ _, by decide,
    (iterFrames_replays (answers_sortedRead farApart "run") (by decide)).2⟩

example : ((iterFrames farApart (sortedRead farApart "run") 3 "run" 15).map
    (List.map fun f ↦ (f.frameIdx, f.n))) = some [(0, 1), (7, 1), (40, 2)] := by
  decide

end OpenRide.Dataplane.Wire
