import OpenRide.Analytics.LaneBreakdown
import Mathlib.Data.String.Basic

/-!
# Ties in the backhaul rows

What the rows count does not depend on the order in which the trips were folded, the order of the
accounts does.  It decides which of two hauliers with equally many trips is the top one, and which
of two equally strong rows is cut.

So the rows are the same for all orders if and only if there are no such ties (`settled_iff`):
without them the counts decide everything, and with one the trips can be folded so that either is
first (`kept_first`).
-/

namespace OpenRide.Analytics

open Lib

/-! ## What is to be the same -/

/-- What a row says, its ends in alphabetical order. -/
structure Corridor where
  ends : String × String
  trips : ℕ × ℕ
  topHauliers : Option String × Option String
  backhaulStrength : ℕ
  crossHaulier : Bool
  loadedKm : ℚ

namespace LaneRow

def corridor (r : LaneRow) : Corridor :=
  if r.a ≤ r.b then
    ⟨(r.a, r.b), (r.abTrips, r.baTrips), (r.abTopHaulier, r.baTopHaulier), r.backhaulStrength,
      r.crossHaulier, r.loadedKm⟩
  else
    ⟨(r.b, r.a), (r.baTrips, r.abTrips), (r.baTopHaulier, r.abTopHaulier), r.backhaulStrength,
      r.crossHaulier, r.loadedKm⟩

end LaneRow

/-- The same rows, up to the order of the rows and of the ends of each. -/
def SameRows (rows rows' : List LaneRow) : Prop :=
  (rows.map LaneRow.corridor).Perm (rows'.map LaneRow.corridor)

/-- **The rows do not depend on the order of folding.** -/
structure Settled (R : RunData) (trips : List Trip) : Prop where
  sameRows : ∀ windows windows' : List (List Trip), windows.flatten.Perm trips →
    windows'.flatten.Perm trips →
    SameRows (buildLaneBreakdown (foldedLanes R windows))
      (buildLaneBreakdown (foldedLanes R windows'))
  oneRow : ∀ windows : List (List Trip), windows.flatten.Perm trips → ∀ a b,
    (laneRows (foldedLanes R windows)).countP (LaneRow.Joins a b) =
      if 0 < loads trips (a, b) ∧ 0 < loads trips (b, a) then 1 else 0
  ranked : ∀ windows : List (List Trip), windows.flatten.Perm trips →
    ∀ r ∈ buildLaneBreakdown (foldedLanes R windows),
      ∀ r' ∈ (laneRows (foldedLanes R windows)).drop 200, r'.rank ≤ r.rank

/-- The corridors with trips in both directions, their ends in alphabetical order. -/
def corridors (trips : List Trip) : List (String × String) :=
  (trips.filterMap Trip.lane).dedup.filter fun k ↦ k.1 < k.2 ∧ 0 < loads trips k.swap

/-- What corridors are sorted by. -/
def rankOf (trips : List Trip) (k : String × String) : (ℕ ×ₗ ℕ)ᵒᵈ :=
  OrderDual.toDual (toLex (min (loads trips k) (loads trips k.swap),
      loads trips k + loads trips k.swap))

/-- At most one haulier has the most trips of a lane. -/
def OneTop (trips : List Trip) (k : String × String) : Prop :=
  ∀ hid hid', (∀ x, loadsBy trips k x ≤ loadsBy trips k hid) →
    (∀ x, loadsBy trips k x ≤ loadsBy trips k hid') → hid = hid'

/-- No ties where they matter: at the cap, and for the top haulier of what may be kept. -/
structure NoTies (trips : List Trip) : Prop where
  cap : NoTieAt (rankOf trips) (corridors trips) 200
  top : ∀ k ∈ corridors trips, ahead (rankOf trips) (corridors trips) k < 200 →
    OneTop trips k ∧ OneTop trips k.swap

/-! ## What decides a row -/

section

variable {G : Geometry} {trips trips' : List Trip} {k : String × String} {lane lane' fwd rev : Lane}
  {hid hid' : String}

theorem loads_of_perm (h : trips.Perm trips') : loads trips = loads trips' :=
  funext fun _ ↦ h.countP_eq _

theorem loadsBy_of_perm (h : trips.Perm trips') : loadsBy trips = loadsBy trips' :=
  funext fun _ ↦ funext fun _ ↦ h.countP_eq _

theorem kmOn_of_perm (h : trips.Perm trips') : kmOn G trips = kmOn G trips' :=
  funext fun _ ↦ ((h.filter _).map _).sum_eq

theorem Lane.CountsOf.of_perm (hcounts : lane.CountsOf G trips k) (h : trips.Perm trips') :
    lane.CountsOf G trips' k where
  loaded := hcounts.loaded.trans (congrFun (loads_of_perm h) k)
  km := hcounts.km.trans (congrFun (kmOn_of_perm h) k)
  byHaulier hid := (hcounts.byHaulier hid).trans (congrFun (congrFun (loadsBy_of_perm h) k) hid)
  hauliers hid hmem := (hcounts.hauliers hid hmem).trans_eq
    (congrFun (congrFun (loadsBy_of_perm h) k) hid)

theorem LanesCount.of_perm {lanes : Dict (String × String) Lane}
    (hcounts : LanesCount G trips lanes)
    (h : trips.Perm trips') : LanesCount G trips' lanes where
  counted x lane hx := by
    obtain ⟨hcount, hpos⟩ := hcounts.counted x lane hx
    exact ⟨hcount.of_perm h, loads_of_perm h ▸ hpos⟩
  missing x hx := loads_of_perm h ▸ hcounts.missing x hx

theorem exists_loadsBy_pos (h : 0 < loads trips k) : ∃ hid, 0 < loadsBy trips k hid := by
  obtain ⟨t, ht, hlane⟩ := List.countP_pos_iff.mp h
  refine ⟨t.haulierId, List.countP_pos_iff.mpr ⟨t, ht, ?_⟩⟩
  simpa using hlane

/-- The top haulier of an account has the most trips. -/
theorem Lane.CountsOf.loadsBy_le (h : lane.CountsOf G trips k) (htop : lane.topHaulier = some hid)
    (x : String) : loadsBy trips k x ≤ loadsBy trips k hid := by
  rw [← h.byHaulier, ← h.byHaulier]
  by_cases hx : x ∈ lane.byHaulier.keys
  · exact List.le_of_mem_argmax hx htop
  · rw [Dict.get?_eq_none_iff.mpr hx]
    exact Nat.zero_le _

theorem Lane.CountsOf.exists_topHaulier (h : lane.CountsOf G trips k) (hpos : 0 < loads trips k) :
    ∃ hid, lane.topHaulier = some hid := by
  obtain ⟨x, hx⟩ := exists_loadsBy_pos hpos
  refine Option.ne_none_iff_exists'.mp fun hnone ↦ ?_
  have hkeys := List.argmax_eq_none.mp hnone
  rw [← h.byHaulier, Dict.get?_eq_none_iff.mpr (by rw [hkeys]; exact List.not_mem_nil)] at hx
  exact absurd hx (lt_irrefl 0)

/-- Where one haulier has the most trips, that is the top one. -/
theorem Lane.CountsOf.topHaulier_eq (h : lane.CountsOf G trips k) (h' : lane'.CountsOf G trips k)
    (hpos : 0 < loads trips k) (hone : OneTop trips k) : lane.topHaulier = lane'.topHaulier := by
  obtain ⟨hid, htop⟩ := h.exists_topHaulier hpos
  obtain ⟨hid', htop'⟩ := h'.exists_topHaulier hpos
  rw [htop, htop', hone hid hid' (h.loadsBy_le htop) (h'.loadsBy_le htop')]

/-- Of the hauliers with the most trips the first is the top one. -/
theorem Lane.CountsOf.topHaulier_of_first (h : lane.CountsOf G trips k)
    (hfirst : lane.byHaulier.keys.head? = some hid)
    (hmost : ∀ x, loadsBy trips k x ≤ loadsBy trips k hid) : lane.topHaulier = some hid := by
  have hmem : hid ∈ lane.byHaulier.keys := List.mem_of_mem_head? hfirst
  have hsome : lane.topHaulier ≠ none := fun hnone ↦
    List.ne_nil_of_mem hmem (List.argmax_eq_none.mp hnone)
  obtain ⟨top, htop⟩ := Option.ne_none_iff_exists'.mp hsome
  obtain ⟨-, -, hindex⟩ := List.mem_argmax_iff.mp htop
  have hle := hmost top
  rw [← h.byHaulier, ← h.byHaulier] at hle
  have hzero := hindex hid hmem hle
  cases hkeys : lane.byHaulier.keys with
  | nil =>
    rw [hkeys] at hmem
    cases hmem
  | cons x rest =>
    rw [hkeys] at hfirst hzero
    obtain rfl := Option.some_inj.mp hfirst
    by_cases heq : x = top
    · rw [htop, heq]
    · rw [List.idxOf_cons_self, List.idxOf_cons_ne _ heq] at hzero
      omega

/-! ## Rows and corridors -/

/-- A row is the same when it is read from the other end. -/
theorem corridor_swap (hne : k.1 ≠ k.2) (fwd rev : Lane) :
    (laneRow k.swap rev fwd).corridor = (laneRow k fwd rev).corridor := by
  have hcross : (rev.topHaulier.isSome && fwd.topHaulier.isSome &&
      rev.topHaulier != fwd.topHaulier) = (fwd.topHaulier.isSome && rev.topHaulier.isSome &&
      fwd.topHaulier != rev.topHaulier) := by
    rw [Bool.and_comm rev.topHaulier.isSome, bne_comm]
  rcases lt_or_gt_of_ne hne with hlt | hlt
  · have hpos : (laneRow k fwd rev).a ≤ (laneRow k fwd rev).b := hlt.le
    have hneg : ¬ (laneRow k.swap rev fwd).a ≤ (laneRow k.swap rev fwd).b := hlt.not_ge
    rw [LaneRow.corridor, if_neg hneg, LaneRow.corridor, if_pos hpos]
    simp only [laneRow, Prod.fst_swap, Prod.snd_swap, hcross, min_comm rev.loadedTrips,
      add_comm rev.loadedKm]
  · have hneg : ¬ (laneRow k fwd rev).a ≤ (laneRow k fwd rev).b := hlt.not_ge
    have hpos : (laneRow k.swap rev fwd).a ≤ (laneRow k.swap rev fwd).b := hlt.le
    rw [LaneRow.corridor, if_pos hpos, LaneRow.corridor, if_neg hneg]
    simp only [laneRow, Prod.fst_swap, Prod.snd_swap, hcross, min_comm rev.loadedTrips,
      add_comm rev.loadedKm]

/-- The ends of a corridor in alphabetical order. -/
def inOrder (k : String × String) : String × String := if k.1 ≤ k.2 then k else k.swap

theorem ends_corridor (r : LaneRow) : r.corridor.ends = inOrder (r.a, r.b) := by
  rw [LaneRow.corridor, inOrder]
  split
  · rfl
  · rfl

theorem inOrder_of_lt (h : k.1 < k.2) : inOrder k = k ∧ inOrder k.swap = k :=
  ⟨if_pos h.le, if_neg h.not_ge⟩

theorem eq_or_swap_of_inOrder {k k' : String × String} (h : inOrder k = inOrder k') :
    k' = k ∨ k' = k.swap := by
  rw [inOrder, inOrder] at h
  split at h <;> split at h
  · exact Or.inl h.symm
  · exact Or.inr (by rw [h, Prod.swap_swap])
  · exact Or.inr h.symm
  · exact Or.inl (Prod.swap_injective h.symm)

theorem mem_corridors : k ∈ corridors trips ↔ k.1 < k.2 ∧ 0 < loads trips k ∧
    0 < loads trips k.swap := by
  have hloaded : k ∈ trips.filterMap Trip.lane ↔ 0 < loads trips k := by
    rw [List.mem_filterMap, loads, List.countP_pos_iff]
    simp only [decide_eq_true_eq]
  rw [corridors, List.mem_filter, List.mem_dedup, hloaded, decide_eq_true_eq]
  tauto

theorem corridors_nodup : (corridors trips).Nodup := (List.nodup_dedup _).filter _

theorem ne_of_loads (h : 0 < loads trips k) : k.1 ≠ k.2 := by
  obtain ⟨t, -, hlane⟩ := List.countP_pos_iff.mp h
  rw [decide_eq_true_eq, Trip.lane] at hlane
  split at hlane
  · split at hlane
    · cases hlane
    · next hne =>
      cases hlane
      exact hne
  · cases hlane

/-- Both ways of a corridor with trips in both directions are kept in one order of its ends. -/
theorem inOrder_mem_corridors : inOrder k ∈ corridors trips ↔
    0 < loads trips k ∧ 0 < loads trips k.swap := by
  rw [inOrder]
  constructor
  · intro h
    split at h
    · exact (mem_corridors.mp h).2
    · exact (mem_corridors.mp h).2.symm
  · rintro ⟨hto, hback⟩
    have hne := ne_of_loads hto
    split
    · next hle => exact mem_corridors.mpr ⟨lt_of_le_of_ne hle hne, hto, hback⟩
    · next hle => exact mem_corridors.mpr ⟨not_le.mp hle, hback, hto⟩

theorem rankOf_inOrder (k : String × String) : rankOf trips (inOrder k) = rankOf trips k := by
  rw [inOrder]
  split
  · rfl
  · rw [rankOf, rankOf, Prod.swap_swap, min_comm, add_comm]

/-- What a row is made of. -/
structure RowCounts (G : Geometry) (trips : List Trip) (k : String × String) (fwd rev : Lane)
    (r : LaneRow) : Prop where
  eq : r = laneRow k fwd rev
  there : fwd.CountsOf G trips k
  back : rev.CountsOf G trips k.swap
  loaded : 0 < loads trips k ∧ 0 < loads trips k.swap

variable {r : LaneRow}

theorem RowCounts.key (h : RowCounts G trips k fwd rev r) : r.key = rankOf trips k := by
  rw [h.eq, rankOf, ← h.there.loaded, ← h.back.loaded]
  rfl

theorem RowCounts.ends (h : RowCounts G trips k fwd rev r) : r.corridor.ends = inOrder k := by
  rw [h.eq, ends_corridor]
  rfl

variable {lanes lanes' : Dict (String × String) Lane}

theorem LanesCount.rowsOf (h : LanesCount G trips lanes) :
    RowsOf lanes [] lanes.keys (rowsFrom lanes [] lanes.entries) := by
  refine rowsFrom_spec (fun k lane hk ↦ ?_) lanes.nodup
    (fun p hp ↦ Dict.mem_entries_iff.mp hp) []
  obtain ⟨hcounts, hpos⟩ := h.counted k lane hk
  rw [hcounts.loaded]
  exact hpos.ne'

theorem LanesCount.rowCounts (h : LanesCount G trips lanes)
    (hr : r ∈ rowsFrom lanes [] lanes.entries) :
    ∃ fwd rev, RowCounts G trips (r.a, r.b) fwd rev r := by
  obtain ⟨fwd, rev, hfwd, hrev, hrow⟩ := h.rowsOf.made r hr
  obtain ⟨hthere, hloaded⟩ := h.counted _ _ hfwd
  obtain ⟨hback, hloaded'⟩ := h.counted _ _ hrev
  exact ⟨fwd, rev, hrow, hthere, hback, hloaded, hloaded'⟩

/-- **The rows are those of the corridors** with trips in both directions. -/
theorem LanesCount.ends_perm (h : LanesCount G trips lanes) :
    ((rowsFrom lanes [] lanes.entries).map fun r ↦ r.corridor.ends).Perm (corridors trips) := by
  refine (List.perm_ext_iff_of_nodup ?_ corridors_nodup).mpr fun k ↦ ?_
  · refine List.pairwise_map.mpr (h.rowsOf.apart.imp fun {r r'} hapart heq ↦ hapart ?_)
    rw [ends_corridor, ends_corridor] at heq
    rcases eq_or_swap_of_inOrder heq with hsame | hswap
    · exact Or.inl (Prod.mk.inj hsame)
    · exact Or.inr (Prod.mk.inj hswap)
  · rw [List.mem_map]
    constructor
    · rintro ⟨r, hr, rfl⟩
      obtain ⟨fwd, rev, hcounts⟩ := h.rowCounts hr
      rw [hcounts.ends]
      exact inOrder_mem_corridors.mpr hcounts.loaded
    · intro hk
      obtain ⟨hlt, hto, hback⟩ := mem_corridors.mp hk
      have hlane : ∀ x, 0 < loads trips x → ∃ lane, lanes.get? x = some lane := fun x hx ↦
        Option.ne_none_iff_exists'.mp fun hnone ↦ hx.ne' (h.missing x hnone)
      obtain ⟨fwd, hfwd⟩ := hlane k hto
      obtain ⟨rev, hrev⟩ := hlane k.swap hback
      obtain ⟨r, hr, hjoins⟩ := h.rowsOf.covers k (Dict.mem_keys_iff.mpr ⟨fwd, hfwd⟩)
        List.not_mem_nil rev hrev
      refine ⟨r, hr, (ends_corridor r).trans ?_⟩
      rcases hjoins with ⟨ha, hb⟩ | ⟨ha, hb⟩
      · rw [ha, hb]
        exact (inOrder_of_lt hlt).1
      · rw [ha, hb]
        exact (inOrder_of_lt hlt).2

theorem LanesCount.key_eq (h : LanesCount G trips lanes) :
    ∀ r ∈ rowsFrom lanes [] lanes.entries,
      r.key = (rankOf trips ∘ fun r : LaneRow ↦ r.corridor.ends) r := by
  intro r hr
  obtain ⟨fwd, rev, hcounts⟩ := h.rowCounts hr
  rw [hcounts.key, Function.comp_apply, hcounts.ends, rankOf_inOrder]

theorem LanesCount.ahead_eq (h : LanesCount G trips lanes)
    (hr : r ∈ rowsFrom lanes [] lanes.entries) :
    ahead LaneRow.key (rowsFrom lanes [] lanes.entries) r =
      ahead (rankOf trips) (corridors trips) r.corridor.ends := by
  rw [ahead_congr h.key_eq hr, ← ahead_map, ahead_of_perm h.ends_perm]

/-! ## Without ties -/

theorem joins_iff {a b : String} : r.Joins a b ↔ r.corridor.ends = inOrder (a, b) := by
  rw [ends_corridor]
  constructor
  · rintro (⟨rfl, rfl⟩ | ⟨rfl, rfl⟩)
    · rfl
    · rw [inOrder, inOrder]
      rcases lt_trichotomy r.a r.b with hlt | heq | hlt
      · rw [if_pos hlt.le, if_neg hlt.not_ge]
        rfl
      · rw [heq]
      · rw [if_neg hlt.not_ge, if_pos hlt.le]
        rfl
  · intro h
    rcases eq_or_swap_of_inOrder h with hsame | hswap
    · obtain ⟨ha, hb⟩ := Prod.mk.inj hsame
      exact Or.inl ⟨ha.symm, hb.symm⟩
    · obtain ⟨ha, hb⟩ := Prod.mk.inj hswap
      exact Or.inr ⟨hb.symm, ha.symm⟩

/-- There is exactly one row for a corridor with trips in both directions, and none for others. -/
theorem LanesCount.countP_joins (h : LanesCount G trips lanes) (a b : String) :
    (laneRows lanes).countP (LaneRow.Joins a b) =
      if 0 < loads trips (a, b) ∧ 0 < loads trips (b, a) then 1 else 0 := by
  have hcount : (rowsFrom lanes [] lanes.entries).countP (LaneRow.Joins a b) =
      ((rowsFrom lanes [] lanes.entries).map fun r ↦ r.corridor.ends).count (inOrder (a, b)) := by
    rw [List.count, List.countP_map]
    exact List.countP_congr fun r _ ↦ by simp [joins_iff]
  rw [laneRows, (sortedBy_perm _ _).countP_eq, hcount, h.ends_perm.count_eq, corridors_nodup.count]
  exact if_congr inOrder_mem_corridors rfl rfl

/-- Where the top hauliers are settled, so is the row. -/
theorem RowCounts.corridor_eq {k' : String × String} {fwd' rev' : Lane} {r' : LaneRow}
    (h : RowCounts G trips k fwd rev r) (h' : RowCounts G trips k' fwd' rev' r')
    (hends : r.corridor.ends = r'.corridor.ends) (hone : OneTop trips k ∧ OneTop trips k.swap) :
    r.corridor = r'.corridor := by
  have hsame : ∀ {fwd' rev' : Lane}, fwd'.CountsOf G trips k → rev'.CountsOf G trips k.swap →
      (laneRow k fwd rev).corridor = (laneRow k fwd' rev').corridor := by
    intro fwd' rev' hthere hback
    have hkm := h.there.km.trans hthere.km.symm
    have hkm' := h.back.km.trans hback.km.symm
    simp only [LaneRow.corridor, laneRow, h.there.topHaulier_eq hthere h.loaded.1 hone.1,
      h.back.topHaulier_eq hback h.loaded.2 hone.2, h.there.loaded, h.back.loaded, hthere.loaded,
      hback.loaded, hkm, hkm']
  rw [h.ends, h'.ends] at hends
  rw [h.eq, h'.eq]
  rcases eq_or_swap_of_inOrder hends with rfl | rfl
  · exact hsame h'.there h'.back
  · have hthere := h'.back
    rw [corridor_swap (ne_of_loads h.loaded.1)]
    exact hsame hthere h'.there

/-- **Without ties** the counts decide which rows are kept and what they say. -/
theorem NoTies.sameRows (hties : NoTies trips) (h : LanesCount G trips lanes)
    (h' : LanesCount G trips lanes') :
    SameRows (buildLaneBreakdown lanes) (buildLaneBreakdown lanes') := by
  have hkept : ∀ {lanes : Dict (String × String) Lane}, LanesCount G trips lanes →
      (buildLaneBreakdown lanes).Perm ((rowsFrom lanes [] lanes.entries).filter fun r ↦
        ahead (rankOf trips) (corridors trips) r.corridor.ends < 200) := by
    intro lanes h
    have htie : NoTieAt LaneRow.key (rowsFrom lanes [] lanes.entries) 200 :=
      ((noTieAt_map _).mp (hties.cap.of_perm h.ends_perm.symm)).congr h.key_eq
    refine (take_sortedBy_perm htie).trans (.of_eq (List.filter_congr fun r hr ↦ ?_))
    rw [h.ahead_eq hr]
  have hends : ∀ {lanes : Dict (String × String) Lane}, LanesCount G trips lanes →
      (((rowsFrom lanes [] lanes.entries).filter fun r ↦
        ahead (rankOf trips) (corridors trips) r.corridor.ends < 200).map
          fun r ↦ r.corridor.ends).Perm
        ((corridors trips).filter fun k ↦ ahead (rankOf trips) (corridors trips) k < 200) := by
    intro lanes h
    refine List.Perm.trans (.of_eq ?_) (h.ends_perm.filter _)
    rw [List.filter_map]
    rfl
  refine ((hkept h).map _).trans (List.Perm.trans ?_ ((hkept h').map _).symm)
  refine map_perm_of_keys ((hends h).trans (hends h').symm) fun r hr r' hr' heq ↦ ?_
  obtain ⟨hr, hahead⟩ := List.mem_filter.mp hr
  obtain ⟨fwd, rev, hcounts⟩ := h.rowCounts hr
  obtain ⟨fwd', rev', hcounts'⟩ := h'.rowCounts (List.mem_of_mem_filter hr')
  refine hcounts.corridor_eq hcounts' heq ?_
  have hmem := inOrder_mem_corridors.mpr hcounts.loaded
  rw [decide_eq_true_eq, hcounts.ends] at hahead
  have htop := hties.top _ hmem hahead
  rw [inOrder] at htop
  split at htop
  · exact htop
  · exact ⟨htop.2, htop.1⟩

/-! ## The first trip -/

/-- The first lane, and its first haulier. -/
structure OpenedBy (k : String × String) (hid : String) (lanes : Dict (String × String) Lane) :
    Prop where
  first : lanes.keys.head? = some k
  byHaulier : ∃ lane, lanes.get? k = some lane ∧ lane.byHaulier.keys.head? = some hid

variable {R : RunData} {t : Trip}

theorem OpenedBy.accumulateTrip {s : Breakdowns} (h : OpenedBy k hid s.laneAcc) (t : Trip) :
    OpenedBy k hid (s.accumulateTrip R t).laneAcc := by
  cases hlane : t.lane with
  | none =>
    rw [laneAcc_of_no_lane s hlane]
    exact h
  | some x =>
    obtain ⟨lane, hget, hhead⟩ := h.byHaulier
    rw [laneAcc_of_lane s hlane]
    refine ⟨Dict.head?_keys_set h.first _ _, ?_⟩
    by_cases hx : k = x
    · subst hx
      refine ⟨_, Dict.get?_amend_self _ _ _ _, ?_⟩
      rw [hget]
      exact Dict.head?_keys_set hhead _ _
    · exact ⟨lane, (Dict.get?_amend_ne _ _ _ hx).trans hget, hhead⟩

/-- **The first trip opens the first lane.** -/
theorem openedBy_foldl (hlane : t.lane = some k) (rest : List Trip) :
    OpenedBy k t.haulierId ((t :: rest).foldl (Breakdowns.accumulateTrip R) {}).laneAcc := by
  have hopen : OpenedBy k t.haulierId (Breakdowns.accumulateTrip R {} t).laneAcc := by
    rw [laneAcc_of_lane {} hlane]
    exact ⟨rfl, _, Dict.get?_amend_self _ _ _ _, rfl⟩
  rw [List.foldl_cons]
  generalize Breakdowns.accumulateTrip R {} t = s at hopen
  induction rest generalizing s with
  | nil => exact hopen
  | cons t' rest ih => exact ih _ (hopen.accumulateTrip t')

/-- Whatever the windows, the trips are folded in some order. -/
theorem foldedLanes_eq (R : RunData) (windows : List (List Trip)) :
    foldedLanes R windows = ((windows.flatMap (sortedBy Trip.sortKey)).foldl
      (Breakdowns.accumulateTrip R) {}).laneAcc := by
  rw [List.foldl_flatMap]
  rfl

theorem lanesCount_foldedLanes {windows : List (List Trip)} (h : windows.flatten.Perm trips) :
    LanesCount R.toGeometry trips (foldedLanes R windows) := by
  have hperm : (windows.flatMap (sortedBy Trip.sortKey)).Perm windows.flatten := by
    have hall : ∀ ws : List (List Trip), (ws.flatMap (sortedBy Trip.sortKey)).Perm ws.flatten := by
      intro ws
      induction ws with
      | nil => exact .rfl
      | cons w ws ih => exact (sortedBy_perm _ w).append ih
    exact hall windows
  rw [foldedLanes_eq]
  exact (lanesCount_foldl R _).of_perm (hperm.trans h)

theorem foldedLanes_singles (R : RunData) (trips : List Trip) :
    (trips.map fun t ↦ [t]).flatten = trips ∧ foldedLanes R (trips.map fun t ↦ [t]) =
      (trips.foldl (Breakdowns.accumulateTrip R) {}).laneAcc := by
  have hsingles : ∀ f : List Trip → List Trip, (∀ t, f [t] = [t]) →
      (trips.map fun t ↦ [t]).flatMap f = trips := by
    intro f hf
    rw [List.flatMap_map]
    simp [hf]
  refine ⟨?_, ?_⟩
  · simpa using hsingles id fun _ ↦ rfl
  · rw [foldedLanes_eq, hsingles _ fun _ ↦ rfl]

/-- **A corridor whose trip comes first** is kept, with the haulier of the trip first. -/
theorem kept_first (R : RunData) (ht : t ∈ trips) (hlane : t.lane = some k)
    (hback : 0 < loads trips k.swap)
    (hahead : ahead (rankOf trips) (corridors trips) (inOrder k) < 200) :
    ∃ windows fwd rev, windows.flatten.Perm trips ∧
      laneRow k fwd rev ∈ buildLaneBreakdown (foldedLanes R windows) ∧
      fwd.CountsOf R.toGeometry trips k ∧ fwd.byHaulier.keys.head? = some t.haulierId := by
  obtain ⟨before, after, rfl⟩ := List.append_of_mem ht
  have hperm : (t :: (before ++ after)).Perm (before ++ t :: after) := List.perm_middle.symm
  obtain ⟨hflat, hfold⟩ := foldedLanes_singles R (t :: (before ++ after))
  have hcounts := lanesCount_foldedLanes (R := R) (hflat ▸ hperm)
  have hopen := openedBy_foldl (R := R) hlane (before ++ after)
  rw [← hfold] at hopen
  set lanes := foldedLanes R ((t :: (before ++ after)).map fun t ↦ [t])
  obtain ⟨fwd, hfwd, hhead⟩ := hopen.byHaulier
  obtain ⟨rev, hrev⟩ : ∃ rev, lanes.get? k.swap = some rev :=
    Option.ne_none_iff_exists'.mp fun hnone ↦ hback.ne' (hcounts.missing _ hnone)
  obtain ⟨hthere, hto⟩ := hcounts.counted k fwd hfwd
  obtain ⟨hrevcounts, -⟩ := hcounts.counted _ rev hrev
  obtain ⟨rest, hentries⟩ : ∃ rest, lanes.entries = (k, fwd) :: rest := by
    have hfirst := hopen.first
    have hmem : ∀ p ∈ lanes.entries, lanes.get? p.1 = some p.2 := fun p hp ↦
      Dict.mem_entries_iff.mp hp
    rw [Dict.keys] at hfirst
    cases hlist : lanes.entries with
    | nil =>
      rw [hlist] at hfirst
      cases hfirst
    | cons p rest =>
      rw [hlist] at hfirst hmem
      obtain rfl : p.1 = k := Option.some_inj.mp hfirst
      obtain rfl : p.2 = fwd := Option.some_inj.mp ((hmem p List.mem_cons_self).symm.trans hfwd)
      exact ⟨rest, rfl⟩
  have hrows : rowsFrom lanes [] lanes.entries =
      laneRow k fwd rev :: rowsFrom lanes [k.swap, k] rest := by
    rw [hentries, rowsFrom_cons (hthere.loaded.trans_ne hto.ne')
      (hrevcounts.loaded.trans_ne hback.ne') List.not_mem_nil hrev]
  refine ⟨_, fwd, rev, hflat ▸ hperm, ?_, hthere, hhead⟩
  have hmem : laneRow k fwd rev ∈ rowsFrom lanes [] lanes.entries := hrows ▸ List.mem_cons_self
  have hfew := hcounts.ahead_eq hmem
  rw [ends_corridor] at hfew
  rw [hrows] at hfew
  rw [buildLaneBreakdown, laneRows, hrows]
  exact mem_take_sortedBy_cons (hfew.trans_lt hahead)

/-- Hauliers that have the most trips of a loaded lane drive on it. -/
theorem exists_trip_of_most (hpos : 0 < loads trips k)
    (hmost : ∀ x, loadsBy trips k x ≤ loadsBy trips k hid) :
    ∃ t ∈ trips, t.lane = some k ∧ t.haulierId = hid := by
  obtain ⟨x, hx⟩ := exists_loadsBy_pos hpos
  obtain ⟨t, ht, hboth⟩ := List.countP_pos_iff.mp (hx.trans_le (hmost x))
  exact ⟨t, ht, by simpa using hboth⟩

theorem mem_rows_of_kept (h : r ∈ buildLaneBreakdown lanes) : r ∈ rowsFrom lanes [] lanes.entries :=
  mem_sortedBy.mp (List.mem_of_mem_take h)

theorem fst_topHauliers {fwd' rev' : Lane}
    (h : (laneRow k fwd' rev').corridor = (laneRow k fwd rev).corridor) :
    fwd'.topHaulier = fwd.topHaulier := by
  have htops := congrArg Corridor.topHauliers h
  by_cases hle : k.1 ≤ k.2
  · have hpos : ∀ fwd rev : Lane, (laneRow k fwd rev).a ≤ (laneRow k fwd rev).b := fun _ _ ↦ hle
    rw [LaneRow.corridor, if_pos (hpos _ _), LaneRow.corridor, if_pos (hpos _ _)] at htops
    exact congrArg Prod.fst htops
  · have hneg : ∀ fwd rev : Lane, ¬ (laneRow k fwd rev).a ≤ (laneRow k fwd rev).b := fun _ _ ↦ hle
    rw [LaneRow.corridor, if_neg (hneg _ _), LaneRow.corridor, if_neg (hneg _ _)] at htops
    exact congrArg Prod.snd htops

/-- Rows that do not depend on the order have one top haulier each. -/
theorem oneTop_of_sameRows (hsame : ∀ windows windows' : List (List Trip),
      windows.flatten.Perm trips → windows'.flatten.Perm trips →
      SameRows (buildLaneBreakdown (foldedLanes R windows))
        (buildLaneBreakdown (foldedLanes R windows')))
    (hto : 0 < loads trips k) (hback : 0 < loads trips k.swap)
    (hahead : ahead (rankOf trips) (corridors trips) (inOrder k) < 200) : OneTop trips k := by
  intro hid hid' hmost hmost'
  obtain ⟨t, ht, hlane, rfl⟩ := exists_trip_of_most hto hmost
  obtain ⟨t', ht', hlane', rfl⟩ := exists_trip_of_most hto hmost'
  obtain ⟨windows, fwd, rev, hperm, hrow, hcounts, hhead⟩ := kept_first R ht hlane hback hahead
  obtain ⟨windows', fwd', rev', hperm', hrow', hcounts', hhead'⟩ :=
    kept_first R ht' hlane' hback hahead
  have htop := hcounts.topHaulier_of_first hhead hmost
  have htop' := hcounts'.topHaulier_of_first hhead' hmost'
  -- the row that says the same is the row of the same corridor
  obtain ⟨r, hr, heq⟩ := List.mem_map.mp
    ((hsame windows windows' hperm hperm').subset (List.mem_map_of_mem hrow))
  have hlanes := lanesCount_foldedLanes (R := R) hperm'
  have hends : r.corridor.ends = (laneRow k fwd' rev').corridor.ends := by
    rw [heq, ends_corridor, ends_corridor]
    rfl
  have hnodup := hlanes.ends_perm.nodup_iff.mpr corridors_nodup
  obtain rfl := List.inj_on_of_nodup_map hnodup (mem_rows_of_kept hr) (mem_rows_of_kept hrow') hends
  have htops := fst_topHauliers heq
  rw [htop, htop'] at htops
  exact (Option.some_inj.mp htops).symm

/-- Rows that do not depend on the order leave room for all that are as strong as one that may be
kept. -/
theorem noTieAt_of_sameRows (hsame : ∀ windows windows' : List (List Trip),
      windows.flatten.Perm trips → windows'.flatten.Perm trips →
      SameRows (buildLaneBreakdown (foldedLanes R windows))
        (buildLaneBreakdown (foldedLanes R windows'))) :
    NoTieAt (rankOf trips) (corridors trips) 200 := by
  intro c hc hahead
  have hflat := (foldedLanes_singles R trips).1
  set kept := buildLaneBreakdown (foldedLanes R (trips.map fun t ↦ [t]))
  have hall : ((corridors trips).filter fun d ↦ rankOf trips d ≤ rankOf trips c) ⊆
      kept.map fun r ↦ r.corridor.ends := by
    intro d hd
    obtain ⟨hd, hle⟩ := List.mem_filter.mp hd
    obtain ⟨hlt, hto, hback⟩ := mem_corridors.mp hd
    obtain ⟨t, ht, hlane⟩ := List.countP_pos_iff.mp hto
    have hfew : ahead (rankOf trips) (corridors trips) (inOrder d) < 200 := by
      rw [(inOrder_of_lt hlt).1]
      exact (ahead_mono (of_decide_eq_true hle)).trans_lt hahead
    obtain ⟨windows, fwd, rev, hperm, hrow, -, -⟩ :=
      kept_first R ht (of_decide_eq_true hlane) hback hfew
    obtain ⟨r, hr, heq⟩ := List.mem_map.mp
      ((hsame windows _ hperm (.of_eq hflat)).subset (List.mem_map_of_mem hrow))
    refine List.mem_map.mpr ⟨r, hr, ?_⟩
    rw [heq, ends_corridor]
    exact (inOrder_of_lt hlt).1
  have hlength := ((corridors_nodup.filter _).subperm hall).length_le
  rw [List.length_map] at hlength
  rw [List.countP_eq_length_filter]
  exact hlength.trans (List.length_take_le _ _)

end

/-- **The backhaul rows do not depend on the order of folding** if and only if there are no ties. -/
theorem settled_iff (R : RunData) (trips : List Trip) : Settled R trips ↔ NoTies trips := by
  constructor
  · intro h
    refine ⟨noTieAt_of_sameRows h.sameRows, fun k hk hahead ↦ ?_⟩
    obtain ⟨hlt, hto, hback⟩ := mem_corridors.mp hk
    have hahead' : ahead (rankOf trips) (corridors trips) (inOrder k) < 200 := by
      rwa [(inOrder_of_lt hlt).1]
    have hswap : ahead (rankOf trips) (corridors trips) (inOrder k.swap) < 200 := by
      rwa [(inOrder_of_lt hlt).2]
    exact ⟨oneTop_of_sameRows h.sameRows hto hback hahead',
      oneTop_of_sameRows h.sameRows hback (by rwa [Prod.swap_swap]) hswap⟩
  · intro h
    refine ⟨fun windows windows' hperm hperm' ↦ ?_, fun windows hperm a b ↦ ?_,
      fun windows _ r hr r' hr' ↦ ?_⟩
    · exact h.sameRows (lanesCount_foldedLanes (R := R) hperm) (lanesCount_foldedLanes hperm')
    · exact (lanesCount_foldedLanes hperm).countP_joins a b
    · have hle : r.key ≤ r'.key := key_le_of_take_drop hr hr'
      exact hle

/-- A loaded trip of a haulier between two facilities. -/
def loadedTrip (hid fromFac toFac : String) : Trip where
  truck := some "T1"
  simClock := some 1
  profileHaulierId := some hid
  facilityResourceId
    | .pickup => some fromFac
    | .dropoff => some toFac

/-- One trip of each of two hauliers there, and one back: who is folded first is the top haulier
there, and so the corridor is one of two hauliers or of one. -/
theorem cross_haulier_by_order : ¬ Settled Breakdowns.bareRun
    [loadedTrip "H1" "A" "B", loadedTrip "H2" "A" "B", loadedTrip "H1" "B" "A"] := by
  intro h
  have hsame := h.sameRows
    [[loadedTrip "H1" "A" "B"], [loadedTrip "H2" "A" "B"], [loadedTrip "H1" "B" "A"]]
    [[loadedTrip "H2" "A" "B"], [loadedTrip "H1" "A" "B"], [loadedTrip "H1" "B" "A"]]
    (.refl _) (.swap _ _ _)
  have hcross := hsame.map Corridor.crossHaulier
  rw [List.map_map, List.map_map] at hcross
  exact absurd hcross (by decide +kernel)

end OpenRide.Analytics
