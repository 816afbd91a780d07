import Mathlib.Algebra.Group.Pi.Basic
import Mathlib.Data.List.Flatten
import OpenRide.Analytics.Credits
import OpenRide.Lib.Reorder

/-!
# Folding window by window

A trip reads one thing of the books: where its own truck was left.  Everything else it does is to
add.  So trips of different trucks may be folded in either order (`commuting_accumulateTrip`), and
what a list of trips leaves behind depends on each truck's own trips and their order alone.

The live agent folds the trips of a run window by window, each window sorted by itself; where no
truck completes two trips at once, every truck's trips come in the same order as in one sorted
list.  Hence the totals are the same (`windows_sameTotals`).  What is not the same is what the first
or the last trip decides: the names in the accounts, the end points drawn for a lane.
-/

namespace OpenRide.Analytics

open Lib

/-! ## One trip -/

namespace Breakdowns

variable {R : RunData} {s : Breakdowns} {t : Trip} {truckId : String}

theorem accumulateTrip_of_none (ht : t.truckId = none) : s.accumulateTrip R t = s := by
  rw [accumulateTrip, ht]

theorem truckAcc_accumulateTrip (ht : t.truckId = some truckId) :
    (s.accumulateTrip R t).truckAcc =
      s.truckAcc.amend truckId (newTruckAcc truckId t.haulierId t.haulierName)
        (·.drive ((s.truckAccOf truckId t).activityOf R.toGeometry t) t) := by
  rw [accumulateTrip, ht]
  exact truckAcc_recordShare t _

theorem laneAcc_accumulateTrip (ht : t.truckId = some truckId) :
    (s.accumulateTrip R t).laneAcc = foldLoadedLane R.toGeometry t s.laneAcc := by
  rw [accumulateTrip, ht]
  exact congrArg (foldLoadedLane R.toGeometry t) (laneAcc_recordShare t _)

theorem sharedTripCount_accumulateTrip (ht : t.truckId = some truckId) :
    (s.accumulateTrip R t).sharedTripCount =
      s.sharedTripCount + if t.collaboration.shared then 1 else 0 := by
  rw [accumulateTrip, ht]
  show (recordShare t _).sharedTripCount = _
  rw [recordShare]
  split
  · rfl
  · rfl

theorem runningBenefitKm_accumulateTrip (ht : t.truckId = some truckId) :
    (s.accumulateTrip R t).runningBenefitKm =
      s.runningBenefitKm +
        if t.collaboration.shared then t.collaboration.benefitKm.orZero else 0 := by
  rw [accumulateTrip, ht]
  show (recordShare t _).runningBenefitKm = _
  rw [recordShare]
  split
  · rfl
  · exact (add_zero _).symm

theorem truckAccOf_congr {s s' : Breakdowns}
    (h : s.truckAcc.get? truckId = s'.truckAcc.get? truckId)
    (t : Trip) : s.truckAccOf truckId t = s'.truckAccOf truckId t := by
  rw [truckAccOf, truckAccOf, h]

end Breakdowns

/-! ## Lanes -/

/-- What a lane counts: loaded trips, loaded kilometres, and loaded trips of each haulier. -/
def Lane.counts (lane : Lane) : ℕ × ℚ × (String → ℕ) :=
  (lane.loadedTrips, lane.loadedKm, fun hid ↦ (lane.byHaulier.get? hid).getD 0)

/-- One loaded leg more in the counts. -/
def countLoad (hid : String) (km : ℚ) (c : ℕ × ℚ × (String → ℕ)) : ℕ × ℚ × (String → ℕ) :=
  c + (1, km, fun x ↦ if x = hid then 1 else 0)

theorem Lane.counts_load (hid name : String) (km : ℚ) (lane : Lane) :
    (lane.load hid name km).counts = countLoad hid km lane.counts := by
  refine Prod.ext rfl (Prod.ext rfl (funext fun x ↦ ?_))
  show ((lane.byHaulier.amend hid 0 (· + 1)).get? x).getD 0 =
    (lane.byHaulier.get? x).getD 0 + if x = hid then 1 else 0
  rw [Dict.get?_amend]
  split
  · next hx =>
    rw [hx]
    rfl
  · rfl

/-- The lane a trip loads, if it is one, and its loaded kilometres. -/
theorem foldLoadedLane_cases (G : Geometry) (t : Trip) :
    (∀ lanes, foldLoadedLane G t lanes = lanes) ∨
      ∃ key lane km, lane.counts = (0, 0, fun _ ↦ 0) ∧ ∀ lanes, foldLoadedLane G t lanes =
        lanes.amend key lane (·.load t.haulierId t.haulierName km) := by
  cases hfrom : t.facilityResourceId .pickup with
  | none => exact Or.inl fun lanes ↦ by rw [foldLoadedLane, hfrom]
  | some fromFac =>
    cases hto : t.facilityResourceId .dropoff with
    | none => exact Or.inl fun lanes ↦ by rw [foldLoadedLane, hfrom, hto]
    | some toFac =>
      by_cases hne : fromFac = toFac
      · exact Or.inl fun lanes ↦ by simp only [foldLoadedLane, hfrom, hto, if_pos hne]
      · refine Or.inr ⟨(fromFac, toFac),
          { fromFac, toFac, fromLoc := t.pickupLoc, toLoc := t.dropoffLoc },
          (t.loadedKmOf G).getD 0, rfl, fun lanes ↦ ?_⟩
        simp only [foldLoadedLane, hfrom, hto, if_neg hne]

/-- The same lanes, as far as they count. -/
def SameLanes (l l' : Dict (String × String) Lane) : Prop :=
  ∀ key, l.look Lane.counts key = l'.look Lane.counts key

theorem SameLanes.foldLoadedLane {l l' : Dict (String × String) Lane} (h : SameLanes l l')
    (G : Geometry) (t : Trip) : SameLanes (foldLoadedLane G t l) (foldLoadedLane G t l') := by
  rcases foldLoadedLane_cases G t with hnone | ⟨key, lane, km, -, hsome⟩
  · rw [hnone, hnone]
    exact h
  · rw [hsome, hsome]
    exact Dict.look_amend_congr (Lane.counts_load _ _ _) (Lane.counts_load _ _ _) rfl h

theorem foldLoadedLane_comm (G : Geometry) (t t' : Trip) (l : Dict (String × String) Lane) :
    SameLanes (foldLoadedLane G t (foldLoadedLane G t' l))
      (foldLoadedLane G t' (foldLoadedLane G t l)) := by
  rcases foldLoadedLane_cases G t with hnone | ⟨key, lane, km, hlane, hsome⟩
  · rw [hnone, hnone]
    exact fun _ ↦ rfl
  · rcases foldLoadedLane_cases G t' with hnone' | ⟨key', lane', km', hlane', hsome'⟩
    · rw [hnone', hnone']
      exact fun _ ↦ rfl
    · rw [hsome, hsome', hsome', hsome]
      exact Dict.look_amend_comm (Lane.counts_load _ _ _) (Lane.counts_load _ _ _)
        (fun m ↦ add_right_comm _ _ _) (fun _ ↦ hlane'.trans hlane.symm) l

/-! ## The same totals -/

namespace Breakdowns

/-- The same books, but for the order of the accounts, for names, and for the end points drawn for
a lane. -/
structure SameTotals (s s' : Breakdowns) : Prop where
  trucks : ∀ truckId, s.truckAcc.get? truckId = s'.truckAcc.get? truckId
  hauliers : HaulierBooks.Same s.haulierAcc s'.haulierAcc
  lanes : SameLanes s.laneAcc s'.laneAcc
  sharedTripCount : s.sharedTripCount = s'.sharedTripCount
  runningBenefitKm : s.runningBenefitKm = s'.runningBenefitKm

variable (R : RunData)

theorem SameTotals.refl (s : Breakdowns) : s.SameTotals s :=
  ⟨fun _ ↦ rfl, HaulierBooks.Same.refl _, fun _ ↦ rfl, rfl, rfl⟩

theorem SameTotals.symm {s s' : Breakdowns} (h : s.SameTotals s') : s'.SameTotals s :=
  ⟨fun k ↦ (h.trucks k).symm, h.hauliers.symm, fun k ↦ (h.lanes k).symm, h.sharedTripCount.symm,
    h.runningBenefitKm.symm⟩

theorem SameTotals.trans {s s' s'' : Breakdowns} (h : s.SameTotals s') (h' : s'.SameTotals s'') :
    s.SameTotals s'' :=
  ⟨fun k ↦ (h.trucks k).trans (h'.trucks k), h.hauliers.trans h'.hauliers,
    fun k ↦ (h.lanes k).trans (h'.lanes k), h.sharedTripCount.trans h'.sharedTripCount,
    h.runningBenefitKm.trans h'.runningBenefitKm⟩

theorem SameTotals.accumulateTrip {s s' : Breakdowns} (h : s.SameTotals s') (t : Trip) :
    (s.accumulateTrip R t).SameTotals (s'.accumulateTrip R t) := by
  cases ht : t.truckId with
  | none =>
    rw [accumulateTrip_of_none ht, accumulateTrip_of_none ht]
    exact h
  | some truckId =>
    have hacc := truckAccOf_congr (h.trucks truckId) t
    refine ⟨fun k ↦ ?_, ?_, ?_, ?_, ?_⟩
    · rw [truckAcc_accumulateTrip ht, truckAcc_accumulateTrip ht, Dict.get?_amend,
        Dict.get?_amend, hacc, h.trucks, h.trucks]
    · rw [haulierAcc_accumulateTrip ht, haulierAcc_accumulateTrip ht, hacc]
      exact h.hauliers.posts _
    · rw [laneAcc_accumulateTrip ht, laneAcc_accumulateTrip ht]
      exact h.lanes.foldLoadedLane _ t
    · rw [sharedTripCount_accumulateTrip ht, sharedTripCount_accumulateTrip ht, h.sharedTripCount]
    · rw [runningBenefitKm_accumulateTrip ht, runningBenefitKm_accumulateTrip ht,
        h.runningBenefitKm]

/-- **Trips of different trucks may be folded in either order.** -/
theorem accumulateTrip_comm {t t' : Trip} (hne : t.truckId ≠ t'.truckId) (s : Breakdowns) :
    ((s.accumulateTrip R t).accumulateTrip R t').SameTotals
      ((s.accumulateTrip R t').accumulateTrip R t) := by
  cases ht : t.truckId with
  | none =>
    rw [accumulateTrip_of_none ht, accumulateTrip_of_none ht]
    exact SameTotals.refl _
  | some truckId =>
    cases ht' : t'.truckId with
    | none =>
      rw [accumulateTrip_of_none ht', accumulateTrip_of_none ht']
      exact SameTotals.refl _
    | some truckId' =>
      have hids : truckId ≠ truckId' := fun h ↦ hne (by rw [ht, ht', h])
      -- neither trip reads the account the other moves
      have hacc : (s.accumulateTrip R t').truckAccOf truckId t = s.truckAccOf truckId t :=
        truckAccOf_congr (by rw [truckAcc_accumulateTrip ht', Dict.get?_amend_ne _ _ _ hids]) t
      have hacc' : (s.accumulateTrip R t).truckAccOf truckId' t' = s.truckAccOf truckId' t' :=
        truckAccOf_congr (by rw [truckAcc_accumulateTrip ht, Dict.get?_amend_ne _ _ _ hids.symm]) t'
      refine ⟨fun k ↦ ?_, ?_, ?_, ?_, ?_⟩
      · rw [truckAcc_accumulateTrip ht', truckAcc_accumulateTrip ht, hacc',
          truckAcc_accumulateTrip ht, truckAcc_accumulateTrip ht', hacc]
        exact Dict.get?_amend_comm hids _ _ _ _ _ k
      · rw [haulierAcc_accumulateTrip ht', haulierAcc_accumulateTrip ht, hacc',
          haulierAcc_accumulateTrip ht, haulierAcc_accumulateTrip ht', hacc]
        exact HaulierBooks.posts_comm _ _ _
      · rw [laneAcc_accumulateTrip ht', laneAcc_accumulateTrip ht, laneAcc_accumulateTrip ht,
          laneAcc_accumulateTrip ht']
        exact foldLoadedLane_comm _ t' t s.laneAcc
      · simp only [sharedTripCount_accumulateTrip ht', sharedTripCount_accumulateTrip ht]
        exact add_right_comm _ _ _
      · simp only [runningBenefitKm_accumulateTrip ht', runningBenefitKm_accumulateTrip ht]
        exact add_right_comm _ _ _

theorem commuting_accumulateTrip : Commuting SameTotals (accumulateTrip R) Trip.truckId where
  equivalence := ⟨SameTotals.refl, SameTotals.symm, SameTotals.trans⟩
  congr t _ _ h := h.accumulateTrip R t
  comm hne s := accumulateTrip_comm R hne s

/-! ## Windows -/

/-- No truck completes two trips at the same instant. -/
def OneAtATime (trips : List Trip) : Prop :=
  trips.Pairwise fun t t' ↦ t.truckId.isSome → t.truckId = t'.truckId → t.sortKey ≠ t'.sortKey

/-- Each window is over when the next begins. -/
def Consecutive (windows : List (List Trip)) : Prop :=
  windows.Pairwise fun w w' ↦ ∀ t ∈ w, ∀ t' ∈ w', t.sortKey ≤ t'.sortKey

variable {R}

theorem foldl_filter_truck (l : List Trip) (s : Breakdowns) :
    (l.filter fun t ↦ t.truckId.isSome).foldl (accumulateTrip R) s =
      l.foldl (accumulateTrip R) s := by
  induction l generalizing s with
  | nil => rfl
  | cons t l ih =>
    rw [List.filter_cons, List.foldl_cons]
    split
    · exact ih _
    · next ht =>
      rw [accumulateTrip_of_none (Option.not_isSome_iff_eq_none.mp ht)]
      exact ih s

/-- Two lists of the same trips, both in the order of their clocks, fold to the same totals. -/
theorem sameTotals_of_sorted {l l' : List Trip} (hperm : l.Perm l')
    (hl : l.Pairwise fun a b ↦ a.sortKey ≤ b.sortKey)
    (hl' : l'.Pairwise fun a b ↦ a.sortKey ≤ b.sortKey) (hone : OneAtATime l) (s : Breakdowns) :
    (l.foldl (accumulateTrip R) s).SameTotals (l'.foldl (accumulateTrip R) s) := by
  rw [← foldl_filter_truck l, ← foldl_filter_truck l']
  refine (commuting_accumulateTrip R).foldl_of_filter_eq (fun k ↦ ?_) s
  refine filter_eq_of_sorted (hperm.filter _) (hl.filter _) (hl'.filter _) ?_ k
  exact List.pairwise_filter.mpr (hone.imp fun h ha _ heq ↦ h ha heq)

theorem foldl_accumulate (windows : List (List Trip)) (s : Breakdowns) :
    windows.foldl (accumulateCompletedTrips R) s =
      (windows.map (sortedBy Trip.sortKey)).flatten.foldl (accumulateTrip R) s := by
  induction windows generalizing s with
  | nil => rfl
  | cons w windows ih =>
    rw [List.foldl_cons, ih, List.map_cons, List.flatten_cons, List.foldl_append]
    rfl

/-- **Windows fold to the totals of one fold.** -/
theorem windows_sameTotals {trips : List Trip} (hone : OneAtATime trips)
    {windows : List (List Trip)} (hperm : windows.flatten.Perm trips)
    (hwindows : Consecutive windows) (s : Breakdowns) :
    (windows.foldl (accumulateCompletedTrips R) s).SameTotals
      (s.accumulateCompletedTrips R trips) := by
  have hsorted : (windows.map (sortedBy Trip.sortKey)).flatten.Pairwise
      fun a b ↦ a.sortKey ≤ b.sortKey := by
    refine List.pairwise_flatten.mpr ⟨fun w hw ↦ ?_, List.pairwise_map.mpr (hwindows.imp ?_)⟩
    · obtain ⟨w, -, rfl⟩ := List.mem_map.mp hw
      exact sortedBy_pairwise _ w
    · exact fun h t ht t' ht' ↦ h t (mem_sortedBy.mp ht) t' (mem_sortedBy.mp ht')
  have hflat : (windows.map (sortedBy Trip.sortKey)).flatten.Perm windows.flatten := by
    clear hperm hwindows hsorted
    induction windows with
    | nil => exact List.Perm.refl _
    | cons w windows ih => exact (sortedBy_perm _ w).append ih
  have hall : (windows.map (sortedBy Trip.sortKey)).flatten.Perm (sortedBy Trip.sortKey trips) :=
    (hflat.trans hperm).trans (sortedBy_perm _ trips).symm
  rw [foldl_accumulate]
  refine sameTotals_of_sorted hall hsorted (sortedBy_pairwise _ trips) ?_ s
  refine ((hflat.trans hperm).pairwise_iff fun {a b} h hb heq ↦ ?_).mpr hone
  exact (h (heq ▸ hb) heq.symm).symm

end Breakdowns

end OpenRide.Analytics
