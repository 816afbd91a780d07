import OpenRide.Analytics.WindowFold
import OpenRide.Analytics.Ledgers
import OpenRide.Lib.Ranking
import Mathlib.Data.List.MinMax
import Mathlib.Data.Prod.Lex

/-!
# Backhaul rows

Two facilities between which loaded trips run in both directions make a row: the trips that drive
back empty could be paired.  A row names the haulier with the most trips in each direction, the
strongest 200 rows are published.

The lanes count the trips folded (`lanesCount_foldl`), and the loop over them makes one row for each
corridor, whichever of its two lanes was opened first (`rowsFrom_spec`).
-/

namespace OpenRide.Analytics

open Lib

/-! ## The rows -/

/-- `_loc_coords`. -/
def Location.coords : Location → Option (ℚ × ℚ)
  | point lon lat => some (lon, lat)
  | _ => none

namespace Lane

/-- `_top`: the haulier with the most trips, the first of them. -/
def topHaulier (lane : Lane) : Option String :=
  lane.byHaulier.keys.argmax fun hid ↦ (lane.byHaulier.get? hid).getD 0

def topHaulierName (lane : Lane) : Option String := lane.topHaulier.bind lane.haulierNames.get?

end Lane

/-- A row of the lane breakdown. -/
structure LaneRow where
  a : String
  b : String
  aLoc : Option (ℚ × ℚ)
  bLoc : Option (ℚ × ℚ)
  abTrips : ℕ
  baTrips : ℕ
  abTopHaulier : Option String
  abTopHaulierName : Option String
  baTopHaulier : Option String
  baTopHaulierName : Option String
  backhaulStrength : ℕ
  crossHaulier : Bool
  loadedKm : ℚ

namespace LaneRow

/-- `f"{a}|{b}"`. -/
def id (r : LaneRow) : String := r.a ++ "|" ++ r.b

/-- What rows are sorted by. -/
def rank (r : LaneRow) : ℕ ×ₗ ℕ := toLex (r.backhaulStrength, r.abTrips + r.baTrips)

/-- The key of a sort that begins with the strongest. -/
def key (r : LaneRow) : (ℕ ×ₗ ℕ)ᵒᵈ := OrderDual.toDual r.rank

end LaneRow

/-- The row of a corridor. -/
def laneRow (ends : String × String) (fwd rev : Lane) : LaneRow where
  a := ends.1
  b := ends.2
  aLoc := fwd.fromLoc.coords
  bLoc := fwd.toLoc.coords
  abTrips := fwd.loadedTrips
  baTrips := rev.loadedTrips
  abTopHaulier := fwd.topHaulier
  abTopHaulierName := fwd.topHaulierName
  baTopHaulier := rev.topHaulier
  baTopHaulierName := rev.topHaulierName
  backhaulStrength := min fwd.loadedTrips rev.loadedTrips
  crossHaulier := fwd.topHaulier.isSome && rev.topHaulier.isSome &&
    fwd.topHaulier != rev.topHaulier
  loadedKm := pyRound 2 (fwd.loadedKm + rev.loadedKm)

/-- The loop over the lanes: a lane whose way back was met before is passed over. -/
def rowsFrom (lanes : Dict (String × String) Lane) :
    List (String × String) → List ((String × String) × Lane) → List LaneRow
  | _, [] => []
  | seen, (key, fwd) :: rest =>
    if key ∈ seen then rowsFrom lanes seen rest
    else
      match lanes.get? key.swap with
      | none => rowsFrom lanes (key :: seen) rest
      | some rev =>
        if fwd.loadedTrips = 0 ∨ rev.loadedTrips = 0 then
          rowsFrom lanes (key.swap :: key :: seen) rest
        else laneRow key fwd rev :: rowsFrom lanes (key.swap :: key :: seen) rest

/-- The rows before the cap, the strongest first. -/
def laneRows (lanes : Dict (String × String) Lane) : List LaneRow :=
  sortedBy LaneRow.key (rowsFrom lanes [] lanes.entries)

/-- `build_lane_breakdown`. -/
def buildLaneBreakdown (lanes : Dict (String × String) Lane) : List LaneRow :=
  (laneRows lanes).take 200

/-- The lanes after all windows. -/
def foldedLanes (R : RunData) (windows : List (List Trip)) : Dict (String × String) Lane :=
  (windows.foldl (Breakdowns.accumulateCompletedTrips R) {}).laneAcc

/-! ## What the lanes count -/

/-- The lane a trip loads, if it is one. -/
def Trip.lane (t : Trip) : Option (String × String) :=
  match t.truckId, t.facilityResourceId .pickup, t.facilityResourceId .dropoff with
  | some _, some fromFac, some toFac => if fromFac = toFac then none else some (fromFac, toFac)
  | _, _, _ => none

/-- How many trips are loaded on a lane. -/
def loads (trips : List Trip) (lane : String × String) : ℕ := trips.countP fun t ↦
    t.lane = some lane

/-- How many of them a haulier drives. -/
def loadsBy (trips : List Trip) (lane : String × String) (hid : String) : ℕ :=
  trips.countP fun t ↦ t.lane = some lane ∧ t.haulierId = hid

/-- The loaded kilometres of a lane. -/
def kmOn (G : Geometry) (trips : List Trip) (lane : String × String) : ℚ :=
  ((trips.filter fun t ↦ t.lane = some lane).map fun t ↦ (t.loadedKmOf G).getD 0).sum

/-- The account of a lane after some trips. -/
structure Lane.CountsOf (G : Geometry) (trips : List Trip) (k : String × String) (lane : Lane) :
    Prop where
  loaded : lane.loadedTrips = loads trips k
  km : lane.loadedKm = kmOn G trips k
  byHaulier : ∀ hid, (lane.byHaulier.get? hid).getD 0 = loadsBy trips k hid
  hauliers : ∀ hid ∈ lane.byHaulier.keys, 0 < loadsBy trips k hid

/-- The lanes after some trips. -/
structure LanesCount (G : Geometry) (trips : List Trip) (lanes : Dict (String × String) Lane) :
    Prop where
  counted : ∀ k lane, lanes.get? k = some lane → lane.CountsOf G trips k ∧ 0 < loads trips k
  missing : ∀ k, lanes.get? k = none → loads trips k = 0

section

variable {R : RunData} {G : Geometry} {trips : List Trip} {t : Trip} {k : String × String}
  {lanes : Dict (String × String) Lane}

theorem loads_concat (trips : List Trip) (t : Trip) (k : String × String) :
    loads (trips ++ [t]) k = loads trips k + if t.lane = some k then 1 else 0 := by
  simp [loads, List.countP_append, List.countP_singleton]

theorem loadsBy_concat (trips : List Trip) (t : Trip) (k : String × String) (hid : String) :
    loadsBy (trips ++ [t]) k hid =
      loadsBy trips k hid + if t.lane = some k ∧ t.haulierId = hid then 1 else 0 := by
  simp [loadsBy, List.countP_append, List.countP_singleton]

theorem kmOn_concat (G : Geometry) (trips : List Trip) (t : Trip) (k : String × String) :
    kmOn G (trips ++ [t]) k =
      kmOn G trips k + if t.lane = some k then (t.loadedKmOf G).getD 0 else 0 := by
  rw [kmOn, List.filter_append, List.map_append, List.sum_append, kmOn]
  split
  · next h => simp [h]
  · next h => simp [h]

theorem loads_eq_zero_of_loadsBy (h : loads trips k = 0) (hid : String) :
    loadsBy trips k hid = 0 := by
  rw [loads, List.countP_eq_zero] at h
  refine List.countP_eq_zero.mpr fun t ht ↦ ?_
  simpa using fun hlane ↦ absurd hlane (by simpa using h t ht)

theorem laneAcc_of_lane (s : Breakdowns) (h : t.lane = some k) :
    (s.accumulateTrip R t).laneAcc =
      s.laneAcc.amend k
        { fromFac := k.1, toFac := k.2, fromLoc := t.pickupLoc, toLoc := t.dropoffLoc }
        (·.load t.haulierId t.haulierName ((t.loadedKmOf R.toGeometry).getD 0)) := by
  rw [Trip.lane] at h
  split at h
  · next truckId fromFac toFac htruck hfrom hto =>
    split at h
    · cases h
    · next hne =>
      cases h
      rw [Breakdowns.laneAcc_accumulateTrip htruck]
      simp only [foldLoadedLane, hfrom, hto, if_neg hne]
  · cases h

theorem laneAcc_of_no_lane (s : Breakdowns) (h : t.lane = none) :
    (s.accumulateTrip R t).laneAcc = s.laneAcc := by
  cases htruck : t.truckId with
  | none => rw [Breakdowns.accumulateTrip_of_none htruck]
  | some truckId =>
    rw [Breakdowns.laneAcc_accumulateTrip htruck, foldLoadedLane]
    split
    · next fromFac toFac hfrom hto =>
      simp only [Trip.lane, htruck, hfrom, hto, ite_eq_left_iff, reduceCtorEq, imp_false,
        not_not] at h
      rw [if_pos h]
    · rfl

theorem Lane.CountsOf.load {lane : Lane} (h : lane.CountsOf G trips k) (ht : t.lane = some k) :
    (lane.load t.haulierId t.haulierName ((t.loadedKmOf G).getD 0)).CountsOf G
      (trips ++ [t]) k where
  loaded := by rw [loads_concat, if_pos ht, ← h.loaded]; rfl
  km := by rw [kmOn_concat, if_pos ht, ← h.km]; rfl
  byHaulier hid := by
    show ((lane.byHaulier.amend t.haulierId 0 (· + 1)).get? hid).getD 0 = _
    rw [loadsBy_concat, ← h.byHaulier, Dict.get?_amend]
    by_cases hhid : hid = t.haulierId
    · rw [if_pos hhid, if_pos ⟨ht, hhid.symm⟩, hhid]
      rfl
    · rw [if_neg hhid, if_neg fun hboth ↦ hhid hboth.2.symm, add_zero]
  hauliers hid hmem := by
    rw [loadsBy_concat]
    obtain ⟨n, hn⟩ := Dict.mem_keys_iff.mp hmem
    by_cases hhid : hid = t.haulierId
    · rw [if_pos ⟨ht, hhid.symm⟩]
      omega
    · have hold : lane.byHaulier.get? hid = some n := by rwa [← Dict.get?_amend_ne _ 0 (· + 1) hhid]
      have hpos := h.hauliers hid (Dict.mem_keys_iff.mpr ⟨n, hold⟩)
      omega

theorem Lane.CountsOf.other {lane : Lane} (h : lane.CountsOf G trips k) (ht : t.lane ≠ some k) :
    lane.CountsOf G (trips ++ [t]) k where
  loaded := by rw [loads_concat, if_neg ht, add_zero, h.loaded]
  km := by rw [kmOn_concat, if_neg ht, add_zero, h.km]
  byHaulier hid := by rw [loadsBy_concat, if_neg fun hboth ↦ ht hboth.1, add_zero, h.byHaulier]
  hauliers hid hmem := by
    rw [loadsBy_concat]
    exact Nat.add_pos_left (h.hauliers hid hmem) _

theorem LanesCount.accumulateTrip {s : Breakdowns} (h : LanesCount R.toGeometry trips s.laneAcc)
    (t : Trip) : LanesCount R.toGeometry (trips ++ [t]) (s.accumulateTrip R t).laneAcc := by
  cases hlane : t.lane with
  | none =>
    have hother : ∀ k, t.lane ≠ some k := by simp [hlane]
    rw [laneAcc_of_no_lane s hlane]
    refine ⟨fun k lane hk ↦ ?_, fun k hk ↦ ?_⟩
    · rw [loads_concat, if_neg (hother k)]
      exact ⟨(h.counted k lane hk).1.other (hother k), (h.counted k lane hk).2⟩
    · rw [loads_concat, if_neg (hother k), h.missing k hk]
  | some k =>
    rw [laneAcc_of_lane s hlane]
    refine ⟨fun x lane hx ↦ ?_, fun x hx ↦ ?_⟩
    · rw [Dict.get?_amend] at hx
      split at hx
      · next hxk =>
        subst hxk
        cases hx
        refine ⟨?_, by rw [loads_concat, if_pos hlane]; omega⟩
        cases hold : s.laneAcc.get? x with
        | some lane => exact (h.counted x lane hold).1.load hlane
        | none =>
          have hzero := h.missing x hold
          have hnone : (trips.filter fun t ↦ t.lane = some x) = [] :=
            List.filter_eq_nil_iff.mpr (List.countP_eq_zero.mp hzero)
          refine Lane.CountsOf.load ⟨hzero.symm, ?_, fun hid ↦ ?_, fun hid hmem ↦ ?_⟩ hlane
          · rw [kmOn, hnone]
            rfl
          · exact (loads_eq_zero_of_loadsBy hzero hid).symm
          · cases hmem
      · next hxk =>
        have hne : t.lane ≠ some x := by
          rw [hlane]
          exact fun heq ↦ hxk (Option.some_inj.mp heq).symm
        obtain ⟨hcounts, hpos⟩ := h.counted x lane hx
        exact ⟨hcounts.other hne, by rw [loads_concat, if_neg hne]; exact hpos⟩
    · rw [Dict.get?_amend] at hx
      split at hx
      · cases hx
      · next hxk =>
        have hne : t.lane ≠ some x := by
          rw [hlane]
          exact fun heq ↦ hxk (Option.some_inj.mp heq).symm
        rw [loads_concat, if_neg hne, h.missing x hx]

/-- **The lanes count the trips folded.** -/
theorem lanesCount_foldl (R : RunData) (trips : List Trip) :
    LanesCount R.toGeometry trips (trips.foldl (Breakdowns.accumulateTrip R) {}).laneAcc := by
  induction trips using List.reverseRecOn with
  | nil =>
    refine ⟨fun k lane h ↦ ?_, fun _ _ ↦ rfl⟩
    cases h
  | append_singleton trips t ih =>
    rw [List.foldl_append]
    exact ih.accumulateTrip t

end

/-! ## One row for each corridor -/

/-- Is this the row of `a` and `b`? -/
def LaneRow.Joins (a b : String) (r : LaneRow) : Prop :=
  r.a = a ∧ r.b = b ∨ r.a = b ∧ r.b = a

instance (a b : String) (r : LaneRow) : Decidable (r.Joins a b) :=
  inferInstanceAs (Decidable (_ ∨ _))

/-- The rows that the loop makes of the lanes with the given keys. -/
structure RowsOf (lanes : Dict (String × String) Lane) (seen keys : List (String × String))
    (rows : List LaneRow) : Prop where
  made : ∀ r ∈ rows, ∃ fwd rev, lanes.get? (r.a, r.b) = some fwd ∧
      lanes.get? (r.b, r.a) = some rev ∧
    r = laneRow (r.a, r.b) fwd rev
  unseen : ∀ r ∈ rows, (r.a, r.b) ∉ seen
  covers : ∀ k ∈ keys, k ∉ seen → ∀ rev, lanes.get? k.swap = some rev → ∃ r ∈ rows, r.Joins k.1 k.2
  apart : rows.Pairwise fun r r' ↦ ¬ r'.Joins r.a r.b

section

variable {lanes : Dict (String × String) Lane} {k : String × String} {fwd rev : Lane}

theorem rowsFrom_cons (hfwd : fwd.loadedTrips ≠ 0) (hrev : rev.loadedTrips ≠ 0)
    {seen : List (String × String)} (hseen : k ∉ seen) (hback : lanes.get? k.swap = some rev)
    (rest : List ((String × String) × Lane)) : rowsFrom lanes seen ((k, fwd) :: rest) =
      laneRow k fwd rev :: rowsFrom lanes (k.swap :: k :: seen) rest := by
  have hloaded : ¬ (fwd.loadedTrips = 0 ∨ rev.loadedTrips = 0) := by tauto
  rw [rowsFrom, if_neg hseen, hback]
  exact if_neg hloaded

/-- **Each corridor makes one row**, the first of its lanes says which way round. -/
theorem rowsFrom_spec (hloaded : ∀ k lane, lanes.get? k = some lane → lane.loadedTrips ≠ 0)
    {entries : List ((String × String) × Lane)} (hnodup : (entries.map Prod.fst).Nodup)
    (hentries : ∀ p ∈ entries, lanes.get? p.1 = some p.2) (seen : List (String × String)) :
    RowsOf lanes seen (entries.map Prod.fst) (rowsFrom lanes seen entries) := by
  induction entries generalizing seen with
  | nil =>
    have hnone : ∀ r, r ∉ rowsFrom lanes seen [] := fun _ ↦ List.not_mem_nil
    exact ⟨fun r hr ↦ absurd hr (hnone r), fun r hr ↦ absurd hr (hnone r),
      nofun, List.Pairwise.nil⟩
  | cons p rest ih =>
    obtain ⟨k, fwd⟩ := p
    obtain ⟨hfwd, hrest⟩ := List.forall_mem_cons.mp hentries
    obtain ⟨hnew, hnodup⟩ := List.nodup_cons.mp hnodup
    have ih := ih hnodup hrest
    by_cases hseen : k ∈ seen
    · rw [rowsFrom, if_pos hseen]
      refine ⟨(ih seen).made, (ih seen).unseen, fun x hx hunseen ↦ ?_, (ih seen).apart⟩
      refine (ih seen).covers x ((List.mem_cons.mp hx).resolve_left ?_) hunseen
      rintro rfl
      exact hunseen hseen
    · cases hback : lanes.get? k.swap with
      | none =>
        rw [rowsFrom, if_neg hseen, hback]
        obtain ⟨hmade, hunseen, hcovers, hapart⟩ := ih (k :: seen)
        refine ⟨hmade, fun r hr ↦ fun h ↦ hunseen r hr (List.mem_cons_of_mem _ h),
          fun x hx hxseen rev hrev ↦ ?_, hapart⟩
        have hxk : x ≠ k := by
          rintro rfl
          exact absurd (hback.symm.trans hrev) (by simp)
        exact hcovers x ((List.mem_cons.mp hx).resolve_left hxk)
          (fun h ↦ (List.mem_cons.mp h).elim hxk hxseen) rev hrev
      | some rev =>
        rw [rowsFrom_cons (hloaded k fwd hfwd) (hloaded _ rev hback) hseen hback]
        obtain ⟨hmade, hunseen, hcovers, hapart⟩ := ih (k.swap :: k :: seen)
        refine ⟨fun r hr ↦ ?_, fun r hr ↦ ?_, fun x hx hxseen rev' hrev' ↦ ?_, ?_⟩
        · rcases List.mem_cons.mp hr with rfl | hr
          · exact ⟨fwd, rev, hfwd, hback, rfl⟩
          · exact hmade r hr
        · rcases List.mem_cons.mp hr with rfl | hr
          · exact hseen
          · exact fun h ↦ hunseen r hr (List.mem_cons_of_mem _ (List.mem_cons_of_mem _ h))
        · by_cases hxk : x = k ∨ x = k.swap
          · refine ⟨_, List.mem_cons_self, ?_⟩
            rcases hxk with rfl | rfl
            · exact Or.inl ⟨rfl, rfl⟩
            · exact Or.inr ⟨rfl, rfl⟩
          · rw [not_or] at hxk
            have hx := (List.mem_cons.mp hx).resolve_left hxk.1
            obtain ⟨r, hr, hjoins⟩ := hcovers x hx (by simp [hxk, hxseen]) rev' hrev'
            exact ⟨r, List.mem_cons_of_mem _ hr, hjoins⟩
        · refine List.pairwise_cons.mpr ⟨fun r hr hjoins ↦ hunseen r hr ?_, hapart⟩
          rcases hjoins with ⟨ha, hb⟩ | ⟨ha, hb⟩
          · rw [ha, hb]
            exact List.mem_cons_of_mem _ List.mem_cons_self
          · rw [ha, hb]
            exact List.mem_cons_self

end

end OpenRide.Analytics
