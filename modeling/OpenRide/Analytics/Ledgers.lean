import Mathlib.Data.Rat.Floor
import OpenRide.Analytics.Credits

/-!
# The ledgers balance

The books balance because every trip is entered twice.  Its truck and its carrier are credited the
same activity; a shared job is credited to its carrier as carried, to its owner as shared out, and
to the run; each of a carrier's trips brings two arrivals, priced or counted under one of the four
reasons.  `ledgers_balance` says so of the books any sequence of windows leaves behind.

The benefits add up to what the run keeps as its total.  The KPI publishes that total rounded to
three decimals, so a benefit that has more of them may be lost to it (`benefit_rounded_away`).
-/

namespace OpenRide.Analytics

open Lib

variable {book : RebateBook}

/-! ## What must balance -/

/-- The rebate ledger of an account that made `trips` trips: two arrivals a trip, each priced or
counted under one reason, and every credit under its leg. -/
structure Rebates.Settled (r : Rebates) (trips : ℕ) : Prop where
  arrivals : r.arrivalsPriced + (r.unpricedNoSchedule + r.unpricedNoStamp +
    r.unpricedNoFacilityId + r.unpricedUnparseable) = 2 * trips
  reasons : r.arrivalsUnpriced = r.unpricedNoSchedule + r.unpricedNoStamp +
    r.unpricedNoFacilityId + r.unpricedUnparseable
  credited : r.rebateCredited = r.rebateCreditedPickup + r.rebateCreditedDropoff

/-- The collaboration gains of all hauliers together, when `n` jobs were shared and saved `km`. -/
structure Sharing.Entered (c : Sharing) (n : ℕ) (km : ℚ) : Prop where
  carried : c.jobsCarriedForPartners = n
  sharedOut : c.jobsSharedOut = n
  defined : c.benefitDefinedN + c.jobsEnabled = n
  benefit : c.benefitKmReceived = km

/-- Every trip has been entered on both sides. -/
structure Breakdowns.Balanced (s : Breakdowns) : Prop where
  activity : s.truckAcc.total TruckAcc.toActivity = s.haulierAcc.total HaulierAcc.toActivity
  settled : ∀ hid h, s.haulierAcc.get? hid = some h → h.toRebates.Settled h.tripCount
  entered : (s.haulierAcc.total HaulierAcc.toSharing).Entered s.sharedTripCount s.runningBenefitKm

/-- A shared trip names the owner of its job, and its benefit is a number or absent. -/
def Trip.NamesOwner (t : Trip) : Prop :=
  t.collaboration.shared = true →
    (∃ ownerId, t.ownerId = some ownerId) ∧ t.collaboration.benefitKm.NumericOrAbsent

/-! ## One trip -/

theorem Rebates.Settled.credit {r : Rebates} {n : ℕ} (h : r.Settled n) (t : Trip) (leg leg' : Leg) :
    (r + (book.arrivalRebates t leg + book.arrivalRebates t leg')).Settled (n + 1) := by
  obtain ⟨harr, hreasons, hcred⟩ := h
  -- one arrival is priced, or counted under one reason
  have hone : ∀ leg, let a := book.arrivalRebates t leg
      a.arrivalsPriced + (a.unpricedNoSchedule + a.unpricedNoStamp + a.unpricedNoFacilityId +
        a.unpricedUnparseable) = 1 ∧
      a.arrivalsUnpriced = a.unpricedNoSchedule + a.unpricedNoStamp + a.unpricedNoFacilityId +
        a.unpricedUnparseable ∧
      a.rebateCredited = a.rebateCreditedPickup + a.rebateCreditedDropoff := by
    intro leg
    simp only [RebateBook.arrivalRebates]
    cases book.arrivalPrice t leg with
    | error reason => cases reason <;> simp [unpriced]
    | ok amount => cases leg <;> simp [priced]
  obtain ⟨h₁, h₂, h₃⟩ := hone leg
  obtain ⟨h₁', h₂', h₃'⟩ := hone leg'
  constructor <;> simp only [Rebates.add_def, Rebates.add]
  · omega
  · omega
  · linarith

/-- A job entered with its carrier and with its owner. -/
theorem Sharing.Entered.share {c : Sharing} {n : ℕ} {km : ℚ} (h : c.Entered n km)
    {benefit : Quantity} (hb : benefit.NumericOrAbsent) :
    (c + { jobsCarriedForPartners := 1 } + .sharedOut benefit).Entered (n + 1)
      (km + benefit.orZero) := by
  obtain ⟨hcarried, hout, hdefined, hkm⟩ := h
  cases benefit with
  | null =>
    constructor <;> simp only [Sharing.add_def, Sharing.add, Sharing.sharedOut, Quantity.orZero,
        Quantity.float]
    · omega
    · omega
    · omega
    · rw [hkm, Option.getD_none, add_zero]
  | num b =>
    constructor <;> simp only [Sharing.add_def, Sharing.add, Sharing.sharedOut, Quantity.orZero,
        Quantity.float]
    · omega
    · omega
    · omega
    · rw [hkm, Option.getD_some, add_zero]
  | other => exact absurd rfl hb

namespace Breakdowns

variable {R : RunData} {s : Breakdowns} {t : Trip} {truckId : String}

theorem activity_recordRun
    (h : s.truckAcc.total TruckAcc.toActivity = s.haulierAcc.total HaulierAcc.toActivity) :
    (s.recordRun R truckId t).truckAcc.total TruckAcc.toActivity =
      (s.recordRun R truckId t).haulierAcc.total HaulierAcc.toActivity := by
  simp only [recordRun]
  rw [Dict.total_amend (f := TruckAcc.toActivity) rfl fun _ ↦ rfl,
    Dict.total_amend (f := HaulierAcc.toActivity)
      (δ := (s.truckAccOf truckId t).activityOf R.toGeometry t) rfl, h]
  intro h
  rw [HaulierAcc.carry_eq_credit]
  rfl

theorem activity_recordShare :
    (s.recordShare t).haulierAcc.total HaulierAcc.toActivity =
      s.haulierAcc.total HaulierAcc.toActivity := by
  rw [recordShare]
  split
  · split
    · exact Dict.total_amend_of_eq (f := HaulierAcc.toActivity)
        (g := HaulierAcc.shareOut t.collaboration.benefitKm) rfl (fun _ ↦ rfl) _ _
    · rfl
  · rfl

theorem sharing_recordRun :
    (s.recordRun R truckId t).haulierAcc.total HaulierAcc.toSharing =
      s.haulierAcc.total HaulierAcc.toSharing +
        if t.collaboration.shared then { jobsCarriedForPartners := 1 } else 0 := by
  refine Dict.total_amend (f := HaulierAcc.toSharing) rfl (fun h ↦ ?_) _ _
  rw [HaulierAcc.carry_eq_credit]
  rfl

theorem settled_recordRun
    (h : ∀ hid h, s.haulierAcc.get? hid = some h → h.toRebates.Settled h.tripCount) :
    ∀ hid h, (s.recordRun R truckId t).haulierAcc.get? hid = some h →
      h.toRebates.Settled h.tripCount := by
  refine Dict.forall_amend h ⟨rfl, rfl, (add_zero 0).symm⟩ fun h hh ↦ ?_
  rw [HaulierAcc.carry_eq_credit]
  exact hh.credit t .pickup .dropoff

theorem settled_recordShare
    (h : ∀ hid h, s.haulierAcc.get? hid = some h → h.toRebates.Settled h.tripCount) :
    ∀ hid h, (s.recordShare t).haulierAcc.get? hid = some h → h.toRebates.Settled h.tripCount := by
  rw [recordShare]
  split
  · split
    · exact Dict.forall_amend h ⟨rfl, rfl, (add_zero 0).symm⟩ fun h hh ↦ hh
    · exact h
  · exact h

/-- What the carriers have been credited for the trip, the owners and the run are credited too. -/
theorem entered_recordShare (ht : t.NamesOwner) {c : Sharing}
    (hc : c.Entered s.sharedTripCount s.runningBenefitKm)
    (hs : s.haulierAcc.total HaulierAcc.toSharing =
      c + if t.collaboration.shared then { jobsCarriedForPartners := 1 } else 0) :
    ((s.recordShare t).haulierAcc.total HaulierAcc.toSharing).Entered
      (s.recordShare t).sharedTripCount (s.recordShare t).runningBenefitKm := by
  rw [recordShare]
  split
  · next hshared =>
    obtain ⟨⟨ownerId, howner⟩, hb⟩ := ht hshared
    rw [if_pos hshared] at hs
    simp only [howner]
    rw [Dict.total_amend (f := HaulierAcc.toSharing) rfl fun _ ↦ rfl, hs]
    exact hc.share hb
  · next hshared =>
    rw [if_neg hshared, add_zero] at hs
    rw [hs]
    exact hc

/-- **A trip keeps the books balanced.** -/
theorem Balanced.accumulateTrip (h : s.Balanced) (ht : t.NamesOwner) :
    (s.accumulateTrip R t).Balanced := by
  rw [Breakdowns.accumulateTrip]
  split
  · exact h
  · next truckId htruck =>
    refine ⟨?_, settled_recordShare (settled_recordRun h.settled),
      entered_recordShare ht h.entered sharing_recordRun⟩
    rw [truckAcc_recordShare, activity_recordRun h.activity]
    exact activity_recordShare.symm

theorem Balanced.accumulateCompletedTrips (h : s.Balanced) {trips : List Trip}
    (ht : ∀ t ∈ trips, t.NamesOwner) : (s.accumulateCompletedTrips R trips).Balanced := by
  have hsorted : ∀ t ∈ sortedBy Trip.sortKey trips, t.NamesOwner := fun t hm ↦
    ht t (mem_sortedBy.mp hm)
  rw [Breakdowns.accumulateCompletedTrips]
  generalize sortedBy Trip.sortKey trips = l at hsorted
  induction l generalizing s with
  | nil => exact h
  | cons t l ih =>
    obtain ⟨ht, hl⟩ := List.forall_mem_cons.mp hsorted
    exact ih (h.accumulateTrip ht) hl

end Breakdowns

/-! ## The published figures -/

/-- `round(q, places)`: the nearest decimal, the even one of two. -/
def pyRound (places : ℕ) (q : ℚ) : ℚ :=
  let scaled := q * 10 ^ places
  let rest := scaled - ⌊scaled⌋
  if rest < 1 / 2 ∨ rest = 1 / 2 ∧ ⌊scaled⌋ % 2 = 0 then ⌊scaled⌋ / 10 ^ places
  else (⌊scaled⌋ + 1) / 10 ^ places

namespace Breakdowns

/-- `total_benefit_km`. -/
def totalBenefitKm (s : Breakdowns) : ℚ := pyRound 3 s.runningBenefitKm

/-- **The KPI ledgers balance**, whatever the windows. -/
theorem ledgers_balance (R : RunData) (windows : List (List Trip))
    (hnames : ∀ w ∈ windows, ∀ t ∈ w, t.NamesOwner) :
    let s := windows.foldl (accumulateCompletedTrips R) {}
    let shared := s.haulierAcc.total HaulierAcc.toSharing
    s.truckAcc.total TruckAcc.toActivity = s.haulierAcc.total HaulierAcc.toActivity ∧
      (∀ hid h, s.haulierAcc.get? hid = some h →
        h.arrivalsPriced + (h.unpricedNoSchedule + h.unpricedNoStamp + h.unpricedNoFacilityId +
            h.unpricedUnparseable) = 2 * h.tripCount ∧
          h.rebateCredited = h.rebateCreditedPickup + h.rebateCreditedDropoff) ∧
      shared.jobsCarriedForPartners = shared.jobsSharedOut ∧
      shared.jobsSharedOut = s.sharedTripCount ∧
      shared.benefitDefinedN + shared.jobsEnabled = shared.jobsSharedOut ∧
      shared.benefitKmReceived = s.runningBenefitKm ∧
      s.totalBenefitKm = pyRound 3 shared.benefitKmReceived := by
  intro s shared
  have hbalanced : s.Balanced := by
    have hstart : Balanced {} := ⟨rfl, (fun _ _ h ↦ nomatch h), ⟨rfl, rfl, rfl, rfl⟩⟩
    show Balanced (windows.foldl _ {})
    generalize ({} : Breakdowns) = s₀ at hstart
    induction windows generalizing s₀ with
    | nil => exact hstart
    | cons w windows ih =>
      obtain ⟨hw, hwindows⟩ := List.forall_mem_cons.mp hnames
      exact ih hwindows _ (hstart.accumulateCompletedTrips hw)
  obtain ⟨hactivity, hsettled, hcarried, hout, hdefined, hbenefit⟩ := hbalanced
  refine ⟨hactivity, fun hid h hh ↦ ?_, hcarried.trans hout.symm, hout, hdefined.trans hout.symm,
    hbenefit, ?_⟩
  · exact ⟨(hsettled hid h hh).arrivals, (hsettled hid h hh).credited⟩
  · rw [totalBenefitKm, hbenefit]

/-- A run without distances and without rebates. -/
def bareRun : RunData where
  greatCircleKm _ _ := 0
  priceAt _ _ := .ok none
  currency := none

/-- A run in which `F1` pays eight for an arrival whose stamp can be read. -/
def littleRun : RunData :=
  { bareRun with
    priceAt := fun facilityId stamp ↦
      if stamp = "noon" then .error .valueError
      else .ok (if facilityId = "F1" then some 8 else none) }

/-- A trip from `F1`, where the truck arrives at `stamp`, to `F2`. -/
def jobOf (truck haulierId : String) (hours : ℕ) (stamp : String) : Trip where
  truck := some truck
  simClock := some (hours * 3600 * 1000000)
  profileHaulierId := some haulierId
  facilityResourceId leg := some (if leg = .pickup then "F1" else "F2")
  stats := { queueArrivalTime := fun leg ↦ some (if leg = .pickup then stamp else "late") }

/-- The same for a job of another haulier, which saved `km`. -/
def sharedBy (ownerId : String) (km : Quantity) (t : Trip) : Trip :=
  { t with collaboration := { shared := true, ownerHaulierId := some ownerId, benefitKm := km } }

/-- Two hauliers that carry for each other.  One of the jobs saved 40 centimetres. -/
def littleWindows : List (List Trip) :=
  [[jobOf "T1" "H1" 1 "early", sharedBy "H1" (.num (1 / 2500)) (jobOf "T2" "H2" 2 "noon")],
    [sharedBy "H2" .null (jobOf "T1" "H1" 3 "early"), jobOf "T3" "H2" 4 "early",
      sharedBy "H1" (.num 12) (jobOf "T3" "H2" 5 "late")]]

theorem littleWindows_namesOwner : ∀ w ∈ littleWindows, ∀ t ∈ w, t.NamesOwner := by
  simp only [littleWindows, List.forall_mem_cons, List.not_mem_nil, false_imp_iff, implies_true,
    and_true]
  exact ⟨⟨nofun, fun _ ↦ ⟨⟨"H1", by decide⟩, by decide⟩⟩, fun _ ↦ ⟨⟨"H2", by decide⟩, by decide⟩,
    nofun, fun _ ↦ ⟨⟨"H1", by decide⟩, by decide⟩⟩

theorem ledgers_balance_little :
    (∀ w ∈ littleWindows, ∀ t ∈ w, t.NamesOwner) ∧
      let s := littleWindows.foldl (accumulateCompletedTrips littleRun) {}
      s.sharedTripCount = 3 ∧
        (s.haulierAcc.total HaulierAcc.toSharing).jobsSharedOut = s.sharedTripCount := by
  refine ⟨littleWindows_namesOwner, by decide +kernel, ?_⟩
  exact (ledgers_balance littleRun littleWindows littleWindows_namesOwner).2.2.2.1

/-- The KPI rounds 40 centimetres away. -/
theorem benefit_rounded_away :
    (∀ w ∈ littleWindows, ∀ t ∈ w, t.NamesOwner) ∧
      let s := littleWindows.foldl (accumulateCompletedTrips littleRun) {}
      (s.haulierAcc.total HaulierAcc.toSharing).benefitKmReceived = 12 + 1 / 2500 ∧
        s.totalBenefitKm = 12 :=
  ⟨littleWindows_namesOwner, by decide +kernel, by decide +kernel⟩

end Breakdowns

end OpenRide.Analytics
