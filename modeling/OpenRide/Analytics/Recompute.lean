import OpenRide.Analytics.Credits

/-!
# The recompute at the end of a run

`recomputeBreakdownsFull` folds all completed trips of a run once more, in the order of their
clocks, and persists the books at fixed instants on the way: every six hours from the first trip,
and once more at the end.  Before it persists anything it enrols the haulier roster, so that a
company without a trip is listed too; before the last time it counts the arrivals of trips that
never completed.

Which of the manager's methods the loop calls, and with what, does not depend on what they do.  So
the loop is written over any `Duties`, the manager's own being one instance, and `recompute_eq`
says what it amounts to: between one checkpoint and the next, what falls between them is folded.
-/

namespace OpenRide.Analytics

open Lib

/-! ## The roster -/

/-- A truck, as the roster reads it. -/
structure TruckDoc where
  id : Option String
  profileHaulierId : Option String
  profileHaulierName : Option String

/-- What the roster says of a haulier. -/
structure RosterEntry where
  name : String
  truckIds : Finset String := ∅

/-- `fleet_haulier_roster`. -/
def fleetHaulierRoster (trucks : List TruckDoc) : Dict String RosterEntry :=
  trucks.foldl (fun roster truck ↦
    match truthy truck.profileHaulierId with
    | none => roster
    | some hid =>
      roster.amend hid { name := (truthy truck.profileHaulierName).getD hid } fun entry ↦
        match truck.id with
        | some tid => { entry with truckIds := insert tid entry.truckIds }
        | none => entry) Dict.empty

/-- Enrol a haulier: an account that only knows its identifier gets its name, and every account its
trucks. -/
def HaulierAcc.enrol (hid : String) (entry : RosterEntry) (h : HaulierAcc) : HaulierAcc :=
  { h with
    haulierName := if h.haulierName = hid ∧ entry.name ≠ hid then entry.name else h.haulierName
    trucks := h.trucks ∪ entry.truckIds }

/-- `_seed_haulier_roster`. -/
def Breakdowns.seedHaulierRoster (roster : Dict String RosterEntry) (s : Breakdowns) : Breakdowns :=
  { s with
    haulierAcc := s.haulierAcc.amendAll (fun hid entry ↦ newHaulierAcc hid entry.name)
      HaulierAcc.enrol roster.entries }

/-! ## Arrivals of trips that never completed -/

/-- An arrival in flight at the horizon, or abandoned before. -/
def Censored.arrival (censored : Bool) (amount : ℚ) : Censored :=
  if censored then { arrivalsInFlightAtHorizon := 1, valueInFlightAtHorizon := amount }
  else { arrivalsAbandoned := 1, valueAbandoned := amount }

/-- Is a trip cut off at the terminal instant?  An unreadable clock counts as cut off. -/
def Trip.cutOff (terminal : Option ℕ) (t : Trip) : Bool :=
  terminal.isNone || t.simClock.isNone || t.simClock == terminal

namespace HaulierAcc

/-- One arrival of a trip that never completed. -/
def forfeitArrival (book : RebateBook) (terminal : Option ℕ) (t : Trip) (h : HaulierAcc)
    (leg : Leg) : HaulierAcc :=
  match book.arrivalPrice t leg with
  | .error _ => h
  | .ok amount =>
    { h with
      toCensored := h.toCensored + .arrival (t.cutOff terminal) amount
      rebateCurrency := h.rebateCurrency.or book.currency }

/-- Both arrivals of a trip that never completed, and its truck. -/
def forfeit (book : RebateBook) (terminal : Option ℕ) (truckId : String) (t : Trip)
    (h : HaulierAcc) : HaulierAcc :=
  [Leg.pickup, Leg.dropoff].foldl (forfeitArrival book terminal t)
    { h with trucks := insert truckId h.trucks }

end HaulierAcc

/-- `accumulate_forfeited_arrivals`; the trips are missing if the scan for them fails. -/
def Breakdowns.accumulateForfeitedArrivals (book : RebateBook) (trips : Option (List Trip))
    (s : Breakdowns) : Breakdowns :=
  let trips := trips.getD []
  let terminal := (trips.filterMap Trip.simClock).max?
  { s with
    haulierAcc := trips.foldl (fun d t ↦
      match t.truckId with
      | none => d
      | some truckId =>
        d.amend t.haulierId (newHaulierAcc t.haulierId t.haulierName)
          (·.forfeit book terminal truckId t)) s.haulierAcc }

/-! ## The loop -/

/-- `CHECKPOINT_INTERVAL_HOURS`, in microseconds. -/
def checkpointInterval : ℕ := 6 * 3600 * 1000000

/-- The methods of a manager the loop calls. -/
structure Duties (σ : Type) where
  /-- `accumulate_completed_trips`. -/
  accumulate : List Trip → σ → σ
  /-- `accumulate_forfeited_arrivals`. -/
  forfeit : σ → σ
  /-- `save_breakdowns`. -/
  save : ℕ → Bool → σ → σ

namespace Duties

variable {σ : Type} (D : Duties σ)

/-- `if chunk: self.accumulate_completed_trips(chunk, ...)`. -/
def accumulateAny (chunk : List Trip) (m : σ) : σ :=
  if chunk = [] then m else D.accumulate chunk m

/-- The inner loop, before a trip of the instant `t` joins the chunk: the chunk goes into the first
checkpoint that is due, later ones repeat it. -/
def flushUntil (t endDt nextBoundary : ℕ) (chunk : List Trip) (m : σ) : ℕ × List Trip × σ :=
  if nextBoundary < t ∧ nextBoundary < endDt then
    flushUntil t endDt (nextBoundary + checkpointInterval) []
      (D.save nextBoundary false (D.accumulateAny chunk m))
  else (nextBoundary, chunk, m)
termination_by t - nextBoundary
decreasing_by
  simp only [checkpointInterval]
  omega

/-- The outer loop.  It ends early, with nothing, at a clock that cannot be read. -/
def foldOrdered (endDt : ℕ) : List Trip → ℕ → List Trip → σ → Option (List Trip × σ)
  | [], _, chunk, m => some (chunk, m)
  | trip :: rest, nextBoundary, chunk, m =>
    match trip.simClock with
    | none => none
    | some t =>
      let (nextBoundary, chunk, m) := D.flushUntil t endDt nextBoundary chunk m
      foldOrdered endDt rest nextBoundary (chunk ++ [trip]) m

/-- `recompute_breakdowns_full`, once the accumulators are reset and the trips read. -/
def recompute (trips : List Trip) (simClock : ℕ) (m : σ) : Option σ :=
  let ordered := sortedBy Trip.sortKey trips
  match ordered.head?, ordered.getLast? with
  | some first, some last =>
    match first.simClock, last.simClock with
    | some startDt, some endDt =>
      match D.foldOrdered endDt ordered (startDt + checkpointInterval) [] m with
      | some (chunk, m) => some (D.save endDt true (D.forfeit (D.accumulateAny chunk m)))
      | none => none
    | _, _ => none
  | _, _ => some (D.save simClock true (D.forfeit m))

/-! ### What the loop amounts to -/

/-- The checkpoints from `nextBoundary` on: those before the last trip. -/
def checkpoints (nextBoundary endDt : ℕ) : List ℕ :=
  if nextBoundary < endDt then
    nextBoundary :: checkpoints (nextBoundary + checkpointInterval) endDt
  else []
termination_by endDt - nextBoundary
decreasing_by
  simp only [checkpointInterval]
  omega

theorem lt_of_mem_checkpoints {nextBoundary endDt b : ℕ} (hb : b ∈ checkpoints nextBoundary endDt) :
    nextBoundary ≤ b ∧ b < endDt := by
  fun_induction checkpoints with
  | case1 nextBoundary hlt ih =>
    rcases List.mem_cons.mp hb with rfl | hb
    · exact ⟨le_rfl, hlt⟩
    · exact ⟨(Nat.le_add_right _ _).trans (ih hb).1, (ih hb).2⟩
  | case2 nextBoundary => exact absurd hb List.not_mem_nil

theorem checkpoints_pairwise (nextBoundary endDt : ℕ) :
    (checkpoints nextBoundary endDt).Pairwise (· < ·) := by
  fun_induction checkpoints with
  | case1 nextBoundary hlt ih =>
    refine List.pairwise_cons.mpr ⟨fun b hb ↦ ?_, ih⟩
    have hle := (lt_of_mem_checkpoints hb).1
    simp only [checkpointInterval] at hle
    omega
  | case2 nextBoundary => exact List.Pairwise.nil

/-- What has arrived by an instant. -/
def Arrived (b : ℕ) (t : Trip) : Bool := t.sortKey ≤ b

theorem arrived_iff {b : ℕ} {t : Trip} : Arrived b t = true ↔ t.sortKey ≤ b :=
  decide_eq_true_iff

/-- Fold up to the first checkpoint, save, and go on from there. -/
def staged : List ℕ → List Trip → σ → σ
  | [], l, m => D.accumulateAny l m
  | b :: bs, l, m =>
    staged bs (l.filter fun t ↦ !Arrived b t)
      (D.save b false (D.accumulateAny (l.filter (Arrived b)) m))

variable {D}

/-- Split where the clocks pass `b`. -/
theorem filter_arrived_append {b : ℕ} {l l' : List Trip} (hl : ∀ x ∈ l, x.sortKey ≤ b)
    (hl' : ∀ x ∈ l', b < x.sortKey) :
    (l ++ l').filter (Arrived b) = l ∧ (l ++ l').filter (fun x ↦ !Arrived b x) = l' := by
  have hyes : ∀ x ∈ l, Arrived b x = true := fun x hx ↦ arrived_iff.mpr (hl x hx)
  have hno : ∀ x ∈ l', Arrived b x = false := fun x hx ↦ decide_eq_false (hl' x hx).not_ge
  constructor
  · rw [List.filter_append, List.filter_eq_self.mpr hyes,
      List.filter_eq_nil_iff.mpr fun x hx ↦ by simp [hno x hx], List.append_nil]
  · rw [List.filter_append, List.filter_eq_nil_iff.mpr fun x hx ↦ by simp [hyes x hx],
      List.filter_eq_self.mpr fun x hx ↦ by simp [hno x hx], List.nil_append]

/-- The inner loop takes a step of the staged fold for each checkpoint that is due, and stops when
none is. -/
theorem flushUntil_spec {t endDt nextBoundary : ℕ} {chunk l : List Trip} {m : σ}
    (hend : t ≤ endDt) (hchunk : ∀ x ∈ chunk, x.sortKey ≤ nextBoundary)
    (hl : ∀ x ∈ l, t ≤ x.sortKey) :
    let r := D.flushUntil t endDt nextBoundary chunk m
    D.staged (checkpoints nextBoundary endDt) (chunk ++ l) m =
        D.staged (checkpoints r.1 endDt) (r.2.1 ++ l) r.2.2 ∧
      (∀ x ∈ r.2.1, x.sortKey ≤ r.1) ∧ t ≤ r.1 := by
  fun_induction flushUntil with
  | case1 nextBoundary chunk m hdue ih =>
    obtain ⟨heq, hkeep, ht⟩ := ih fun x hx ↦ absurd hx List.not_mem_nil
    refine ⟨Eq.trans ?_ heq, hkeep, ht⟩
    obtain ⟨harrived, hlater⟩ := filter_arrived_append hchunk fun x hx ↦
      hdue.1.trans_le (hl x hx)
    rw [checkpoints, if_pos hdue.2, staged, harrived, hlater, List.nil_append]
  | case2 nextBoundary chunk m hdue =>
    refine ⟨rfl, hchunk, ?_⟩
    omega

/-- The outer loop is the staged fold, but for what is left in the chunk. -/
theorem foldOrdered_spec {l : List Trip} (endDt nextBoundary : ℕ) (chunk : List Trip) (m : σ)
    (hclock : ∀ x ∈ l, x.simClock.isSome) (hsorted : l.Pairwise fun a b ↦ a.sortKey ≤ b.sortKey)
    (hchunk : ∀ x ∈ chunk, x.sortKey ≤ nextBoundary)
    (hlast : match l.getLast? with
      | some last => last.sortKey = endDt
      | none => endDt ≤ nextBoundary) :
    ∃ chunk' m', D.foldOrdered endDt l nextBoundary chunk m = some (chunk', m') ∧
      D.accumulateAny chunk' m' = D.staged (checkpoints nextBoundary endDt) (chunk ++ l) m := by
  induction l generalizing nextBoundary chunk m with
  | nil =>
    refine ⟨chunk, m, rfl, ?_⟩
    rw [checkpoints, if_neg (not_lt.mpr hlast), staged, List.append_nil]
  | cons trip rest ih =>
    obtain ⟨hsome, hclock⟩ := List.forall_mem_cons.mp hclock
    obtain ⟨hle, hsorted⟩ := List.pairwise_cons.mp hsorted
    obtain ⟨t, ht⟩ := Option.isSome_iff_exists.mp hsome
    have hkey : trip.sortKey = t := by rw [Trip.sortKey, ht, Option.getD_some]
    have hfrom : ∀ x ∈ trip :: rest, t ≤ x.sortKey :=
      List.forall_mem_cons.mpr ⟨hkey.ge, fun x hx ↦ hkey ▸ hle x hx⟩
    -- the last trip is not before this one
    obtain ⟨last, hlast'⟩ : ∃ last, (trip :: rest).getLast? = some last :=
      ⟨_, List.getLast?_eq_getLast_of_ne_nil (List.cons_ne_nil _ _)⟩
    rw [hlast'] at hlast
    have hend : t ≤ endDt := hlast ▸ hfrom last (List.mem_of_getLast? hlast')
    obtain ⟨heq, hkeep, hpast⟩ :=
      flushUntil_spec (D := D) (m := m) hend hchunk hfrom
    rw [foldOrdered, ht]
    simp only
    generalize D.flushUntil t endDt nextBoundary chunk m = r at heq hkeep hpast
    obtain ⟨next, chunk', m'⟩ := r
    have hchunk' : ∀ x ∈ chunk' ++ [trip], x.sortKey ≤ next := by
      intro x hx
      rcases List.mem_append.mp hx with hx | hx
      · exact hkeep x hx
      · rw [List.mem_singleton.mp hx, hkey]
        exact hpast
    have hrest : match rest.getLast? with
        | some last => last.sortKey = endDt
        | none => endDt ≤ next := by
      cases rest with
      | nil =>
        have htrip : trip = last := Option.some_inj.mp hlast'
        rw [← hlast, ← htrip, hkey]
        exact hpast
      | cons b rest =>
        rw [List.getLast?_cons_cons] at hlast'
        rw [hlast']
        exact hlast
    obtain ⟨chunk'', m'', hfold, hany⟩ := ih next (chunk' ++ [trip]) m' hclock hsorted hchunk' hrest
    refine ⟨chunk'', m'', hfold, hany.trans ?_⟩
    rw [List.append_assoc, List.singleton_append]
    exact heq.symm

/-- The checkpoints of a list of trips: every six hours after the first, before the last. -/
def checkpointsOf (trips : List Trip) : List ℕ :=
  match (sortedBy Trip.sortKey trips).head?, (sortedBy Trip.sortKey trips).getLast? with
  | some first, some last => checkpoints (first.sortKey + checkpointInterval) last.sortKey
  | _, _ => []

/-- **The recompute is a staged fold**, with the forfeitures and the final save at its end. -/
theorem recompute_eq (D : Duties σ) {trips : List Trip} (simClock : ℕ) (m : σ)
    (hclock : ∀ x ∈ trips, x.simClock.isSome) :
    ∃ endDt, D.recompute trips simClock m = some (D.save endDt true (D.forfeit
      (D.staged (checkpointsOf trips) (sortedBy Trip.sortKey trips) m))) := by
  have hclock' : ∀ x ∈ sortedBy Trip.sortKey trips, x.simClock.isSome := fun x hx ↦
    hclock x (mem_sortedBy.mp hx)
  have hsorted := sortedBy_pairwise Trip.sortKey trips
  rw [recompute, checkpointsOf]
  generalize sortedBy Trip.sortKey trips = l at hclock' hsorted
  cases l with
  | nil => exact ⟨simClock, rfl⟩
  | cons first rest =>
    obtain ⟨last, hlast⟩ : ∃ last, (first :: rest).getLast? = some last :=
      ⟨_, List.getLast?_eq_getLast_of_ne_nil (List.cons_ne_nil _ _)⟩
    obtain ⟨startDt, hstart⟩ := Option.isSome_iff_exists.mp (hclock' first List.mem_cons_self)
    obtain ⟨endDt, hend⟩ := Option.isSome_iff_exists.mp
      (hclock' last (List.mem_of_getLast? hlast))
    have hkeys : first.sortKey = startDt ∧ last.sortKey = endDt := by
      rw [Trip.sortKey, Trip.sortKey, hstart, hend, Option.getD_some, Option.getD_some]
      exact ⟨rfl, rfl⟩
    obtain ⟨chunk, m', hfold, hany⟩ := foldOrdered_spec (D := D) endDt
      (startDt + checkpointInterval) [] m hclock' hsorted (fun x hx ↦ absurd hx List.not_mem_nil)
      (by rw [hlast]; exact hkeys.2)
    refine ⟨endDt, ?_⟩
    simp only [List.head?_cons, hlast, hstart, hend, hfold, hany, hkeys, List.nil_append]

end Duties

/-! ## The manager -/

/-- What is persisted at a checkpoint: the books, as the rows are built from them. -/
structure Snapshot where
  simClock : ℕ
  final : Bool
  books : Breakdowns

structure AnalyticsManager where
  books : Breakdowns := {}
  persisted : List Snapshot := []

/-- A run whose trips are all over, as the server shows it. -/
structure FinishedRun extends RunData where
  completedTrips : List Trip
  /-- The trips that never completed, unless they cannot be read. -/
  unfinishedTrips : Option (List Trip)
  trucks : List TruckDoc

namespace FinishedRun

variable (F : FinishedRun)

/-- The roster of the run. -/
def roster : Dict String RosterEntry := fleetHaulierRoster F.trucks

/-- `save_breakdowns`. -/
def saveBreakdowns (simClock : ℕ) (final : Bool) (m : AnalyticsManager) : AnalyticsManager :=
  let books := m.books.seedHaulierRoster F.roster
  { books, persisted := m.persisted ++ [⟨simClock, final, books⟩] }

/-- The methods of the manager itself. -/
def duties : Duties AnalyticsManager where
  accumulate chunk m := { m with books := m.books.accumulateCompletedTrips F.toRunData chunk }
  forfeit m :=
    { m with books := m.books.accumulateForfeitedArrivals F.toRebateBook F.unfinishedTrips }
  save := F.saveBreakdowns

/-- `recompute_breakdowns_full`. -/
def recomputeBreakdownsFull (simClock : ℕ) (m : AnalyticsManager) : Option AnalyticsManager :=
  F.duties.recompute F.completedTrips simClock { m with books := {} }

end FinishedRun

end OpenRide.Analytics
