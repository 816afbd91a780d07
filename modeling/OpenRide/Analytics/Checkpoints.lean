import OpenRide.Analytics.Recompute
import OpenRide.Analytics.WindowFold

/-!
# Checkpoints agree with the plain fold

The recompute folds the completed trips chunk by chunk and enrols the roster at every checkpoint in
between.  Enrolling posts each haulier its trucks, and postings may be made in any order, so it
makes no difference, names apart, whether the roster was enrolled once at the end or at every
checkpoint on the way (`seed_accumulateTrip`, `seed_seed`).  So the books persisted at a checkpoint
are those one call makes of the trips completed by then, the roster enrolled; and the last ones are
those it makes of all trips, the arrivals in flight counted and the roster enrolled.

Enrolling and counting what was in flight move no counter the fold moves: every truck's and every
lane's account is that of the plain fold, and so are a haulier's counters (`Published`).
-/

namespace OpenRide.Analytics

open Lib

/-! ## Enrolling and forfeiting are postings -/

section Postings

variable {book : RebateBook}

/-- Enrolling, as far as it shows without names. -/
def enrolment (entry : RosterEntry) : Credit := { trucks := entry.truckIds }

theorem HaulierAcc.unnamed_enrol (book : RebateBook) (hid : String) (entry : RosterEntry)
    (h : HaulierAcc) : (h.enrol hid entry).unnamed = h.unnamed.credit book (enrolment entry) := by
  simp [unnamed, enrol, enrolment, credit]

theorem HaulierAcc.enrol_enrol (hid : String) (entry : RosterEntry) (h : HaulierAcc) :
    ((h.enrol hid entry).enrol hid entry).unnamed = (h.enrol hid entry).unnamed := by
  simp [unnamed, enrol]

/-- What a trip that never completed is credited as. -/
def Trip.forfeiture (book : RebateBook) (terminal : Option ℕ) (truckId : String) (t : Trip) :
    Credit :=
  let amount leg := match book.arrivalPrice t leg with
    | .error _ => 0
    | .ok amount => Censored.arrival (t.cutOff terminal) amount
  { censored := amount .pickup + amount .dropoff
    trucks := {truckId}
    priced := book.isPriced t .pickup || book.isPriced t .dropoff }

theorem HaulierAcc.forfeitArrival_eq_credit (terminal : Option ℕ) (t : Trip) (leg : Leg)
    (h : HaulierAcc) : h.forfeitArrival book terminal t leg = h.credit book
      { censored := match book.arrivalPrice t leg with
          | .error _ => 0
          | .ok amount => Censored.arrival (t.cutOff terminal) amount
        priced := book.isPriced t leg } := by
  rw [forfeitArrival, RebateBook.isPriced]
  split
  · next heq => simp [credit, heq, Except.isOk, Except.toBool]
  · next heq => simp [credit, heq, Except.isOk, Except.toBool]

theorem HaulierAcc.forfeit_eq_credit (terminal : Option ℕ) (truckId : String) (t : Trip)
    (h : HaulierAcc) :
    h.forfeit book terminal truckId t = h.credit book (t.forfeiture book terminal truckId) := by
  have htruck : { h with trucks := insert truckId h.trucks } =
      h.credit book { trucks := {truckId} } := by
    simp [credit]
  simp only [forfeit, htruck, List.foldl_cons, List.foldl_nil, forfeitArrival_eq_credit,
    credit_credit, Trip.forfeiture]
  simp

end Postings

namespace Breakdowns

/-- The postings that enrol a roster. -/
def enrolments (roster : Dict String RosterEntry) : List Posting :=
  roster.entries.map fun p ↦ ⟨p.1, p.2.name, enrolment p.2⟩

/-- The postings of the trips that never completed. -/
def forfeitures (book : RebateBook) (trips : Option (List Trip)) : List Posting :=
  (trips.getD []).filterMap fun t ↦ t.truckId.map fun truckId ↦
    ⟨t.haulierId, t.haulierName,
      t.forfeiture book ((trips.getD []).filterMap Trip.simClock).max? truckId⟩

theorem haulierAcc_seed (book : RebateBook) (roster : Dict String RosterEntry) (s : Breakdowns) :
    HaulierBooks.Same (s.seedHaulierRoster roster).haulierAcc
      (HaulierBooks.posts book s.haulierAcc (enrolments roster)) := by
  have hall : ∀ (l : List (String × RosterEntry)) (d d' : HaulierBooks), d.Same d' →
      HaulierBooks.Same
        (d.amendAll (fun hid entry ↦ newHaulierAcc hid entry.name) HaulierAcc.enrol l)
        (d'.posts book (l.map fun p ↦ ⟨p.1, p.2.name, enrolment p.2⟩)) := by
    intro l
    induction l with
    | nil => exact fun _ _ h ↦ h
    | cons p l ih =>
      intro d d' h
      refine ih _ _ (Dict.look_amend_congr (HaulierAcc.unnamed_enrol book p.1 p.2)
        (HaulierBooks.unnamed_credit (enrolment p.2)) rfl h)
  exact hall roster.entries _ _ (HaulierBooks.Same.refl _)

theorem haulierAcc_forfeited (book : RebateBook) (trips : Option (List Trip)) (s : Breakdowns) :
    (s.accumulateForfeitedArrivals book trips).haulierAcc =
      HaulierBooks.posts book s.haulierAcc (forfeitures book trips) := by
  simp only [accumulateForfeitedArrivals, forfeitures]
  generalize ((trips.getD []).filterMap Trip.simClock).max? = terminal
  generalize s.haulierAcc = d
  induction trips.getD [] generalizing d with
  | nil => rfl
  | cons t l ih =>
    rw [List.foldl_cons, ih, List.filterMap_cons]
    cases t.truckId with
    | none => rfl
    | some truckId =>
      have hforfeit : (fun h : HaulierAcc ↦ h.forfeit book terminal truckId t) =
          (·.credit book (t.forfeiture book terminal truckId)) :=
        funext fun h ↦ h.forfeit_eq_credit terminal truckId t
      simp only [Option.map_some, hforfeit]
      rfl

/-! ## The same books, apart from names -/

/-- The same books, apart from the order and the names of the hauliers' accounts. -/
structure Agrees (s s' : Breakdowns) : Prop where
  truckAcc : s.truckAcc = s'.truckAcc
  haulierAcc : HaulierBooks.Same s.haulierAcc s'.haulierAcc
  laneAcc : s.laneAcc = s'.laneAcc
  sharedTripCount : s.sharedTripCount = s'.sharedTripCount
  runningBenefitKm : s.runningBenefitKm = s'.runningBenefitKm

theorem Agrees.refl (s : Breakdowns) : s.Agrees s :=
  ⟨rfl, HaulierBooks.Same.refl _, rfl, rfl, rfl⟩

theorem Agrees.symm {s s' : Breakdowns} (h : s.Agrees s') : s'.Agrees s :=
  ⟨h.truckAcc.symm, h.haulierAcc.symm, h.laneAcc.symm, h.sharedTripCount.symm,
    h.runningBenefitKm.symm⟩

theorem Agrees.trans {s s' s'' : Breakdowns} (h : s.Agrees s') (h' : s'.Agrees s'') :
    s.Agrees s'' :=
  ⟨h.truckAcc.trans h'.truckAcc, h.haulierAcc.trans h'.haulierAcc, h.laneAcc.trans h'.laneAcc,
    h.sharedTripCount.trans h'.sharedTripCount, h.runningBenefitKm.trans h'.runningBenefitKm⟩

variable {R : RunData} {book : RebateBook} {roster : Dict String RosterEntry}
  {trips : Option (List Trip)} {s s' : Breakdowns}

theorem Agrees.accumulateTrip (h : s.Agrees s') (t : Trip) :
    (s.accumulateTrip R t).Agrees (s'.accumulateTrip R t) := by
  cases ht : t.truckId with
  | none =>
    rw [accumulateTrip_of_none ht, accumulateTrip_of_none ht]
    exact h
  | some truckId =>
    have hacc : s.truckAccOf truckId t = s'.truckAccOf truckId t :=
      truckAccOf_congr (by rw [h.truckAcc]) t
    constructor
    · rw [truckAcc_accumulateTrip ht, truckAcc_accumulateTrip ht, hacc, h.truckAcc]
    · rw [haulierAcc_accumulateTrip ht, haulierAcc_accumulateTrip ht, hacc]
      exact h.haulierAcc.posts _
    · rw [laneAcc_accumulateTrip ht, laneAcc_accumulateTrip ht, h.laneAcc]
    · rw [sharedTripCount_accumulateTrip ht, sharedTripCount_accumulateTrip ht, h.sharedTripCount]
    · rw [runningBenefitKm_accumulateTrip ht, runningBenefitKm_accumulateTrip ht,
        h.runningBenefitKm]

theorem Agrees.forfeited (h : s.Agrees s') :
    (s.accumulateForfeitedArrivals book trips).Agrees
      (s'.accumulateForfeitedArrivals book trips) := by
  refine ⟨h.truckAcc, ?_, h.laneAcc, h.sharedTripCount, h.runningBenefitKm⟩
  rw [haulierAcc_forfeited, haulierAcc_forfeited]
  exact h.haulierAcc.posts _

/-- **A trip may be folded before the roster is enrolled, or after.** -/
theorem seed_accumulateTrip (s : Breakdowns) (t : Trip) :
    ((s.accumulateTrip R t).seedHaulierRoster roster).Agrees
      ((s.seedHaulierRoster roster).accumulateTrip R t) := by
  cases ht : t.truckId with
  | none =>
    rw [accumulateTrip_of_none ht, accumulateTrip_of_none ht]
    exact Agrees.refl _
  | some truckId =>
    have hacc : (s.seedHaulierRoster roster).truckAccOf truckId t = s.truckAccOf truckId t := rfl
    constructor
    · rw [truckAcc_accumulateTrip ht, hacc]
      exact truckAcc_accumulateTrip ht
    · rw [haulierAcc_accumulateTrip ht, hacc]
      refine (haulierAcc_seed R.toRebateBook roster _).trans ?_
      rw [haulierAcc_accumulateTrip ht]
      exact (HaulierBooks.posts_comm _ _ _).trans
        ((haulierAcc_seed R.toRebateBook roster s).symm.posts _)
    · rw [laneAcc_accumulateTrip ht]
      exact laneAcc_accumulateTrip ht
    · rw [sharedTripCount_accumulateTrip ht]
      exact sharedTripCount_accumulateTrip ht
    · rw [runningBenefitKm_accumulateTrip ht]
      exact runningBenefitKm_accumulateTrip ht

/-- So may the arrivals in flight be counted. -/
theorem seed_forfeited (s : Breakdowns) :
    ((s.accumulateForfeitedArrivals book trips).seedHaulierRoster roster).Agrees
      ((s.seedHaulierRoster roster).accumulateForfeitedArrivals book trips) := by
  refine ⟨rfl, ?_, rfl, rfl, rfl⟩
  refine (haulierAcc_seed book roster _).trans ?_
  rw [haulierAcc_forfeited, haulierAcc_forfeited]
  exact (HaulierBooks.posts_comm _ _ _).trans ((haulierAcc_seed book roster s).symm.posts _)

/-- Enrolling twice is enrolling once. -/
theorem seed_seed (s : Breakdowns) :
    ((s.seedHaulierRoster roster).seedHaulierRoster roster).Agrees
      (s.seedHaulierRoster roster) := by
  refine ⟨rfl, fun hid ↦ ?_, rfl, rfl, rfl⟩
  simp only [Dict.look, seedHaulierRoster, Dict.get?_amendAll roster.nodup]
  split
  · rfl
  · next entry _ => exact congrArg some (HaulierAcc.enrol_enrol hid entry _)

/-! ## What the fold counts -/

/-- The counters the fold moves in a haulier's account; all zero if there is none. -/
def countersOf (s : Breakdowns) (hid : String) : Activity × Sharing × Rebates :=
  ((s.haulierAcc.get? hid).map fun h ↦ (h.toActivity, h.toSharing, h.toRebates)).getD 0

theorem Agrees.countersOf (h : s.Agrees s') (hid : String) :
    s.countersOf hid = s'.countersOf hid := by
  have hlook := h.haulierAcc hid
  rw [Dict.look, Dict.look] at hlook
  rw [Breakdowns.countersOf, Breakdowns.countersOf]
  cases hs : s.haulierAcc.get? hid with
  | none =>
    rw [hs] at hlook
    rw [Option.map_eq_none_iff.mp hlook.symm]
  | some acc =>
    rw [hs] at hlook
    obtain ⟨acc', hs', heq⟩ := Option.map_eq_some_iff.mp hlook.symm
    rw [hs']
    show (acc.unnamed.toActivity, acc.unnamed.toSharing, acc.unnamed.toRebates) = _
    rw [← heq]
    rfl

theorem countersOf_seed (s : Breakdowns) (hid : String) :
    (s.seedHaulierRoster roster).countersOf hid = s.countersOf hid := by
  simp only [Breakdowns.countersOf, seedHaulierRoster, Dict.get?_amendAll roster.nodup]
  split
  · rfl
  · next entry _ =>
    cases s.haulierAcc.get? hid with
    | none => rfl
    | some acc => rfl

theorem countersOf_forfeited (s : Breakdowns) (hid : String) :
    (s.accumulateForfeitedArrivals book trips).countersOf hid = s.countersOf hid := by
  rw [Breakdowns.countersOf, haulierAcc_forfeited, Breakdowns.countersOf]
  have hzero : ∀ p ∈ forfeitures book trips,
      p.credit.activity = 0 ∧ p.credit.sharing = 0 ∧ p.credit.rebates = 0 := by
    intro p hp
    obtain ⟨t, -, ht⟩ := List.mem_filterMap.mp hp
    obtain ⟨truckId, -, rfl⟩ := Option.map_eq_some_iff.mp ht
    exact ⟨rfl, rfl, rfl⟩
  generalize forfeitures book trips = l at hzero
  generalize s.haulierAcc = d
  induction l generalizing d with
  | nil => rfl
  | cons p l ih =>
    obtain ⟨⟨hact, hshare, hreb⟩, hl⟩ := List.forall_mem_cons.mp hzero
    refine (ih hl (HaulierBooks.post book d p)).trans ?_
    rw [HaulierBooks.post, Dict.get?_amend]
    split
    · next hx =>
      subst hx
      cases Dict.get? d p.haulierId with
      | none =>
        simp only [HaulierAcc.credit, newHaulierAcc, hact, hshare, hreb, Option.map_some,
          Option.getD_some, Option.map_none, Option.getD_none, add_zero]
        rfl
      | some acc => simp [HaulierAcc.credit, hact, hshare, hreb]
    · rfl

end Breakdowns

/-! ## The checkpoints -/

namespace FinishedRun

open Breakdowns Duties

variable (F : FinishedRun)

/-- The plain fold: the trips in one call, from empty books. -/
def plainFold (trips : List Trip) : Breakdowns :=
  accumulateCompletedTrips F.toRunData {} trips

/-- What is persisted is the plain fold with the roster enrolled: the same accounts of trucks and
lanes, the same counters of hauliers. -/
structure Published (snap : Snapshot) (trips : List Trip) : Prop where
  agrees : snap.books.Agrees ((F.plainFold trips).seedHaulierRoster F.roster)
  counters : ∀ hid, snap.books.countersOf hid = (F.plainFold trips).countersOf hid

/-- The manager's books are the plain fold, but for enrolments on the way. -/
def Kept (s s' : Breakdowns) : Prop :=
  (s.seedHaulierRoster F.roster).Agrees (s'.seedHaulierRoster F.roster)

variable {F}

theorem Kept.foldl {s s' : Breakdowns} (h : F.Kept s s') (l : List Trip) :
    F.Kept (l.foldl (accumulateTrip F.toRunData) s) (l.foldl (accumulateTrip F.toRunData) s') := by
  induction l generalizing s s' with
  | nil => exact h
  | cons t l ih =>
    exact ih (((seed_accumulateTrip s t).trans (h.accumulateTrip t)).trans
      (seed_accumulateTrip s' t).symm)

theorem accumulateAny_duties {l : List Trip} (hl : l.Pairwise fun a b ↦ a.sortKey ≤ b.sortKey)
    (m : AnalyticsManager) : F.duties.accumulateAny l m =
      { m with books := l.foldl (accumulateTrip F.toRunData) m.books } := by
  rw [accumulateAny]
  split
  · next h =>
    rw [h]
    rfl
  · show ({ m with books := accumulateCompletedTrips _ _ _ } : AnalyticsManager) = _
    rw [accumulateCompletedTrips, sortedBy_eq_self hl]

/-- In a sorted list, what has arrived by an instant comes first. -/
theorem filter_arrived_append_filter {l : List Trip}
    (hl : l.Pairwise fun a b ↦ a.sortKey ≤ b.sortKey) (b : ℕ) :
    l.filter (Arrived b) ++ l.filter (fun t ↦ !Arrived b t) = l := by
  induction l with
  | nil => rfl
  | cons t l ih =>
    obtain ⟨hle, hl⟩ := List.pairwise_cons.mp hl
    cases ht : Arrived b t with
    | true =>
      rw [List.filter_cons_of_pos ht, List.filter_cons_of_neg (by simp [ht]), List.cons_append,
        ih hl]
    | false =>
      -- nothing after `t` has arrived either
      have hnone : ∀ x ∈ l, Arrived b x = false := fun x hx ↦
        decide_eq_false fun hx' ↦ (of_decide_eq_false ht) ((hle x hx).trans hx')
      rw [List.filter_cons_of_neg (by simp [ht]), List.filter_cons_of_pos (by simp [ht]),
        List.filter_eq_nil_iff.mpr fun x hx ↦ by simp [hnone x hx],
        List.filter_eq_self.mpr fun x hx ↦ by simp [hnone x hx], List.nil_append]

/-- One snapshot a checkpoint, each the fold of what has arrived by then. -/
theorem staged_spec {bs : List ℕ} (hbs : bs.Pairwise (· < ·)) (done l : List Trip)
    (m : AnalyticsManager)
    (hsorted : (done ++ l).Pairwise fun a b ↦ a.sortKey ≤ b.sortKey)
    (hdone : ∀ b ∈ bs, ∀ t ∈ done, t.sortKey ≤ b)
    (hm : F.Kept m.books (done.foldl (accumulateTrip F.toRunData) {})) :
    ∃ snaps : List Snapshot, (F.duties.staged bs l m).persisted = m.persisted ++ snaps ∧
      snaps.map (fun snap ↦ (snap.simClock, snap.final)) = bs.map (fun b ↦ (b, false)) ∧
      (∀ snap ∈ snaps, snap.books.Agrees
        ((((done ++ l).filter (Arrived snap.simClock)).foldl (accumulateTrip F.toRunData)
          {}).seedHaulierRoster F.roster)) ∧
      F.Kept (F.duties.staged bs l m).books
        ((done ++ l).foldl (accumulateTrip F.toRunData) {}) := by
  induction bs generalizing done l m with
  | nil =>
    refine ⟨[], ?_, rfl, nofun, ?_⟩
    · rw [staged, accumulateAny_duties (List.pairwise_append.mp hsorted).2.1, List.append_nil]
    · rw [staged, accumulateAny_duties (List.pairwise_append.mp hsorted).2.1, List.foldl_append]
      exact hm.foldl l
  | cons b bs ih =>
    obtain ⟨hb, hbs⟩ := List.pairwise_cons.mp hbs
    obtain ⟨hdone, hdones⟩ := List.forall_mem_cons.mp hdone
    have hl := (List.pairwise_append.mp hsorted).2.1
    have hsplit := filter_arrived_append_filter hl b
    have hchunk : (l.filter (Arrived b)).Pairwise fun a b ↦ a.sortKey ≤ b.sortKey := hl.filter _
    have harrived : (done ++ l).filter (Arrived b) = done ++ l.filter (Arrived b) := by
      rw [List.filter_append, List.filter_eq_self.mpr fun t ht ↦ arrived_iff.mpr (hdone t ht)]
    have hbooks := hm.foldl (l.filter (Arrived b))
    rw [← List.foldl_append] at hbooks
    -- the save persists the books of the trips arrived by `b`, and keeps them
    have hstage : F.duties.staged (b :: bs) l m =
        F.duties.staged bs (l.filter fun t ↦ !Arrived b t) (F.saveBreakdowns b false
          { m with
            books := (l.filter (Arrived b)).foldl (accumulateTrip F.toRunData) m.books }) := by
      rw [staged, accumulateAny_duties hchunk]
      rfl
    rw [hstage]
    obtain ⟨snaps, hpersisted, hmap, hsnaps, hkept⟩ := ih hbs (done ++ l.filter (Arrived b))
      (l.filter fun t ↦ !Arrived b t)
      (F.saveBreakdowns b false
        { m with books := (l.filter (Arrived b)).foldl (accumulateTrip F.toRunData) m.books })
      (by rwa [List.append_assoc, hsplit])
      (fun b' hb' t ht ↦ (List.mem_append.mp ht).elim (hdones b' hb' t) fun ht ↦
        (arrived_iff.mp (List.mem_filter.mp ht).2).trans (hb b' hb').le)
      ((seed_seed _).trans hbooks)
    rw [List.append_assoc, hsplit] at hsnaps hkept
    refine ⟨_, hpersisted.trans (List.append_assoc _ _ _), congrArg _ hmap,
      List.forall_mem_cons.mpr ⟨?_, hsnaps⟩, hkept⟩
    rw [harrived]
    exact hbooks

/-- The calls of `accumulate_completed_trips` the recompute makes, in order. -/
def callLog : Duties (List (List Trip)) where
  accumulate chunk calls := calls ++ [chunk]
  forfeit := id
  save _ _ := id

theorem flatten_accumulateAny (l : List Trip) (calls : List (List Trip)) :
    (callLog.accumulateAny l calls).flatten = calls.flatten ++ l := by
  rw [accumulateAny]
  split
  · next h => rw [h, List.append_nil]
  · exact List.flatten_concat

/-- Every trip of the list goes into one of the calls, and into one only. -/
theorem flatten_staged (bs : List ℕ) (l : List Trip) (calls : List (List Trip)) :
    (callLog.staged bs l calls).flatten.Perm (calls.flatten ++ l) := by
  induction bs generalizing l calls with
  | nil => rw [staged, flatten_accumulateAny]
  | cons b bs ih =>
    refine (ih _ _).trans ?_
    show ((callLog.accumulateAny (l.filter (Arrived b)) calls).flatten ++ _).Perm _
    rw [flatten_accumulateAny, List.append_assoc]
    exact (List.filter_append_perm (Arrived b) l).append_left _

variable (F)

/-- **Breakdown checkpoints agree with the plain fold**, the roster enrolled, and so do the totals
of any windows. -/
theorem recompute_agrees (simClock : ℕ) (m : AnalyticsManager)
    (hclock : ∀ t ∈ F.completedTrips, t.simClock.isSome) (hone : OneAtATime F.completedTrips) :
    (∃ calls, callLog.recompute F.completedTrips simClock [] = some calls ∧
      calls.flatten.Perm F.completedTrips) ∧
    (∃ m' snaps last, F.recomputeBreakdownsFull simClock m = some m' ∧
      m'.persisted = m.persisted ++ snaps ++ [last] ∧
      snaps.map (fun snap ↦ (snap.simClock, snap.final)) =
        (checkpointsOf F.completedTrips).map (fun b ↦ (b, false)) ∧
      (∀ snap ∈ snaps, F.Published snap (F.completedTrips.filter (Arrived snap.simClock))) ∧
      last.final = true ∧
      last.books.Agrees (((F.plainFold F.completedTrips).accumulateForfeitedArrivals
        F.toRebateBook F.unfinishedTrips).seedHaulierRoster F.roster) ∧
      ∀ hid, last.books.countersOf hid = (F.plainFold F.completedTrips).countersOf hid) ∧
    ∀ windows : List (List Trip), windows.flatten.Perm F.completedTrips → Consecutive windows →
      (windows.foldl (accumulateCompletedTrips F.toRunData) {}).SameTotals
        (F.plainFold F.completedTrips) := by
  refine ⟨?_, ?_, fun windows hperm hwindows ↦ windows_sameTotals hone hperm hwindows {}⟩
  · obtain ⟨endDt, heq⟩ := recompute_eq callLog simClock [] hclock
    exact ⟨_, heq, (flatten_staged _ _ []).trans (sortedBy_perm _ _)⟩
  · obtain ⟨endDt, heq⟩ := recompute_eq F.duties simClock { m with books := {} } hclock
    have hbs : (checkpointsOf F.completedTrips).Pairwise (· < ·) := by
      rw [checkpointsOf]
      split
      · exact checkpoints_pairwise _ _
      · exact List.Pairwise.nil
    obtain ⟨snaps, hpersisted, hmap, hsnaps, hkept⟩ := staged_spec (F := F) hbs []
      (sortedBy Trip.sortKey F.completedTrips) { m with books := {} } (sortedBy_pairwise _ _)
      (fun _ _ t ht ↦ absurd ht List.not_mem_nil) (Agrees.refl _)
    have hlast : ((F.duties.forfeit (F.duties.staged (checkpointsOf F.completedTrips)
        (sortedBy Trip.sortKey F.completedTrips) { m with books := {} })).books.seedHaulierRoster
          F.roster).Agrees (((F.plainFold F.completedTrips).accumulateForfeitedArrivals
        F.toRebateBook F.unfinishedTrips).seedHaulierRoster F.roster) :=
      ((seed_forfeited _).trans (Agrees.forfeited hkept)).trans (seed_forfeited _).symm
    refine ⟨_, snaps, ⟨endDt, true, _⟩, heq, congrArg (· ++ _) hpersisted, hmap, ?_, rfl, hlast, ?_⟩
    · intro snap hsnap
      have hfold : F.plainFold (F.completedTrips.filter (Arrived snap.simClock)) =
          ((sortedBy Trip.sortKey F.completedTrips).filter (Arrived snap.simClock)).foldl
            (accumulateTrip F.toRunData) {} := by
        rw [plainFold, accumulateCompletedTrips, sortedBy_filter]
      have hagrees := hsnaps snap hsnap
      rw [List.nil_append, ← hfold] at hagrees
      exact ⟨hagrees, fun hid ↦ (hagrees.countersOf hid).trans (countersOf_seed _ hid)⟩
    · intro hid
      refine (hlast.countersOf hid).trans ?_
      rw [countersOf_seed, countersOf_forfeited]

/-- A trip of a truck of `H1`, completed seven hours from the beginning of time or at it. -/
def plainTrip (hours : ℕ) : Trip where
  truck := some "T1"
  simClock := some (hours * 3600 * 1000000)
  profileHaulierId := some "H1"

/-- A run of two trips, with a company in its roster that made neither. -/
def quietRun : FinishedRun where
  greatCircleKm _ _ := 0
  priceAt _ _ := .ok none
  currency := none
  completedTrips := [plainTrip 7, plainTrip 0]
  unfinishedTrips := some []
  trucks := [⟨some "T9", some "H9", none⟩]

theorem quietRun_clock : ∀ t ∈ quietRun.completedTrips, t.simClock.isSome := by
  simp [quietRun, plainTrip]

theorem quietRun_oneAtATime : OneAtATime quietRun.completedTrips := by
  simp [OneAtATime, quietRun, plainTrip, Trip.sortKey]

theorem recompute_agrees_quiet :
    (∀ t ∈ quietRun.completedTrips, t.simClock.isSome) ∧ OneAtATime quietRun.completedTrips ∧
      ∃ calls, callLog.recompute quietRun.completedTrips 0 [] = some calls ∧
        calls.flatten.Perm quietRun.completedTrips :=
  ⟨quietRun_clock, quietRun_oneAtATime,
    (recompute_agrees quietRun 0 {} quietRun_clock quietRun_oneAtATime).1⟩

/-- Both snapshots list the company that made no trip; the plain fold has no account for it. -/
theorem roster_listed :
    (∀ t ∈ quietRun.completedTrips, t.simClock.isSome) ∧ OneAtATime quietRun.completedTrips ∧
      (quietRun.recomputeBreakdownsFull 0 {}).map (fun m ↦ m.persisted.map fun snap ↦
        (snap.simClock, (snap.books.haulierAcc.get? "H9").isSome)) =
          some [(6 * 3600 * 1000000, true), (7 * 3600 * 1000000, true)] ∧
      ((quietRun.plainFold (quietRun.completedTrips.filter
        (Arrived (6 * 3600 * 1000000)))).haulierAcc.get? "H9").isSome = false ∧
      ((quietRun.plainFold quietRun.completedTrips).haulierAcc.get? "H9").isSome = false := by
  refine ⟨quietRun_clock, quietRun_oneAtATime, ?_, ?_, ?_⟩
  · decide +kernel
  · decide +kernel
  · decide +kernel

end FinishedRun

end OpenRide.Analytics
