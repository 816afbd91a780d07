import OpenRide.Haulage.GateService
import OpenRide.Lib.Rounding
import OpenRide.Lib.Sorted

/-!
# What a facility publishes of its queue

The snapshots of a facility say how long its queue has been at most and how long its trucks waited
on average.  A wait is reconstructed from two records: the truck's arrival, noted under the truck
and the kind of its visit, and the end of its service, when the note is taken out again.

So what is averaged is the time up to the end of the service and not up to the gate.  The longest
queue is right: the queue grows only by an arrival, and every arrival makes a snapshot
(`facility_kpis_iff`).
-/

namespace OpenRide.Haulage

open Lib

variable {T : Type} [DecidableEq T]

/-! ## Who is at a gate -/

namespace FacilityApp

variable {a : FacilityApp T} {gateCount serviceTime : ℕ}

omit [DecidableEq T] in
/-- Who is at a gate after gates were given away was there, or was given it just now. -/
theorem Coherent.of_serves_allocateGates (h : a.Coherent gateCount serviceTime) {i : ℕ}
    {entry : QueueEntry T} {ends : ℤ}
    (hserves : (a.allocateGates serviceTime).Serves i entry ends) :
    i ∉ a.given.map Prod.fst ∧ a.Serves i entry ends ∨
      (i, entry) ∈ a.given ∧ ends = a.currentTime + serviceTime := by
  rcases h.gateView_allocateGates (h.allocateGates.scheduled i ends hserves.ends) with
    ⟨hnot, hsame⟩ | ⟨-, given, hmem, hview⟩
  · exact Or.inl ⟨hnot, hsame.symm.trans hserves⟩
  · have hboth := hview.symm.trans hserves
    obtain rfl : given = entry := Option.some.inj (congrArg (fun v ↦ v.2.1) hboth)
    have hend : a.newEnd serviceTime = some ends := congrArg (fun v ↦ v.2.2) hboth
    rw [newEnd] at hend
    split at hend
    · exact Or.inr ⟨hmem, (Option.some.inj hend).symm⟩
    · cases hend

omit [DecidableEq T] in
theorem Serves.mem_atGates {i : ℕ} {entry : QueueEntry T} {ends : ℤ}
    (h : a.Serves i entry ends) : entry ∈ a.atGates :=
  List.mem_filterMap.mpr ⟨_, List.mem_of_getElem? h.gate, rfl⟩

omit [DecidableEq T] in
theorem Serves.gate_unique (hnodup : a.atGates.Nodup) {i j : ℕ} {entry : QueueEntry T}
    {ends ends' : ℤ} (hi : a.Serves i entry ends) (hj : a.Serves j entry ends') : i = j := by
  by_contra hne
  have hafter : (a.completeGateService 0 i).Serves j entry ends' :=
    (gateView_completeGateService_ne (Ne.symm hne)).trans hj
  have hperm : a.atGates.Perm (entry :: (a.completeGateService 0 i).atGates) :=
    perm_filterMap_modify hi.gate rfl rfl
  exact (List.nodup_cons.mp (hperm.nodup_iff.mp hnodup)).1 hafter.mem_atGates

end FacilityApp

/-! ## The publisher -/

/-- `kpi_stats`. -/
structure KpiStats where
  avgQueueWaitSeconds : ℚ
  peakQueueLength : ℕ

/-- `_rates`. -/
structure FacilityRates where
  elapsedSimSeconds : ℤ
  arrivalRatePerHour : Option ℚ
  serviceRatePerHour : Option ℚ

/-- What `build_snapshot` says of a facility, but for what its profile says. -/
structure FacilitySnapshot (T : Type) where
  simClock : ℤ
  lng : ℚ
  lat : ℚ
  gateCount : ℕ
  queue : List (QueueEntry T × Option ℤ)
  gates : List (ℕ × QueueEntry T)
  rates : FacilityRates
  kpis : KpiStats

/-- `FacilitySnapshotPublisher`.  `location` is what `_location_lng_lat` reads in the profile. -/
structure SnapshotPublisher (T : Type) where
  location : Option (ℚ × ℚ)
  totalArrivals : ℕ := 0
  totalServices : ℕ := 0
  openedAtSimS : Option ℤ := none
  /-- `_queue_meta`: under the kind of a visit and the truck, when it was queued. -/
  queueMeta : Dict (QueueEntry T) ℤ := Dict.empty
  completedWaitS : List ℤ := []
  peakQueueLength : ℕ := 0

/-- `sum(values) / len(values) if values else 0.0`. -/
def mean (values : List ℤ) : ℚ := if values = [] then 0 else values.sum / values.length

/-- `rate_per_hour_cumulative`. -/
def ratePerHourCumulative (totalEvents : ℕ) (elapsedSimSeconds : ℤ) : Option ℚ :=
  if elapsedSimSeconds < 60 then none else some (totalEvents / elapsedSimSeconds * 3600)

namespace SnapshotPublisher

variable (p : SnapshotPublisher T)

/-- `_ensure_opened`. -/
def ensureOpened (simClock : ℤ) : SnapshotPublisher T :=
  { p with openedAtSimS := some (p.openedAtSimS.getD simClock) }

/-- `record_enqueue`. -/
def recordEnqueue (entry : QueueEntry T) (simClock : ℤ) : SnapshotPublisher T :=
  { p.ensureOpened simClock with
    totalArrivals := p.totalArrivals + 1
    queueMeta := p.queueMeta.set entry simClock }

/-- `record_service_complete`. -/
def recordServiceComplete (simClock : ℤ) (entry : QueueEntry T) : SnapshotPublisher T :=
  let p := { p.ensureOpened simClock with totalServices := p.totalServices + 1 }
  match p.queueMeta.get? entry with
  | none => p
  | some queuedAt =>
    let wait := simClock - queuedAt
    { p with
      queueMeta := p.queueMeta.erase entry
      completedWaitS := if 0 ≤ wait then p.completedWaitS ++ [wait] else p.completedWaitS }

def kpiStats : KpiStats where
  avgQueueWaitSeconds := roundTo 2 (mean p.completedWaitS)
  peakQueueLength := p.peakQueueLength

def rates (simClock : ℤ) : FacilityRates :=
  let elapsed := max 0 (simClock - p.openedAtSimS.getD simClock)
  ⟨elapsed, ratePerHourCumulative p.totalArrivals elapsed,
      ratePerHourCumulative p.totalServices elapsed⟩

/-- `build_snapshot`. -/
def buildSnapshot (a : FacilityApp T) (simClock : ℤ) :
    SnapshotPublisher T × Option (FacilitySnapshot T) :=
  match p.location with
  | none => (p, none)
  | some (lng, lat) =>
    let p := { p.ensureOpened simClock with
      peakQueueLength := max p.peakQueueLength a.queueController.queue.length }
    (p, some {
      simClock, lng, lat
      gateCount := a.queueController.gates.length
      queue := a.queueController.queue.map fun entry ↦ (entry, p.queueMeta.get? entry)
      gates := sortedBy Prod.fst a.gateAssignments.entries
      rates := p.rates simClock
      kpis := p.kpiStats })

variable {p}

@[simp] theorem recordServiceComplete_location (now : ℤ) (entry : QueueEntry T) :
    (p.recordServiceComplete now entry).location = p.location := by
  rw [recordServiceComplete]
  split <;> rfl

@[simp] theorem recordServiceComplete_peakQueueLength (now : ℤ) (entry : QueueEntry T) :
    (p.recordServiceComplete now entry).peakQueueLength = p.peakQueueLength := by
  rw [recordServiceComplete]
  split <;> rfl

theorem recordServiceComplete_of_noted {now queuedAt : ℤ} {entry : QueueEntry T}
    (hnoted : p.queueMeta.get? entry = some queuedAt) (hle : queuedAt ≤ now) :
    (p.recordServiceComplete now entry).queueMeta = p.queueMeta.erase entry ∧
      (p.recordServiceComplete now entry).completedWaitS = p.completedWaitS ++
        [now - queuedAt] := by
  rw [recordServiceComplete]
  dsimp only [ensureOpened]
  rw [hnoted]
  exact ⟨rfl, if_pos (sub_nonneg.mpr hle)⟩

end SnapshotPublisher

/-! ## A facility that is measured -/

/-- A visit that is over. -/
structure ServedVisit (T : Type) where
  entry : QueueEntry T
  arrival : ℤ
  /-- When it was given a gate. -/
  assigned : ℤ
  /-- When its service ended. -/
  finished : ℤ

/-- What happened, visit by visit: when those in the queue arrived, when those at the gates arrived
and were given theirs, and the visits that are over. -/
structure VisitLog (T : Type) where
  waiting : List ℤ := []
  atGate : Dict ℕ (ℤ × ℤ) := Dict.empty
  ended : List (ServedVisit T) := []
  /-- The length of the longest queue there was. -/
  longestQueue : ℕ := 0

/-- The visit at a gate is over. -/
def VisitLog.finish (log : VisitLog T) (now : ℤ) (gateIndex : ℕ) (entry : QueueEntry T) :
    VisitLog T :=
  match log.atGate.get? gateIndex with
  | none => log
  | some (arrival, assigned) =>
    { log with
      atGate := log.atGate.erase gateIndex
      ended := log.ended ++ [⟨entry, arrival, assigned, now⟩] }

omit [DecidableEq T] in
@[simp] theorem VisitLog.finish_longestQueue (log : VisitLog T) (now : ℤ) (i : ℕ)
    (entry : QueueEntry T) : (log.finish now i entry).longestQueue = log.longestQueue := by
  rw [VisitLog.finish]
  split <;> rfl

/-- A facility with its publisher, and what happened. -/
structure MeasuredFacility (T : Type) where
  app : FacilityApp T
  stream : SnapshotPublisher T
  log : VisitLog T := {}

namespace MeasuredFacility

variable (serviceTime : ℕ) (s : MeasuredFacility T)

/-- The app in another state. -/
def withApp (app : FacilityApp T) : MeasuredFacility T :=
  { s with
    app := app
    log := { s.log with
      longestQueue := max s.log.longestQueue app.queueController.queue.length } }

/-- `_publish_facility_snapshot`, as far as it changes the publisher's figures. -/
def publishFacilitySnapshot : MeasuredFacility T :=
  { s with stream := (s.stream.buildSnapshot s.app s.app.currentTime).1 }

/-- `enqueue_arrival`. -/
def enqueueArrival (truckId : T) (visitType : FacilityVisitType) : MeasuredFacility T :=
  let now := s.app.currentTime
  let s := s.withApp (s.app.enqueueArrival truckId visitType)
  publishFacilitySnapshot
    { s with
      stream := s.stream.recordEnqueue ⟨truckId, visitType⟩ now
      log := { s.log with waiting := s.log.waiting ++ [now] } }

/-- `_allocate_gates`: the first of the queue are given gates. -/
def allocateGates : MeasuredFacility T :=
  let now := s.app.currentTime
  let given := s.app.queueController.assignAvailableGates.2
  let s := s.withApp (s.app.allocateGates serviceTime)
  { s with
    log := { s.log with
      waiting := s.log.waiting.drop given.length
      atGate := s.log.atGate.update
        ((given.zip s.log.waiting).map fun p ↦ (p.1.1, (p.2, now))) } }

/-- `complete_gate_service`. -/
def completeGateService (gateIndex : ℕ) : MeasuredFacility T :=
  let now := s.app.currentTime
  let entry := (s.app.queueController.releaseGate gateIndex).2.or
    (s.app.gateAssignments.get? gateIndex)
  let s := s.withApp (s.app.completeGateService serviceTime gateIndex)
  publishFacilitySnapshot <|
    match entry with
    | none => s
    | some entry =>
      { s with
        stream := s.stream.recordServiceComplete now entry
        log := s.log.finish now gateIndex entry }

/-- The loop of `perform_workflow_actions` over the gates whose service is over. -/
def completeDue : MeasuredFacility T :=
  s.app.dueGateIndices.foldl (fun s gateIndex ↦ s.completeGateService serviceTime gateIndex) s

/-- `perform_workflow_actions`, and whether it raises. -/
def performWorkflowActions : MeasuredFacility T × Bool :=
  let t := s.allocateGates serviceTime
  if s.app.allocationRaises serviceTime then (t, true)
  else if t.app.dueGateIndices = [] then (t.publishFacilitySnapshot, false)
  else
    let u := t.completeDue serviceTime
    if u.app.allocationRaises serviceTime then (u.allocateGates serviceTime, true)
    else ((u.allocateGates serviceTime).publishFacilitySnapshot, false)

/-- One message. -/
def onMessage : FacilityMessage T → MeasuredFacility T
  | .truckArrived truckId visitType => s.enqueueArrival truckId visitType
  | .unhandled => s

/-- The facility agent with its publisher. -/
def machine : Machine (MeasuredFacility T) (FacilityEvent T) where
  step s
    | .deliver m => some { s with app := { s.app with messageQueue := s.app.messageQueue ++ [m] } }
    | .step now =>
      if s.app.phase = .idle ∧ s.app.currentTime ≤ now then
        some { s with app := { s.app with currentTime := now, phase := .consuming } }
      else none
    | .consume =>
      match s.app.phase, s.app.messageQueue with
      | .consuming, [] => some { s with app := { s.app with phase := .acting } }
      | .consumingAgain, [] => some { s with app := { s.app with phase := .idle } }
      | .consuming, m :: rest =>
        some (({ s with app := { s.app with messageQueue := rest } } : MeasuredFacility
          T).onMessage m)
      | .consumingAgain, m :: rest =>
        some (({ s with app := { s.app with messageQueue := rest } } : MeasuredFacility
          T).onMessage m)
      | _, _ => none
    | .act =>
      if s.app.phase = .acting then
        let r := s.performWorkflowActions serviceTime
        some { r.1 with app := { r.1.app with phase := if r.2 then .idle else .consumingAgain } }
      else none

/-- A facility at a location that has been launched. -/
def launched (location : ℚ × ℚ) (gateCount : ℕ) (clock : ℤ) : MeasuredFacility T where
  app := FacilityApp.launched gateCount clock
  stream := { location := some location }

/-! ### It is the facility agent -/

variable {serviceTime} {s}

theorem app_completeGateService (i : ℕ) :
    (s.completeGateService serviceTime i).app = s.app.completeGateService serviceTime i := by
  rw [completeGateService]
  cases (s.app.queueController.releaseGate i).2.or (s.app.gateAssignments.get? i) with
  | none => rfl
  | some entry => rfl

variable {e : FacilityEvent T} {t : MeasuredFacility T}

/-- **Everything a step can do**: leave gates and queue alone, take a message, or act. -/
theorem step_cases (h : (machine serviceTime).step s e = some t) :
    (e ≠ .act ∧ ∃ app : FacilityApp T, t = { s with app := app } ∧
      app.queueController = s.app.queueController ∧ app.gateAssignments = s.app.gateAssignments ∧
      app.gateServiceEnds = s.app.gateServiceEnds ∧ s.app.currentTime ≤ app.currentTime) ∨
    (∃ m rest, e = .consume ∧ s.app.messageQueue = m :: rest ∧
      t = ({ s with app := { s.app with messageQueue := rest } } : MeasuredFacility T).onMessage
        m) ∨
    (e = .act ∧ ∃ phase, t = { (s.performWorkflowActions serviceTime).1 with
      app := { (s.performWorkflowActions serviceTime).1.app with phase := phase } }) := by
  cases e with
  | deliver m =>
    cases h
    exact Or.inl ⟨nofun, _, rfl, rfl, rfl, rfl, le_rfl⟩
  | step now =>
    simp only [machine] at h
    split at h
    · next hidle =>
      cases h
      exact Or.inl ⟨nofun, _, rfl, rfl, rfl, rfl, hidle.2⟩
    · cases h
  | consume =>
    simp only [machine] at h
    split at h
    iterate 2
      · cases h
        exact Or.inl ⟨nofun, _, rfl, rfl, rfl, rfl, le_rfl⟩
    iterate 2
      · next hqueue =>
        cases h
        exact Or.inr (Or.inl ⟨_, _, rfl, hqueue, rfl⟩)
    · cases h
  | act =>
    simp only [machine] at h
    split at h
    · cases h
      exact Or.inr (Or.inr ⟨rfl, _, rfl⟩)
    · cases h

/-! ## The longest queue -/

/-- What the publisher has to say of the longest queue is true. -/
structure PeakKnown (s : MeasuredFacility T) : Prop where
  located : ∃ location, s.stream.location = some location
  peak : s.stream.peakQueueLength = s.log.longestQueue
  bounded : s.app.queueController.queue.length ≤ s.log.longestQueue

@[simp] theorem publish_completedWaitS :
    s.publishFacilitySnapshot.stream.completedWaitS = s.stream.completedWaitS := by
  rw [publishFacilitySnapshot, SnapshotPublisher.buildSnapshot]
  split <;> rfl

@[simp] theorem publish_queueMeta :
    s.publishFacilitySnapshot.stream.queueMeta = s.stream.queueMeta := by
  rw [publishFacilitySnapshot, SnapshotPublisher.buildSnapshot]
  split <;> rfl

theorem peakKnown_publish (hlocated : ∃ location, s.stream.location = some location)
    (hpeak : max s.stream.peakQueueLength s.app.queueController.queue.length = s.log.longestQueue) :
    s.publishFacilitySnapshot.PeakKnown := by
  obtain ⟨location, hlocation⟩ := hlocated
  have hstream : s.publishFacilitySnapshot.stream =
      { s.stream.ensureOpened s.app.currentTime with
        peakQueueLength := max s.stream.peakQueueLength s.app.queueController.queue.length } := by
    rw [publishFacilitySnapshot, SnapshotPublisher.buildSnapshot, hlocation]
  refine ⟨⟨location, ?_⟩, ?_, ?_⟩
  · rw [hstream]
    exact hlocation
  · exact hstream ▸ hpeak
  · exact hpeak ▸ le_max_right _ _

theorem PeakKnown.publish (h : s.PeakKnown) : s.publishFacilitySnapshot.PeakKnown :=
  peakKnown_publish h.located (by rw [h.peak, max_eq_left h.bounded])

omit [DecidableEq T] in
/-- Only an arrival makes the queue longer. -/
theorem PeakKnown.withApp (h : s.PeakKnown) {b : FacilityApp T}
    (hb : b.queueController.queue.length ≤ s.app.queueController.queue.length) :
    (s.withApp b).PeakKnown := by
  have hle : b.queueController.queue.length ≤ s.log.longestQueue := hb.trans h.bounded
  refine ⟨h.located, ?_, ?_⟩
  · rw [MeasuredFacility.withApp, max_eq_left hle]
    exact h.peak
  · exact le_max_right _ _

omit [DecidableEq T] in
theorem PeakKnown.allocateGates (h : s.PeakKnown) : (s.allocateGates serviceTime).PeakKnown := by
  have hle : (s.app.allocateGates serviceTime).queueController.queue.length ≤
      s.app.queueController.queue.length := by
    rw [FacilityApp.allocateGates, FacilityQueueController.assignAvailableGates]
    split
    · have hqueue := congrArg List.length
        (assignGates_queue s.app.queueController.gates s.app.queueController.queue 0)
      rw [List.length_append] at hqueue
      dsimp only
      omega
    · exact le_refl _
  have hwith := h.withApp hle
  exact ⟨hwith.located, hwith.peak, hwith.bounded⟩

theorem PeakKnown.completeGateService (h : s.PeakKnown) (i : ℕ) :
    (s.completeGateService serviceTime i).PeakKnown := by
  have hwith : (s.withApp (s.app.completeGateService serviceTime i)).PeakKnown :=
    h.withApp (le_refl _)
  refine PeakKnown.publish ?_
  cases (s.app.queueController.releaseGate i).2.or (s.app.gateAssignments.get? i) with
  | none => exact hwith
  | some entry =>
    refine ⟨?_, ?_, ?_⟩
    · rw [SnapshotPublisher.recordServiceComplete_location]
      exact hwith.located
    · rw [SnapshotPublisher.recordServiceComplete_peakQueueLength, VisitLog.finish_longestQueue]
      exact hwith.peak
    · rw [VisitLog.finish_longestQueue]
      exact hwith.bounded

theorem PeakKnown.completeDue (h : s.PeakKnown) : (s.completeDue serviceTime).PeakKnown := by
  have hdue (due : List ℕ) {s : MeasuredFacility T} (h : s.PeakKnown) :
      (due.foldl (fun s i ↦ s.completeGateService serviceTime i) s).PeakKnown := by
    induction due generalizing s with
    | nil => exact h
    | cons i due ih => exact ih (h.completeGateService i)
  exact hdue _ h

theorem PeakKnown.performWorkflowActions (h : s.PeakKnown) :
    (s.performWorkflowActions serviceTime).1.PeakKnown := by
  simp only [MeasuredFacility.performWorkflowActions]
  split
  · exact h.allocateGates
  · split
    · exact h.allocateGates.publish
    · split
      · exact h.allocateGates.completeDue.allocateGates
      · exact h.allocateGates.completeDue.allocateGates.publish

theorem PeakKnown.onMessage (h : s.PeakKnown) (m : FacilityMessage T) :
    (s.onMessage m).PeakKnown := by
  cases m with
  | unhandled => exact h
  | truckArrived truckId visitType =>
    refine peakKnown_publish h.located ?_
    exact congrArg (max · _) h.peak

/-- **Every step leaves the longest queue known.** -/
theorem PeakKnown.step (h : s.PeakKnown) (hstep : (machine serviceTime).step s e = some t) :
    t.PeakKnown := by
  rcases step_cases hstep with
    ⟨-, app, rfl, hcontroller, -⟩ | ⟨m, rest, -, -, rfl⟩ | ⟨-, phase, rfl⟩
  · exact ⟨h.located, h.peak, hcontroller ▸ h.bounded⟩
  · exact PeakKnown.onMessage (s := { s with app := { s.app with messageQueue := rest } })
      ⟨h.located, h.peak, h.bounded⟩ m
  · have hacted : (s.performWorkflowActions serviceTime).1.PeakKnown := h.performWorkflowActions
    exact ⟨hacted.located, hacted.peak, hacted.bounded⟩

/-! ## Before the first visit is over -/

/-- No visit is over, in truth or for the publisher. -/
def NothingOver (s : MeasuredFacility T) : Prop :=
  s.log.ended = [] ∧ s.stream.completedWaitS = []

/-- The event ends no service. -/
def CompletesNothing (serviceTime : ℕ) (s : MeasuredFacility T) (e : FacilityEvent T) : Prop :=
  e = .act → s.app.allocationRaises serviceTime = false →
    (s.app.allocateGates serviceTime).dueGateIndices = []

theorem NothingOver.onMessage (h : s.NothingOver) (m : FacilityMessage T) :
    (s.onMessage m).NothingOver := by
  cases m with
  | unhandled => exact h
  | truckArrived truckId visitType => exact ⟨h.1, publish_completedWaitS.trans h.2⟩

theorem NothingOver.step (h : s.NothingOver) (hnone : CompletesNothing serviceTime s e)
    (hstep : (machine serviceTime).step s e = some t) : t.NothingOver := by
  rcases step_cases hstep with ⟨-, app, rfl, -⟩ | ⟨m, rest, -, -, rfl⟩ | ⟨hact, phase, rfl⟩
  · exact h
  · exact NothingOver.onMessage (s := { s with app := { s.app with messageQueue := rest } }) h m
  · simp only [performWorkflowActions]
    split
    · exact h
    · next hraises =>
      have hdue : (s.allocateGates serviceTime).app.dueGateIndices = [] :=
        hnone hact (Bool.eq_false_iff.mpr hraises)
      rw [if_pos hdue]
      exact ⟨h.1, publish_completedWaitS.trans h.2⟩

/-! ## What the waits are -/

/-- The notes of the publisher are right.  They say of each visit that is queued or at a gate when
it arrived, and each visit that is over was counted, up to the end of its service. -/
structure Noted (gateCount serviceTime : ℕ) (s : MeasuredFacility T) : Prop where
  coherent : s.app.Coherent gateCount serviceTime
  queued : s.app.queueController.queue.map s.stream.queueMeta.get? = s.log.waiting.map some
  arrived : ∀ arrival ∈ s.log.waiting, arrival ≤ s.app.currentTime
  served : ∀ i entry ends, s.app.Serves i entry ends → ∃ arrival assigned,
    s.log.atGate.get? i = some (arrival, assigned) ∧
      s.stream.queueMeta.get? entry = some arrival ∧
      arrival ≤ assigned ∧ assigned + serviceTime ≤ ends
  once : (s.app.queueController.queue ++ s.app.atGates).Nodup
  waits : s.stream.completedWaitS = s.log.ended.map fun v ↦ v.finished - v.arrival
  ended : ∀ v ∈ s.log.ended, v.assigned + serviceTime ≤ v.finished

variable {gateCount : ℕ}

/-- The notes do not depend on the messages or the phase, and time may pass. -/
theorem Noted.of_same (h : s.Noted gateCount serviceTime)
    (hcontroller : t.app.queueController = s.app.queueController)
    (hassigned : t.app.gateAssignments = s.app.gateAssignments)
    (hends : t.app.gateServiceEnds = s.app.gateServiceEnds)
    (htime : s.app.currentTime ≤ t.app.currentTime)
    (hmeta : t.stream.queueMeta = s.stream.queueMeta)
    (hwaits : t.stream.completedWaitS = s.stream.completedWaitS) (hlog : t.log = s.log) :
    t.Noted gateCount serviceTime := by
  have hview : ∀ i, t.app.gateView i = s.app.gateView i := by
    intro i
    rw [FacilityApp.gateView, hcontroller, hassigned, hends, FacilityApp.gateView]
  have hgates : t.app.atGates = s.app.atGates := by
    rw [FacilityApp.atGates, hcontroller, FacilityApp.atGates]
  refine ⟨?_, ?_, fun arrival hmem ↦ ?_, fun i entry ends hserves ↦ ?_, ?_, ?_, ?_⟩
  · exact h.coherent.of_same (congrArg _ hcontroller) (congrArg _ hcontroller) hassigned hends htime
  · rw [hcontroller, hmeta, hlog]
    exact h.queued
  · exact (h.arrived arrival (hlog ▸ hmem)).trans htime
  · rw [hlog, hmeta]
    exact h.served i entry ends ((hview i).symm.trans hserves)
  · rw [hcontroller, hgates]
    exact h.once
  · rw [hwaits, hlog]
    exact h.waits
  · rw [hlog]
    exact h.ended

/-- Whoever is given a gate takes the own arrival along. -/
theorem Noted.allocateGates (h : s.Noted gateCount serviceTime) :
    (s.allocateGates serviceTime).Noted gateCount serviceTime := by
  have hopen := h.coherent.isOpen
  have hgiven : s.app.queueController.assignAvailableGates.2 = s.app.given :=
    congrArg Prod.snd (FacilityApp.assignAvailableGates_eq hopen)
  have hqueue : s.app.queueController.queue = s.app.given.map Prod.snd ++
      (s.app.allocateGates serviceTime).queueController.queue := by
    rw [FacilityApp.allocateGates_queue serviceTime hopen]
    exact assignGates_queue s.app.queueController.gates s.app.queueController.queue 0
  have hlength : s.app.given.length ≤ s.log.waiting.length := by
    have hlengths := congrArg List.length h.queued
    rw [List.length_map, List.length_map, hqueue, List.length_append, List.length_map] at hlengths
    omega
  have hwaiting : (s.allocateGates serviceTime).log.waiting =
      s.log.waiting.drop s.app.given.length := by
    rw [MeasuredFacility.allocateGates, hgiven]
    rfl
  have hatGate : (s.allocateGates serviceTime).log.atGate =
      s.log.atGate.update ((s.app.given.zip s.log.waiting).map
        fun p ↦ (p.1.1, (p.2, s.app.currentTime))) := by
    rw [MeasuredFacility.allocateGates, hgiven]
    rfl
  have hkeys : ((s.app.given.zip s.log.waiting).map
      fun p ↦ (p.1.1, (p.2, s.app.currentTime))).map Prod.fst = s.app.given.map Prod.fst := by
    rw [List.map_map, ← List.map_fst_zip hlength, List.map_map, List.map_fst_zip hlength]
    rfl
  have hnodup : (s.app.given.map Prod.fst).Nodup :=
    (assignGates_gates s.app.queueController.gates s.app.queueController.queue 0).2.1
  refine ⟨h.coherent.allocateGates, ?_, fun arrival hmem ↦ ?_, fun i entry ends hserves ↦ ?_,
    ?_, h.waits, h.ended⟩
  · rw [hwaiting, List.map_drop, ← h.queued, hqueue, List.map_append, List.drop_left']
    · rfl
    · rw [List.length_map, List.length_map]
  · rw [hwaiting] at hmem
    exact h.arrived arrival (List.mem_of_mem_drop hmem)
  · rw [hatGate]
    rcases h.coherent.of_serves_allocateGates hserves with ⟨hnot, hbefore⟩ | ⟨hmem, rfl⟩
    · rw [Dict.get?_update_of_notMem (hkeys ▸ hnot)]
      exact h.served i entry ends hbefore
    · obtain ⟨k, hk⟩ := List.mem_iff_getElem?.mp hmem
      have hentry : s.app.queueController.queue[k]? = some entry := by
        rw [hqueue, List.getElem?_append_left (by
          rw [List.length_map]
          exact (List.getElem?_eq_some_iff.mp hk).1), List.getElem?_map, hk]
        rfl
      have hnote := congrArg (·[k]?) h.queued
      rw [List.getElem?_map, hentry, List.getElem?_map] at hnote
      obtain ⟨arrival, harrival, hnoted⟩ := Option.map_eq_some_iff.mp hnote.symm
      have hpair : (i, (arrival, s.app.currentTime)) ∈ (s.app.given.zip s.log.waiting).map
          fun p ↦ (p.1.1, (p.2, s.app.currentTime)) :=
        List.mem_map.mpr ⟨((i, entry), arrival),
          List.mem_of_getElem? (List.getElem?_zip_eq_some.mpr ⟨hk, harrival⟩), rfl⟩
      exact ⟨arrival, s.app.currentTime,
        Dict.get?_update_of_mem (hkeys.symm ▸ hnodup) hpair, hnoted.symm,
        h.arrived arrival (List.mem_of_getElem? harrival), le_refl _⟩
  · have hgates : (s.app.allocateGates serviceTime).atGates.Perm
        (s.app.given.map Prod.snd ++ s.app.atGates) := by
      rw [FacilityApp.atGates, FacilityApp.allocateGates_gates serviceTime hopen]
      exact assignGates_perm s.app.queueController.gates s.app.queueController.queue 0
        fun _ ↦ h.coherent.unassigned_of_available
    have hperm : ((s.app.allocateGates serviceTime).queueController.queue ++
        (s.app.allocateGates serviceTime).atGates).Perm
          (s.app.queueController.queue ++ s.app.atGates) := by
      rw [hqueue, List.append_assoc]
      exact (hgates.append_left _).trans (List.perm_append_comm_assoc _ _ _)
    exact hperm.nodup_iff.mpr h.once

theorem Noted.publish (h : s.Noted gateCount serviceTime) :
    s.publishFacilitySnapshot.Noted gateCount serviceTime :=
  h.of_same rfl rfl rfl (le_refl _) publish_queueMeta publish_completedWaitS rfl

/-- The visit whose service ends was noted once, under its own arrival. -/
theorem Noted.completeGateService (h : s.Noted gateCount serviceTime) {i : ℕ}
    {entry : QueueEntry T} {ends : ℤ} (hserves : s.app.Serves i entry ends)
    (hdue : ends ≤ s.app.currentTime) :
    (s.completeGateService serviceTime i).Noted gateCount serviceTime ∧
      (s.completeGateService serviceTime i).log.ended.length = s.log.ended.length + 1 := by
  obtain ⟨arrival, assigned, hgate, hnoted, hle, hends⟩ := h.served i entry ends hserves
  have hreleased : (s.app.queueController.releaseGate i).2 = some entry := by
    rw [FacilityQueueController.releaseGate, hserves.gate]
    rfl
  have heq : s.completeGateService serviceTime i = publishFacilitySnapshot
      { app := s.app.completeGateService serviceTime i
        stream := s.stream.recordServiceComplete s.app.currentTime entry
        log := { (s.withApp (s.app.completeGateService serviceTime i)).log with
          atGate := s.log.atGate.erase i
          ended := s.log.ended ++ [⟨entry, arrival, assigned, s.app.currentTime⟩] } } := by
    have hlog : (s.withApp (s.app.completeGateService serviceTime i)).log.atGate.get? i =
      some (arrival, assigned) := hgate
    rw [MeasuredFacility.completeGateService, hreleased]
    simp only [Option.some_or, VisitLog.finish, hlog]
    rfl
  obtain ⟨hmeta, hwaits⟩ :=
    SnapshotPublisher.recordServiceComplete_of_noted hnoted (by omega : arrival ≤ s.app.currentTime)
  have hentry : ∀ e ∈ s.app.queueController.queue, e ≠ entry := fun e he ↦
    (List.nodup_append.mp h.once).2.2 e he entry hserves.mem_atGates
  have hgates : s.app.atGates.Perm (entry :: (s.app.completeGateService serviceTime i).atGates) :=
    FacilityApp.perm_filterMap_modify hserves.gate rfl rfl
  rw [heq]
  refine ⟨Noted.publish ⟨h.coherent.completeGateService hserves, ?_, h.arrived,
    fun j other ends' hother ↦ ?_, ?_, ?_, ?_⟩, List.length_append⟩
  · refine (List.map_congr_left fun e he ↦ ?_).trans h.queued
    rw [hmeta]
    exact Dict.get?_erase_ne _ (hentry e he)
  · have hne : j ≠ i := by
      rintro rfl
      cases Option.some.inj (hother.gate.symm.trans hserves.vacant_completeGateService.gate)
    have hbefore : s.app.Serves j other ends' :=
      (FacilityApp.gateView_completeGateService_ne hne).symm.trans hother
    have hdifferent : other ≠ entry := by
      rintro rfl
      exact hne (hbefore.gate_unique (List.nodup_append.mp h.once).2.1 hserves)
    obtain ⟨arrival', assigned', hgate', hnoted', hle', hends'⟩ := h.served j other ends' hbefore
    refine ⟨arrival', assigned', ?_, ?_, hle', hends'⟩
    · exact (Dict.get?_erase_ne _ hne).trans hgate'
    · rw [hmeta]
      exact (Dict.get?_erase_ne _ hdifferent).trans hnoted'
  · have hnodup := ((hgates.append_left s.app.queueController.queue).nodup_iff).mp h.once
    exact hnodup.sublist ((List.sublist_cons_self _ _).append_left _)
  · rw [hwaits, h.waits, List.map_append]
    rfl
  · intro v hv
    rcases List.mem_append.mp hv with hv | hv
    · exact h.ended v hv
    · obtain rfl := List.mem_singleton.mp hv
      exact hends.trans hdue

theorem Noted.completeAll {due : List ℕ} (hnodup : due.Nodup) (h : s.Noted gateCount serviceTime)
    (hdue : ∀ i ∈ due, ∃ entry ends, s.app.Serves i entry ends ∧ ends ≤ s.app.currentTime) :
    (due.foldl (fun s i ↦ s.completeGateService serviceTime i) s).Noted gateCount serviceTime ∧
      (due.foldl (fun s i ↦ s.completeGateService serviceTime i) s).log.ended.length =
        s.log.ended.length + due.length := by
  induction due generalizing s with
  | nil => exact ⟨h, rfl⟩
  | cons i due ih =>
    obtain ⟨hnot, hnodup⟩ := List.nodup_cons.mp hnodup
    obtain ⟨entry, ends, hserves, hle⟩ := hdue i List.mem_cons_self
    obtain ⟨hnoted, hlength⟩ := h.completeGateService hserves hle
    have hrest : ∀ j ∈ due, ∃ entry ends,
        (s.completeGateService serviceTime i).app.Serves j entry ends ∧
          ends ≤ (s.completeGateService serviceTime i).app.currentTime := by
      intro j hj
      obtain ⟨other, ends', hother, hle'⟩ := hdue j (List.mem_cons_of_mem _ hj)
      have hne : j ≠ i := fun he ↦ hnot (he ▸ hj)
      rw [app_completeGateService]
      exact ⟨other, ends', (FacilityApp.gateView_completeGateService_ne hne).trans hother, hle'⟩
    obtain ⟨hafter, hlength'⟩ := ih hnodup hnoted hrest
    refine ⟨hafter, ?_⟩
    rw [List.foldl_cons, hlength', hlength, List.length_cons]
    omega

/-- **The services that are due are counted**, each once. -/
theorem Noted.completeDue (h : s.Noted gateCount serviceTime) :
    (s.completeDue serviceTime).Noted gateCount serviceTime ∧
      (s.completeDue serviceTime).log.ended.length =
        s.log.ended.length + s.app.dueGateIndices.length :=
  h.completeAll FacilityApp.nodup_dueGateIndices fun i hi ↦ by
    obtain ⟨ends, hends, hle⟩ := FacilityApp.mem_dueGateIndices.mp hi
    obtain ⟨entry, hserves⟩ := h.coherent.serves_of_scheduled hends
    exact ⟨entry, ends, hserves, hle⟩

/-- **A tick counts every service that is due**, unless it raises before. -/
theorem Noted.performWorkflowActions (h : s.Noted gateCount serviceTime) :
    (s.performWorkflowActions serviceTime).1.Noted gateCount serviceTime ∧
      (s.app.allocationRaises serviceTime = false →
        (s.performWorkflowActions serviceTime).1.log.ended.length =
          s.log.ended.length + (s.app.allocateGates serviceTime).dueGateIndices.length) := by
  have hallocated := h.allocateGates
  obtain ⟨hnoted, hlength⟩ := hallocated.completeDue
  simp only [MeasuredFacility.performWorkflowActions]
  split
  · next hraises => exact ⟨hallocated, fun hnot ↦ by rw [hnot] at hraises; cases hraises⟩
  · split
    · next hdue =>
      have hnone : (s.app.allocateGates serviceTime).dueGateIndices = [] := hdue
      exact ⟨hallocated.publish, fun _ ↦ by rw [hnone]; rfl⟩
    · split
      · exact ⟨hnoted.allocateGates, fun _ ↦ hlength⟩
      · exact ⟨hnoted.allocateGates.publish, fun _ ↦ hlength⟩

/-- The event queues no visit that is queued or at a gate. -/
def NotQueuedTwice (s : MeasuredFacility T) : FacilityEvent T → Prop
  | .consume => ∀ entry, s.app.messageQueue.head?.bind FacilityMessage.arrival = some entry →
      entry ∉ s.app.queueController.queue ++ s.app.atGates
  | _ => True

theorem Noted.onMessage {m : FacilityMessage T} (h : s.Noted gateCount serviceTime)
    (hnew : ∀ entry, m.arrival = some entry →
      entry ∉ s.app.queueController.queue ++ s.app.atGates) :
    (s.onMessage m).Noted gateCount serviceTime := by
  cases m with
  | unhandled => exact h
  | truckArrived truckId visitType =>
    have hnot := hnew ⟨truckId, visitType⟩ rfl
    have hother : ∀ e ∈ s.app.queueController.queue ++ s.app.atGates,
        (s.stream.queueMeta.set ⟨truckId, visitType⟩ s.app.currentTime).get? e =
          s.stream.queueMeta.get? e := fun e he ↦
      Dict.get?_set_ne _ _ fun heq ↦ hnot (heq ▸ he)
    have hcoherent : (s.app.onMessage (.truckArrived truckId visitType)).Coherent gateCount
        serviceTime := h.coherent.of_same rfl rfl rfl rfl (le_refl _)
    refine Noted.publish ⟨hcoherent, ?_, ?_, fun i entry ends hserves ↦ ?_, ?_, h.waits,
      h.ended⟩
    · refine List.map_append.trans ((congrArg₂ (· ++ ·) ?_ ?_).trans List.map_append.symm)
      · exact (List.map_congr_left fun e he ↦ hother e (List.mem_append_left _ he)).trans h.queued
      · exact congrArg (fun v ↦ [v]) (Dict.get?_set_self _ _ _)
    · intro arrival hmem
      rcases List.mem_append.mp hmem with hmem | hmem
      · exact h.arrived arrival hmem
      · exact (List.mem_singleton.mp hmem).le
    · obtain ⟨arrival, assigned, hgate, hnoted, hle, hends⟩ := h.served i entry ends hserves
      exact ⟨arrival, assigned, hgate,
        (hother entry (List.mem_append_right _ hserves.mem_atGates)).trans hnoted, hle, hends⟩
    · refine (List.append_assoc s.app.queueController.queue [⟨truckId, visitType⟩] _).symm ▸ ?_
      exact List.perm_middle.nodup_iff.mpr (List.nodup_cons.mpr ⟨hnot, h.once⟩)

/-- **Every step keeps the notes right**, if nobody is queued twice. -/
theorem Noted.step (h : s.Noted gateCount serviceTime) (hnew : s.NotQueuedTwice e)
    (hstep : (machine serviceTime).step s e = some t) :
    t.Noted gateCount serviceTime := by
  rcases step_cases hstep with
    ⟨-, app, rfl, hcontroller, hassigned, hends, htime⟩ | ⟨m, rest, rfl, hqueue, rfl⟩ |
      ⟨-, phase, rfl⟩
  · exact h.of_same hcontroller hassigned hends htime rfl rfl rfl
  · have hrest : ({ s with app := { s.app with messageQueue := rest } } : MeasuredFacility T).Noted
        gateCount serviceTime := h.of_same rfl rfl rfl (le_refl _) rfl rfl rfl
    exact hrest.onMessage fun entry hentry ↦ hnew entry (by rw [hqueue]; exact hentry)
  · exact h.performWorkflowActions.1.of_same rfl rfl rfl (le_refl _) rfl rfl rfl

/-! ## The figures -/

/-- The publisher's figures are those of what happened: the mean wait for a gate, and the longest
queue. -/
def Measures (t : MeasuredFacility T) : Prop :=
  t.stream.kpiStats.avgQueueWaitSeconds =
      roundTo 2 (mean (t.log.ended.map fun v ↦ v.assigned - v.arrival)) ∧
    t.stream.kpiStats.peakQueueLength = t.log.longestQueue

theorem mean_map_add_le {V : Type} {l : List V} {f g : V → ℤ} {c : ℕ} (hl : l ≠ [])
    (h : ∀ v ∈ l, f v + c ≤ g v) : mean (l.map f) + c ≤ mean (l.map g) := by
  have hsum (l : List V) (h : ∀ v ∈ l, f v + c ≤ g v) :
      (l.map f).sum + l.length * c ≤ (l.map g).sum := by
    induction l with
    | nil => simp
    | cons v l ih =>
      have hv := h v List.mem_cons_self
      have hrest := ih fun w hw ↦ h w (List.mem_cons_of_mem _ hw)
      simp only [List.map_cons, List.sum_cons, List.length_cons, Nat.cast_add, Nat.cast_one,
        add_mul, one_mul]
      omega
  have hpos : (0 : ℚ) < l.length := Nat.cast_pos.mpr (List.length_pos_iff.mpr hl)
  have hall : ((l.map f).sum : ℚ) + l.length * c ≤ (l.map g).sum := by exact_mod_cast hsum l h
  rw [mean, mean, if_neg (List.map_eq_nil_iff.not.mpr hl), if_neg (List.map_eq_nil_iff.not.mpr hl),
    List.length_map, List.length_map, le_div_iff₀ hpos, add_mul, div_mul_cancel₀ _ hpos.ne']
  linarith only [hall]

/-- Once a visit is over the average is too high, by the time of a service at least. -/
theorem Noted.measures_iff (h : t.Noted gateCount serviceTime) (hpeak : t.PeakKnown)
    (hs : 0 < serviceTime) : t.Measures ↔ t.log.ended = [] := by
  constructor
  · rintro ⟨havg, -⟩
    by_contra hover
    have hwaits : ∀ v ∈ t.log.ended, v.assigned - v.arrival + (serviceTime : ℤ) ≤
        v.finished - v.arrival := by
      intro v hv
      have := h.ended v hv
      omega
    have hmean := mean_map_add_le hover hwaits
    have hone : (1 : ℚ) ≤ serviceTime := by exact_mod_cast hs
    have hlt := roundTo_lt_roundTo 2 (by decide) ((add_le_add_right hone _).trans hmean)
    rw [← havg, SnapshotPublisher.kpiStats, h.waits] at hlt
    exact lt_irrefl _ hlt
  · intro hover
    refine ⟨?_, hpeak.peak⟩
    rw [SnapshotPublisher.kpiStats, h.waits, hover]
    rfl

omit [DecidableEq T] in
theorem NothingOver.measures (h : t.NothingOver) (hpeak : t.PeakKnown) : t.Measures := by
  refine ⟨?_, hpeak.peak⟩
  rw [SnapshotPublisher.kpiStats, h.1, h.2]
  rfl

/-! ### Runs -/

section

variable (location : ℚ × ℚ) (gateCount : ℕ) (clock : ℤ)

omit [DecidableEq T] in
theorem peakKnown_launched : (launched location gateCount clock : MeasuredFacility T).PeakKnown :=
  ⟨⟨location, rfl⟩, rfl, le_refl _⟩

omit [DecidableEq T] in
theorem nothingOver_launched :
    (launched location gateCount clock : MeasuredFacility T).NothingOver := ⟨rfl, rfl⟩

theorem noted_launched (serviceTime : ℕ) :
    (launched location gateCount clock : MeasuredFacility T).Noted gateCount serviceTime := by
  refine ⟨FacilityApp.coherent_launched clock, rfl, nofun, fun i entry ends hserves ↦ ?_, ?_, rfl,
    nofun⟩
  · cases hserves.ends
  · show ([] ++ (FacilityApp.launched gateCount clock : FacilityApp T).atGates).Nodup
    rw [FacilityApp.atGates_launched]
    exact List.nodup_nil

end

/-- A tick that ends a service shows, if nobody was queued twice. -/
theorem measures_iff_of_step (hover : s.NothingOver) (hnoted : s.Noted gateCount serviceTime)
    (hpeak : s.PeakKnown) (hs : 0 < serviceTime) (hnew : s.NotQueuedTwice e)
    (hstep : (machine serviceTime).step s e = some t) :
    t.Measures ↔ CompletesNothing serviceTime s e := by
  rw [(hnoted.step hnew hstep).measures_iff (hpeak.step hstep) hs]
  refine ⟨fun hnone hact hraises ↦ ?_, fun hC ↦ (hover.step hC hstep).1⟩
  rcases step_cases hstep with ⟨hne, -⟩ | ⟨m, rest, hcons, -⟩ | ⟨-, phase, rfl⟩
  · exact absurd hact hne
  · cases hact.symm.trans hcons
  · have hlength := hnoted.performWorkflowActions.2 hraises
    have hafter : (s.performWorkflowActions serviceTime).1.log.ended = [] := hnone
    rw [hafter, hover.1, List.length_nil, Nat.zero_add] at hlength
    exact List.length_eq_zero_iff.mp hlength.symm

end MeasuredFacility

open MeasuredFacility

/-- **The average is not that of the waits for a gate.**  In every run it is right, as is the
longest queue, as long as no service has ended.  The first end of a service makes it wrong, unless a
truck was queued again before its visit was over. -/
theorem facility_kpis_iff (serviceTime : ℕ) (location : ℚ × ℚ) (gateCount : ℕ) (clock : ℤ) :
    (launched location gateCount clock : MeasuredFacility T).Measures ∧
      ∀ es : List (FacilityEvent T),
        ((machine serviceTime).Along (fun s e _ ↦ CompletesNothing serviceTime s e)
            (launched location gateCount clock) es →
          (machine serviceTime).Along (fun _ _ t ↦ t.Measures)
            (launched location gateCount clock) es) ∧
        (0 < serviceTime →
          (machine serviceTime).Along (fun s e _ ↦ s.NotQueuedTwice e)
            (launched location gateCount clock) es →
          ((machine serviceTime).Along (fun _ _ t ↦ t.Measures)
              (launched location gateCount clock) es ↔
            (machine serviceTime).Along (fun s e _ ↦ CompletesNothing serviceTime s e)
              (launched location gateCount clock) es)) := by
  have hpeak := peakKnown_launched (T := T) location gateCount clock
  have hover := nothingOver_launched (T := T) location gateCount clock
  refine ⟨hover.measures hpeak, fun es ↦ ⟨fun hC ↦ ?_, fun hs hnew ↦ ?_⟩⟩
  · refine Machine.Along.imp_of (I := fun s ↦ s.PeakKnown ∧ s.NothingOver)
      (fun s e t hI hC hstep ↦ ?_) ⟨hpeak, hover⟩ es hC
    have hover' := hI.2.step hC hstep
    have hpeak' := hI.1.step hstep
    exact ⟨hover'.measures hpeak', hpeak', hover'⟩
  · refine Machine.along_congr_when
      (I := fun s ↦ s.PeakKnown ∧ s.NothingOver ∧ s.Noted gateCount serviceTime)
      (fun s e t hI hD hstep ↦ ⟨?_, fun hC ↦ ?_⟩)
      ⟨hpeak, hover, noted_launched location gateCount clock serviceTime⟩ es hnew
    · exact measures_iff_of_step hI.2.1 hI.2.2 hI.1 hs hD hstep
    · exact ⟨hI.1.step hstep, hI.2.1.step hC hstep, hI.2.2.step hD hstep⟩

/-- A truck that is given a gate when it arrives, and served for a minute. -/
theorem wait_includes_service : ∃ t : MeasuredFacility ℕ,
    (machine 60).exec (launched (103, 1) 1 0)
        [.deliver (.truckArrived 7 .pickup), .step 0, .consume, .consume, .act, .consume,
          .step 60, .consume, .act] = some t ∧
      ¬ t.Measures := by
  refine ⟨_, rfl, fun h ↦ ?_⟩
  have havg := h.1
  revert havg
  decide +kernel

end OpenRide.Haulage
