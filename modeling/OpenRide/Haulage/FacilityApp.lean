import OpenRide.Haulage.TruckApp
import OpenRide.Lib.Dict

/-!
# The facility agent

A facility serves the trucks of one queue, first in first out, through its gates.  A truck that
arrives is appended to the queue; in its step the facility gives every available gate the next truck
of the queue, completes the services that are due, and gives the gates that became free away again.
It tells the truck of both, on the truck's own topic.  The end of a service is a `datetime`, so one
that would end outside of the calendar raises, after the gate was given away and before the truck is
told.

The facility never looks into a truck id, it only stores it and sends it back; so it is modelled for
any type of truck ids.  What the facility knows of a visit is in one of five places (`Holds`), and
no step makes up a visit (`holds_of_step`).
-/

namespace OpenRide.Haulage

open Lib

/-! ## The queue and the gates -/

inductive GateState where
  | closed
  | available
  | busy
  | outOfService
deriving DecidableEq

/-- `QueueEntry`: a truck waiting at or being served through a gate. -/
structure QueueEntry (T : Type) where
  truckId : T
  visitType : FacilityVisitType
deriving DecidableEq

/-- A gate, with its element of `gate_assignments`. -/
structure Gate (T : Type) where
  state : GateState := .closed
  assignment : Option (QueueEntry T) := none
deriving DecidableEq

/-- `FacilityQueueController`. -/
structure FacilityQueueController (T : Type) where
  isOpen : Bool := false
  queue : List (QueueEntry T) := []
  gates : List (Gate T)
deriving DecidableEq

variable {T : Type}

/-- The loop of `assign_available_gates` over the gates from index `i` on: the gates, the queue and
the assignments made. -/
def assignGates : List (Gate T) → List (QueueEntry T) → ℕ →
    List (Gate T) × List (QueueEntry T) × List (ℕ × QueueEntry T)
  | [], queue, _ => ([], queue, [])
  | gates, [], _ => (gates, [], [])
  | gate :: gates, entry :: queue, i =>
    if gate.state = .available then
      let r := assignGates gates queue (i + 1)
      (⟨.busy, some entry⟩ :: r.1, r.2.1, (i, entry) :: r.2.2)
    else
      let r := assignGates gates (entry :: queue) (i + 1)
      (gate :: r.1, r.2.1, r.2.2)

/-- Whoever is queued, at a gate or given one afterwards was queued or at a gate before. -/
theorem of_assignGates (gates : List (Gate T)) (queue : List (QueueEntry T)) (i : ℕ) :
    (∀ entry ∈ (assignGates gates queue i).2.1, entry ∈ queue) ∧
      (∀ g ∈ (assignGates gates queue i).1,
        g ∈ gates ∨ ∃ entry ∈ queue, g.assignment = some entry) ∧
      ∀ p ∈ (assignGates gates queue i).2.2, p.2 ∈ queue := by
  fun_induction assignGates gates queue i with
  | case1 queue i => exact ⟨fun _ h ↦ h, nofun, nofun⟩
  | case2 gates i => exact ⟨fun _ h ↦ h, fun _ h ↦ Or.inl h, nofun⟩
  | case3 gate gates entry queue i _ r ih =>
    obtain ⟨hqueue, hgates, hgiven⟩ := ih
    refine ⟨fun e he ↦ List.mem_cons_of_mem _ (hqueue e he), fun g hg ↦ ?_, fun p hp ↦ ?_⟩
    · rcases List.mem_cons.mp hg with rfl | hg
      · exact Or.inr ⟨entry, List.mem_cons_self, rfl⟩
      · exact (hgates g hg).imp (List.mem_cons_of_mem _)
          fun ⟨e, he, h⟩ ↦ ⟨e, List.mem_cons_of_mem _ he, h⟩
    · rcases List.mem_cons.mp hp with rfl | hp
      · exact List.mem_cons_self
      · exact List.mem_cons_of_mem _ (hgiven p hp)
  | case4 gate gates entry queue i _ r ih =>
    obtain ⟨hqueue, hgates, hgiven⟩ := ih
    refine ⟨hqueue, fun g hg ↦ ?_, hgiven⟩
    rcases List.mem_cons.mp hg with rfl | hg
    · exact Or.inl List.mem_cons_self
    · exact (hgates g hg).imp_left (List.mem_cons_of_mem _)

namespace FacilityQueueController

variable (q : FacilityQueueController T)

def openFacility : FacilityQueueController T :=
  { q with
    isOpen := true
    gates := q.gates.map fun g ↦ if g.state = .closed then { g with state := .available } else g }

def enqueueTruck (truckId : T) (visitType : FacilityVisitType) : FacilityQueueController T :=
  { q with queue := q.queue ++ [⟨truckId, visitType⟩] }

def assignAvailableGates : FacilityQueueController T × List (ℕ × QueueEntry T) :=
  if q.isOpen then
    let r := assignGates q.gates q.queue 0
    ({ q with gates := r.1, queue := r.2.1 }, r.2.2)
  else (q, [])

variable {q} in
theorem of_assignAvailableGates :
    (∀ entry ∈ q.assignAvailableGates.1.queue, entry ∈ q.queue) ∧
      (∀ g ∈ q.assignAvailableGates.1.gates,
        g ∈ q.gates ∨ ∃ entry ∈ q.queue, g.assignment = some entry) ∧
      ∀ p ∈ q.assignAvailableGates.2, p.2 ∈ q.queue := by
  rw [assignAvailableGates]
  split
  · exact of_assignGates q.gates q.queue 0
  · exact ⟨fun _ h ↦ h, fun _ h ↦ Or.inl h, nofun⟩

/-- `release_gate` of a gate that exists. -/
def releaseGate (gateIndex : ℕ) : FacilityQueueController T × Option (QueueEntry T) :=
  ({ q with
      gates := q.gates.modify gateIndex fun g ↦
        ⟨if g.state = .busy then .available else g.state, none⟩ },
    q.gates[gateIndex]?.bind Gate.assignment)

end FacilityQueueController

/-! ## The facility -/

/-- A message to a facility: a truck joins its queue, or one that no handler takes. -/
inductive FacilityMessage (T : Type) where
  | truckArrived (truckId : T) (visitType : FacilityVisitType)
  | unhandled
deriving DecidableEq

/-- What a facility tells a truck about its visit. -/
structure GateNotice (T : Type) where
  truckId : T
  event : GateEvent
  gateIndex : ℕ
  serviceTime : ℕ
  visitType : FacilityVisitType
deriving DecidableEq

/-- `_gate_event_for_visit`. -/
def gateEventForVisit (visitType : FacilityVisitType) (assigned : Bool) : GateEvent :=
  match visitType with
  | .pickup => if assigned then .gateSlotAssignedForPickup else .pickupGateServiceCompleted
  | .dropoff => if assigned then .gateSlotAssignedForDropoff else .dropoffGateServiceCompleted

/-- The visit a facility's event is about. -/
def GateEvent.visitType : GateEvent → FacilityVisitType
  | gateSlotAssignedForPickup => .pickup
  | pickupGateServiceCompleted => .pickup
  | gateSlotAssignedForDropoff => .dropoff
  | dropoffGateServiceCompleted => .dropoff

@[simp] theorem visitType_gateEventForVisit (visitType : FacilityVisitType) (assigned : Bool) :
    (gateEventForVisit visitType assigned).visitType = visitType := by
  cases visitType <;> cases assigned <;> rfl

/-- Times are seconds since `datetime.min`; this one is the first that is no `datetime`. -/
def calendarSeconds : ℤ := 3652059 * 86400

/-- The state of `FacilityApp`, with that of its manager. -/
structure FacilityApp (T : Type) where
  queueController : FacilityQueueController T
  /-- `_gate_assignments` of the manager. -/
  gateAssignments : Dict ℕ (QueueEntry T) := Dict.empty
  /-- When the service of a gate ends. -/
  gateServiceEnds : Dict ℕ ℤ := Dict.empty
  messageQueue : List (FacilityMessage T) := []
  phase : Phase := .idle
  currentTime : ℤ := 0
  /-- What was handed to the messenger, oldest first. -/
  published : List (GateNotice T) := []

/-- What happens at a facility. -/
inductive FacilityEvent (T : Type) where
  | deliver (m : FacilityMessage T)
  /-- A step that is not skipped begins. -/
  | step (now : ℤ)
  | consume
  | act
deriving DecidableEq

namespace FacilityApp

variable (serviceTime : ℕ) (a : FacilityApp T)

/-- `enqueue_arrival`. -/
def enqueueArrival (truckId : T) (visitType : FacilityVisitType) : FacilityApp T :=
  { a with queueController := a.queueController.enqueueTruck truckId visitType }

/-- What is told of a gate: `_publish_gate_assignment`, `_publish_gate_service_completed`. -/
def gateNotice (gateIndex : ℕ) (entry : QueueEntry T) (assigned : Bool) : GateNotice T where
  truckId := entry.truckId
  event := gateEventForVisit entry.visitType assigned
  gateIndex := gateIndex
  serviceTime := serviceTime
  visitType := entry.visitType

/-- Whether `_allocate_gates` raises: a gate is given away, and adding the service time to the clock
leaves the calendar. -/
def allocationRaises : Bool :=
  !a.queueController.assignAvailableGates.2.isEmpty &&
    decide (0 < serviceTime ∧ calendarSeconds ≤ a.currentTime + serviceTime)

/-- `_allocate_gates`.  It raises at the first of the gates given away, when all of them are busy.
-/
def allocateGates : FacilityApp T :=
  let r := a.queueController.assignAvailableGates
  let raises := a.allocationRaises serviceTime
  { a with
    queueController := r.1
    gateAssignments := a.gateAssignments.update r.2
    gateServiceEnds :=
      if 0 < serviceTime ∧ raises = false then
        a.gateServiceEnds.update (r.2.map fun p ↦ (p.1, a.currentTime + serviceTime))
      else a.gateServiceEnds
    published :=
      if raises then a.published
      else a.published ++ r.2.map fun p ↦ gateNotice serviceTime p.1 p.2 true }

/-- `complete_gate_service`. -/
def completeGateService (gateIndex : ℕ) : FacilityApp T :=
  let r := a.queueController.releaseGate gateIndex
  let entry := r.2.or (a.gateAssignments.get? gateIndex)
  { a with
    queueController := r.1
    gateAssignments := a.gateAssignments.erase gateIndex
    gateServiceEnds := a.gateServiceEnds.erase gateIndex
    published := a.published ++ (entry.map (gateNotice serviceTime gateIndex · false)).toList }

/-- The gates whose service is over, in the order of `_gate_service_ends`. -/
def dueGateIndices : List ℕ :=
  (a.gateServiceEnds.entries.filter fun p ↦ p.2 ≤ a.currentTime).map Prod.fst

/-- The loop of `perform_workflow_actions` over the gates whose service is over. -/
def completeDue : FacilityApp T :=
  a.dueGateIndices.foldl (fun a gateIndex ↦ a.completeGateService serviceTime gateIndex) a

/-- `perform_workflow_actions`, and whether it raises. -/
def performWorkflowActions : FacilityApp T × Bool :=
  let b := a.allocateGates serviceTime
  if a.allocationRaises serviceTime then (b, true)
  else if b.dueGateIndices = [] then (b, false)
  else
    let c := b.completeDue serviceTime
    (c.allocateGates serviceTime, c.allocationRaises serviceTime)

/-- One message. -/
def onMessage : FacilityMessage T → FacilityApp T
  | .truckArrived truckId visitType => a.enqueueArrival truckId visitType
  | .unhandled => a

/-- The facility agent. -/
def machine : Machine (FacilityApp T) (FacilityEvent T) where
  step a
    | .deliver m => some { a with messageQueue := a.messageQueue ++ [m] }
    | .step now =>
      if a.phase = .idle ∧ a.currentTime ≤ now then
        some { a with currentTime := now, phase := .consuming }
      else none
    | .consume =>
      match a.phase, a.messageQueue with
      | .consuming, [] => some { a with phase := .acting }
      | .consumingAgain, [] => some { a with phase := .idle }
      | .consuming, m :: rest =>
        some (({ a with messageQueue := rest } : FacilityApp T).onMessage m)
      | .consumingAgain, m :: rest =>
        some (({ a with messageQueue := rest } : FacilityApp T).onMessage m)
      | _, _ => none
    | .act =>
      if a.phase = .acting then
        let r := a.performWorkflowActions serviceTime
        -- what is raised ends the step before the messages are looked at again
        some { r.1 with phase := if r.2 then .idle else .consumingAgain }
      else none

/-- A facility that has been launched, with its gates open. -/
def launched (gateCount : ℕ) (clock : ℤ) : FacilityApp T where
  queueController :=
    FacilityQueueController.openFacility { gates := List.replicate gateCount {} }
  currentTime := clock

/-! ## The visits a facility knows of -/

/-- The facility holds something of the visit: a message, a place in the queue, a gate, or what it
has to tell. -/
inductive Holds (entry : QueueEntry T) : Prop
  | message (h : .truckArrived entry.truckId entry.visitType ∈ a.messageQueue)
  | queued (h : entry ∈ a.queueController.queue)
  | gate (g : Gate T) (hg : g ∈ a.queueController.gates) (h : g.assignment = some entry)
  | assigned (h : entry ∈ a.gateAssignments.values)
  | told (n : GateNotice T) (hn : n ∈ a.published)
      (h : (⟨n.truckId, n.visitType⟩ : QueueEntry T) = entry)

variable {a} {serviceTime} {entry : QueueEntry T}

theorem mem_published_allocateGates {n : GateNotice T}
    (h : n ∈ (a.allocateGates serviceTime).published) : n ∈ a.published ∨
      ∃ p ∈ a.queueController.assignAvailableGates.2, gateNotice serviceTime p.1 p.2 true = n := by
  simp only [allocateGates] at h
  split at h
  · exact Or.inl h
  · exact (List.mem_append.mp h).imp_right List.mem_map.mp

theorem Holds.of_allocateGates (h : (a.allocateGates serviceTime).Holds entry) : a.Holds entry := by
  obtain ⟨hqueue, hgates, hgiven⟩ :=
    FacilityQueueController.of_assignAvailableGates (q := a.queueController)
  cases h with
  | message h => exact .message h
  | queued h => exact .queued (hqueue entry h)
  | gate g hg h =>
    rcases hgates g hg with hg | ⟨e, he, heq⟩
    · exact .gate g hg h
    · obtain rfl := Option.some.inj (heq.symm.trans h)
      exact .queued he
  | assigned h =>
    obtain ⟨i, hi⟩ := Dict.mem_values_iff.mp h
    rcases Dict.mem_of_get?_update hi with hi | hi
    · exact .queued (hgiven _ hi)
    · exact .assigned (Dict.mem_values_iff.mpr ⟨i, hi⟩)
  | told n hn h =>
    rcases mem_published_allocateGates hn with hn | ⟨p, hp, rfl⟩
    · exact .told n hn h
    · exact .queued (h ▸ hgiven p hp)

theorem Holds.of_completeGateService {gateIndex : ℕ}
    (h : (a.completeGateService serviceTime gateIndex).Holds entry) : a.Holds entry := by
  cases h with
  | message h => exact .message h
  | queued h => exact .queued h
  | gate g hg h =>
    obtain ⟨j, hj⟩ := List.mem_iff_getElem?.mp hg
    rw [completeGateService, FacilityQueueController.releaseGate, List.getElem?_modify] at hj
    obtain ⟨g', hg', rfl⟩ := Option.map_eq_some_iff.mp hj
    split at h
    · cases h
    · exact .gate g' (List.mem_of_getElem? hg') h
  | assigned h =>
    obtain ⟨i, hi⟩ := Dict.mem_values_iff.mp h
    rw [completeGateService, Dict.get?_erase] at hi
    split at hi
    · cases hi
    · exact .assigned (Dict.mem_values_iff.mpr ⟨i, hi⟩)
  | told n hn h =>
    rcases List.mem_append.mp hn with hn | hn
    · exact .told n hn h
    · obtain ⟨e, he, rfl⟩ := Option.map_eq_some_iff.mp (Option.mem_toList.mp hn)
      obtain rfl : e = entry := h
      rcases Option.or_eq_some_iff.mp he with he | ⟨-, he⟩
      · obtain ⟨g, hg, he⟩ := Option.bind_eq_some_iff.mp he
        exact .gate g (List.mem_of_getElem? hg) he
      · exact .assigned (Dict.mem_values_iff.mpr ⟨gateIndex, he⟩)

theorem Holds.of_completeDue (h : (a.completeDue serviceTime).Holds entry) : a.Holds entry := by
  have hdue (due : List ℕ) (b : FacilityApp T)
      (h : (due.foldl (fun b i ↦ b.completeGateService serviceTime i) b).Holds entry) :
      b.Holds entry := by
    induction due generalizing b with
    | nil => exact h
    | cons i due ih => exact (ih _ h).of_completeGateService
  exact hdue _ _ h

theorem Holds.of_performWorkflowActions (h : (a.performWorkflowActions serviceTime).1.Holds entry) :
    a.Holds entry := by
  simp only [performWorkflowActions] at h
  split at h
  · exact h.of_allocateGates
  · split at h
    · exact h.of_allocateGates
    · exact h.of_allocateGates.of_completeDue.of_allocateGates

variable {b : FacilityApp T}

/-- What is held does not depend on the clock or on where the step is. -/
theorem Holds.of_le (h : b.Holds entry) (hmessages : ∀ m ∈ b.messageQueue, m ∈ a.messageQueue)
    (hcontroller : b.queueController = a.queueController)
    (hassigned : b.gateAssignments = a.gateAssignments)
    (hpublished : ∀ n ∈ b.published, n ∈ a.published) : a.Holds entry := by
  cases h with
  | message h => exact .message (hmessages _ h)
  | queued h => exact .queued (hcontroller ▸ h)
  | gate g hg h => exact .gate g (hcontroller ▸ hg) h
  | assigned h => exact .assigned (hassigned ▸ h)
  | told n hn h => exact .told n (hpublished n hn) h

theorem Holds.of_onMessage {m : FacilityMessage T} {rest : List (FacilityMessage T)}
    (hqueue : a.messageQueue = m :: rest)
    (h : (({ a with messageQueue := rest } : FacilityApp T).onMessage m).Holds entry) :
    a.Holds entry := by
  have hrest (h : FacilityApp.Holds { a with messageQueue := rest } entry) : a.Holds entry :=
    h.of_le (fun m' hm' ↦ hqueue ▸ List.mem_cons_of_mem m hm') rfl rfl fun _ h ↦ h
  cases m with
  | unhandled => exact hrest h
  | truckArrived truckId visitType =>
    cases h with
    | message h => exact hrest (.message h)
    | queued h =>
      rcases List.mem_append.mp h with h | h
      · exact hrest (.queued h)
      -- the truck that arrives is the one the message names
      · obtain rfl := List.mem_singleton.mp h
        exact .message (hqueue ▸ List.mem_cons_self)
    | gate g hg h => exact hrest (.gate g hg h)
    | assigned h => exact hrest (.assigned h)
    | told n hn h => exact hrest (.told n hn h)

/-- **No step makes up a visit**: what a facility holds it held before, unless it arrives. -/
theorem holds_of_step {e : FacilityEvent T} (h : (machine serviceTime).step a e = some b)
    (hb : b.Holds entry) :
    a.Holds entry ∨ e = .deliver (.truckArrived entry.truckId entry.visitType) := by
  cases e with
  | deliver m =>
    cases h
    cases hb with
    | message hm =>
      rcases List.mem_append.mp hm with hm | hm
      · exact Or.inl (.message hm)
      · exact Or.inr (congrArg _ (List.mem_singleton.mp hm).symm)
    | queued h => exact Or.inl (.queued h)
    | gate g hg h => exact Or.inl (.gate g hg h)
    | assigned h => exact Or.inl (.assigned h)
    | told n hn h => exact Or.inl (.told n hn h)
  | step now =>
    simp only [machine] at h
    split at h
    · cases h
      exact Or.inl (hb.of_le (fun _ h ↦ h) rfl rfl fun _ h ↦ h)
    · cases h
  | consume =>
    simp only [machine] at h
    split at h
    · cases h
      exact Or.inl (hb.of_le (fun _ h ↦ h) rfl rfl fun _ h ↦ h)
    · cases h
      exact Or.inl (hb.of_le (fun _ h ↦ h) rfl rfl fun _ h ↦ h)
    · next hqueue =>
      cases h
      exact Or.inl (hb.of_onMessage hqueue)
    · next hqueue =>
      cases h
      exact Or.inl (hb.of_onMessage hqueue)
    · cases h
  | act =>
    simp only [machine] at h
    split at h
    · cases h
      have hact : (a.performWorkflowActions serviceTime).1.Holds entry :=
        hb.of_le (fun _ h ↦ h) rfl rfl fun _ h ↦ h
      exact Or.inl hact.of_performWorkflowActions
    · cases h

theorem not_holds_launched {gateCount : ℕ} {clock : ℤ} :
    ¬ (launched gateCount clock : FacilityApp T).Holds entry := by
  intro h
  cases h with
  | message h => cases h
  | queued h => cases h
  | gate g hg h =>
    obtain ⟨g', hg', rfl⟩ := List.mem_map.mp hg
    obtain rfl := List.eq_of_mem_replicate hg'
    cases h
  | assigned h => cases h
  | told n hn _ => cases hn

/-! ## What a facility tells -/

/-- What a facility has told names its event after the visit. -/
def Proper (a : FacilityApp T) : Prop := ∀ n ∈ a.published, n.event.visitType = n.visitType

theorem Proper.allocateGates (h : a.Proper) : (a.allocateGates serviceTime).Proper := by
  intro n hn
  rcases mem_published_allocateGates hn with hn | ⟨p, -, rfl⟩
  · exact h n hn
  · exact visitType_gateEventForVisit _ _

theorem Proper.completeGateService (h : a.Proper) (gateIndex : ℕ) :
    (a.completeGateService serviceTime gateIndex).Proper := by
  intro n hn
  rcases List.mem_append.mp hn with hn | hn
  · exact h n hn
  · obtain ⟨e, -, rfl⟩ := Option.map_eq_some_iff.mp (Option.mem_toList.mp hn)
    exact visitType_gateEventForVisit _ _

theorem Proper.completeDue (h : a.Proper) : (a.completeDue serviceTime).Proper := by
  have hdue (due : List ℕ) {b : FacilityApp T} (h : b.Proper) :
      (due.foldl (fun b i ↦ b.completeGateService serviceTime i) b).Proper := by
    induction due generalizing b with
    | nil => exact h
    | cons i due ih => exact ih (h.completeGateService i)
  exact hdue _ h

theorem Proper.performWorkflowActions (h : a.Proper) :
    (a.performWorkflowActions serviceTime).1.Proper := by
  simp only [FacilityApp.performWorkflowActions]
  split
  · exact h.allocateGates
  · split
    · exact h.allocateGates
    · exact h.allocateGates.completeDue.allocateGates

theorem Proper.onMessage (h : a.Proper) (m : FacilityMessage T) : (a.onMessage m).Proper := by
  cases m <;> exact h

theorem Proper.step {e : FacilityEvent T} (hp : a.Proper)
    (h : (machine serviceTime).step a e = some b) : b.Proper := by
  cases e with
  | deliver m =>
    cases h
    exact hp
  | step now =>
    simp only [machine] at h
    split at h
    · cases h
      exact hp
    · cases h
  | consume =>
    simp only [machine] at h
    split at h
    · cases h
      exact hp
    · cases h
      exact hp
    · next m rest _ _ =>
      cases h
      exact Proper.onMessage (a := { a with messageQueue := rest }) hp m
    · next m rest _ _ =>
      cases h
      exact Proper.onMessage (a := { a with messageQueue := rest }) hp m
    · cases h
  | act =>
    simp only [machine] at h
    split at h
    · cases h
      exact hp.performWorkflowActions
    · cases h

end FacilityApp

end OpenRide.Haulage
