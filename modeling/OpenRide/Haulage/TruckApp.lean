import OpenRide.Haulage.Interactions
import OpenRide.Lib.Machine

/-!
# The truck agent

A truck handles messages only in its steps.  A step that is not skipped drains the message queue,
lets the handler of the trip's state act once, and drains the queue again; messages arrive, and an
assignment is taken, at any moment in between.  So a step is cut into its sections here: the
machine's events are the beginning of a step, the handling of one message, the action of the state
handler, and what comes in from outside.

With `step_only_on_events` the beginning of a step looks at the trip and skips the step as long as
the next event of the trip is not due.  This is the only place where the truck looks at the clock.

A message from a facility says which event it is and how long the service takes, not which trip it
is about.  Its `tag` is what the sender knows and the truck does not see.
-/

namespace OpenRide.Haulage

open Lib

/-! ## Messages and configuration -/

/-- The workflow events a facility sends to a truck. -/
inductive GateEvent where
  | gateSlotAssignedForPickup
  | pickupGateServiceCompleted
  | gateSlotAssignedForDropoff
  | dropoffGateServiceCompleted
deriving DecidableEq

/-- The transition the handler of a facility's message asks for. -/
def GateEvent.transition : GateEvent → HaulTransition
  | gateSlotAssignedForPickup => .enterPickupGate
  | pickupGateServiceCompleted => .finishPickupService
  | gateSlotAssignedForDropoff => .enterDropoffGate
  | dropoffGateServiceCompleted => .finishDropoffService

/-- What the handlers read of a facility's message; `none` where the key is absent. -/
structure GateData where
  serviceTime : Option Number := none
  plannedRoute : Option Route := none
  estimatedTimeToDropoff : Option Number := none
deriving DecidableEq

/-- A message on the truck's topic: from a facility, the cancellation of the order, or one that no
handler takes. -/
inductive Message (τ : Type) where
  | facilityWorkflowEvent (event : GateEvent) (data : GateData) (tag : τ)
  | orderCancelled
  | unhandled
deriving DecidableEq

/-- The transition the handler of a message asks for. -/
def Message.transition {τ : Type} : Message τ → Option HaulTransition
  | facilityWorkflowEvent event _ _ => some event.transition
  | orderCancelled => some .cancel
  | unhandled => none

/-- The order of an assignment. -/
structure HaulOrder where
  id : Option String
  pickupLoc : Option Point := none
  dropoffLoc : Option Point := none
  pickupServiceTime : Option Number := none
  dropoffServiceTime : Option Number := none
  pickupFacilityResourceId : Option FacilityId := none
  dropoffFacilityResourceId : Option FacilityId := none
  pickupFacilityName : Option String := none
  dropoffFacilityName : Option String := none
deriving DecidableEq

/-- The behaviour of a truck, with the services it asks. -/
structure TruckConfig where
  bounds : Bounds := {}
  /-- The leg estimates of the profile. -/
  estimatedTimeToPickup : Number := .null
  estimatedTimeToDropoff : Number := .null
  useOsrmAtAssignment : Bool := false
  stepOnlyOnEvents : Bool := false
  stepsPerAction : ℕ := 1
  stepInterval : ℤ := 30
  /-- The REST lookup of a facility by the name of its profile. -/
  facilityByName : String → Option FacilityId := fun _ ↦ none
  /-- The point at a given part of a line. -/
  interpolate : List Point → ℚ → Option Point := fun _ _ ↦ none

/-- A message the truck hands to the messenger.  An arrival goes to the topic of a facility; the
number of the trip is not part of it. -/
inductive Notice where
  | order (event : String) (orderId : String) (simClock : ℤ)
  | arrival (facility : FacilityId) (visit : FacilityVisitType) (trip : ℕ)
deriving DecidableEq

/-! ## What a transition publishes -/

namespace HaulTrip

variable (c : TruckConfig) (t : HaulTrip)

/-- `_mqtt_topic_for_workflow_event` for an arrival: the facility the trip visits. -/
def facility : FacilityVisitType → Option FacilityId
  | .pickup => t.pickupFacilityResourceId.or (t.pickupFacilityName.bind c.facilityByName)
  | .dropoff => t.dropoffFacilityResourceId.or (t.dropoffFacilityName.bind c.facilityByName)

/-- The workflow event of the order that a transition is mapped to. -/
def orderEvent (tr : HaulTransition) : Option String := (orderRule tr).map (·.event.value)

/-- `post_transition_hook`, of the trip as it is after the transition. -/
def postTransitionHook : HaulTransition → Option Notice
  | .arrivePickupQueue => (t.facility c .pickup).map (.arrival · .pickup t.number)
  | .arriveDropoffQueue => (t.facility c .dropoff).map (.arrival · .dropoff t.number)
  | tr => (orderEvent tr).bind fun event ↦ t.order.map (.order event · t.simClock)

end HaulTrip

/-! ## The truck -/

/-- Where the truck is in its step. -/
inductive Phase where
  | idle
  | consuming
  | acting
  | consumingAgain
deriving DecidableEq

/-- The state of `TruckApp`. -/
structure Truck (τ : Type) where
  /-- Whether the truck's own resource is online. -/
  online : Bool := true
  trip : Option HaulTrip := none
  messageQueue : List (Message τ) := []
  phase : Phase := .idle
  /-- The time of the step under way, or of the last one. -/
  currentTime : ℤ := 0
  latestSimClock : ℤ := 0
  currentLoc : Option Point := none
  /-- How many trips the truck has posted. -/
  posted : ℕ := 0
  /-- What was handed to the messenger, oldest first. -/
  published : List Notice := []
deriving DecidableEq

/-- What happens at a truck.  `updated` is the date the server gives the written document. -/
inductive TruckEvent (τ : Type) where
  /-- A message arrives. -/
  | deliver (m : Message τ)
  /-- An assignment arrives, with the routes the router finds for it. -/
  | assign (order : HaulOrder) (reposition loaded : Route) (updated : Option ℤ)
  /-- The truck's own resource goes online or offline. -/
  | setOnline (online : Bool)
  /-- A step begins; `acts` says that cadence and response rate let the agent act in it. -/
  | step (now : ℤ) (acts : Bool)
  /-- The next message of the queue is handled, or the queue is found empty. -/
  | consume (updated : Option ℤ)
  /-- The handler of the trip's state acts. -/
  | act (updated : Option ℤ)

namespace Truck

variable {τ : Type} (c : TruckConfig) (k : Truck τ)

/-! ## Assignments -/

/-- The routes and leg estimates of an assignment. -/
structure Plan where
  repositionRoute : Option Route
  loadedRoute : Option Route
  etaPickup : Number
  etaDropoff : Number

/-- `_plan_routes_for_assignment`. -/
def planRoutesForAssignment (o : HaulOrder) (reposition loaded : Route) : Plan :=
  if !c.useOsrmAtAssignment then
    let eta := applyHaulTripDurationFloors c.estimatedTimeToPickup c.estimatedTimeToDropoff
      (o.pickupServiceTime.getD .null) (o.dropoffServiceTime.getD .null) c.bounds
    ⟨none, none, .num (.fin eta.1), .num (.fin eta.2)⟩
  else if k.currentLoc = none ∨ o.pickupLoc = none ∨ o.dropoffLoc = none then
    ⟨none, none, .null, .null⟩
  else
    let eta := applyHaulTripDurationFloors
      ((reposition.duration.map Number.num).getD c.estimatedTimeToPickup)
      ((loaded.duration.map Number.num).getD c.estimatedTimeToDropoff)
      (o.pickupServiceTime.getD .null) (o.dropoffServiceTime.getD .null) c.bounds
    ⟨Route.patchDuration (some reposition) eta.1, Route.patchDuration (some loaded) eta.2,
      .num (.fin eta.1), .num (.fin eta.2)⟩

/-- The leg estimates of a plan above the floors; one that could not be made counts as `0`. -/
def planFloors (o : HaulOrder) (plan : Plan) : ℚ × ℚ :=
  let orZero (eta : Number) : Number := if eta = .null then .num (.fin 0) else eta
  applyHaulTripDurationFloors (orZero plan.etaPickup) (orZero plan.etaDropoff)
    (o.pickupServiceTime.getD .null) (o.dropoffServiceTime.getD .null) c.bounds

/-- `create_new_trip`: the document the server answers with. -/
def createNewTrip (o : HaulOrder) (plan : Plan) : HaulTrip where
  number := k.posted
  order := o.id
  pickupFacilityResourceId :=
    o.pickupFacilityResourceId.or (o.pickupFacilityName.bind c.facilityByName)
  dropoffFacilityResourceId :=
    o.dropoffFacilityResourceId.or (o.dropoffFacilityName.bind c.facilityByName)
  pickupFacilityName := o.pickupFacilityName
  dropoffFacilityName := o.dropoffFacilityName
  bounds := c.bounds
  pickupLoc := o.pickupLoc
  dropoffLoc := o.dropoffLoc
  stats :=
    { estimatedTimeToPickup := (planFloors c o plan).1
      estimatedTimeToDropoff := (planFloors c o plan).2
      pickupServiceTime := o.pickupServiceTime.getD (.num (.fin 0))
      dropoffServiceTime := o.dropoffServiceTime.getD (.num (.fin 0)) }
  repositioningToPickup := plan.repositionRoute
  loadedToDropoff := plan.loadedRoute
  state := .created
  simClock := k.latestSimClock
  updated := none

/-- `TruckTripManager.assign`. -/
def assignTrip (t : HaulTrip) (o : HaulOrder) (plan : Plan) (updated : Option ℤ) :
    Option HaulTrip :=
  t.transition .assign k.latestSimClock updated fun t ↦
    { t with
      order := o.id
      stats :=
        { t.stats with
          estimatedTimeToPickup := (planFloors c o plan).1
          estimatedTimeToDropoff := (planFloors c o plan).2 } }

/-- `apply_trip_transition_and_notify`, given what the server makes of the transition. -/
def applyTripTransitionAndNotify (tr : HaulTransition) (result : Option HaulTrip) : Truck τ :=
  match result with
  | some t =>
    { k with
      trip := some t
      published := k.published ++ (t.postTransitionHook c tr).toList }
  | none => k

/-- `TruckManager.is_assignable`. -/
def isAssignable : Bool := k.online && k.trip.isNone

/-- `handle_assignment`. -/
def handleAssignment (o : HaulOrder) (reposition loaded : Route) (updated : Option ℤ) : Truck τ :=
  if !k.isAssignable then k
  else
    let plan := k.planRoutesForAssignment c o reposition loaded
    let trip := k.createNewTrip c o plan
    { k with trip := some trip, posted := k.posted + 1 }.applyTripTransitionAndNotify c .assign
      (k.assignTrip c trip o plan updated)

/-- An exception in a handler ends the step. -/
def abortStep : Truck τ := { k with phase := .idle }

/-! ## Message handlers -/

section Handlers

variable (t : HaulTrip) (data : GateData) (updated : Option ℤ)

def onGateSlotAssignedForPickup : Truck τ :=
  k.applyTripTransitionAndNotify c .enterPickupGate
    (t.enterPickupGate k.currentTime updated (data.serviceTime.getD (.num (.fin 0))))

def onPickupServiceCompleted : Truck τ :=
  k.applyTripTransitionAndNotify c .finishPickupService
    (t.finishPickupService k.currentTime updated data.plannedRoute
      (data.estimatedTimeToDropoff.getD (.num (.fin 0))) (data.serviceTime.getD .null))

def onGateSlotAssignedForDropoff : Truck τ :=
  k.applyTripTransitionAndNotify c .enterDropoffGate
    (t.enterDropoffGate k.currentTime updated (data.serviceTime.getD (.num (.fin 0))))

def onDropoffServiceCompleted : Truck τ :=
  k.applyTripTransitionAndNotify c .finishDropoffService
    (t.finishDropoffService k.currentTime updated (data.serviceTime.getD .null))

def onOrderCancelled : Truck τ :=
  k.applyTripTransitionAndNotify c .cancel (t.cancel k.currentTime updated)

end Handlers

/-- One message.  Without a trip there is nothing to write a facility's message to, which raises. -/
def onMessage (m : Message τ) (updated : Option ℤ) : Truck τ :=
  match m, k.trip with
  | .facilityWorkflowEvent event data _, some t =>
    match event with
    | .gateSlotAssignedForPickup => k.onGateSlotAssignedForPickup c t data updated
    | .pickupGateServiceCompleted => k.onPickupServiceCompleted c t data updated
    | .gateSlotAssignedForDropoff => k.onGateSlotAssignedForDropoff c t data updated
    | .dropoffGateServiceCompleted => k.onDropoffServiceCompleted c t data updated
  | .facilityWorkflowEvent _ _ _, none => k.abortStep
  | .orderCancelled, some t => k.onOrderCancelled c t updated
  | .orderCancelled, none => k
  | .unhandled, _ => k

/-! ## State handlers -/

def onStateAssigned (t : HaulTrip) (updated : Option ℤ) : Truck τ :=
  if t.pickupLoc ≠ none ∧ t.pickupLoc ≠ k.currentLoc then
    k.applyTripTransitionAndNotify c .startEmptyReposition
      (t.startEmptyReposition k.currentTime updated t.repositioningToPickup
        t.stats.estimatedTimeToPickup)
  else
    k.applyTripTransitionAndNotify c .arrivePickupQueue (t.arrivePickupQueue k.currentTime updated)

def onStateRepositioningToPickup (t : HaulTrip) (updated : Option ℤ) : Truck τ :=
  k.applyTripTransitionAndNotify c .arrivePickupQueue (t.arrivePickupQueue k.currentTime updated)

def onStateLoadedInTransit (t : HaulTrip) (updated : Option ℤ) : Truck τ :=
  k.applyTripTransitionAndNotify c .arriveDropoffQueue
    (t.arriveDropoffQueue k.currentTime updated)

/-- `perform_workflow_actions` once the truck is known to be online. -/
def performWorkflowActions (updated : Option ℤ) : Truck τ :=
  match k.trip with
  | none => k
  | some t =>
    match t.state with
    | .assigned => k.onStateAssigned c t updated
    | .repositioningToPickup => k.onStateRepositioningToPickup c t updated
    | .loadedInTransit => k.onStateLoadedInTransit c t updated
    | _ => k

/-! ## The step -/

/-- `TruckAgent.estimate_next_event_time`, in microseconds. -/
def estimateNextEventTime (now : ℤ) : ℤ :=
  match k.trip with
  | none => 1000000 * (now + c.stepInterval * max 1 c.stepsPerAction)
  | some t => t.estimateNextEventTime now

/-- `refresh`: a trip that is over is cleared. -/
def refresh : Truck τ :=
  match k.trip with
  | some t => if t.state.final then { k with trip := none } else k
  | none => k

/-- The duration `update_location_by_planned_route` moves by, given the leg's planned time. -/
def moveSeconds (stat : ℚ) (route : Option Route) : ℚ :=
  if 0 < stat then stat
  else match route.bind Route.duration with
    | some (.fin duration) => duration
    | _ => 0

/-- The part of a leg driven by now. -/
def moveAlong (t : HaulTrip) (stat : ℚ) (route : Option Route) : Option Point :=
  let duration := moveSeconds stat route
  let coords := (route.map Route.geometry).getD []
  if coords.length < 2 ∨ duration ≤ 0 then k.currentLoc
  else
    let elapsed : ℚ := max 0 (k.currentTime - t.simClock : ℤ)
    (c.interpolate coords (min 1 (elapsed / duration))).or k.currentLoc

/-- `update_location_by_planned_route`. -/
def updateLocationByPlannedRoute : Truck τ :=
  match k.trip with
  | none => k
  | some t =>
    match t.state with
    | .queuedForPickup | .atPickupGate => { k with currentLoc := t.pickupLoc.or k.currentLoc }
    | .queuedForDropoff | .atDropoffGate => { k with currentLoc := t.dropoffLoc.or k.currentLoc }
    | .repositioningToPickup =>
      { k with currentLoc := k.moveAlong c t t.stats.estimatedTimeToPickup t.repositioningToPickup }
    | .loadedInTransit =>
      { k with currentLoc := k.moveAlong c t t.stats.estimatedTimeToDropoff t.loadedToDropoff }
    | _ => k

/-- The part of `execute_step_actions` before the first message. -/
def beginStep (now : ℤ) : Truck τ :=
  { ({ k with currentTime := now } : Truck τ).refresh.updateLocationByPlannedRoute c with
    phase := .consuming }

/-- Whether `TruckAgent.step` acts. -/
def stepActs (now : ℤ) (acts : Bool) : Bool :=
  acts && !(c.stepOnlyOnEvents && 1000000 * now < k.estimateNextEventTime c now)

/-- The truck agent. -/
def machine : Machine (Truck τ) (TruckEvent τ) where
  step k
    | .deliver m => some { k with messageQueue := k.messageQueue ++ [m] }
    | .assign o reposition loaded updated => some (k.handleAssignment c o reposition loaded updated)
    | .setOnline online => some { k with online := online }
    | .step now acts =>
      if k.phase = .idle ∧ k.latestSimClock ≤ now then
        let k := { k with latestSimClock := now }
        some (if k.stepActs c now acts then k.beginStep c now else k)
      else none
    | .consume updated =>
      match k.phase, k.messageQueue with
      | .consuming, [] => some { k with phase := .acting }
      | .consumingAgain, [] => some { k with phase := .idle }
      | .consuming, m :: rest =>
        some (({ k with messageQueue := rest } : Truck τ).onMessage c m updated)
      | .consumingAgain, m :: rest =>
        some (({ k with messageQueue := rest } : Truck τ).onMessage c m updated)
      | _, _ => none
    | .act updated =>
      if k.phase = .acting then
        if !k.online then some k.abortStep
        else some { k.performWorkflowActions c updated with phase := .consumingAgain }
      else none

/-! ## What an event does to the trip -/

variable {c} {k}

variable (c) (k) in
/-- The truck `k'` is `k` after its trip has made the transition `tr` and published it. -/
def Moves (tr : HaulTransition) (k' : Truck τ) : Prop :=
  ∃ t t', k.trip = some t ∧ HaulTrip.Made tr k.currentTime t t' ∧
    k' = k.applyTripTransitionAndNotify c tr (some t')

/-- A transition of the trip is made and published, or changes nothing. -/
theorem notify_cases {t : HaulTrip} (htrip : k.trip = some t) (tr : HaulTransition)
    (updated : Option ℤ) {edit : HaulTrip → HaulTrip} (hedit : t.SameJob (edit t)) :
    k.Moves c tr
      (k.applyTripTransitionAndNotify c tr (t.transition tr k.currentTime updated edit)) ∨
    k.applyTripTransitionAndNotify c tr (t.transition tr k.currentTime updated edit) = k := by
  rcases HaulTrip.transition_cases t tr k.currentTime updated hedit with
    ⟨-, hnone⟩ | ⟨t', hmade, hsome⟩
  · exact Or.inr (by rw [hnone, applyTripTransitionAndNotify])
  · exact Or.inl ⟨t, t', htrip, hmade, by rw [hsome]⟩

/-- **What a message does**: the transition its handler asks for, or nothing to the trip. -/
theorem onMessage_cases (m : Message τ) (updated : Option ℤ) :
    (∃ tr, m.transition = some tr ∧ k.Moves c tr (k.onMessage c m updated)) ∨
    k.onMessage c m updated = k ∨ k.onMessage c m updated = k.abortStep := by
  cases htrip : k.trip with
  | none => cases m <;> simp [onMessage, htrip]
  | some t =>
    have hdo {tr : HaulTransition} {edit : HaulTrip → HaulTrip} (hm : m.transition = some tr)
        (hedit : t.SameJob (edit t)) (heq : k.onMessage c m updated =
          k.applyTripTransitionAndNotify c tr (t.transition tr k.currentTime updated edit)) :
        (∃ tr, m.transition = some tr ∧ k.Moves c tr (k.onMessage c m updated)) ∨
          k.onMessage c m updated = k ∨ k.onMessage c m updated = k.abortStep := by
      rw [heq]
      exact (notify_cases htrip tr updated hedit).imp (fun h ↦ ⟨tr, hm, h⟩) Or.inl
    cases m with
    | unhandled => exact Or.inr (Or.inl (by simp only [onMessage]))
    | orderCancelled => exact hdo rfl (.refl t) (by simp only [onMessage, htrip]; rfl)
    | facilityWorkflowEvent event data tag =>
      cases event <;>
        exact hdo rfl ⟨rfl, rfl, rfl, rfl, rfl⟩ (by simp only [onMessage, htrip]; rfl)

/-- **What the state handler does**: out of the trip's state, towards the next queue or into the
empty leg. -/
theorem performWorkflowActions_cases (updated : Option ℤ) :
    (∃ tr ∈ [HaulTransition.startEmptyReposition, .arrivePickupQueue, .arriveDropoffQueue],
      k.Moves c tr (k.performWorkflowActions c updated)) ∨
    k.performWorkflowActions c updated = k := by
  cases htrip : k.trip with
  | none => exact Or.inr (by simp only [performWorkflowActions, htrip])
  | some t =>
    have hdo (tr : HaulTransition) {edit : HaulTrip → HaulTrip}
        (hm : tr ∈ [HaulTransition.startEmptyReposition, .arrivePickupQueue, .arriveDropoffQueue])
        (hedit : t.SameJob (edit t)) (heq : k.performWorkflowActions c updated =
          k.applyTripTransitionAndNotify c tr (t.transition tr k.currentTime updated edit)) :
        (∃ tr ∈ [HaulTransition.startEmptyReposition, .arrivePickupQueue, .arriveDropoffQueue],
          k.Moves c tr (k.performWorkflowActions c updated)) ∨
        k.performWorkflowActions c updated = k := by
      rw [heq]
      exact (notify_cases htrip tr updated hedit).imp (fun h ↦ ⟨tr, hm, h⟩) id
    cases hs : t.state with
    | assigned =>
      by_cases hloc : t.pickupLoc ≠ none ∧ t.pickupLoc ≠ k.currentLoc
      · exact hdo .startEmptyReposition (by simp) ⟨rfl, rfl, rfl, rfl, rfl⟩
          (by simp only [performWorkflowActions, htrip, hs, onStateAssigned, if_pos hloc]; rfl)
      · exact hdo .arrivePickupQueue (by simp) (.refl t)
          (by simp only [performWorkflowActions, htrip, hs, onStateAssigned, if_neg hloc]; rfl)
    | repositioningToPickup =>
      exact hdo .arrivePickupQueue (by simp) (.refl t)
        (by simp only [performWorkflowActions, htrip, hs]; rfl)
    | loadedInTransit =>
      exact hdo .arriveDropoffQueue (by simp) (.refl t)
        (by simp only [performWorkflowActions, htrip, hs]; rfl)
    | _ => exact Or.inr (by simp only [performWorkflowActions, htrip, hs])

theorem assignTrip_made {t : HaulTrip} (o : HaulOrder) (plan : Plan) (updated : Option ℤ)
    (hnew : t.state = .created) :
    ∃ t', k.assignTrip c t o plan updated = some t' ∧
      HaulTrip.Made .assign k.latestSimClock t t' := by
  have hs : t.state ∈ HaulTransition.assign.sources := List.mem_singleton.mpr hnew
  exact ⟨_, if_pos hs, hs, rfl, rfl, rfl, rfl, rfl, rfl, rfl⟩

/-- **An assignment** is taken by a truck that has no trip, and by no other. -/
theorem handleAssignment_cases (o : HaulOrder) (reposition loaded : Route) (updated : Option ℤ) :
    (∃ t, k.trip = none ∧ t.number = k.posted ∧ t.state = .assigned ∧
      k.handleAssignment c o reposition loaded updated =
        ({ k with posted := k.posted + 1 } : Truck τ).applyTripTransitionAndNotify c .assign
          (some t)) ∨
    k.handleAssignment c o reposition loaded updated = k := by
  by_cases hfree : k.isAssignable = true
  · have htrip : k.trip = none := by
      rw [isAssignable, Bool.and_eq_true] at hfree
      exact Option.isNone_iff_eq_none.mp hfree.2
    obtain ⟨t, hassign, hmade⟩ := assignTrip_made (k := k) (c := c)
      (t := k.createNewTrip c o (k.planRoutesForAssignment c o reposition loaded)) o
      (k.planRoutesForAssignment c o reposition loaded) updated rfl
    refine Or.inl ⟨t, htrip, hmade.job.number, hmade.state, ?_⟩
    simp only [handleAssignment, hfree, Bool.not_true, Bool.false_eq_true, if_false]
    exact congrArg (applyTripTransitionAndNotify c _ .assign) hassign
  · exact Or.inr (by simp [handleAssignment, hfree])

theorem refresh_eq : k.refresh = { k with trip := k.trip.filter fun t ↦ !t.state.final } := by
  cases k with
  | mk online trip =>
    cases trip with
    | none => rfl
    | some t => cases hf : t.state.final <;> simp [refresh, hf, Option.filter]

theorem updateLocationByPlannedRoute_eq :
    ∃ loc, k.updateLocationByPlannedRoute c = { k with currentLoc := loc } := by
  unfold updateLocationByPlannedRoute
  split
  · exact ⟨_, rfl⟩
  · split <;> exact ⟨_, rfl⟩

/-- **The beginning of a step** clears a trip that is over, and leaves any other. -/
theorem beginStep_eq (now : ℤ) :
    ∃ loc, k.beginStep c now =
      { k with
        currentTime := now
        trip := k.trip.filter fun t ↦ !t.state.final
        currentLoc := loc
        phase := .consuming } := by
  obtain ⟨loc, hloc⟩ := updateLocationByPlannedRoute_eq (c := c)
    (k := ({ k with currentTime := now } : Truck τ).refresh)
  exact ⟨loc, by rw [beginStep, hloc, refresh_eq]⟩

/-! ## What an event leaves to the visits -/

/-- The job of `k'` is the job `k` had, if it has one; and what it has published since tells of
it. -/
structure Continues (c : TruckConfig) (k k' : Truck τ) : Prop where
  queue : ∀ event data tag, Message.facilityWorkflowEvent event data tag ∈ k'.messageQueue →
    Message.facilityWorkflowEvent event data tag ∈ k.messageQueue
  trip : ∀ t', k'.trip = some t' → ∃ t, k.trip = some t ∧ t.SameJob t'
  arrivals : ∀ f visit n, Notice.arrival f visit n ∈ k'.published →
    Notice.arrival f visit n ∈ k.published ∨
      ∃ t', k'.trip = some t' ∧ t'.number = n ∧ t'.facility c visit = some f

/-- Only a transition into a queue publishes an arrival, of the trip at the facility it visits. -/
theorem arrival_of_hook {t : HaulTrip} {tr : HaulTransition} {f : FacilityId}
    {visit : FacilityVisitType} {n : ℕ}
    (h : Notice.arrival f visit n ∈ (t.postTransitionHook c tr).toList) :
    t.number = n ∧ t.facility c visit = some f := by
  have horder {event : Option String} : Notice.arrival f visit n ∉
      (event.bind fun event ↦ t.order.map (Notice.order event · t.simClock)).toList := by
    cases event <;> cases t.order <;> simp
  have harrival {v : FacilityVisitType} (h : Notice.arrival f visit n ∈
      ((t.facility c v).map (Notice.arrival · v t.number)).toList) :
      t.number = n ∧ t.facility c visit = some f := by
    obtain ⟨g, hg, heq⟩ := Option.map_eq_some_iff.mp (Option.mem_toList.mp h)
    obtain ⟨rfl, rfl, rfl⟩ := Notice.arrival.inj heq
    exact ⟨rfl, hg⟩
  cases tr with
  | arrivePickupQueue => exact harrival h
  | arriveDropoffQueue => exact harrival h
  | _ =>
    rw [HaulTrip.postTransitionHook] at h
    · exact absurd h horder
    all_goals nofun

theorem Continues.of_eq {k' : Truck τ} (hqueue : ∀ m ∈ k'.messageQueue, m ∈ k.messageQueue)
    (htrip : ∀ t, k'.trip = some t → k.trip = some t) (hpublished : k'.published = k.published) :
    Continues c k k' where
  queue _ _ _ h := hqueue _ h
  trip t h := ⟨t, htrip t h, .refl t⟩
  arrivals _ _ _ h := Or.inl (hpublished ▸ h)

/-- A truck that moves on with its trip, once the messages of its queue are handled. -/
theorem Moves.continues {k₀ k' : Truck τ} {tr : HaulTransition} (h : k.Moves c tr k')
    (hqueue : ∀ m ∈ k.messageQueue, m ∈ k₀.messageQueue) (htrip : k.trip = k₀.trip)
    (hpublished : k.published = k₀.published) : Continues c k₀ k' := by
  obtain ⟨t, t', ht, hmade, rfl⟩ := h
  refine ⟨fun _ _ _ h ↦ hqueue _ h, fun t₁ ht₁ ↦ ?_, fun f visit n hn ↦ ?_⟩
  · cases ht₁
    exact ⟨t, htrip ▸ ht, hmade.job⟩
  · rcases List.mem_append.mp hn with hn | hn
    · exact Or.inl (hpublished ▸ hn)
    · exact Or.inr ⟨t', rfl, arrival_of_hook hn⟩

theorem Continues.onMessage {m : Message τ} {rest : List (Message τ)} (updated : Option ℤ)
    (hqueue : k.messageQueue = m :: rest) :
    Continues c k (({ k with messageQueue := rest } : Truck τ).onMessage c m updated) := by
  have hrest (m' : Message τ) (hm' : m' ∈ rest) : m' ∈ k.messageQueue :=
    hqueue ▸ List.mem_cons_of_mem m hm'
  rcases onMessage_cases (c := c) (k := { k with messageQueue := rest }) m updated with
    ⟨tr, -, hmoves⟩ | heq | heq
  · exact hmoves.continues hrest rfl rfl
  · rw [heq]
    exact .of_eq hrest (fun _ h ↦ h) rfl
  · rw [heq]
    exact .of_eq hrest (fun _ h ↦ h) rfl

/-- **What an event leaves to the visits**: the truck continues with its trip, or takes an
assignment because it has none. -/
theorem continues_of_step {e : TruckEvent τ} {k' : Truck τ} (h : (machine c).step k e = some k')
    (hout : ∀ event data tag, e ≠ .deliver (.facilityWorkflowEvent event data tag)) :
    Continues c k k' ∨ ∃ o reposition loaded updated, e = .assign o reposition loaded updated ∧
      k.isAssignable = true ∧ k'.messageQueue = k.messageQueue ∧
      ∀ f visit n, Notice.arrival f visit n ∈ k'.published →
        Notice.arrival f visit n ∈ k.published := by
  cases e with
  | deliver m =>
    cases h
    refine Or.inl ⟨fun event data tag hm ↦ ?_, fun t h ↦ ⟨t, h, .refl t⟩, fun _ _ _ h ↦ Or.inl h⟩
    rcases List.mem_append.mp hm with hm | hm
    · exact hm
    · exact absurd (congrArg _ (List.mem_singleton.mp hm).symm) (hout event data tag)
  | assign o reposition loaded updated =>
    cases h
    by_cases hfree : k.isAssignable = true
    · refine Or.inr ⟨o, reposition, loaded, updated, rfl, hfree, ?_⟩
      rcases handleAssignment_cases (c := c) (k := k) o reposition loaded updated with
        ⟨t, -, -, -, heq⟩ | heq
      · rw [heq]
        refine ⟨rfl, fun f visit n hn ↦ ?_⟩
        rcases List.mem_append.mp hn with hn | hn
        · exact hn
        · cases hid : t.order <;>
            simp [HaulTrip.postTransitionHook, HaulTrip.orderEvent, orderRule,
              haultripOrderInteractions, hid] at hn
      · rw [heq]
        exact ⟨rfl, fun _ _ _ h ↦ h⟩
    · have heq : k.handleAssignment c o reposition loaded updated = k := by
        simp [handleAssignment, hfree]
      rw [heq]
      exact Or.inl (.of_eq (fun _ h ↦ h) (fun _ h ↦ h) rfl)
  | setOnline online =>
    cases h
    exact Or.inl (.of_eq (fun _ h ↦ h) (fun _ h ↦ h) rfl)
  | step now acts =>
    simp only [machine] at h
    split at h
    · cases h
      refine Or.inl ?_
      split
      · obtain ⟨loc, heq⟩ := beginStep_eq (c := c) (k := { k with latestSimClock := now }) now
        rw [heq]
        exact .of_eq (fun _ h ↦ h) (fun t h ↦ (Option.filter_eq_some_iff.mp h).1) rfl
      · exact .of_eq (fun _ h ↦ h) (fun _ h ↦ h) rfl
    · cases h
  | consume updated =>
    simp only [machine] at h
    split at h
    · cases h
      exact Or.inl (.of_eq (fun _ h ↦ h) (fun _ h ↦ h) rfl)
    · cases h
      exact Or.inl (.of_eq (fun _ h ↦ h) (fun _ h ↦ h) rfl)
    · next hqueue =>
      cases h
      exact Or.inl (.onMessage updated hqueue)
    · next hqueue =>
      cases h
      exact Or.inl (.onMessage updated hqueue)
    · cases h
  | act updated =>
    simp only [machine] at h
    split at h
    · split at h
      · cases h
        exact Or.inl (.of_eq (fun _ h ↦ h) (fun _ h ↦ h) rfl)
      · cases h
        refine Or.inl ?_
        rcases performWorkflowActions_cases (c := c) (k := k) updated with ⟨tr, -, hmoves⟩ | heq
        · have hcont : Continues c k (k.performWorkflowActions c updated) :=
            hmoves.continues (fun _ h ↦ h) rfl rfl
          exact ⟨hcont.queue, hcont.trip, hcont.arrivals⟩
        · rw [heq]
          exact .of_eq (fun _ h ↦ h) (fun _ h ↦ h) rfl
    · cases h

end Truck

end OpenRide.Haulage
