import OpenRide.Haulage.TruckApp
import OpenRide.Simulation.TripManager

/-!
# The haul trip manager, over a network

A transition of a haul trip is a PATCH, a GET that refreshes the copy, and a workflow event for the
order or for a facility, in this order.  The event is that of a rule in the interaction tables; its
topic is read off the document, and the facility may have to be looked up first.

Each of these may fail.  A GET that fails after a PATCH that did not raises, so the event is never
published and the copy stays behind; a lookup that fails loses the event without a word.
`transitions_told_iff` says when every transition of a run is told.
-/

namespace OpenRide.Haulage

open Lib Simulation

/-! ## Interactions -/

/-- The transitions of `GateStateMachine` that the tables name. -/
inductive GateTransition where
  | assignTruck
  | completeService
deriving DecidableEq

/-- A rule of `haultrip_gate_interactions`, by the machine it starts from. -/
inductive GateInteraction where
  | ofHaulTrip (sourceTransition : HaulTransition) (sourceNewState : HaulState)
      (event : WorkflowEvent)
  | ofGate (sourceTransition : GateTransition) (event : WorkflowEvent)
      (targetNewState : HaulState)
deriving DecidableEq

/-- `haultrip_gate_interactions`. -/
def haultripGateInteractions : List GateInteraction :=
  [.ofHaulTrip .arrivePickupQueue .queuedForPickup .truckArrivedPickupQueue,
    .ofGate .assignTruck .gateSlotAssignedForPickup .atPickupGate,
    .ofGate .completeService .pickupGateServiceCompleted .loadedInTransit,
    .ofHaulTrip .arriveDropoffQueue .queuedForDropoff .truckArrivedDropoffQueue,
    .ofGate .assignTruck .gateSlotAssignedForDropoff .atDropoffGate,
    .ofGate .completeService .dropoffGateServiceCompleted .completed]

/-- The event a rule has for a transition of a haul trip. -/
def GateInteraction.haulEvent (t : HaulTransition) : GateInteraction → Option WorkflowEvent
  | .ofHaulTrip source _ event => if source = t then some event else none
  | .ofGate _ _ _ => none

/-- The event `post_transition_hook` finds for a transition. -/
def HaulTransition.event (t : HaulTransition) : Option WorkflowEvent :=
  ((orderRule t).map OrderInteraction.event).or
    (haultripGateInteractions.findSome? (GateInteraction.haulEvent t))

/-! ## Topics -/

/-- Where a manager publishes. -/
structure Messaging where
  runId : String
  /-- The shared topic of all orders, in the `service` order lifecycle mode. -/
  orderEventsTopic : Option String := none
  /-- Whether there is a messenger. -/
  messenger : Bool := true
deriving DecidableEq

/-- What comes of the lookup of a facility by its name. -/
inductive LookupOutcome where
  /-- An exception or an error status, which is logged. -/
  | failed
  /-- A body that is no JSON, which is not. -/
  | garbled
  | answered
deriving DecidableEq

/-- A text that Python takes for true. -/
def truthy (s : Option String) : Option String := s.filter fun s ↦ s ≠ ""

/-- A message that was handed to the messenger, and whether the messenger took it. -/
structure Published where
  topic : String
  event : WorkflowEvent
  orderId : Option String
  simClock : ℤ
  taken : Bool
deriving DecidableEq

namespace HaulTrip

/-- `meta.<visit>_facility_resource_id`. -/
def facilityResourceId (trip : HaulTrip) : FacilityVisitType → Option FacilityId
  | .pickup => trip.pickupFacilityResourceId
  | .dropoff => trip.dropoffFacilityResourceId

/-- `meta.order_profile.<visit>_facility_name`. -/
def facilityName (trip : HaulTrip) : FacilityVisitType → Option String
  | .pickup => trip.pickupFacilityName
  | .dropoff => trip.dropoffFacilityName

end HaulTrip

section Topics

variable (g : Messaging) (c : TruckConfig)

/-- `_facility_resource_id_by_profile_name`. -/
def facilityResourceIdByProfileName (lookup : LookupOutcome) (name : Option String) :
    Except TripError (Option FacilityId) :=
  match truthy name with
  | none => .ok none
  | some name =>
    match lookup with
    | .failed => .ok none
    | .garbled => .error .other
    | .answered => .ok (c.facilityByName name)

/-- `f"{self.run_id}/{suffix}"`. -/
def Messaging.topic (suffix : String) : String := g.runId ++ "/" ++ suffix

/-- The topic of the facility a trip visits, asking for the facility by name if need be. -/
def facilityTopic (lookup : LookupOutcome) (trip : HaulTrip) (visit : FacilityVisitType) :
    Except TripError (Option String) :=
  match truthy (trip.facilityResourceId visit) with
  | some fid => .ok (some (g.topic fid))
  | none =>
    match facilityResourceIdByProfileName c lookup (trip.facilityName visit) with
    | .ok fid => .ok ((truthy fid).map g.topic)
    | .error e => .error e

/-- `_mqtt_topic_for_workflow_event`. -/
def mqttTopicForWorkflowEvent (lookup : LookupOutcome) (event : WorkflowEvent) (trip : HaulTrip) :
    Except TripError (Option String) :=
  if event.isOfOrder then
    .ok ((truthy trip.order).map fun oid ↦ g.topic ((truthy g.orderEventsTopic).getD oid))
  else
    match event with
    | .truckArrivedPickupQueue => facilityTopic g c lookup trip .pickup
    | .truckArrivedDropoffQueue => facilityTopic g c lookup trip .dropoff
    | _ => .ok none

/-- `post_transition_hook`, of the trip as it was read after the transition.  What the messenger
raises is only logged. -/
def postTransitionHook (lookup : LookupOutcome) (publish : Bool) (t : HaulTransition)
    (trip : HaulTrip) : List Published × Option TripError :=
  match t.event with
  | none => ([], none)
  | some event =>
    match mqttTopicForWorkflowEvent g c lookup event trip with
    | .error e => ([], some e)
    | .ok none => ([], none)
    | .ok (some topic) =>
      if g.messenger then
        ([⟨topic, event, if event.isOfOrder then trip.order else none, trip.simClock, publish⟩],
          none)
      else ([], none)

end Topics

/-! ## Transitions -/

/-- A method of `TruckTripManager` that makes a transition, with its arguments. -/
inductive TripCall where
  /-- The leg estimates are those above the floors. -/
  | assign (order : Option HaulOrder) (etaPickup etaDropoff : ℚ)
  | startEmptyReposition (route : Option Route) (estimatedTimeToPickup : ℚ)
  | arrivePickupQueue
  | enterPickupGate (serviceTime : Number)
  | finishPickupService (routeToDropoff : Option Route)
      (estimatedTimeToDropoff serviceTime : Number)
  | arriveDropoffQueue
  | enterDropoffGate (serviceTime : Number)
  | finishDropoffService (serviceTime : Number)
  | cancel

namespace TripCall

def transition : TripCall → HaulTransition
  | assign _ _ _ => .assign
  | startEmptyReposition _ _ => .startEmptyReposition
  | arrivePickupQueue => .arrivePickupQueue
  | enterPickupGate _ => .enterPickupGate
  | finishPickupService _ _ _ => .finishPickupService
  | arriveDropoffQueue => .arriveDropoffQueue
  | enterDropoffGate _ => .enterDropoffGate
  | finishDropoffService _ => .finishDropoffService
  | cancel => .cancel

/-- What the PATCH writes besides the state and the time.  What the arguments leave open is read off
the copy. -/
def payload (copy : HaulTrip) : TripCall → HaulTrip → HaulTrip
  | assign order etaPickup etaDropoff, t =>
    { t with
      order := order.bind HaulOrder.id
      stats :=
        { t.stats with
          estimatedTimeToPickup := if order.isSome then etaPickup else 0
          estimatedTimeToDropoff := if order.isSome then etaDropoff else 0 } }
  | startEmptyReposition route estimatedTimeToPickup, t =>
    { t with
      repositioningToPickup := route.or copy.repositioningToPickup
      stats := { t.stats with estimatedTimeToPickup := estimatedTimeToPickup } }
  | arrivePickupQueue, t => t
  | enterPickupGate serviceTime, t =>
    { t with stats := { t.stats with pickupServiceTime := serviceTime } }
  | finishPickupService routeToDropoff estimatedTimeToDropoff serviceTime, t =>
    let eta := copy.pickupServiceFloors estimatedTimeToDropoff serviceTime
    { t with
      loadedToDropoff := Route.patchDuration (routeToDropoff.or copy.loadedToDropoff) eta
      stats := { t.stats with estimatedTimeToDropoff := eta, pickupServiceTime := serviceTime } }
  | arriveDropoffQueue, t => t
  | enterDropoffGate serviceTime, t =>
    { t with stats := { t.stats with dropoffServiceTime := serviceTime } }
  | finishDropoffService serviceTime, t =>
    { t with stats := { t.stats with dropoffServiceTime := serviceTime } }
  | cancel, t => t

/-- What the server makes of a call. -/
def serve (call : TripCall) (copy : HaulTrip) (now : ℤ) (updated : Option ℤ) (stored : HaulTrip) :
    Option HaulTrip :=
  stored.transition call.transition now updated (call.payload copy)

end TripCall

/-- When a transition is made, and what comes of its requests. -/
structure TripRequests where
  now : ℤ := 0
  /-- The date the server gives the document it writes. -/
  updated : Option ℤ := none
  patch : WriteOutcome := .answered
  get : ReadOutcome := .answered
  lookup : LookupOutcome := .answered
  publish : Bool := true
deriving DecidableEq

section Attempts

variable (g : Messaging) (c : TruckConfig)

/-- What the server makes of a call, with what the copy adds to it. -/
def serveCall (call : TripCall) (r : TripRequests) (m : TripManager HaulTrip) (stored : HaulTrip) :
    Option HaulTrip :=
  match m.trip with
  | .doc copy => call.serve copy r.now r.updated stored
  | _ => none

/-- A transition of a haul trip.  A refresh that is refused raises `WriteFailedException`. -/
def attemptTransition (call : TripCall) (r : TripRequests) (m : TripManager HaulTrip) :
    Attempt HaulTrip Published :=
  applyTripTransitionAndNotify .writeFailed (serveCall call r m)
    (postTransitionHook g c r.lookup r.publish call.transition) r.patch r.get m

/-- A trip manager that makes one transition after the other. -/
def tripManager : Machine (TripManager HaulTrip) (TripCall × TripRequests) where
  step m e := some (attemptTransition g c e.1 e.2 m).manager

/-! ## What is told -/

/-- The facility a trip visits: the one it names by id, or else the one it names by name. -/
def HaulTrip.ownFacility (trip : HaulTrip) (visit : FacilityVisitType) : Option FacilityId :=
  (truthy (trip.facilityResourceId visit)).or
    (truthy ((truthy (trip.facilityName visit)).bind c.facilityByName))

/-- The topic of the trip's own order, or of the facility it arrives at. -/
def HaulTrip.ownTopic (trip : HaulTrip) (event : WorkflowEvent) : Option String :=
  if event.isOfOrder then
    (truthy trip.order).map fun oid ↦ g.topic ((truthy g.orderEventsTopic).getD oid)
  else
    match event with
    | .truckArrivedPickupQueue => (trip.ownFacility c .pickup).map g.topic
    | .truckArrivedDropoffQueue => (trip.ownFacility c .dropoff).map g.topic
    | _ => none

/-- A transition is told: if it changed the stored document and is mapped to an event, then exactly
one message was handed to the messenger, with that event and on the trip's own topic; otherwise none
was; and the copy has the stored state. -/
structure Told (call : TripCall) (m : TripManager HaulTrip) (a : Attempt HaulTrip Published) :
    Prop where
  changed : m.stored.state ≠ a.manager.stored.state → ∀ event, call.transition.event = some event →
    ∃ msg, a.handed = [msg] ∧ msg.event = event ∧
      a.manager.stored.ownTopic g c event = some msg.topic
  silent : (m.stored.state = a.manager.stored.state ∨ call.transition.event = none) → a.handed = []
  copy : ∃ trip, a.manager.trip = .doc trip ∧ trip.state = a.manager.stored.state

/-- Does finding the topic take a lookup? -/
def HaulTrip.looksUp (trip : HaulTrip) : WorkflowEvent → Bool
  | .truckArrivedPickupQueue => (truthy (trip.facilityResourceId .pickup)).isNone
  | .truckArrivedDropoffQueue => (truthy (trip.facilityResourceId .dropoff)).isNone
  | _ => false

/-- The conditions a transition that is made is told under: the PATCH and the GET are answered,
there is a messenger, the document `d` names an order or a facility to tell, and a lookup is
answered. Where nobody is to be told, a copy that is as far as the document needs no GET either. -/
def TellableMade (call : TripCall) (r : TripRequests) (trip d : HaulTrip) : Prop :=
  match call.transition.event with
  | none => r.patch = .answered ∧ r.get = .answered ∨ trip.state = d.state
  | some event => r.patch = .answered ∧ r.get = .answered ∧ g.messenger = true ∧
      (d.ownTopic g c event).isSome ∧ (d.looksUp event → r.lookup = .answered)

/-- The conditions a transition is told under; one that is not made, if the copy was up to date. -/
def Tellable (call : TripCall) (r : TripRequests) (m : TripManager HaulTrip) : Prop :=
  ∃ trip, m.trip = .doc trip ∧
    (r.patch.carryOut (call.serve trip r.now r.updated m.stored) = none →
      trip.state = m.stored.state) ∧
    ∀ d, r.patch.carryOut (call.serve trip r.now r.updated m.stored) = some d →
      TellableMade g c call r trip d

end Attempts

/-! ## Topics, with lookups that may fail -/

section Lookups

variable {g : Messaging} {c : TruckConfig} {lookup : LookupOutcome} {trip : HaulTrip}
  {event : WorkflowEvent}

/-- A lookup that is answered, or not needed, gives the trip's own facility. -/
theorem facilityTopic_eq {visit : FacilityVisitType}
    (h : (truthy (trip.facilityResourceId visit)).isNone → lookup = .answered) :
    facilityTopic g c lookup trip visit = .ok ((trip.ownFacility c visit).map g.topic) := by
  rw [facilityTopic, HaulTrip.ownFacility]
  cases hfid : truthy (trip.facilityResourceId visit) with
  | some fid => rfl
  | none =>
    obtain rfl := h (hfid ▸ rfl)
    rw [facilityResourceIdByProfileName]
    cases truthy (trip.facilityName visit) <;> rfl

/-- A lookup that is needed and fails gives no facility. -/
theorem facilityTopic_ne {visit : FacilityVisitType}
    (h : (truthy (trip.facilityResourceId visit)).isNone) (hlookup : lookup ≠ .answered)
    (topic : String) : facilityTopic g c lookup trip visit ≠ .ok (some topic) := by
  rw [facilityTopic, Option.isNone_iff_eq_none.mp h]
  rw [facilityResourceIdByProfileName]
  cases truthy (trip.facilityName visit) with
  | none => simp [truthy]
  | some name =>
    cases lookup with
    | failed => simp [truthy]
    | garbled => simp
    | answered => exact absurd rfl hlookup

theorem mqttTopic_eq (h : trip.looksUp event → lookup = .answered) :
    mqttTopicForWorkflowEvent g c lookup event trip = .ok (trip.ownTopic g c event) := by
  unfold mqttTopicForWorkflowEvent HaulTrip.ownTopic
  split
  · rfl
  · split
    · exact facilityTopic_eq h
    · exact facilityTopic_eq h
    · rfl

theorem mqttTopic_ne (h : trip.looksUp event = true) (hlookup : lookup ≠ .answered)
    (topic : String) : mqttTopicForWorkflowEvent g c lookup event trip ≠ .ok (some topic) := by
  have harrival : event = .truckArrivedPickupQueue ∨ event = .truckArrivedDropoffQueue := by
    cases event <;> simp [HaulTrip.looksUp] at h ⊢
  rcases harrival with rfl | rfl
  · exact facilityTopic_ne h hlookup topic
  · exact facilityTopic_ne h hlookup topic

variable {publish : Bool} {t : HaulTransition}

theorem hook_of_no_event (h : t.event = none) :
    postTransitionHook g c lookup publish t trip = ([], none) := by
  rw [postTransitionHook, h]

/-- **What the hook publishes**: one message on the trip's own topic, if it can be found. -/
theorem hook_iff (h : t.event = some event) :
    (∃ msg, (postTransitionHook g c lookup publish t trip).1 = [msg] ∧ msg.event = event ∧
        trip.ownTopic g c event = some msg.topic) ↔
      g.messenger = true ∧ (trip.ownTopic g c event).isSome ∧
        (trip.looksUp event → lookup = .answered) := by
  rw [postTransitionHook, h]
  dsimp only
  by_cases hfind : trip.looksUp event → lookup = .answered
  · rw [mqttTopic_eq hfind]
    cases htopic : trip.ownTopic g c event with
    | none => simp
    | some topic =>
      cases g.messenger with
      | false => simp
      | true => simpa using hfind
  · obtain ⟨hlooks, hlookup⟩ := Classical.not_imp.mp hfind
    refine ⟨?_, fun h ↦ absurd h.2.2 hfind⟩
    rintro ⟨msg, hmsg, -⟩
    split at hmsg
    · cases hmsg
    · cases hmsg
    · next topic htopic => exact absurd htopic (mqttTopic_ne hlooks hlookup topic)

end Lookups

/-! ## Runs -/

section Runs

variable {g : Messaging} {c : TruckConfig} {call : TripCall} {r : TripRequests}
  {m : TripManager HaulTrip}

theorem serve_state {copy stored d : HaulTrip}
    (h : call.serve copy r.now r.updated stored = some d) :
    stored.state ≠ d.state := by
  obtain ⟨hs, hd⟩ := Option.ite_none_right_eq_some.mp h
  cases hd
  intro heq
  rw [heq] at hs
  revert hs
  cases call <;> simp [TripCall.transition, HaulTransition.sources, HaulTransition.target]

theorem serveCall_of_doc {trip : HaulTrip} (htrip : m.trip = .doc trip) :
    serveCall call r m = call.serve trip r.now r.updated := by
  funext stored
  rw [serveCall, htrip]

/-- A transition that is not made is told if the copy was up to date. -/
theorem told_iff_of_not_made {trip : HaulTrip} (htrip : m.trip = .doc trip)
    (hmade : r.patch.carryOut (call.serve trip r.now r.updated m.stored) = none) :
    Told g c call m (attemptTransition g c call r m) ↔ trip.state = m.stored.state := by
  rw [attemptTransition, serveCall_of_doc htrip, attempt_of_not_carriedOut htrip hmade]
  constructor
  · intro h
    obtain ⟨trip', htrip', hstate⟩ := h.copy
    obtain rfl := TripCopy.doc.inj (htrip.symm.trans htrip')
    exact hstate
  · exact fun h ↦ ⟨fun hne ↦ absurd rfl hne, fun _ ↦ rfl, trip, htrip, h⟩

/-- A transition that is made is told just under those conditions. -/
theorem told_iff_of_made {trip d : HaulTrip} (htrip : m.trip = .doc trip)
    (hmade : r.patch.carryOut (call.serve trip r.now r.updated m.stored) = some d) :
    Told g c call m (attemptTransition g c call r m) ↔ TellableMade g c call r trip d := by
  have hstate : m.stored.state ≠ d.state := serve_state (WriteOutcome.carryOut_eq_some.mp hmade).2
  rw [attemptTransition, serveCall_of_doc htrip, TellableMade]
  rcases @attempt_of_carriedOut _ _ .writeFailed _ (postTransitionHook g c r.lookup r.publish
    call.transition) _ r.get m trip d htrip hmade with ⟨hpatch, hget, heq⟩ | ⟨hfail, e, -, heq⟩
  · -- the copy is the document, and the hook has been asked
    rw [heq]
    cases hevent : call.transition.event with
    | none =>
      refine ⟨fun _ ↦ Or.inl ⟨hpatch, hget⟩, fun _ ↦ ⟨fun _ event he ↦ ?_, fun _ ↦ ?_, d, rfl, rfl⟩⟩
      · rw [hevent] at he
        cases he
      · rw [hook_of_no_event hevent]
    | some event =>
      refine ⟨fun h ↦ ⟨hpatch, hget, (hook_iff hevent).mp (h.changed hstate event hevent)⟩,
        fun h ↦ ⟨fun _ event' he ↦ ?_, fun hsame ↦ ?_, d, rfl, rfl⟩⟩
      · obtain rfl := Option.some_inj.mp (hevent.symm.trans he)
        exact (hook_iff hevent).mpr h.2.2
      · rcases hsame with hsame | hnone
        · exact absurd hsame hstate
        · rw [hevent] at hnone
          cases hnone
  · -- nobody was told, and the copy is what it was
    rw [heq]
    cases hevent : call.transition.event with
    | none =>
      constructor
      · intro h
        obtain ⟨trip', htrip', hsame⟩ := h.copy
        obtain rfl := TripCopy.doc.inj htrip'
        exact Or.inr hsame
      · rintro (⟨hpatch, hget⟩ | hsame)
        · rcases hfail with hfail | hfail
          · exact absurd hpatch hfail
          · exact absurd hget hfail
        · refine ⟨fun _ event he ↦ ?_, fun _ ↦ rfl, trip, rfl, hsame⟩
          rw [hevent] at he
          cases he
    | some event =>
      constructor
      · intro h
        obtain ⟨msg, hmsg, -⟩ := h.changed hstate event hevent
        cases hmsg
      · rintro ⟨hpatch, hget, -⟩
        rcases hfail with hfail | hfail
        · exact absurd hpatch hfail
        · exact absurd hget hfail

/-- **A transition is told** just under those conditions. -/
theorem told_iff : Told g c call m (attemptTransition g c call r m) ↔ Tellable g c call r m := by
  by_cases hdoc : ∃ trip, m.trip = .doc trip
  · obtain ⟨trip, htrip⟩ := hdoc
    cases hmade : r.patch.carryOut (call.serve trip r.now r.updated m.stored) with
    | none =>
      rw [told_iff_of_not_made htrip hmade]
      refine ⟨fun h ↦ ⟨trip, htrip, fun _ ↦ h, fun d hd ↦ ?_⟩, fun h ↦ ?_⟩
      · rw [hmade] at hd
        cases hd
      · obtain ⟨trip', htrip', hidle, -⟩ := h
        obtain rfl := TripCopy.doc.inj (htrip.symm.trans htrip')
        exact hidle hmade
    | some d =>
      rw [told_iff_of_made htrip hmade]
      refine ⟨fun h ↦ ⟨trip, htrip, fun hnone ↦ ?_, fun d' hd ↦ ?_⟩, fun h ↦ ?_⟩
      · rw [hmade] at hnone
        cases hnone
      · obtain rfl := Option.some_inj.mp (hmade.symm.trans hd)
        exact h
      · obtain ⟨trip', htrip', -, hall⟩ := h
        obtain rfl := TripCopy.doc.inj (htrip.symm.trans htrip')
        exact hall d hmade
  · refine ⟨fun h ↦ ?_, fun h ↦ absurd ⟨_, h.choose_spec.1⟩ hdoc⟩
    obtain ⟨trip, htrip, -⟩ := h.copy
    rw [attemptTransition, attempt_of_no_doc fun d hd ↦ hdoc ⟨d, hd⟩] at htrip
    exact absurd ⟨trip, htrip⟩ hdoc

/-- **The transitions of a run are told** just when each is made under those conditions. -/
theorem transitions_told_iff (g : Messaging) (c : TruckConfig) (m : TripManager HaulTrip)
    (run : List (TripCall × TripRequests)) :
    (tripManager g c).Along (fun m e _ ↦ Told g c e.1 m (attemptTransition g c e.1 e.2 m)) m run ↔
      (tripManager g c).Along (fun m e _ ↦ Tellable g c e.1 e.2 m) m run :=
  Machine.along_congr (I := fun _ ↦ True) (fun _ _ _ _ _ ↦ ⟨told_iff, fun _ ↦ trivial⟩) trivial run

end Runs

/-! An arrival nobody hears of. -/

/-- A haul on its way to the pickup. -/
def onTheWay : HaulTrip where
  number := 0
  order := some "order"
  pickupFacilityResourceId := some "facility"
  dropoffFacilityResourceId := some "facility"
  pickupFacilityName := none
  dropoffFacilityName := none
  bounds := {}
  pickupLoc := none
  dropoffLoc := none
  stats := ⟨900, 960, .num (.fin 120), .num (.fin 120)⟩
  repositioningToPickup := none
  loadedToDropoff := none
  state := .repositioningToPickup
  simClock := 0
  updated := none

/-- The truck joins the pickup queue, the PATCH is answered, the GET after it is not: the document
is queued, no facility has heard of it, and the copy is still on its way. -/
theorem arrival_untold :
    ¬Told ⟨"run", none, true⟩ {} .arrivePickupQueue ⟨onTheWay, .doc onTheWay⟩
      (attemptTransition ⟨"run", none, true⟩ {} .arrivePickupQueue { get := .raised }
        ⟨onTheWay, .doc onTheWay⟩) := by
  intro h
  obtain ⟨msg, hmsg, -⟩ := h.changed (by decide) .truckArrivedPickupQueue rfl
  cases hmsg

end OpenRide.Haulage
