import OpenRide.Lib.Handlers
import OpenRide.RideHail.TripMachines

/-!
# The driver

A driver works through trips one after the other: unoccupied ones while it looks for a job, an
occupied one for a passenger it is matched with.  Only the last one is in hand; the server keeps the
earlier ones.  At each step the driver first takes the passengers' events off its inbox and then
acts on the state its trip is in.  A request of the assignment service does not wait for a step: it
is answered when it is delivered.

What the driver does may raise an exception, which ends its step.  One source of them is left open:
the server's document of an unoccupied trip may or may not have a `passenger` field (`null` in it if
it does), and reading one that is not there raises.

Where the driver is and how long it has been there is left to `DriverChoices`, the random decisions
with it.
-/

namespace OpenRide.RideHail

open Lib

/-- What the server keeps of a trip of a driver: `is_occupied` is whether it has a passenger. -/
structure DriverTrip (P : Type) where
  passenger : Option P := none
  state : DriverState := .initTrip
deriving DecidableEq

/-- A message from a driver to a passenger. -/
inductive ToPassenger where
  /-- `ASSIGNED`, the answer to a request. -/
  | assigned
  | workflowEvent (event : DriverEvent)
deriving DecidableEq

/-- A driver in the run. -/
structure DriverApp (P : Type) where
  /-- The trips, the one in hand first. -/
  trips : List (DriverTrip P) := []
  /-- The events of passengers, oldest first. -/
  inbox : List (P × PassengerEvent) := []
  exitedMarket : Bool := false
deriving DecidableEq

/-- What `perform_workflow_actions` decides by: chance, distances and times. -/
structure DriverChoices where
  /-- The route driven while looking for a job is at its end. -/
  routeDone : Bool := false
  accepts : Bool := false
  nearPickup : Bool := false
  pickupTimePassed : Bool := false
  nearDropoff : Bool := false
  dropoffTimePassed : Bool := false
deriving DecidableEq

variable {P : Type} (nullPassenger : Bool)

/-! ## Trips -/

namespace DriverTrip

/-- What a handler of the driver did: its trips, and the messages it published. -/
abbrev Result (P : Type) := Handled (List (DriverTrip P)) (P × ToPassenger)

/-- `apply_trip_transition_and_notify`.  A transition the server refuses changes nothing and is
not noticed. -/
def applyTransitionAndNotify (t : DriverTransition) : List (DriverTrip P) → Result P
  | [] => ⟨[], [], true⟩
  | trip :: earlier =>
    match t.next trip.state with
    | none => ⟨trip :: earlier, [], false⟩
    | some s =>
      match t.event, trip.passenger with
      | none, _ => ⟨{ trip with state := s } :: earlier, [], false⟩
      | some e, some p => ⟨{ trip with state := s } :: earlier, [(p, .workflowEvent e)], false⟩
      | some _, none => ⟨{ trip with state := s } :: earlier, [], !nullPassenger⟩

/-- A transition whose refusal raises `WriteFailedException`. -/
def transition (t : DriverTransition) : List (DriverTrip P) → Result P
  | [] => ⟨[], [], true⟩
  | trip :: earlier =>
    match t.next trip.state with
    | none => ⟨trip :: earlier, [], true⟩
    | some s => ⟨{ trip with state := s } :: earlier, [], false⟩

/-- `create_new_unoccupied_trip`. -/
def createNewUnoccupiedTrip (trips : List (DriverTrip P)) : Result P :=
  transition .lookForJob ({} :: trips)

/-- `create_new_occupied_trip`. -/
def createNewOccupiedTrip (p : P) (trips : List (DriverTrip P)) : Result P :=
  (transition .recieve ({ passenger := some p } :: trips)).andThen fun trips' ↦
    ⟨trips', [(p, .assigned)], false⟩

/-- `end_active_trip`. -/
def endActiveTrip (force : Bool) : List (DriverTrip P) → Result P
  | [] => ⟨[], [], false⟩
  | trip :: earlier =>
    if trip.passenger = none then applyTransitionAndNotify nullPassenger .endTrip (trip :: earlier)
    else if force then applyTransitionAndNotify nullPassenger .forceQuit (trip :: earlier)
    else ⟨trip :: earlier, [], false⟩

/-- `handle_requested_trip`: a driver on an occupied trip ignores the request. -/
def handleRequestedTrip (p : P) : List (DriverTrip P) → Result P
  | [] => ⟨[], [], true⟩
  | trip :: earlier =>
    if trip.passenger = none then
      (endActiveTrip nullPassenger false (trip :: earlier)).andThen (createNewOccupiedTrip p)
    else ⟨trip :: earlier, [], false⟩

/-! ## Events of the passenger -/

/-- The handlers of `PassengerInteractionMixin`.  `DriverTripManager` has no `force_quit`, so
`_on_passenger_rejected_trip` raises at its first line. -/
def onPassengerEvent (e : PassengerEvent) (trips : List (DriverTrip P)) : Result P :=
  match e with
  | .confirmedTrip => applyTransitionAndNotify nullPassenger .passengerConfirmedTrip trips
  | .rejectedTrip => ⟨trips, [], true⟩
  | .cancelTrip => applyTransitionAndNotify nullPassenger .passengerCancelledTrip trips
  | .acknowledgePickup => applyTransitionAndNotify nullPassenger .passengerAcknowledgePickup trips
  | .acknowledgeDropoff => applyTransitionAndNotify nullPassenger .passengerAcknowledgeDropoff trips

/-- One round of the loop of `consume_messages`. -/
def onMessage [DecidableEq P] (msg : P × PassengerEvent) : List (DriverTrip P) → Result P
  | [] => ⟨[], [], true⟩
  | trip :: earlier =>
    match trip.passenger with
    | none => ⟨trip :: earlier, [], !nullPassenger⟩
    | some p =>
      if trip.state.isPassengerChannelOpen ∧ p = msg.1 then
        onPassengerEvent nullPassenger msg.2 (trip :: earlier)
      else ⟨trip :: earlier, [], false⟩

/-! ## Actions of the driver -/

/-- The state handlers of `PassengerInteractionMixin`. -/
def onState (c : DriverChoices) (s : DriverState) (trips : List (DriverTrip P)) : Result P :=
  match s with
  | .lookingForJob =>
    if c.routeDone then
      (applyTransitionAndNotify nullPassenger .endTrip trips).andThen createNewUnoccupiedTrip
    else ⟨trips, [], false⟩
  | .receivedTrip =>
    if c.accepts then applyTransitionAndNotify nullPassenger .confirm trips
    else (applyTransitionAndNotify nullPassenger .reject trips).andThen createNewUnoccupiedTrip
  | .movingToPickup =>
    if c.nearPickup then applyTransitionAndNotify nullPassenger .waitToPickup trips
    else ⟨trips, [], false⟩
  | .pickedup =>
    if c.pickupTimePassed then applyTransitionAndNotify nullPassenger .moveToDropoff trips
    else ⟨trips, [], false⟩
  | .movingToDropoff =>
    if c.nearDropoff then applyTransitionAndNotify nullPassenger .waitToDropoff trips
    else ⟨trips, [], false⟩
  | .droppedoff =>
    if c.dropoffTimePassed then
      (applyTransitionAndNotify nullPassenger .endTrip trips).andThen createNewUnoccupiedTrip
    else ⟨trips, [], false⟩
  | _ => ⟨trips, [], false⟩

/-- The states `perform_workflow_actions` looks for, in this order. -/
def stateSequence : List DriverState :=
  [.lookingForJob, .receivedTrip, .movingToPickup, .pickedup, .movingToDropoff, .droppedoff]

/-- One round of the loop of `perform_workflow_actions`. -/
def actIn (c : DriverChoices) (s : DriverState) : List (DriverTrip P) → Result P
  | [] => ⟨[], [], true⟩
  | trip :: earlier =>
    if trip.state = s then onState nullPassenger c s (trip :: earlier)
    else ⟨trip :: earlier, [], false⟩

/-- `perform_workflow_actions`. -/
def performWorkflowActions (c : DriverChoices) : List (DriverTrip P) → Result P :=
  Handled.inOrder (actIn nullPassenger c) stateSequence

end DriverTrip

/-! ## The agent -/

namespace DriverApp

/-- `DriverApp.launch`. -/
def launch (a : DriverApp P) : Handled (DriverApp P) (P × ToPassenger) :=
  (DriverTrip.createNewUnoccupiedTrip a.trips).map fun trips ↦ { a with trips := trips }

/-- `DriverApp.execute_step_actions`: consume the messages, then act. -/
def executeStepActions [DecidableEq P] (c : DriverChoices) (a : DriverApp P) :
    Handled (DriverApp P) (P × ToPassenger) :=
  ((Handled.drain (DriverTrip.onMessage nullPassenger) a.inbox a.trips).andThen fun s ↦
    (DriverTrip.performWorkflowActions nullPassenger c s.2).map (s.1, ·)).map fun s ↦
      { a with inbox := s.1, trips := s.2 }

/-- `DriverApp.handle_app_topic_messages` on a request: what it raises is only logged. -/
def handleRequestedTrip (p : P) (a : DriverApp P) : Handled (DriverApp P) (P × ToPassenger) :=
  (DriverTrip.handleRequestedTrip nullPassenger p a.trips).map fun trips ↦ { a with trips := trips }

/-- `DriverApp.handle_app_topic_messages` on anything else. -/
def enqueueMessage (msg : P × PassengerEvent) (a : DriverApp P) : DriverApp P :=
  { a with inbox := a.inbox ++ [msg] }

/-- `DriverApp.close`. -/
def close (a : DriverApp P) : Handled (DriverApp P) (P × ToPassenger) :=
  (DriverTrip.endActiveTrip nullPassenger true a.trips).map fun trips ↦
    { a with trips := trips, exitedMarket := true }

end DriverApp

end OpenRide.RideHail
