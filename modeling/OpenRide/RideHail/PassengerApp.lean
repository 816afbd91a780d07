import OpenRide.Lib.Handlers
import OpenRide.RideHail.DriverApp

/-!
# The passenger

A passenger makes one trip.  The trip is requested when the passenger enters the market, assigned to
the driver whose `ASSIGNED` arrives while it is requested, and from then on moved by that driver's
events.  A driver that comes second is turned away at once, by the same event a passenger sends to
reject a confirmation; this does not wait for a step.

The `driver` field is written by an assignment and never cleared: a trip that goes back to requested
still names the driver it has rejected, and a passenger that runs out of patience then tells that
one.
-/

namespace OpenRide.RideHail

open Lib

/-- What the server keeps of the trip of a passenger. -/
structure PassengerTrip (D : Type) where
  driver : Option D := none
  state : PassengerState := .requestedTrip
deriving DecidableEq

/-- A passenger in the run. -/
structure PassengerApp (D : Type) where
  trip : Option (PassengerTrip D) := none
  /-- The events of drivers, oldest first. -/
  inbox : List (D × DriverEvent) := []
  exitedMarket : Bool := false
deriving DecidableEq

/-- What `perform_workflow_actions` decides by. -/
structure PassengerChoices where
  outOfPatience : Bool := false
  accepts : Bool := false
deriving DecidableEq

variable {D : Type}

/-! ## The trip -/

namespace PassengerTrip

/-- What a handler of the passenger did: its trip, and the events it published. -/
abbrev Result (D : Type) := Handled (PassengerTrip D) (D × PassengerEvent)

/-- `apply_trip_transition_and_notify`.  There is no channel to publish on while no driver is
named, and asking for it raises. -/
def applyTransitionAndNotify (t : PassengerTransition) (trip : PassengerTrip D) : Result D :=
  match t.next trip.state with
  | none => ⟨trip, [], false⟩
  | some s =>
    match t.event, trip.driver with
    | none, _ => ⟨{ trip with state := s }, [], false⟩
    | some e, some d => ⟨{ trip with state := s }, [(d, e)], false⟩
    | some _, none => ⟨{ trip with state := s }, [], true⟩

/-- `end_active_trip`, which only logs what is raised. -/
def endActiveTrip (t : PassengerTransition) (trip : PassengerTrip D) : Result D :=
  { applyTransitionAndNotify t trip with raised := false }

/-- `handle_overbooking`. -/
def handleOverbooking (d : D) (trip : PassengerTrip D) : Result D :=
  ⟨trip, [(d, .rejectedTrip)], false⟩

/-- `handle_app_topic_messages` on `ASSIGNED`. -/
def handleAssigned (d : D) (trip : PassengerTrip D) : Result D :=
  if trip.state = .requestedTrip then
    match PassengerTransition.assign.next trip.state with
    | some s => ⟨{ driver := some d, state := s }, [], false⟩
    | none => handleOverbooking d trip
  else handleOverbooking d trip

/-- The transition a handler of `DriverInteractionMixin` makes. -/
def transitionOf : DriverEvent → PassengerTransition
  | .confirmedTrip => .driverConfirmedTrip
  | .cancelledTrip => .driverCancelledTrip
  | .arrivedForPickup => .driverArrivedForPickup
  | .moveForDropoff => .driverMoveForDropoff
  | .waitingForDropoff => .driverWaitingForDropoff
  | .arrivedForDropoff => .driverArrivedForDropoff

/-- One round of the loop of `consume_messages`. -/
def onMessage [DecidableEq D] (msg : D × DriverEvent) (trip : PassengerTrip D) : Result D :=
  if trip.state.isDriverChannelOpen ∧ trip.driver = some msg.1 then
    applyTransitionAndNotify (transitionOf msg.2) trip
  else ⟨trip, [], false⟩

/-- The state handlers of `DriverInteractionMixin`. -/
def onState (c : PassengerChoices) (s : PassengerState) (trip : PassengerTrip D) : Result D :=
  match s with
  | .receivedTripConfirmation =>
    applyTransitionAndNotify (if c.accepts then .accept else .reject) trip
  | .acceptedTrip => applyTransitionAndNotify .waitForPickup trip
  | .droppedoff => applyTransitionAndNotify .endTrip trip
  | _ => ⟨trip, [], false⟩

/-- The states `perform_workflow_actions` looks for, in this order. -/
def stateSequence : List PassengerState := [.receivedTripConfirmation, .acceptedTrip, .droppedoff]

/-- One round of the loop of `perform_workflow_actions`. -/
def actIn (c : PassengerChoices) (s : PassengerState) (trip : PassengerTrip D) : Result D :=
  if trip.state = s then onState c s trip else ⟨trip, [], false⟩

/-- Cancel the trip once patience has run out. -/
def checkPatience (c : PassengerChoices) (trip : PassengerTrip D) : Result D :=
  if trip.state = .requestedTrip ∧ c.outOfPatience = true then endActiveTrip .cancel trip
  else ⟨trip, [], false⟩

/-- `perform_workflow_actions`. -/
def performWorkflowActions (c : PassengerChoices) (trip : PassengerTrip D) : Result D :=
  (checkPatience c trip).andThen (Handled.inOrder (actIn c) stateSequence)

end PassengerTrip

/-! ## The agent -/

namespace PassengerApp

/-- `PassengerApp.launch`: `create_new_trip_request`. -/
def launch (b : PassengerApp D) : PassengerApp D := { b with trip := some {} }

/-- `PassengerApp.execute_step_actions`: consume the messages, then act.  Without a trip it
raises. -/
def executeStepActions [DecidableEq D] (c : PassengerChoices) (b : PassengerApp D) :
    Handled (PassengerApp D) (D × PassengerEvent) :=
  match b.trip with
  | none => ⟨b, [], true⟩
  | some trip =>
    ((Handled.drain PassengerTrip.onMessage b.inbox trip).andThen fun s ↦
      (PassengerTrip.performWorkflowActions c s.2).map (s.1, ·)).map fun s ↦
        { b with inbox := s.1, trip := some s.2 }

/-- `PassengerApp.handle_app_topic_messages`.  Without a trip an `ASSIGNED` raises. -/
def handleAppTopicMessages (d : D) (msg : ToPassenger) (b : PassengerApp D) :
    Handled (PassengerApp D) (D × PassengerEvent) :=
  match msg, b.trip with
  | .workflowEvent e, _ => ⟨{ b with inbox := b.inbox ++ [(d, e)] }, [], false⟩
  | .assigned, none => ⟨b, [], true⟩
  | .assigned, some trip =>
    (PassengerTrip.handleAssigned d trip).map fun trip' ↦ { b with trip := some trip' }

/-- `PassengerApp.close`. -/
def close (b : PassengerApp D) : Handled (PassengerApp D) (D × PassengerEvent) :=
  match b.trip with
  | none => ⟨{ b with exitedMarket := true }, [], false⟩
  | some trip => (PassengerTrip.endActiveTrip .forceQuit trip).map fun trip' ↦
      { b with trip := some trip', exitedMarket := true }

end PassengerApp

end OpenRide.RideHail
