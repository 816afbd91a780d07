import Mathlib.Tactic.Common

/-!
# The trips of a ride

A ride is recorded twice: the driver has a trip document and the passenger has one, each with a
state machine of its own.  The server refuses a transition the current state does not allow, so a
document is only ever changed by `next`.

Which transition of one machine tells the other party, and of what event, is a table
(`driverPassengerInteractions`); the hook that publishes the event looks for the machine and the
transition only.  Each party also has a channel filter: it hears the events of the other one in some
states and drops them in the rest.
-/

namespace OpenRide.RideHail

/-! ## The driver's trip -/

inductive DriverState where
  | initTrip
  | lookingForJob
  | receivedTrip
  | rejectedTrip
  | acceptedTrip
  | cancelledTrip
  | movingToPickup
  | waitingToPickup
  | pickedup
  | movingToDropoff
  | waitingToDropoff
  | droppedoff
  | completedTrip
deriving DecidableEq

inductive DriverTransition where
  | lookForJob
  | recieve
  | confirm
  | passengerConfirmedTrip
  | waitToPickup
  | passengerCancelledTrip
  | passengerAcknowledgePickup
  | moveToDropoff
  | waitToDropoff
  | passengerAcknowledgeDropoff
  | endTrip
  | reject
  | cancel
  | forceQuit
deriving DecidableEq

/-- The states `RidehailDriverTripStateMachine` allows a transition from. -/
def DriverTransition.sources : DriverTransition → List DriverState
  | lookForJob => [.initTrip]
  | recieve => [.initTrip]
  | confirm => [.receivedTrip]
  | passengerConfirmedTrip => [.acceptedTrip]
  | waitToPickup => [.movingToPickup]
  | passengerCancelledTrip => [.acceptedTrip, .movingToPickup, .waitingToPickup]
  | passengerAcknowledgePickup => [.waitingToPickup]
  | moveToDropoff => [.pickedup]
  | waitToDropoff => [.movingToDropoff]
  | passengerAcknowledgeDropoff => [.waitingToDropoff]
  | endTrip => [.droppedoff, .initTrip, .lookingForJob, .rejectedTrip]
  | reject => [.receivedTrip]
  | cancel => [.acceptedTrip, .movingToPickup, .waitingToPickup, .lookingForJob]
  | forceQuit => [.initTrip, .lookingForJob, .receivedTrip, .rejectedTrip, .acceptedTrip,
      .movingToPickup, .waitingToPickup, .pickedup, .movingToDropoff, .waitingToDropoff,
      .droppedoff]

/-- The state a transition leads to. -/
def DriverTransition.target : DriverTransition → DriverState
  | lookForJob => .lookingForJob
  | recieve => .receivedTrip
  | confirm => .acceptedTrip
  | passengerConfirmedTrip => .movingToPickup
  | waitToPickup => .waitingToPickup
  | passengerCancelledTrip => .completedTrip
  | passengerAcknowledgePickup => .pickedup
  | moveToDropoff => .movingToDropoff
  | waitToDropoff => .waitingToDropoff
  | passengerAcknowledgeDropoff => .droppedoff
  | endTrip => .completedTrip
  | reject => .rejectedTrip
  | cancel => .cancelledTrip
  | forceQuit => .cancelledTrip

/-- The state after a transition the server accepts. -/
def DriverTransition.next (t : DriverTransition) (s : DriverState) : Option DriverState :=
  if s ∈ t.sources then some t.target else none

/-- The states in which a driver's trip is over. -/
def DriverState.final : DriverState → Bool
  | cancelledTrip => true
  | completedTrip => true
  | _ => false

/-- `is_passenger_channel_open`. -/
def DriverState.isPassengerChannelOpen : DriverState → Bool
  | receivedTrip => true
  | acceptedTrip => true
  | movingToPickup => true
  | waitingToPickup => true
  | pickedup => true
  | movingToDropoff => true
  | waitingToDropoff => true
  | _ => false

/-- `driver_moving_to_pickup` and every later stage of a trip under way. -/
def DriverState.isOnTheWay : DriverState → Bool
  | movingToPickup => true
  | waitingToPickup => true
  | pickedup => true
  | movingToDropoff => true
  | waitingToDropoff => true
  | droppedoff => true
  | _ => false

/-- Whatever is still open can be force-quit. -/
theorem DriverState.final_of_forceQuit (s : DriverState) :
    ((DriverTransition.forceQuit.next s).getD s).final = true := by
  cases s <;> rfl

theorem DriverState.not_final_of_isOnTheWay {s : DriverState} (h : s.isOnTheWay = true) :
    s.final = false := by
  cases s <;> simp [isOnTheWay] at h <;> rfl

/-! ## The passenger's trip -/

inductive PassengerState where
  | requestedTrip
  | assignedTrip
  | receivedTripConfirmation
  | acceptedTrip
  | cancelledTrip
  | movingForPickup
  | waitingForPickup
  | pickedup
  | movingForDropoff
  | waitingForDropoff
  | droppedoff
  | completedTrip
deriving DecidableEq

inductive PassengerTransition where
  | assign
  | driverConfirmedTrip
  | accept
  | reject
  | moveForPickup
  | waitForPickup
  | driverCancelledTrip
  | driverArrivedForPickup
  | driverMoveForDropoff
  | driverArrivedForDropoff
  | driverWaitingForDropoff
  | endTrip
  | cancel
  | forceQuit
deriving DecidableEq

/-- The states `RidehailPassengerTripStateMachine` allows a transition from. -/
def PassengerTransition.sources : PassengerTransition → List PassengerState
  | assign => [.requestedTrip]
  | driverConfirmedTrip => [.assignedTrip]
  | accept => [.receivedTripConfirmation]
  | reject => [.receivedTripConfirmation]
  | moveForPickup => [.acceptedTrip]
  | waitForPickup => [.acceptedTrip, .movingForPickup]
  | driverCancelledTrip => [.acceptedTrip, .movingForPickup, .waitingForPickup]
  | driverArrivedForPickup => [.acceptedTrip, .movingForPickup, .waitingForPickup]
  | driverMoveForDropoff => [.pickedup]
  | driverArrivedForDropoff => [.movingForDropoff]
  | driverWaitingForDropoff => [.movingForDropoff, .waitingForDropoff]
  | endTrip => [.droppedoff]
  | cancel => [.requestedTrip, .assignedTrip, .receivedTripConfirmation, .acceptedTrip,
      .movingForPickup, .waitingForPickup]
  | forceQuit => [.requestedTrip, .assignedTrip, .receivedTripConfirmation, .acceptedTrip,
      .movingForPickup, .waitingForPickup, .pickedup, .movingForDropoff, .waitingForDropoff,
      .droppedoff]

/-- The state a transition leads to. -/
def PassengerTransition.target : PassengerTransition → PassengerState
  | assign => .assignedTrip
  | driverConfirmedTrip => .receivedTripConfirmation
  | accept => .acceptedTrip
  | reject => .requestedTrip
  | moveForPickup => .movingForPickup
  | waitForPickup => .waitingForPickup
  | driverCancelledTrip => .requestedTrip
  | driverArrivedForPickup => .pickedup
  | driverMoveForDropoff => .movingForDropoff
  | driverArrivedForDropoff => .waitingForDropoff
  | driverWaitingForDropoff => .droppedoff
  | endTrip => .completedTrip
  | cancel => .cancelledTrip
  | forceQuit => .cancelledTrip

/-- The state after a transition the server accepts. -/
def PassengerTransition.next (t : PassengerTransition) (s : PassengerState) :
    Option PassengerState :=
  if s ∈ t.sources then some t.target else none

/-- The states in which a passenger's trip is over. -/
def PassengerState.final : PassengerState → Bool
  | cancelledTrip => true
  | completedTrip => true
  | _ => false

/-- `is_driver_channel_open`. -/
def PassengerState.isDriverChannelOpen : PassengerState → Bool
  | assignedTrip => true
  | acceptedTrip => true
  | movingForPickup => true
  | waitingForPickup => true
  | pickedup => true
  | movingForDropoff => true
  | waitingForDropoff => true
  | _ => false

/-- Whatever is still open can be force-quit. -/
theorem PassengerState.final_of_forceQuit (s : PassengerState) :
    ((PassengerTransition.forceQuit.next s).getD s).final = true := by
  cases s <;> rfl

/-! ## Interactions -/

/-- The events of `RideHailEvents` a passenger may send. -/
inductive PassengerEvent where
  | confirmedTrip
  | rejectedTrip
  | cancelTrip
  | acknowledgePickup
  | acknowledgeDropoff
deriving DecidableEq

/-- The events of `RideHailEvents` a driver may send. -/
inductive DriverEvent where
  | confirmedTrip
  | cancelledTrip
  | arrivedForPickup
  | moveForDropoff
  | waitingForDropoff
  | arrivedForDropoff
deriving DecidableEq

/-- A rule of `driver_passenger_interactions`, by the machine it starts from. -/
inductive Interaction where
  | ofPassenger (sourceTransition : PassengerTransition) (sourceNewState : PassengerState)
      (event : PassengerEvent) (targetNewState : DriverState)
  | ofDriver (sourceTransition : DriverTransition) (sourceNewState : DriverState)
      (event : DriverEvent) (targetNewState : PassengerState)
deriving DecidableEq

/-- `driver_passenger_interactions`. -/
def driverPassengerInteractions : List Interaction :=
  [.ofPassenger .accept .acceptedTrip .confirmedTrip .movingToPickup,
    .ofPassenger .cancel .cancelledTrip .cancelTrip .completedTrip,
    .ofPassenger .reject .requestedTrip .rejectedTrip .lookingForJob,
    .ofPassenger .driverArrivedForPickup .pickedup .acknowledgePickup .movingToDropoff,
    .ofPassenger .driverWaitingForDropoff .droppedoff .acknowledgeDropoff .droppedoff,
    .ofDriver .confirm .acceptedTrip .confirmedTrip .receivedTripConfirmation,
    .ofDriver .waitToPickup .waitingToPickup .arrivedForPickup .waitingForPickup,
    .ofDriver .moveToDropoff .movingToDropoff .moveForDropoff .movingForDropoff,
    .ofDriver .waitToDropoff .waitingToDropoff .waitingForDropoff .waitingForDropoff,
    .ofDriver .cancel .cancelledTrip .cancelledTrip .cancelledTrip]

/-- The event a rule has for a transition of the driver's machine. -/
def Interaction.driverEvent (t : DriverTransition) : Interaction → Option DriverEvent
  | .ofDriver source _ event _ => if source = t then some event else none
  | _ => none

/-- The event a rule has for a transition of the passenger's machine. -/
def Interaction.passengerEvent (t : PassengerTransition) : Interaction → Option PassengerEvent
  | .ofPassenger source _ event _ => if source = t then some event else none
  | _ => none

/-- The event `post_transition_hook` finds for a transition of the driver. -/
def DriverTransition.event (t : DriverTransition) : Option DriverEvent :=
  driverPassengerInteractions.findSome? (Interaction.driverEvent t)

/-- The event `post_transition_hook` finds for a transition of the passenger. -/
def PassengerTransition.event (t : PassengerTransition) : Option PassengerEvent :=
  driverPassengerInteractions.findSome? (Interaction.passengerEvent t)

end OpenRide.RideHail
