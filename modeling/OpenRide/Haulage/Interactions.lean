import OpenRide.Haulage.HaulTrip
import OpenRide.OrderLifecycle.OrderMachine

/-!
# Interactions of haul trips and orders

The workflow events of container logistics, and the table of the transitions of a haul trip that its
order is told of.  The manager of a truck looks its transitions up in this table, and the order
writer reads off it which state an event leads to.
-/

namespace OpenRide.Haulage

open OrderLifecycle

/-- `ContainerLogisticsEvents`, the ones of the tables. -/
inductive WorkflowEvent where
  | orderAssignedToTruck
  | orderPickupStarted
  | orderPickupCompleted
  | orderDropoffStarted
  | orderDelivered
  | orderCancelled
  | truckArrivedPickupQueue
  | truckArrivedDropoffQueue
  | gateSlotAssignedForPickup
  | gateSlotAssignedForDropoff
  | pickupGateServiceCompleted
  | dropoffGateServiceCompleted
deriving DecidableEq

namespace WorkflowEvent

def value : WorkflowEvent → String
  | orderAssignedToTruck => "order_assigned_to_truck"
  | orderPickupStarted => "order_pickup_started"
  | orderPickupCompleted => "order_pickup_completed"
  | orderDropoffStarted => "order_dropoff_started"
  | orderDelivered => "order_delivered"
  | orderCancelled => "order_cancelled"
  | truckArrivedPickupQueue => "truck_arrived_pickup_queue"
  | truckArrivedDropoffQueue => "truck_arrived_dropoff_queue"
  | gateSlotAssignedForPickup => "gate_slot_assigned_for_pickup"
  | gateSlotAssignedForDropoff => "gate_slot_assigned_for_dropoff"
  | pickupGateServiceCompleted => "pickup_gate_service_completed"
  | dropoffGateServiceCompleted => "dropoff_gate_service_completed"

/-- `event.startswith("order_")`. -/
def isOfOrder (e : WorkflowEvent) : Bool := "order_".toList.isPrefixOf e.value.toList

end WorkflowEvent

/-- A rule of `haultrip_order_interactions`. -/
structure OrderInteraction where
  sourceTransition : HaulTransition
  sourceNewState : HaulState
  event : WorkflowEvent
  targetNewState : OrderState
deriving DecidableEq

/-- `haultrip_order_interactions`. -/
def haultripOrderInteractions : List OrderInteraction :=
  [⟨.assign, .assigned, .orderAssignedToTruck, .assigned⟩,
    ⟨.enterPickupGate, .atPickupGate, .orderPickupStarted, .pickupInProgress⟩,
    ⟨.finishPickupService, .loadedInTransit, .orderPickupCompleted, .inTransit⟩,
    ⟨.enterDropoffGate, .atDropoffGate, .orderDropoffStarted, .dropoffInProgress⟩,
    ⟨.finishDropoffService, .completed, .orderDelivered, .completed⟩,
    ⟨.cancel, .cancelled, .orderCancelled, .cancelled⟩]

/-- The rules say where a transition leads, and the order writer reads its table off them. -/
theorem interaction_spec {rule : OrderInteraction} (h : rule ∈ haultripOrderInteractions) :
    rule.sourceTransition.target = rule.sourceNewState ∧
      eventToState rule.event.value = some rule.targetNewState := by
  revert rule
  decide

/-- The rule `post_transition_hook` finds.  The other transitions are in the table of haul trips and
gates, if in any, and their events go to a facility. -/
def orderRule (t : HaulTransition) : Option OrderInteraction :=
  haultripOrderInteractions.find? fun rule ↦ rule.sourceTransition = t

end OpenRide.Haulage
