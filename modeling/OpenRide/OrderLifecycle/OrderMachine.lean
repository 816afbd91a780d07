import Mathlib.Tactic.Common

/-!
# The order state machine

The states of an order, its transitions, and the tables the order writer derives from them: which
state an event leads to, which transitions are feasible from a state, and which states are adjacent.
Both tables come from one list of transitions, as they do in the code.
-/

namespace OpenRide.OrderLifecycle

/-- The states of an order. -/
inductive OrderState where
  | created
  | unassigned
  | assigned
  | pickupInProgress
  | inTransit
  | dropoffInProgress
  | completed
  | cancelled
deriving DecidableEq

/-- A transition, under the name of its event. -/
structure Transition where
  event : String
  source : OrderState
  target : OrderState
deriving DecidableEq

/-- The transitions of `OrderStateMachine`, in the order they are declared. -/
def transitions : List Transition :=
  [⟨"publish", .created, .unassigned⟩, ⟨"assign", .unassigned, .assigned⟩,
   ⟨"pickup_started", .assigned, .pickupInProgress⟩,
   ⟨"pickup_done", .pickupInProgress, .inTransit⟩,
   ⟨"dropoff_started", .inTransit, .dropoffInProgress⟩,
   ⟨"deliver", .dropoffInProgress, .completed⟩] ++
  [.created, .unassigned, .assigned, .pickupInProgress, .inTransit, .dropoffInProgress].map
    fun s ↦ ⟨"cancel", s, .cancelled⟩

/-- `FEASIBLE_TRANSITIONS`: the events legal from a state. -/
def feasibleTransitions (s : OrderState) : List String :=
  (transitions.filter (·.source = s)).map Transition.event

/-- `ADJACENT`: the states directly reachable from a state. -/
def adjacent (s : OrderState) : List OrderState :=
  (transitions.filter (·.source = s)).map Transition.target

/-- `TERMINAL_STATES`. -/
def OrderState.terminal : OrderState → Bool
  | .completed => true
  | .cancelled => true
  | _ => false

theorem adjacent_eq_nil_iff (s : OrderState) : adjacent s = [] ↔ s.terminal = true := by
  cases s <;> decide

/-- `EVENT_TO_STATE`: the order state each workflow event of a haul trip leads to. -/
def eventToState : String → Option OrderState
  | "order_assigned_to_truck" => some .assigned
  | "order_pickup_started" => some .pickupInProgress
  | "order_pickup_completed" => some .inTransit
  | "order_dropoff_started" => some .dropoffInProgress
  | "order_delivered" => some .completed
  | "order_cancelled" => some .cancelled
  | _ => none

end OpenRide.OrderLifecycle
