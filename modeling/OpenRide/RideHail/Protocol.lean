import Mathlib.Logic.Function.Basic
import OpenRide.Lib.Machine
import OpenRide.RideHail.PassengerApp

/-!
# The protocol of rides

Any number of drivers and passengers, the assignment service, and the channels between them, as one
machine.  A tick of the assignment service lists the drivers that look for a job and then the
passengers whose trip is requested, lets a solver pair them, and publishes the pairs; both lists may
be stale by then, and a request already on its way to a driver is not taken into account.  Messages
from one party to another arrive in order.  A step of an agent is one event, and so is the delivery
of a message; a message to somebody who has left the market is lost.

Which driver is paired with whom is left to the solver, which may pair any listed driver with any
listed passenger, and one with several.  All writes to the server succeed, except for transitions
that the state of a document does not allow.
-/

namespace OpenRide.RideHail

open Lib

/-- How far `AssignmentApp.assign` has got. -/
inductive Tick (D P : Type) where
  | idle
  /-- `get_driver_trip` is done. -/
  | listedDrivers (drivers : List D)
  /-- `get_passenger_trip` is done. -/
  | solving (drivers : List D) (passengers : List P)
deriving DecidableEq

/-- The state of everybody. -/
structure World (D P : Type) where
  drivers : D → DriverApp P := fun _ ↦ {}
  passengers : P → PassengerApp D := fun _ ↦ {}
  /-- The events on their way from a passenger to a driver, oldest first. -/
  toDriver : P → D → List PassengerEvent := fun _ _ ↦ []
  /-- The messages on their way from a driver to a passenger, oldest first. -/
  toPassenger : D → P → List ToPassenger := fun _ _ ↦ []
  /-- The requests on their way to a driver, oldest first. -/
  requests : D → List P := fun _ ↦ []
  tick : Tick D P := .idle
  /-- The drivers a passenger has sent a rejection, which nothing reads. -/
  refused : P → D → Bool := fun _ _ ↦ false

/-- One thing that happens. -/
inductive Event (D P : Type) where
  | launchDriver (d : D)
  | launchPassenger (p : P)
  /-- `get_driver_trip`. -/
  | listDrivers (drivers : List D)
  /-- `get_passenger_trip`. -/
  | listPassengers (passengers : List P)
  /-- The solver returns, and the pairs are published. -/
  | publish (pairs : List (D × P))
  | deliverRequest (d : D)
  | deliverToDriver (p : P) (d : D)
  | deliverToPassenger (d : D) (p : P)
  | driverStep (d : D) (c : DriverChoices)
  | passengerStep (p : P) (c : PassengerChoices)
  | logoutDriver (d : D)
  | logoutPassenger (p : P)
deriving DecidableEq

variable {D P : Type}

/-- Is the driver in the market? -/
def DriverApp.inMarket (a : DriverApp P) : Bool := !a.exitedMarket && !a.trips.isEmpty

/-- Is the passenger in the market? -/
def PassengerApp.inMarket (b : PassengerApp D) : Bool := !b.exitedMarket && b.trip.isSome

/-- May `get_driver_trip` list the driver? -/
def DriverApp.isListed (a : DriverApp P) : Bool :=
  a.trips.any fun t ↦ t.passenger.isNone && t.state = .lookingForJob

/-- May `get_passenger_trip` list the passenger? -/
def PassengerApp.isListed (b : PassengerApp D) : Bool :=
  b.trip.any fun t ↦ t.state = .requestedTrip

variable [DecidableEq D] [DecidableEq P] (nullPassenger : Bool)

namespace World

/-- A driver is done with something, and what it published is on its way. -/
def setDriver (w : World D P) (d : D) (o : Handled (DriverApp P) (P × ToPassenger)) : World D P :=
  { w with
    drivers := Function.update w.drivers d o.state
    toPassenger := fun d' p ↦ w.toPassenger d' p ++ if d' = d then addressed p o.sent else [] }

/-- A passenger is done with something, and what it published is on its way. -/
def setPassenger (w : World D P) (p : P) (o : Handled (PassengerApp D) (D × PassengerEvent)) :
    World D P :=
  { w with
    passengers := Function.update w.passengers p o.state
    toDriver := fun p' d ↦ w.toDriver p' d ++ if p' = p then addressed d o.sent else []
    refused := fun p' d ↦ w.refused p' d || p' = p && (addressed d o.sent).contains .rejectedTrip }

/-- What is left on the way to a driver from the assignment service. -/
def leaveRequests (w : World D P) (d : D) (rest : List P) : World D P :=
  { w with requests := Function.update w.requests d rest }

/-- What is left on the way from a passenger to a driver. -/
def leaveToDriver (w : World D P) (p : P) (d : D) (rest : List PassengerEvent) : World D P :=
  { w with toDriver := Function.update w.toDriver p (Function.update (w.toDriver p) d rest) }

/-- What is left on the way from a driver to a passenger. -/
def leaveToPassenger (w : World D P) (d : D) (p : P) (rest : List ToPassenger) : World D P :=
  { w with
    toPassenger := Function.update w.toPassenger d (Function.update (w.toPassenger d) p rest) }

/-- A request arrives. -/
def deliverRequest (w : World D P) (d : D) (p : P) : World D P :=
  if (w.drivers d).exitedMarket then w
  else w.setDriver d ((w.drivers d).handleRequestedTrip nullPassenger p)

/-- An event of a passenger arrives. -/
def deliverToDriver (w : World D P) (p : P) (d : D) (e : PassengerEvent) : World D P :=
  if (w.drivers d).exitedMarket then w
  else w.setDriver d ⟨(w.drivers d).enqueueMessage (p, e), [], false⟩

/-- A message of a driver arrives. -/
def deliverToPassenger (w : World D P) (d : D) (p : P) (m : ToPassenger) : World D P :=
  if (w.passengers p).exitedMarket then w
  else w.setPassenger p ((w.passengers p).handleAppTopicMessages d m)

/-- The state after an event, if the event can happen. -/
def step (w : World D P) : Event D P → Option (World D P)
  | .launchDriver d =>
    if (w.drivers d).trips = [] then some (w.setDriver d (w.drivers d).launch) else none
  | .launchPassenger p =>
    if (w.passengers p).trip = none then
      some (w.setPassenger p ⟨(w.passengers p).launch, [], false⟩)
    else none
  | .listDrivers drivers =>
    if w.tick = .idle ∧ ∀ d ∈ drivers, (w.drivers d).isListed then
      some { w with tick := .listedDrivers drivers }
    else none
  | .listPassengers passengers =>
    match w.tick with
    | .listedDrivers drivers =>
      if ∀ p ∈ passengers, (w.passengers p).isListed then
        some { w with tick := .solving drivers passengers }
      else none
    | _ => none
  | .publish pairs =>
    match w.tick with
    | .solving drivers passengers =>
      if ∀ pair ∈ pairs, pair.1 ∈ drivers ∧ pair.2 ∈ passengers then
        some { w with requests := fun d ↦ w.requests d ++ addressed d pairs, tick := .idle }
      else none
    | _ => none
  | .deliverRequest d =>
    match w.requests d with
    | p :: rest => some ((w.leaveRequests d rest).deliverRequest nullPassenger d p)
    | [] => none
  | .deliverToDriver p d =>
    match w.toDriver p d with
    | e :: rest => some ((w.leaveToDriver p d rest).deliverToDriver p d e)
    | [] => none
  | .deliverToPassenger d p =>
    match w.toPassenger d p with
    | m :: rest => some ((w.leaveToPassenger d p rest).deliverToPassenger d p m)
    | [] => none
  | .driverStep d c =>
    if (w.drivers d).inMarket then
      some (w.setDriver d ((w.drivers d).executeStepActions nullPassenger c))
    else none
  | .passengerStep p c =>
    if (w.passengers p).inMarket then
      some (w.setPassenger p ((w.passengers p).executeStepActions c))
    else none
  | .logoutDriver d =>
    if (w.drivers d).inMarket then
      some (w.setDriver d ((w.drivers d).close nullPassenger))
    else none
  | .logoutPassenger p =>
    if (w.passengers p).inMarket then
      some (w.setPassenger p (w.passengers p).close)
    else none

/-- What an event does when it can happen. -/
inductive Moved (w : World D P) : Event D P → World D P → Prop
  | launchDriver {d : D} (h : (w.drivers d).trips = []) :
      Moved w (.launchDriver d) (w.setDriver d (w.drivers d).launch)
  | launchPassenger {p : P} (h : (w.passengers p).trip = none) :
      Moved w (.launchPassenger p) (w.setPassenger p ⟨(w.passengers p).launch, [], false⟩)
  | listDrivers {drivers : List D} (htick : w.tick = .idle)
      (h : ∀ d ∈ drivers, (w.drivers d).isListed) :
      Moved w (.listDrivers drivers) { w with tick := .listedDrivers drivers }
  | listPassengers {drivers : List D} {passengers : List P}
      (htick : w.tick = .listedDrivers drivers)
      (h : ∀ p ∈ passengers, (w.passengers p).isListed) :
      Moved w (.listPassengers passengers) { w with tick := .solving drivers passengers }
  | publish {drivers : List D} {passengers : List P} {pairs : List (D × P)}
      (htick : w.tick = .solving drivers passengers)
      (h : ∀ pair ∈ pairs, pair.1 ∈ drivers ∧ pair.2 ∈ passengers) :
      Moved w (.publish pairs)
        { w with requests := fun d ↦ w.requests d ++ addressed d pairs, tick := .idle }
  | deliverRequest {d : D} {p : P} {rest : List P} (h : w.requests d = p :: rest) :
      Moved w (.deliverRequest d) ((w.leaveRequests d rest).deliverRequest nullPassenger d p)
  | deliverToDriver {p : P} {d : D} {e : PassengerEvent} {rest : List PassengerEvent}
      (h : w.toDriver p d = e :: rest) :
      Moved w (.deliverToDriver p d) ((w.leaveToDriver p d rest).deliverToDriver p d e)
  | deliverToPassenger {d : D} {p : P} {m : ToPassenger} {rest : List ToPassenger}
      (h : w.toPassenger d p = m :: rest) :
      Moved w (.deliverToPassenger d p) ((w.leaveToPassenger d p rest).deliverToPassenger d p m)
  | driverStep {d : D} {c : DriverChoices} (h : (w.drivers d).inMarket = true) :
      Moved w (.driverStep d c)
        (w.setDriver d ((w.drivers d).executeStepActions nullPassenger c))
  | passengerStep {p : P} {c : PassengerChoices} (h : (w.passengers p).inMarket = true) :
      Moved w (.passengerStep p c) (w.setPassenger p ((w.passengers p).executeStepActions c))
  | logoutDriver {d : D} (h : (w.drivers d).inMarket = true) :
      Moved w (.logoutDriver d) (w.setDriver d ((w.drivers d).close nullPassenger))
  | logoutPassenger {p : P} (h : (w.passengers p).inMarket = true) :
      Moved w (.logoutPassenger p) (w.setPassenger p (w.passengers p).close)

variable {nullPassenger}

/-- **What a step does**, event by event. -/
theorem moved_of_step {w w' : World D P} {e : Event D P} (hs : w.step nullPassenger e = some w') :
    w.Moved nullPassenger e w' := by
  cases e with
  | launchDriver d =>
    obtain ⟨h, hs⟩ := Option.ite_none_right_eq_some.mp hs
    exact Option.some.inj hs ▸ .launchDriver h
  | launchPassenger p =>
    obtain ⟨h, hs⟩ := Option.ite_none_right_eq_some.mp hs
    exact Option.some.inj hs ▸ .launchPassenger h
  | listDrivers drivers =>
    obtain ⟨h, hs⟩ := Option.ite_none_right_eq_some.mp hs
    exact Option.some.inj hs ▸ .listDrivers h.1 h.2
  | listPassengers passengers =>
    simp only [step] at hs
    split at hs
    · next htick =>
      obtain ⟨h, hs⟩ := Option.ite_none_right_eq_some.mp hs
      exact Option.some.inj hs ▸ .listPassengers htick h
    · cases hs
  | publish pairs =>
    simp only [step] at hs
    split at hs
    · next htick =>
      obtain ⟨h, hs⟩ := Option.ite_none_right_eq_some.mp hs
      exact Option.some.inj hs ▸ .publish htick h
    · cases hs
  | deliverRequest d =>
    simp only [step] at hs
    split at hs
    · next h => exact Option.some.inj hs ▸ .deliverRequest h
    · cases hs
  | deliverToDriver p d =>
    simp only [step] at hs
    split at hs
    · next h => exact Option.some.inj hs ▸ .deliverToDriver h
    · cases hs
  | deliverToPassenger d p =>
    simp only [step] at hs
    split at hs
    · next h => exact Option.some.inj hs ▸ .deliverToPassenger h
    · cases hs
  | driverStep d c =>
    obtain ⟨h, hs⟩ := Option.ite_none_right_eq_some.mp hs
    exact Option.some.inj hs ▸ .driverStep h
  | passengerStep p c =>
    obtain ⟨h, hs⟩ := Option.ite_none_right_eq_some.mp hs
    exact Option.some.inj hs ▸ .passengerStep h
  | logoutDriver d =>
    obtain ⟨h, hs⟩ := Option.ite_none_right_eq_some.mp hs
    exact Option.some.inj hs ▸ .logoutDriver h
  | logoutPassenger p =>
    obtain ⟨h, hs⟩ := Option.ite_none_right_eq_some.mp hs
    exact Option.some.inj hs ▸ .logoutPassenger h

end World

/-- The protocol of rides. -/
def protocol : Machine (World D P) (Event D P) := ⟨World.step nullPassenger⟩

/-- A state some run leads to. -/
def Reachable (w : World D P) : Prop :=
  (protocol nullPassenger).Reach (fun _ _ ↦ True) {} w

variable {nullPassenger}

theorem reachable_of_exec {w : World D P} (run : List (Event D P))
    (h : (protocol nullPassenger).exec {} run = some w) : Reachable nullPassenger w :=
  Machine.reach_of_exec run h fun _ _ _ ↦ trivial

end OpenRide.RideHail
