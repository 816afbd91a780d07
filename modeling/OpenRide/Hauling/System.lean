import OpenRide.Haulage.Interactions
import OpenRide.Lib.Machine
import OpenRide.OrderLifecycle.Absorbing

/-!
# Assignments, haul trips and order documents

An order is hauled by many hands.  The assignment service reads the trucks, the unassigned orders,
the orders on an open haul trip and the busy trucks, one after the other, lets a solver match what
is left, and publishes the pairs.  A truck that takes an assignment creates a haul trip for the
order; each transition of the trip may emit a workflow event; the order lifecycle service applies
these events to the order documents, later and in batches, while it publishes due orders and sweeps
overdue ones.  `hauling` puts all of this into one machine, in which every read, message and write
is an event of its own.

A read may fail.  The lists of trucks and of unassigned orders then end the tick; the other two are
taken to be empty.  A read whose aggregation is not available goes through the documents page by
page, with one request for each page and no order, while they change.  So the list of unassigned
orders may be late, and the other two may return less, or more, than there is at that moment.

Of a haul trip only what the orders depend on is kept.  Which truck may be matched with which order
is left to the solver, which may return any matching.
-/

namespace OpenRide.Hauling

open Lib Haulage OrderLifecycle

/-! ## Haul trips -/

/-- An id the server gave out: never empty. -/
abbrev Id := { s : String // s ≠ "" }

/-- What the orders depend on in the document of a haul trip.  `made` is the transitions so far,
which nothing reads. -/
structure HaulDoc where
  truck : Id
  order : Id
  state : HaulState := .created
  simClock : Option RawClock := none
  made : List HaulTransition := []
deriving DecidableEq

/-- Is the trip still open? -/
def HaulDoc.isOpen (t : HaulDoc) : Bool := !t.state.final

/-- `message_template` of an order event. -/
def HaulDoc.messageTemplate (t : HaulDoc) (event : String) : Payload where
  truckId := some t.truck.val
  data := {
    event := some event
    orderId := some t.order.val
    simClock := t.simClock }

/-- The trip after a transition that the server accepts. -/
def HaulDoc.transition (t : HaulDoc) (tr : HaulTransition) (simClock : Option RawClock) : HaulDoc :=
  { t with state := tr.target, simClock := simClock, made := t.made ++ [tr] }

/-- The order events a transition emits, from the trip as it is after it. -/
def HaulDoc.notices (t : HaulDoc) (tr : HaulTransition) : List (Option Payload) :=
  ((orderRule tr).map fun rule ↦ some (t.messageTemplate rule.event.value)).toList

/-! ## The assignment tick -/

/-- A truck and the order it is to haul. -/
structure Assignment where
  truck : Id
  order : Id
deriving DecidableEq

/-- How far `AssignmentApp.assign` has got. -/
inductive Tick where
  | idle
  /-- The trucks are read. -/
  | listedTrucks (trucks : List Id)
  /-- The unassigned orders are read. -/
  | listedOrders (trucks orders : List Id)
  /-- The orders on an open haul trip are read and excluded. -/
  | excludedClaimed (trucks orders : List Id)
  /-- The busy trucks are read and excluded. -/
  | solving (candidates orders : List Id)
deriving DecidableEq

/-! ## The machine -/

/-- The state of everybody. -/
structure World where
  orders : Orders
  /-- The haul trips, oldest first. -/
  trips : List HaulDoc := []
  /-- `TruckApp.trip` of each truck: the number of the trip it works on. -/
  active : Id → Option ℕ := fun _ ↦ none
  /-- The order events that no drain has applied yet, oldest first. -/
  events : List (Option Payload) := []
  tick : Tick := .idle
  /-- The assignments no truck has handled yet. -/
  published : List Assignment := []
  /-- The jumps the writer has warned of. -/
  warnedJumps : ℕ := 0

/-- One thing that happens. -/
inductive Event where
  /-- `list_trucks`. -/
  | listTrucks (trucks : List Id)
  /-- `list_unassigned_orders`, which fails with `none`. -/
  | listOrders (orders : Option (List Id))
  /-- `order_ids_with_open_haul`, and what it returns. -/
  | readClaimed (claimed : List Id)
  /-- `active_haul_truck_ids`, and what it returns. -/
  | readBusy (busy : List Id)
  | publish (assignments : List Assignment)
  /-- A truck handles an assignment; it may be offline. -/
  | handle (i : ℕ) (online : Bool) (simClock : Option RawClock)
  | transition (trip : ℕ) (tr : HaulTransition) (simClock : Option RawClock)
  /-- `TruckApp.refresh`: a trip that is over is dropped. -/
  | refresh (truck : Id)
  /-- The lifecycle service drains some events. -/
  | drain (n : ℕ) (fallback : ℤ)
  | publishDue (step simClock : ℤ)
  | sweep (step maxWaitSteps : ℤ) (openHaulOrderIds : List String) (simClock : ℤ)

namespace World

variable (s : World)

/-- The orders on an open haul trip. -/
def openOrders : List Id := (s.trips.filter HaulDoc.isOpen).map HaulDoc.order

/-- The trucks on an open haul trip. -/
def openTrucks : List Id := (s.trips.filter HaulDoc.isOpen).map HaulDoc.truck

/-- A response to the query for the unassigned orders of a run.  An order was unassigned when its
page was read, and may have moved on. -/
def Listed (runId : String) (orders : List Id) : Prop :=
  ∀ oid ∈ orders, ((s.orders.get? oid.val).any fun d ↦ d.runId = runId ∧ d.state ≠ .created) = true

instance (runId : String) (orders : List Id) : Decidable (s.Listed runId orders) :=
  inferInstanceAs (Decidable (∀ oid ∈ orders, _))

/-- What any solver may return: pairs of a candidate and an order, nobody twice. -/
def IsMatching (candidates orders : List Id) (assignments : List Assignment) : Prop :=
  (∀ x ∈ assignments, x.truck ∈ candidates ∧ x.order ∈ orders) ∧
    (assignments.map Assignment.truck).Nodup ∧ (assignments.map Assignment.order).Nodup

instance (candidates orders : List Id) (assignments : List Assignment) :
    Decidable (IsMatching candidates orders assignments) :=
  inferInstanceAs (Decidable (_ ∧ _ ∧ _))

/-- `handle_assignment`: a truck that is not on a trip creates one. -/
def handleAssignment (x : Assignment) (online : Bool) (simClock : Option RawClock) : World :=
  if online ∧ s.active x.truck = none then
    { s with
      trips := s.trips ++ [{ truck := x.truck, order := x.order, simClock := simClock }]
      active := Function.update s.active x.truck (some s.trips.length) }
  else s

/-- `apply_trip_transition_and_notify`. -/
def applyTransition (k : ℕ) (t : HaulDoc) : World :=
  { s with trips := s.trips.set k t }

end World

section

variable (w : OrderBatchWriter) (strToTime : String → Option ℤ) (rejectBusy : Bool)

/-- The assignment service, the trucks and the order lifecycle service of a run. -/
def hauling : Machine World Event where
  step s
    | .listTrucks trucks =>
      -- whatever an earlier tick published is handled before the next one reads
      if s.tick = .idle ∧ s.published = [] then
        some { s with tick := .listedTrucks trucks }
      else none
    | .listOrders response =>
      match s.tick, response with
      | .listedTrucks _, none => some { s with tick := .idle }
      | .listedTrucks trucks, some orders =>
        if s.Listed w.runId orders then some { s with tick := .listedOrders trucks orders }
        else none
      | _, _ => none
    | .readClaimed claimed =>
      match s.tick with
      | .listedOrders trucks orders =>
        some { s with tick := .excludedClaimed trucks (orders.filter (· ∉ claimed)) }
      | _ => none
    | .readBusy busy =>
      match s.tick with
      | .excludedClaimed trucks orders =>
        let excluded := if rejectBusy then busy else []
        some { s with tick := .solving (trucks.filter (· ∉ excluded)) orders }
      | _ => none
    | .publish assignments =>
      match s.tick with
      | .solving candidates orders =>
        if World.IsMatching candidates orders assignments then
          some { s with tick := .idle, published := s.published ++ assignments }
        else none
      | _ => none
    | .handle i online simClock =>
      (s.published[i]?).map fun x ↦
        { s with published := s.published.eraseIdx i }.handleAssignment x online simClock
    | .transition k tr simClock =>
      (s.trips[k]?).bind fun t ↦
        if t.state ∈ tr.sources then
          some { s.applyTransition k (t.transition tr simClock) with
            events := s.events ++ (t.transition tr simClock).notices tr }
        else none
    | .refresh truck =>
      match (s.active truck).bind fun k ↦ s.trips[k]? with
      | none => none
      | some t =>
        if t.isOpen then none
        else some { s with active := Function.update s.active truck none }
    | .drain n fallback =>
      let r := w.applyEvents strToTime .complete s.orders (s.events.take n) fallback
      some { s with
        orders := r.1
        events := s.events.drop n
        warnedJumps := s.warnedJumps + r.2.warnedJumps }
    | .publishDue step simClock => some { s with orders := (w.publishDue s.orders step simClock).1 }
    | .sweep step maxWaitSteps openHaulOrderIds simClock =>
      some { s with
        orders :=
          (w.cancelOverdueUnassigned s.orders step maxWaitSteps openHaulOrderIds simClock).1 }

end

/-- A collection in which the orders of the run are new. -/
def Fresh (runId : String) (orders : Orders) : Prop :=
  ∀ oid d, orders.get? oid = some d → d.runId = runId →
    (d.state = .created ∨ d.state = .unassigned) ∧ d.cancelReason = none

/-! ## What a step can do -/

/-- The orders a tick is still about. -/
def Tick.orders : Tick → List Id
  | .listedOrders _ orders => orders
  | .excludedClaimed _ orders => orders
  | .solving _ orders => orders
  | _ => []

/-- The steps of the machine, one rule for each thing that can happen. -/
inductive Moves (w : OrderBatchWriter) (strToTime : String → Option ℤ) (rejectBusy : Bool)
    (s : World) : Event → World → Prop
  | listTrucks {trucks : List Id} (hidle : s.tick = .idle) (hnone : s.published = []) :
      Moves w strToTime rejectBusy s (.listTrucks trucks) { s with tick := .listedTrucks trucks }
  | listOrdersFails {trucks : List Id} (htick : s.tick = .listedTrucks trucks) :
      Moves w strToTime rejectBusy s (.listOrders none) { s with tick := .idle }
  | listOrders {trucks orders : List Id} (htick : s.tick = .listedTrucks trucks)
      (hread : s.Listed w.runId orders) :
      Moves w strToTime rejectBusy s (.listOrders (some orders))
        { s with tick := .listedOrders trucks orders }
  | readClaimed {trucks orders claimed : List Id}
      (htick : s.tick = .listedOrders trucks orders) :
      Moves w strToTime rejectBusy s (.readClaimed claimed)
        { s with tick := .excludedClaimed trucks (orders.filter (· ∉ claimed)) }
  | readBusy {trucks orders busy candidates : List Id}
      (htick : s.tick = .excludedClaimed trucks orders) :
      Moves w strToTime rejectBusy s (.readBusy busy)
        { s with tick := .solving candidates orders }
  | publish {candidates orders : List Id} {assignments : List Assignment}
      (htick : s.tick = .solving candidates orders)
      (hmatch : World.IsMatching candidates orders assignments) :
      Moves w strToTime rejectBusy s (.publish assignments)
        { s with tick := .idle, published := s.published ++ assignments }
  | handle {i : ℕ} {online : Bool} {simClock : Option RawClock} {x : Assignment}
      (hx : s.published[i]? = some x) (honline : online = true) (hfree : s.active x.truck = none) :
      Moves w strToTime rejectBusy s (.handle i online simClock)
        { s with
          published := s.published.eraseIdx i
          trips := s.trips ++ [{ truck := x.truck, order := x.order, simClock := simClock }]
          active := Function.update s.active x.truck (some s.trips.length) }
  | ignore {i : ℕ} {online : Bool} {simClock : Option RawClock} :
      Moves w strToTime rejectBusy s (.handle i online simClock)
        { s with published := s.published.eraseIdx i }
  | transition {k : ℕ} {tr : HaulTransition} {simClock : Option RawClock} {t : HaulDoc}
      (ht : s.trips[k]? = some t) (hsource : t.state ∈ tr.sources) :
      Moves w strToTime rejectBusy s (.transition k tr simClock)
        { s with
          trips := s.trips.set k (t.transition tr simClock)
          events := s.events ++ (t.transition tr simClock).notices tr }
  | refresh {truck : Id} {k : ℕ} {t : HaulDoc} (hactive : s.active truck = some k)
      (ht : s.trips[k]? = some t) (hover : t.isOpen = false) :
      Moves w strToTime rejectBusy s (.refresh truck)
        { s with active := Function.update s.active truck none }
  | drain {n : ℕ} {fallback : ℤ} :
      Moves w strToTime rejectBusy s (.drain n fallback)
        { s with
          orders := (w.applyEvents strToTime .complete s.orders (s.events.take n) fallback).1
          events := s.events.drop n
          warnedJumps := s.warnedJumps +
            (w.applyEvents strToTime .complete s.orders (s.events.take n) fallback).2.warnedJumps }
  | publishDue {step simClock : ℤ} :
      Moves w strToTime rejectBusy s (.publishDue step simClock)
        { s with orders := (w.publishDue s.orders step simClock).1 }
  | sweep {step maxWaitSteps : ℤ} {openHaul : List String} {simClock : ℤ} :
      Moves w strToTime rejectBusy s (.sweep step maxWaitSteps openHaul simClock)
        { s with
          orders := (w.cancelOverdueUnassigned s.orders step maxWaitSteps openHaul simClock).1 }

variable {w : OrderBatchWriter} {strToTime : String → Option ℤ} {rejectBusy : Bool}

/-- A step of the machine is one of these moves. -/
theorem moves_of_step {s s' : World} {e : Event}
    (h : (hauling w strToTime rejectBusy).step s e = some s') :
    Moves w strToTime rejectBusy s e s' := by
  cases e with
  | listTrucks trucks =>
    simp only [hauling] at h
    split at h
    · next hc =>
      cases h
      exact .listTrucks hc.1 hc.2
    · cases h
  | listOrders response =>
    simp only [hauling] at h
    split at h
    · next htick =>
      cases h
      exact .listOrdersFails htick
    · next htick =>
      split at h
      · next hread =>
        cases h
        exact .listOrders htick hread
      · cases h
    · cases h
  | readClaimed claimed =>
    simp only [hauling] at h
    split at h
    · next htick =>
      cases h
      exact .readClaimed htick
    · cases h
  | readBusy busy =>
    simp only [hauling] at h
    split at h
    · next htick =>
      cases h
      exact .readBusy htick
    · cases h
  | publish assignments =>
    simp only [hauling] at h
    split at h
    · next htick =>
      split at h
      · next hmatch =>
        cases h
        exact .publish htick hmatch
      · cases h
    · cases h
  | handle i online simClock =>
    simp only [hauling, Option.map_eq_some_iff] at h
    obtain ⟨x, hx, rfl⟩ := h
    rw [World.handleAssignment]
    split
    · next hc => exact .handle hx hc.1 hc.2
    · exact .ignore
  | transition k tr simClock =>
    simp only [hauling, Option.bind_eq_some_iff] at h
    obtain ⟨t, ht, h⟩ := h
    split at h
    · next hsource =>
      cases h
      exact .transition ht hsource
    · cases h
  | refresh truck =>
    simp only [hauling] at h
    split at h
    · cases h
    · next t ht =>
      obtain ⟨k, hk, ht⟩ := Option.bind_eq_some_iff.mp ht
      split at h
      · cases h
      · next hover =>
        cases h
        exact .refresh hk ht (Bool.eq_false_iff.mpr hover)
  | drain n fallback =>
    cases h
    exact .drain
  | publishDue step simClock =>
    cases h
    exact .publishDue
  | sweep step maxWaitSteps openHaul simClock =>
    cases h
    exact .sweep

/-! ## A tick -/

theorem t1_ne_empty : "t1" ≠ "" := by decide

theorem o1_ne_empty : "o1" ≠ "" := by decide

/-- A collection with one new order. -/
def oneOrder : Orders :=
  Dict.ofList [("o1", { runId := "run", requestTimeStep := some 0, state := .created })]

/-- A tick that gives the order to a truck, which creates a trip. -/
def oneTick : List Event :=
  [.publishDue 0 0, .listTrucks [⟨"t1", t1_ne_empty⟩], .listOrders (some [⟨"o1", o1_ne_empty⟩]),
    .readClaimed [], .readBusy [], .publish [⟨⟨"t1", t1_ne_empty⟩, ⟨"o1", o1_ne_empty⟩⟩],
    .handle 0 true none]

end OpenRide.Hauling
