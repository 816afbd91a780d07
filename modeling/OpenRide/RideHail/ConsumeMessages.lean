import Mathlib.Data.Int.Notation
import OpenRide.Lib.Requeue
import OpenRide.RideHail.PassengerApp
import OpenRide.Simulation.TripManager

/-!
# Consuming workflow messages, over a network

Drivers and passengers take the workflow messages off their queues at the beginning of a step, one
after the other, and every message is handled by requests any of which may fail.
`consume_messages` puts a message back when its handler raises `WriteFailedException`.

None of the handlers of a workflow event does: `apply_trip_transition_and_notify` returns the
response of a PATCH the server refused, nobody looks at it, and all other failures raise other
exceptions.  So a message is consumed whether it was applied or not, and a queue is kept exactly
when every handler got its PATCH through (`consumeMessages_kept_iff`).
-/

namespace OpenRide.RideHail

open Lib Simulation

/-! ## The driver -/

section Driver

variable {P : Type} (nullPassenger : Bool)

/-- A payload of the queue of a driver. -/
inductive DriverPayload (P : Type) where
  /-- `PassengerWorkflowPayload.parse` gives `None`. -/
  | invalid
  | otherAction
  /-- The event is `none` when no handler takes it. -/
  | workflowEvent (passenger : P) (event : Option PassengerEvent)
deriving DecidableEq

/-- What comes of the requests of a handler, and whether the messenger takes the message. -/
structure HandlerCalls where
  /-- `create_route` finds a route. -/
  route : Bool := true
  patch : WriteOutcome := .answered
  get : ReadOutcome := .answered
  publish : Bool := true
deriving DecidableEq

namespace DriverTrip

/-- What the server makes of a transition. -/
def serve (t : DriverTransition) (trip : DriverTrip P) : Option (DriverTrip P) :=
  (t.next trip.state).map fun s ↦ { trip with state := s }

/-- `post_transition_hook`. -/
def postTransitionHook (publish : Bool) (t : DriverTransition) (trip : DriverTrip P) :
    List (P × ToPassenger) × Option TripError :=
  match t.event, trip.passenger with
  | none, _ => ([], none)
  | some e, some p => ([(p, .workflowEvent e)], if publish then none else some .other)
  | some _, none => ([], if nullPassenger then none else some .other)

/-- A transition of the driver's trip. -/
def attempt (c : HandlerCalls) (t : DriverTransition) (m : TripManager (DriverTrip P)) :
    Attempt (DriverTrip P) (P × ToPassenger) :=
  applyTripTransitionAndNotify .refreshFailed (serve t)
    (postTransitionHook nullPassenger c.publish t) c.patch c.get m

/-- The transition an event of the passenger is for. -/
def transitionOf : PassengerEvent → DriverTransition
  | .confirmedTrip => .passengerConfirmedTrip
  | .rejectedTrip => .forceQuit
  | .cancelTrip => .passengerCancelledTrip
  | .acknowledgePickup => .passengerAcknowledgePickup
  | .acknowledgeDropoff => .passengerAcknowledgeDropoff

/-- Does the handler of an event ask for a route first? -/
def asksForRoute : PassengerEvent → Bool
  | .confirmedTrip => true
  | .acknowledgePickup => true
  | _ => false

/-- The handlers of `PassengerInteractionMixin`.  `DriverTripManager` has no `force_quit`, so
`_on_passenger_rejected_trip` raises at its first line. -/
def onPassengerWorkflowEvent (c : HandlerCalls) (e : PassengerEvent)
    (m : TripManager (DriverTrip P)) : Attempt (DriverTrip P) (P × ToPassenger) :=
  if e = .rejectedTrip then ⟨m, [], false, some .other⟩
  else if asksForRoute e ∧ !c.route then ⟨m, [], false, some .other⟩
  else attempt nullPassenger c (transitionOf e) m

end DriverTrip

/-- How a round of the loop goes on after the handler. -/
def endingOf : Option TripError → Ending
  | none => .next
  | some .writeFailed => .putBack
  | some _ => .dropped

/-- A round of the loop whose handler made an attempt at a transition. -/
def roundOf {δ ω ε : Type} (t : ε) (a : Attempt δ ω) : Round (TripManager δ) ε where
  state := a.manager
  effects := if a.carriedOut then [t] else []
  ending := endingOf a.raised

variable [DecidableEq P]

/-- One round of the loop of `DriverApp.consume_messages`. -/
def driverRound (calls : ℕ → HandlerCalls) (k : ℕ) (payload : DriverPayload P)
    (m : TripManager (DriverTrip P)) : Round (TripManager (DriverTrip P)) DriverTransition :=
  match payload with
  | .invalid => { state := m }
  | .otherAction => { state := m }
  | .workflowEvent p event =>
    match m.trip with
    | .unset => { state := m, ending := .dropped }
    | .stub => { state := m, ending := .dropped }
    | .doc trip =>
      match trip.passenger with
      | none => { state := m, ending := if nullPassenger then .next else .dropped }
      | some q =>
        if trip.state.isPassengerChannelOpen ∧ q = p then
          match event with
          | none => { state := m }
          | some e =>
            roundOf (DriverTrip.transitionOf e)
              (DriverTrip.onPassengerWorkflowEvent nullPassenger (calls k) e m)
        else { state := m }

/-- `DriverApp.consume_messages`. -/
def driverConsumeMessages (calls : ℕ → HandlerCalls) (queue : List (DriverPayload P))
    (m : TripManager (DriverTrip P)) :
    Drained (DriverPayload P) (TripManager (DriverTrip P)) DriverTransition :=
  drainQueue (driverRound nullPassenger calls) 0 queue m

/-- The transition a message of the passenger of the trip is due, while the channel is open. -/
def driverDue (payload : DriverPayload P) (m : TripManager (DriverTrip P)) :
    Option DriverTransition :=
  match payload, m.trip with
  | .workflowEvent p (some e), .doc trip =>
    if trip.state.isPassengerChannelOpen ∧ trip.passenger = some p then
      some (DriverTrip.transitionOf e)
    else none
  | _, _ => none

/-- The handler of a message has its way: it gets to its PATCH, the PATCH gets to the server, and
the stored trip allows the transition. -/
def DriverGoes (c : HandlerCalls) (payload : DriverPayload P) (m : TripManager (DriverTrip P)) :
    Prop :=
  ∃ p e, payload = .workflowEvent p (some e) ∧ e ≠ .rejectedTrip ∧
    (DriverTrip.asksForRoute e → c.route) ∧ c.patch.arrives ∧
    ((DriverTrip.transitionOf e).next m.stored.state).isSome

end Driver

/-! ## The passenger -/

section Passenger

variable {D : Type}

/-- A payload of the queue of a passenger. -/
inductive PassengerPayload (D : Type) where
  /-- `DriverWorkflowPayload.parse` gives `None`. -/
  | invalid
  | otherAction
  /-- The event is `none` when no handler takes it; `location` is whether there is one. -/
  | workflowEvent (driver : D) (event : Option DriverEvent) (location : Bool)
deriving DecidableEq

/-- The times `PassengerTripManager` notes. -/
structure TripTimes where
  requested : Option ℤ := none
  assigned : Option ℤ := none
  confirmed : Option ℤ := none
  pickedup : Option ℤ := none
  droppedoff : Option ℤ := none
deriving DecidableEq

/-- `PassengerTripManager`. -/
structure PassengerManager (D : Type) extends TripManager (PassengerTrip D) where
  times : TripTimes
deriving DecidableEq

namespace PassengerTrip

/-- What the server makes of a transition. -/
def serve (t : PassengerTransition) (trip : PassengerTrip D) : Option (PassengerTrip D) :=
  (t.next trip.state).map fun s ↦ { trip with state := s }

/-- `post_transition_hook`. -/
def postTransitionHook (publish : Bool) (t : PassengerTransition) (trip : PassengerTrip D) :
    List (D × PassengerEvent) × Option TripError :=
  match t.event, trip.driver with
  | none, _ => ([], none)
  | some e, some d => ([(d, e)], if publish then none else some .other)
  | some _, none => ([], some .other)

/-- A transition of the passenger's trip. -/
def attempt (c : HandlerCalls) (t : PassengerTransition) (m : TripManager (PassengerTrip D)) :
    Attempt (PassengerTrip D) (D × PassengerEvent) :=
  applyTripTransitionAndNotify .refreshFailed (serve t) (postTransitionHook c.publish t)
    c.patch c.get m

/-- Does the handler of an event return at once without a location? -/
def asksForLocation : DriverEvent → Bool
  | .confirmedTrip => false
  | _ => true

/-- The times after the handler of an event has noted its own. -/
def noteTime (now : ℤ) (e : DriverEvent) (times : TripTimes) : TripTimes :=
  match e with
  | .confirmedTrip => { times with confirmed := some now }
  | .arrivedForPickup => { times with pickedup := some now }
  | .arrivedForDropoff => { times with droppedoff := some now }
  | _ => times

/-- Are the times noted that the handler of an event subtracts from its own? -/
def timesKnown (times : TripTimes) : DriverEvent → Bool
  | .confirmedTrip => times.requested.isSome
  | .arrivedForPickup => times.assigned.isSome && times.requested.isSome
  | .arrivedForDropoff => times.pickedup.isSome
  | _ => true

/-- `ping`, which changes nothing that is kept here. -/
def ping (c : HandlerCalls) (m : TripManager (PassengerTrip D)) :
    TripManager (PassengerTrip D) × Option TripError :=
  match m.trip with
  | .unset => (m, some .other)
  | .stub => (m, some .other)
  | .doc _ =>
    match c.patch with
    | .answered => refresh .refreshFailed c.get m
    | .refused => (m, some .writeFailed)
    | .lost => (m, some .other)
    | .unanswered => (m, some .other)

end PassengerTrip

variable [DecidableEq D] (now : ℤ)

/-- The handlers of `DriverInteractionMixin`, as a round of the loop. -/
def onDriverWorkflowEvent (c : HandlerCalls) (e : DriverEvent) (location : Bool)
    (m : PassengerManager D) : Round (PassengerManager D) PassengerTransition :=
  if PassengerTrip.asksForLocation e ∧ !location then { state := m }
  else
    let times := PassengerTrip.noteTime now e m.times
    if !PassengerTrip.timesKnown m.times e then
      { state := { m with times := times }, ending := .dropped }
    else
      let r := roundOf (PassengerTrip.transitionOf e)
        (PassengerTrip.attempt c (PassengerTrip.transitionOf e) m.toTripManager)
      { r with state := ⟨r.state, times⟩ }

/-- One round of the loop of `PassengerApp.consume_messages`.  An event that no handler takes is a
sign of life if it has a location. -/
def passengerRound (calls : ℕ → HandlerCalls) (k : ℕ) (payload : PassengerPayload D)
    (m : PassengerManager D) : Round (PassengerManager D) PassengerTransition :=
  match payload with
  | .invalid => { state := m }
  | .otherAction => { state := m }
  | .workflowEvent d event location =>
    match m.trip with
    | .unset => { state := m, ending := .dropped }
    | .stub => { state := m }
    | .doc trip =>
      if trip.state.isDriverChannelOpen ∧ trip.driver = some d then
        match event with
        | some e => onDriverWorkflowEvent now (calls k) e location m
        | none =>
          if location then
            let out := PassengerTrip.ping (calls k) m.toTripManager
            { state := ⟨out.1, m.times⟩, ending := endingOf out.2 }
          else { state := m }
      else { state := m }

/-- `PassengerApp.consume_messages`. -/
def passengerConsumeMessages (calls : ℕ → HandlerCalls) (queue : List (PassengerPayload D))
    (m : PassengerManager D) :
    Drained (PassengerPayload D) (PassengerManager D) PassengerTransition :=
  drainQueue (passengerRound now calls) 0 queue m

/-- The transition a message of the driver of the trip is due, while the channel is open. -/
def passengerDue (payload : PassengerPayload D) (m : PassengerManager D) :
    Option PassengerTransition :=
  match payload, m.trip with
  | .workflowEvent d (some e) _, .doc trip =>
    if trip.state.isDriverChannelOpen ∧ trip.driver = some d then
      some (PassengerTrip.transitionOf e)
    else none
  | _, _ => none

/-- The handler of a message has its way. -/
def PassengerGoes (c : HandlerCalls) (payload : PassengerPayload D) (m : PassengerManager D) :
    Prop :=
  ∃ d e location, payload = .workflowEvent d (some e) location ∧
    (PassengerTrip.asksForLocation e → location) ∧ PassengerTrip.timesKnown m.times e ∧
    c.patch.arrives ∧ ((PassengerTrip.transitionOf e).next m.stored.state).isSome

end Passenger

/-! ## What a round does -/

section Rounds

variable {δ ω ε : Type} {t : ε} {a : Attempt δ ω}

theorem roundOf_effects_iff : (roundOf t a).effects = [t] ↔ a.carriedOut = true := by
  rw [roundOf]
  cases a.carriedOut <;> simp

theorem endingOf_eq_putBack {e : Option TripError} :
    endingOf e = .putBack ↔ e = some .writeFailed := by
  cases e with
  | none => simp [endingOf]
  | some e => cases e <;> simp [endingOf]

end Rounds

section DriverRounds

variable {P : Type} {nullPassenger : Bool}

theorem DriverTrip.hook_ne_writeFailed (publish : Bool) (t : DriverTransition)
    (trip : DriverTrip P) :
    (postTransitionHook nullPassenger publish t trip).2 ≠ some .writeFailed := by
  rw [postTransitionHook]
  split <;> [skip; split; split] <;> simp

/-- No handler of a workflow event raises `WriteFailedException`. -/
theorem DriverTrip.onPassengerWorkflowEvent_raised (c : HandlerCalls) (e : PassengerEvent)
    (m : TripManager (DriverTrip P)) :
    (onPassengerWorkflowEvent nullPassenger c e m).raised ≠ some .writeFailed := by
  rw [onPassengerWorkflowEvent]
  split
  · simp
  · split
    · simp
    · exact attempt_raised_ne (by simp) (hook_ne_writeFailed c.publish (transitionOf e))

variable {m : TripManager (DriverTrip P)}

/-- When a handler makes its transition. -/
theorem DriverTrip.onPassengerWorkflowEvent_carriedOut {c : HandlerCalls} {e : PassengerEvent}
    {trip : DriverTrip P} (htrip : m.trip = .doc trip) :
    (onPassengerWorkflowEvent nullPassenger c e m).carriedOut = true ↔
      e ≠ .rejectedTrip ∧ (asksForRoute e → c.route) ∧ c.patch.arrives ∧
        ((transitionOf e).next m.stored.state).isSome := by
  rw [onPassengerWorkflowEvent]
  split
  · next he => simp [he]
  · next he =>
    split
    · next hroute =>
      obtain ⟨hasks, hnone⟩ := hroute
      have hno : c.route = false := by simpa using hnone
      simp [hasks, hno]
    · next hroute =>
      have hgo : asksForRoute e → c.route := by
        intro hasks
        by_contra hnone
        exact hroute ⟨hasks, by simpa using hnone⟩
      rw [attempt, attempt_carriedOut htrip, serve, WriteOutcome.carryOut_isSome,
        Option.isSome_map]
      exact ⟨fun h ↦ ⟨he, hgo, h⟩, fun h ↦ h.2.2⟩

variable [DecidableEq P]

variable {payload : DriverPayload P}

theorem driverDue_eq_some {t : DriverTransition} (h : driverDue payload m = some t) :
    ∃ p e trip, payload = .workflowEvent p (some e) ∧ m.trip = .doc trip ∧
      trip.passenger = some p ∧ trip.state.isPassengerChannelOpen = true ∧
      t = DriverTrip.transitionOf e := by
  unfold driverDue at h
  split at h
  · next p e trip htrip =>
    obtain ⟨hopen, h⟩ := Option.ite_none_right_eq_some.mp h
    exact ⟨p, e, trip, rfl, htrip, hopen.2, hopen.1, (Option.some_inj.mp h).symm⟩
  · cases h

variable {calls : ℕ → HandlerCalls}

variable {k : ℕ}

/-- A message that is due its transition goes to its handler. -/
theorem driverRound_of_due {p : P} {e : PassengerEvent} {trip : DriverTrip P}
    (htrip : m.trip = .doc trip) (hp : trip.passenger = some p)
    (hopen : trip.state.isPassengerChannelOpen = true) :
    driverRound nullPassenger calls k (.workflowEvent p (some e)) m =
      roundOf (DriverTrip.transitionOf e)
        (DriverTrip.onPassengerWorkflowEvent nullPassenger (calls k) e m) := by
  simp only [driverRound, htrip, hp, hopen, and_self, if_true]

/-- A message that is due nothing does nothing, and is not put back. -/
theorem driverRound_of_not_due (h : driverDue payload m = none) :
    (driverRound nullPassenger calls k payload m).effects = [] := by
  unfold driverRound
  split
  · rfl
  · rfl
  · next p event =>
    split
    · rfl
    · rfl
    · next trip htrip =>
      split
      · rfl
      · next q hq =>
        split
        · next hopen =>
          split
          · rfl
          · next e =>
            simp [driverDue, htrip, hopen.1, hq, hopen.2] at h
        · rfl

/-- What is due its transition is never put back. -/
theorem driverDue_of_putBack (h : (driverRound nullPassenger calls k payload m).ending = .putBack) :
    driverDue payload m = none := by
  cases hdue : driverDue payload m with
  | none => rfl
  | some t =>
    obtain ⟨p, e, trip, rfl, htrip, hp, hopen, -⟩ := driverDue_eq_some hdue
    rw [driverRound_of_due htrip hp hopen] at h
    exact absurd (endingOf_eq_putBack.mp h) (DriverTrip.onPassengerWorkflowEvent_raised _ e m)

/-- A message that is due its transition has it exactly when its handler has its way. -/
theorem driverRound_effects_iff {t : DriverTransition} (h : driverDue payload m = some t) :
    (driverRound nullPassenger calls k payload m).effects = [t] ↔
      DriverGoes (calls k) payload m := by
  obtain ⟨p, e, trip, rfl, htrip, hp, hopen, rfl⟩ := driverDue_eq_some h
  rw [driverRound_of_due htrip hp hopen, roundOf_effects_iff,
    DriverTrip.onPassengerWorkflowEvent_carriedOut htrip]
  constructor
  · exact fun h ↦ ⟨p, e, rfl, h⟩
  · rintro ⟨p', e', hpayload, h⟩
    obtain ⟨-, hevent⟩ := DriverPayload.workflowEvent.inj hpayload
    cases hevent
    exact h

theorem driver_kept_iff (calls : ℕ → HandlerCalls) (queue : List (DriverPayload P))
    (m : TripManager (DriverTrip P)) :
    Kept driverDue queue (driverConsumeMessages nullPassenger calls queue m) ↔
      ∀ t ∈ (driverConsumeMessages nullPassenger calls queue m).taken,
        (driverDue t.message t.before).isSome → DriverGoes (calls t.index) t.message t.before :=
  @kept_iff _ _ _ (driverRound nullPassenger calls) driverDue (fun k ↦ DriverGoes (calls k))
    (fun _ _ _ h ↦ driverRound_of_not_due h) (fun _ _ _ h ↦ driverDue_of_putBack h)
    (fun _ _ _ _ h ↦ driverRound_effects_iff h) 0 queue m

end DriverRounds

section PassengerRounds

variable {D : Type} {now : ℤ}

theorem PassengerTrip.hook_ne_writeFailed (publish : Bool) (t : PassengerTransition)
    (trip : PassengerTrip D) : (postTransitionHook publish t trip).2 ≠ some .writeFailed := by
  rw [postTransitionHook]
  split <;> [skip; split; skip] <;> simp

/-- No handler of a workflow event raises `WriteFailedException`. -/
theorem onDriverWorkflowEvent_ending (c : HandlerCalls) (e : DriverEvent) (location : Bool)
    (m : PassengerManager D) : (onDriverWorkflowEvent now c e location m).ending ≠ .putBack := by
  rw [onDriverWorkflowEvent]
  split
  · simp
  · dsimp only
    split
    · simp
    · exact fun h ↦ attempt_raised_ne (by simp)
        (PassengerTrip.hook_ne_writeFailed c.publish (PassengerTrip.transitionOf e))
        (endingOf_eq_putBack.mp h)

variable {m : PassengerManager D}

/-- When a handler makes its transition. -/
theorem onDriverWorkflowEvent_effects {c : HandlerCalls} {e : DriverEvent} {location : Bool}
    {trip : PassengerTrip D} (htrip : m.trip = .doc trip) :
    (onDriverWorkflowEvent now c e location m).effects = [PassengerTrip.transitionOf e] ↔
      (PassengerTrip.asksForLocation e → location) ∧ PassengerTrip.timesKnown m.times e ∧
        c.patch.arrives ∧ ((PassengerTrip.transitionOf e).next m.stored.state).isSome := by
  rw [onDriverWorkflowEvent]
  split
  · next hlocation =>
    obtain ⟨hasks, hnone⟩ := hlocation
    have hno : location = false := by simpa using hnone
    simp [hasks, hno]
  · next hlocation =>
    have hgo : PassengerTrip.asksForLocation e → location := by
      intro hasks
      by_contra hnone
      exact hlocation ⟨hasks, by simpa using hnone⟩
    split
    · next htimes =>
      have hno : PassengerTrip.timesKnown m.times e = false := by simpa using htimes
      simp [hno]
    · next htimes =>
      have hyes : PassengerTrip.timesKnown m.times e = true := by simpa using htimes
      refine (roundOf_effects_iff (a := PassengerTrip.attempt c _ m.toTripManager)).trans ?_
      rw [PassengerTrip.attempt, attempt_carriedOut htrip, PassengerTrip.serve,
        WriteOutcome.carryOut_isSome, Option.isSome_map]
      exact ⟨fun h ↦ ⟨hgo, hyes, h⟩, fun h ↦ h.2.2⟩

variable [DecidableEq D]

variable {payload : PassengerPayload D}

theorem passengerDue_eq_some {t : PassengerTransition} (h : passengerDue payload m = some t) :
    ∃ d e location trip, payload = .workflowEvent d (some e) location ∧ m.trip = .doc trip ∧
      (trip.state.isDriverChannelOpen = true ∧ trip.driver = some d) ∧
      t = PassengerTrip.transitionOf e := by
  unfold passengerDue at h
  split at h
  · next d e location trip htrip =>
    obtain ⟨hopen, h⟩ := Option.ite_none_right_eq_some.mp h
    exact ⟨d, e, location, trip, rfl, htrip, hopen, (Option.some_inj.mp h).symm⟩
  · cases h

variable {calls : ℕ → HandlerCalls}

variable {k : ℕ}

/-- A message that is due its transition goes to its handler. -/
theorem passengerRound_of_due {d : D} {e : DriverEvent} {location : Bool} {trip : PassengerTrip D}
    (htrip : m.trip = .doc trip)
    (hopen : trip.state.isDriverChannelOpen = true ∧ trip.driver = some d) :
    passengerRound now calls k (.workflowEvent d (some e) location) m =
      onDriverWorkflowEvent now (calls k) e location m := by
  simp only [passengerRound, htrip, hopen, and_self, if_true]

/-- A message that is due nothing has no effect. -/
theorem passengerRound_of_not_due (h : passengerDue payload m = none) :
    (passengerRound now calls k payload m).effects = [] := by
  unfold passengerRound
  split
  · rfl
  · rfl
  · next d event location =>
    split
    · rfl
    · rfl
    · next trip htrip =>
      split
      · next hopen =>
        split
        · next e => simp [passengerDue, htrip, hopen] at h
        · split <;> rfl
      · rfl

/-- What is due its transition is never put back. -/
theorem passengerDue_of_putBack (h : (passengerRound now calls k payload m).ending = .putBack) :
    passengerDue payload m = none := by
  cases hdue : passengerDue payload m with
  | none => rfl
  | some t =>
    obtain ⟨d, e, location, trip, rfl, htrip, hopen, -⟩ := passengerDue_eq_some hdue
    rw [passengerRound_of_due htrip hopen] at h
    exact absurd h (onDriverWorkflowEvent_ending _ e location m)

/-- A message that is due its transition has it exactly when its handler has its way. -/
theorem passengerRound_effects_iff {t : PassengerTransition} (h : passengerDue payload m = some t) :
    (passengerRound now calls k payload m).effects = [t] ↔ PassengerGoes (calls k) payload m := by
  obtain ⟨d, e, location, trip, rfl, htrip, hopen, rfl⟩ := passengerDue_eq_some h
  rw [passengerRound_of_due htrip hopen, onDriverWorkflowEvent_effects htrip]
  constructor
  · exact fun h ↦ ⟨d, e, location, rfl, h⟩
  · rintro ⟨d', e', location', hpayload, h⟩
    obtain ⟨-, hevent, rfl⟩ := PassengerPayload.workflowEvent.inj hpayload
    cases hevent
    exact h

theorem passenger_kept_iff (calls : ℕ → HandlerCalls) (queue : List (PassengerPayload D))
    (m : PassengerManager D) :
    Kept passengerDue queue (passengerConsumeMessages now calls queue m) ↔
      ∀ t ∈ (passengerConsumeMessages now calls queue m).taken,
        (passengerDue t.message t.before).isSome →
          PassengerGoes (calls t.index) t.message t.before :=
  @kept_iff _ _ _ (passengerRound now calls) passengerDue (fun k ↦ PassengerGoes (calls k))
    (fun _ _ _ h ↦ passengerRound_of_not_due h) (fun _ _ _ h ↦ passengerDue_of_putBack h)
    (fun _ _ _ _ h ↦ passengerRound_effects_iff h) 0 queue m

end PassengerRounds

/-! ## Queues -/

/-- **When a queue is kept**: when the handler of every message that is due its transition has its
way.  Nothing else makes up for a message, as none of them is ever put back. -/
theorem consumeMessages_kept_iff {D P : Type} [DecidableEq D] [DecidableEq P] :
    (∀ (nullPassenger : Bool) (calls : ℕ → HandlerCalls) (queue : List (DriverPayload P))
      (m : TripManager (DriverTrip P)),
      Kept driverDue queue (driverConsumeMessages nullPassenger calls queue m) ↔
        ∀ t ∈ (driverConsumeMessages nullPassenger calls queue m).taken,
          (driverDue t.message t.before).isSome →
            DriverGoes (calls t.index) t.message t.before) ∧
    ∀ (now : ℤ) (calls : ℕ → HandlerCalls) (queue : List (PassengerPayload D))
      (m : PassengerManager D),
      Kept passengerDue queue (passengerConsumeMessages now calls queue m) ↔
        ∀ t ∈ (passengerConsumeMessages now calls queue m).taken,
          (passengerDue t.message t.before).isSome →
            PassengerGoes (calls t.index) t.message t.before :=
  ⟨fun _ ↦ driver_kept_iff, fun _ ↦ passenger_kept_iff⟩

/-- The etag of the driver has gone stale when the passenger acknowledges the pickup: the
acknowledgement is taken off the queue, the trip waits on. -/
theorem acknowledgement_lost :
    ¬Kept driverDue [.workflowEvent "passenger" (some .acknowledgePickup)]
      (driverConsumeMessages false (fun _ ↦ { patch := .refused })
        [.workflowEvent "passenger" (some .acknowledgePickup)]
        ⟨⟨some "passenger", .waitingToPickup⟩, .doc ⟨some "passenger", .waitingToPickup⟩⟩) := by
  rw [driver_kept_iff]
  intro h
  obtain ⟨-, -, -, -, -, harrives, -⟩ := h _ (List.mem_singleton_self _) rfl
  cases harrives

end OpenRide.RideHail
