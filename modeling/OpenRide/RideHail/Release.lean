import OpenRide.RideHail.DriverLink

/-!
# A driver released by its passenger

A passenger releases its driver by `passenger_rejected_trip` or `passenger_cancel_trip`, and the
driver should then be free for another job: its trip over, a new unoccupied one in hand
(`Released`).  This never happens (`never_released`).  The handler of a rejection calls a method
that does not exist, and raises before it has done anything; the handler of a cancellation ends the
trip where the state machine lets it, but creates no new one, so the driver goes on with a finished
occupied trip, on which it ignores every request.
-/

namespace OpenRide.RideHail

open Lib DriverTrip

variable {P : Type} [DecidableEq P] {nullPassenger : Bool}

/-- What a release should do: with `trips` at hand when the message is consumed, the handler
completes, the trip in hand is over at the end of the step, and the driver looks for a job on a new
trip by then. -/
structure Released (nullPassenger : Bool) (c : DriverChoices) (a : DriverApp P)
    (trips : List (DriverTrip P)) (msg : P × PassengerEvent) : Prop where
  handled : (onMessage nullPassenger msg trips).raised = false
  /-- Later trips go in front, so this is the trip that was in hand. -/
  ended : ∀ t ∈ (a.executeStepActions nullPassenger c).state.trips.reverse[trips.length - 1]?,
    t.state.final = true
  free : ∃ t ∈ (a.executeStepActions nullPassenger c).state.trips.head?,
    t.passenger = none ∧ t.state = .lookingForJob

/-- A trip no event of the passenger moves. -/
def Deaf (s : DriverState) : Prop :=
  s.isPassengerChannelOpen = false ∨ ∀ e : PassengerEvent, e.heard s = s

theorem drain_of_deaf {trip : DriverTrip P} (h : Deaf trip.state) (earlier : List (DriverTrip P))
    (inbox : List (P × PassengerEvent)) :
    (Handled.drain (onMessage nullPassenger) inbox (trip :: earlier)).state.2 =
      trip :: earlier := by
  induction inbox with
  | nil => rfl
  | cons msg inbox ih =>
    have hsame : (onMessage nullPassenger msg (trip :: earlier)).state = trip :: earlier := by
      obtain ⟨-, hno⟩ | ⟨-, hopen, hheard⟩ :=
        onMessage_cases nullPassenger msg.1 msg.2 trip earlier
      · rw [hno]
      · rcases h with h | h
        · rw [h] at hopen
          cases hopen
        · rw [hheard]
          rw [h]
    rw [Handled.drain]
    split
    · exact hsame
    · dsimp only
      rw [hsame]
      exact ih

/-- The trips at the end of a step in which a message leaves the driver deaf. -/
theorem trips_executeStepActions_of_deaf {c : DriverChoices} {a : DriverApp P}
    {before after : List (P × PassengerEvent)} {msg : P × PassengerEvent}
    {trips earlier : List (DriverTrip P)} {trip : DriverTrip P}
    (hinbox : a.inbox = before ++ msg :: after)
    (hbefore : (Handled.drain (onMessage nullPassenger) before a.trips).raised = false)
    (htrips : (Handled.drain (onMessage nullPassenger) before a.trips).state.2 = trips)
    (hmsg : (onMessage nullPassenger msg trips).state = trip :: earlier)
    (hraised : (onMessage nullPassenger msg trips).raised = false) (hdeaf : Deaf trip.state) :
    (a.executeStepActions nullPassenger c).state.trips = trip :: earlier ∨
      (a.executeStepActions nullPassenger c).state.trips =
        (performWorkflowActions nullPassenger c (trip :: earlier)).state := by
  have hdrain : (Handled.drain (onMessage nullPassenger) a.inbox a.trips).state.2 =
      trip :: earlier := by
    rw [hinbox, Handled.drain_append hbefore, htrips, Handled.drain_of_not_raised hraised, hmsg]
    exact drain_of_deaf hdeaf earlier after
  unfold DriverApp.executeStepActions Handled.andThen
  split
  · exact .inl hdrain
  · right
    show (performWorkflowActions nullPassenger c _).state = _
    rw [hdrain]

/-- **No driver is ever released.**  Whatever the driver has consumed before, in whichever stage up
to `driver_waiting_to_pickup` its trip is, and however its step goes on, a rejection or a
cancellation by the passenger of its trip does not set it free. -/
theorem never_released (c : DriverChoices) (a : DriverApp P)
    (before after : List (P × PassengerEvent)) (p : P) (e : PassengerEvent)
    (trip : DriverTrip P) (earlier : List (DriverTrip P))
    (hinbox : a.inbox = before ++ (p, e) :: after)
    (hbefore : (Handled.drain (onMessage nullPassenger) before a.trips).raised = false)
    (htrips : (Handled.drain (onMessage nullPassenger) before a.trips).state.2 = trip :: earlier)
    (hpassenger : trip.passenger = some p)
    (hstage : trip.state ∈
      [DriverState.receivedTrip, .acceptedTrip, .movingToPickup, .waitingToPickup])
    (he : e = .rejectedTrip ∨ e = .cancelTrip) :
    ¬Released nullPassenger c a (trip :: earlier) (p, e) := by
  intro h
  have hopen : trip.state.isPassengerChannelOpen = true := by
    revert hstage
    cases trip.state <;> decide
  have hmsg : onMessage nullPassenger (p, e) (trip :: earlier) =
      ⟨{ trip with state := e.heard trip.state } :: earlier, [], decide (e = .rejectedTrip)⟩ := by
    obtain ⟨hno, -⟩ | ⟨-, -, hheard⟩ := onMessage_cases nullPassenger p e trip earlier
    · rcases hno with hno | hno
      · exact absurd hpassenger hno
      · rw [hno] at hopen
        cases hopen
    · exact hheard
  have hhandled := h.handled
  rw [hmsg] at hhandled
  have hcancel : e = .cancelTrip := he.resolve_left (of_decide_eq_false hhandled)
  subst hcancel
  obtain ⟨passenger, state⟩ := trip
  obtain rfl : passenger = some p := hpassenger
  -- in hand is a trip of the passenger at the end, unless it was turned down
  have hoccupied : ∀ s : DriverState, ∀ l : List (DriverTrip P),
      (a.executeStepActions nullPassenger c).state.trips ≠ ⟨some p, s⟩ :: l := by
    intro s l hl
    obtain ⟨t, ht, hnone, -⟩ := h.free
    rw [hl] at ht
    obtain rfl := Option.some.inj ht
    cases hnone
  have hstep := fun hdeaf ↦ trips_executeStepActions_of_deaf (c := c) hinbox hbefore htrips
    (congrArg Handled.state hmsg) (congrArg Handled.raised hmsg) hdeaf
  by_cases hreceived : state = .receivedTrip
  · -- the state machine refuses the cancellation here, and the driver then decides as usual
    subst hreceived
    rcases hstep (.inr fun e ↦ by cases e <;> rfl) with hend | hend
    · exact hoccupied _ _ hend
    · obtain ⟨routeDone, accepts, nearPickup, pickupTimePassed, nearDropoff, dropoffTimePassed⟩ := c
      cases accepts with
      | true => exact hoccupied .acceptedTrip earlier hend
      | false =>
        have hturned : (a.executeStepActions nullPassenger _).state.trips =
            ⟨none, .lookingForJob⟩ :: ⟨some p, .rejectedTrip⟩ :: earlier := hend
        have hover := h.ended ⟨some p, .rejectedTrip⟩ (by rw [hturned]; simp)
        cases hover
  · -- here it ends the trip, and leaves the driver with it
    have hcompleted : PassengerEvent.cancelTrip.heard state = .completedTrip := by
      simp only [List.mem_cons, List.not_mem_nil, or_false] at hstage
      rcases hstage with rfl | rfl | rfl | rfl
      · exact absurd rfl hreceived
      · rfl
      · rfl
      · rfl
    rw [hcompleted] at hstep
    rcases hstep (.inl rfl) with hend | hend
    · exact hoccupied _ _ hend
    · exact hoccupied .completedTrip earlier hend

theorem never_released_accepted :
    ¬Released true {} (⟨[⟨some 7, .acceptedTrip⟩], [(7, .cancelTrip)], false⟩ : DriverApp ℕ)
      [⟨some 7, .acceptedTrip⟩] (7, .cancelTrip) :=
  never_released {} _ [] [] 7 .cancelTrip ⟨some 7, .acceptedTrip⟩ [] rfl rfl rfl rfl (by decide)
    (.inr rfl)

/-- The passenger rejects the driver's confirmation. -/
def rejected : List (Event Unit Unit) :=
  [.launchDriver (), .launchPassenger (), .listDrivers [()], .listPassengers [()],
    .publish [((), ())], .deliverRequest (), .deliverToPassenger () (),
    .driverStep () { accepts := true }, .deliverToPassenger () (), .passengerStep () {},
    .deliverToDriver () ()]

/-- Later the passenger runs out of patience. -/
def outOfPatience : List (Event Unit Unit) :=
  rejected ++ [.driverStep () {}, .passengerStep () { outOfPatience := true },
    .deliverToDriver () ()]

/-- **Stranded.**  In reachable states the step that consumes a rejection raises and leaves the
driver as it was, and the one that consumes a cancellation leaves it with a trip that is over. -/
theorem stranded :
    (∃ w : World Unit Unit, Reachable true w ∧ (w.drivers ()).inbox = [((), .rejectedTrip)] ∧
      (w.drivers ()).trips = [⟨some (), .acceptedTrip⟩, ⟨none, .completedTrip⟩] ∧
      ((w.drivers ()).executeStepActions true {}).raised = true ∧
      ((w.drivers ()).executeStepActions true {}).state.trips = (w.drivers ()).trips ∧
      ¬Released true {} (w.drivers ()) (w.drivers ()).trips ((), .rejectedTrip)) ∧
    ∃ w : World Unit Unit, Reachable true w ∧ (w.drivers ()).inbox = [((), .cancelTrip)] ∧
      (w.drivers ()).trips = [⟨some (), .acceptedTrip⟩, ⟨none, .completedTrip⟩] ∧
      ((w.drivers ()).executeStepActions true {}).state.trips =
        [⟨some (), .completedTrip⟩, ⟨none, .completedTrip⟩] ∧
      ¬Released true {} (w.drivers ()) (w.drivers ()).trips ((), .cancelTrip) := by
  constructor
  · refine ⟨_, reachable_of_exec rejected rfl, ?_, ?_, ?_, ?_, fun h ↦ absurd h.handled ?_⟩
    all_goals decide +kernel
  · have hspec : ∃ w : World Unit Unit, Reachable true w ∧
        (w.drivers ()).inbox = [((), .cancelTrip)] ∧
        (w.drivers ()).trips = [⟨some (), .acceptedTrip⟩, ⟨none, .completedTrip⟩] ∧
        ((w.drivers ()).executeStepActions true {}).state.trips =
          [⟨some (), .completedTrip⟩, ⟨none, .completedTrip⟩] := by
      refine ⟨_, reachable_of_exec outOfPatience rfl, ?_⟩
      decide +kernel
    obtain ⟨w, hreach, hinbox, htrips, hend⟩ := hspec
    refine ⟨w, hreach, hinbox, htrips, hend, fun h ↦ ?_⟩
    obtain ⟨t, ht, hnone, -⟩ := h.free
    rw [hend] at ht
    obtain rfl := Option.some.inj ht
    cases hnone

end OpenRide.RideHail
