import Mathlib.Data.List.Count
import OpenRide.RideHail.Link

/-!
# What a driver does, and its links

The handlers of the driver, read off one by one: what a message does (`onMessage_cases`), what an
action does (`actIn_cases`), what a request and a logout do.  From these follows that a step of a
driver keeps its link to every passenger (`keepsInboxLinks_executeStepActions`), and that its
earlier trips are settled: over, or turned down.
-/

namespace OpenRide.RideHail

open Lib

variable {P : Type} {nullPassenger : Bool}

namespace DriverTrip

variable {trip : DriverTrip P} {earlier : List (DriverTrip P)}

/-- The state of the trip in hand, if it is for the passenger and not over. -/
def inHand [DecidableEq P] (p : P) : List (DriverTrip P) → Option DriverState
  | [] => none
  | trip :: _ => if trip.passenger = some p then trip.state.stage else none

/-- A request for the passenger was turned down. -/
def TurnedDown (p : P) (trips : List (DriverTrip P)) : Prop := ⟨some p, .rejectedTrip⟩ ∈ trips.tail

/-- An occupied trip that is over, or was turned down. -/
def Settled (trip : DriverTrip P) : Prop :=
  trip.passenger ≠ none → trip.state.final = true ∨ trip.state = .rejectedTrip

/-- The events of a trip, for its passenger. -/
def notices (trip : DriverTrip P) (events : List DriverEvent) : List (P × ToPassenger) :=
  match trip.passenger with
  | some p => events.map fun e ↦ (p, .workflowEvent e)
  | none => []

variable {p : P}

theorem inHand_of_passenger [DecidableEq P] (h : trip.passenger = some p) :
    inHand p (trip :: earlier) = trip.state.stage := if_pos h

theorem inHand_of_ne [DecidableEq P] (h : trip.passenger ≠ some p) :
    inHand p (trip :: earlier) = none :=
  if_neg h

theorem inHand_update [DecidableEq P] (p : P) (s : DriverState) :
    inHand p ({ trip with state := s } :: earlier) =
      if trip.passenger = some p then s.stage else none := rfl

theorem addressed_notices [DecidableEq P] (h : trip.passenger = some p) (events : List DriverEvent)
    : addressed p (trip.notices events) = events.map .workflowEvent := by
  rw [notices, h]
  dsimp only
  induction events with
  | nil => rfl
  | cons e events ih => rw [List.map_cons, addressed_cons_self, ih, List.map_cons]

theorem addressed_notices_of_ne [DecidableEq P] (h : trip.passenger ≠ some p)
    (events : List DriverEvent) : addressed p (trip.notices events) = [] := by
  unfold notices
  split
  · next q hq =>
    have hne : q ≠ p := by
      rintro rfl
      exact h hq
    induction events with
    | nil => rfl
    | cons e events ih => rw [List.map_cons, addressed_cons_of_ne hne, ih]
  · rfl

/-! ## Transitions -/

variable {t : DriverTransition}

theorem applyTransitionAndNotify_silent (nullPassenger : Bool) (h : t.event = none) :
    applyTransitionAndNotify nullPassenger t (trip :: earlier) =
      ⟨{ trip with state := (t.next trip.state).getD trip.state } :: earlier, [], false⟩ := by
  rw [applyTransitionAndNotify, h]
  cases t.next trip.state with
  | none => rfl
  | some s => rfl

theorem applyTransitionAndNotify_state (h : trip.state ∈ t.sources) :
    (applyTransitionAndNotify nullPassenger t (trip :: earlier)).state =
      { trip with state := t.target } :: earlier := by
  rw [applyTransitionAndNotify, DriverTransition.next, if_pos h]
  dsimp only
  split <;> rfl

theorem applyTransitionAndNotify_sent (h : trip.state ∈ t.sources) :
    (applyTransitionAndNotify nullPassenger t (trip :: earlier)).sent =
      trip.notices t.event.toList := by
  rw [applyTransitionAndNotify, DriverTransition.next, if_pos h, notices]
  cases t.event with
  | none => cases trip.passenger <;> rfl
  | some e => cases trip.passenger <;> rfl

/-! ## The handlers -/

theorem handleRequestedTrip_eq (nullPassenger : Bool) (h : trip.passenger = none) (p : P) :
    handleRequestedTrip nullPassenger p (trip :: earlier) =
      ⟨{ passenger := some p, state := .receivedTrip } ::
        { trip with state := (DriverTransition.endTrip.next trip.state).getD trip.state } ::
          earlier, [(p, .assigned)], false⟩ := by
  rw [handleRequestedTrip, if_pos h, endActiveTrip, if_pos h,
    applyTransitionAndNotify_silent nullPassenger rfl]
  rfl

theorem onPassengerEvent_eq (nullPassenger : Bool) (e : PassengerEvent) :
    onPassengerEvent nullPassenger e (trip :: earlier) =
      ⟨{ trip with state := e.heard trip.state } :: earlier, [], decide (e = .rejectedTrip)⟩ := by
  cases e with
  | rejectedTrip => rfl
  | confirmedTrip => exact applyTransitionAndNotify_silent nullPassenger rfl
  | cancelTrip => exact applyTransitionAndNotify_silent nullPassenger rfl
  | acknowledgePickup => exact applyTransitionAndNotify_silent nullPassenger rfl
  | acknowledgeDropoff => exact applyTransitionAndNotify_silent nullPassenger rfl

/-- **What a message does**: it is ignored, or its event is heard. -/
theorem onMessage_cases [DecidableEq P] (nullPassenger : Bool) (q : P)
    (e : PassengerEvent) (trip : DriverTrip P) (earlier : List (DriverTrip P)) :
    ((trip.passenger ≠ some q ∨ trip.state.isPassengerChannelOpen = false) ∧
      onMessage nullPassenger (q, e) (trip :: earlier) =
        ⟨trip :: earlier, [], trip.passenger.isNone && !nullPassenger⟩) ∨
    (trip.passenger = some q ∧ trip.state.isPassengerChannelOpen = true ∧
      onMessage nullPassenger (q, e) (trip :: earlier) =
        ⟨{ trip with state := e.heard trip.state } :: earlier, [],
          decide (e = .rejectedTrip)⟩) := by
  cases hp : trip.passenger with
  | none =>
    refine .inl ⟨.inl (by simp), ?_⟩
    simp [onMessage, hp]
  | some p =>
    by_cases h : trip.state.isPassengerChannelOpen = true ∧ p = q
    · refine .inr ⟨by rw [h.2], h.1, ?_⟩
      rw [onMessage, hp]
      dsimp only
      rw [if_pos h, onPassengerEvent_eq, hp]
    · refine .inl ⟨?_, ?_⟩
      · by_contra hno
        push Not at hno
        exact h ⟨by simpa using hno.2, Option.some.inj hno.1⟩
      · rw [onMessage, hp]
        dsimp only
        rw [if_neg h]
        rfl

/-- The transitions a driver makes by itself on the trip in hand. -/
def goesOn : List DriverTransition := [.confirm, .waitToPickup, .moveToDropoff, .waitToDropoff]

/-- **What an action does**: nothing, a transition of the trip in hand, or the end of it. -/
theorem actIn_cases (nullPassenger : Bool) (c : DriverChoices) (s : DriverState)
    (trip : DriverTrip P) (earlier : List (DriverTrip P)) :
    actIn nullPassenger c s (trip :: earlier) = ⟨trip :: earlier, [], false⟩ ∨
    (∃ t ∈ goesOn, trip.state ∈ t.sources ∧ actIn nullPassenger c s (trip :: earlier) =
      applyTransitionAndNotify nullPassenger t (trip :: earlier)) ∨
    (∃ t : DriverTransition, (t = .endTrip ∨ t = .reject) ∧ trip.state ∈ t.sources ∧
      actIn nullPassenger c s (trip :: earlier) =
        ⟨{ state := .lookingForJob } :: { trip with state := t.target } :: earlier, [],
          false⟩) := by
  have hends : ∀ t : DriverTransition, t.event = none → trip.state ∈ t.sources →
      (applyTransitionAndNotify nullPassenger t (trip :: earlier)).andThen
        createNewUnoccupiedTrip =
      ⟨{ state := .lookingForJob } :: { trip with state := t.target } :: earlier, [], false⟩ := by
    intro t ht hs
    rw [applyTransitionAndNotify_silent nullPassenger ht, DriverTransition.next, if_pos hs]
    rfl
  rw [actIn]
  split
  · next hs =>
    unfold onState
    split
    · next hs =>
      split
      · exact .inr (.inr ⟨.endTrip, .inl rfl, by rw [hs]; decide, hends _ rfl (by rw [hs]; decide)⟩)
      · exact .inl rfl
    · next hs =>
      split
      · exact .inr (.inl ⟨.confirm, by decide, by rw [hs]; decide, rfl⟩)
      · exact .inr (.inr ⟨.reject, .inr rfl, by rw [hs]; decide, hends _ rfl (by rw [hs]; decide)⟩)
    · next hs =>
      split
      · exact .inr (.inl ⟨.waitToPickup, by decide, by rw [hs]; decide, rfl⟩)
      · exact .inl rfl
    · next hs =>
      split
      · exact .inr (.inl ⟨.moveToDropoff, by decide, by rw [hs]; decide, rfl⟩)
      · exact .inl rfl
    · next hs =>
      split
      · exact .inr (.inl ⟨.waitToDropoff, by decide, by rw [hs]; decide, rfl⟩)
      · exact .inl rfl
    · next hs =>
      split
      · exact .inr (.inr ⟨.endTrip, .inl rfl, by rw [hs]; decide, hends _ rfl (by rw [hs]; decide)⟩)
      · exact .inl rfl
    · exact .inl rfl
  · exact .inl rfl

/-! ## Links -/

/-- What a driver does with its trips keeps every link of it. -/
def KeepsLinks [DecidableEq P] (trips : List (DriverTrip P)) (out : List (P × ToPassenger))
    (trips' : List (DriverTrip P)) : Prop :=
  ∀ (p : P) (named refused : Prop) (M : List ToPassenger) (N : List PassengerEvent)
    (st : PassengerState),
    Linked named (TurnedDown p trips) refused (inHand p trips) M N st →
      Linked named (TurnedDown p trips') refused (inHand p trips') (M ++ addressed p out) N st

/-- The same of what it does with its inbox. -/
def KeepsInboxLinks [DecidableEq P] (s : List (P × PassengerEvent) × List (DriverTrip P))
    (out : List (P × ToPassenger)) (s' : List (P × PassengerEvent) × List (DriverTrip P)) : Prop :=
  ∀ (p : P) (named refused : Prop) (M : List ToPassenger) (N : List PassengerEvent)
    (st : PassengerState),
    Linked named (TurnedDown p s.2) refused (inHand p s.2) M (work (addressed p s.1 ++ N)) st →
      Linked named (TurnedDown p s'.2) refused (inHand p s'.2) (M ++ addressed p out)
        (work (addressed p s'.1 ++ N)) st

section Links

variable [DecidableEq P]

theorem closed_keepsLinks : Closed (@KeepsLinks P _) where
  refl trips p named refused M N st h := by simpa using h
  trans h h' p named refused M N st hl := by
    rw [addressed_append, ← List.append_assoc]
    exact h' p named refused _ N st (h p named refused M N st hl)

theorem closed_keepsInboxLinks : Closed (@KeepsInboxLinks P _) where
  refl s p named refused M N st h := by simpa using h
  trans h h' p named refused M N st hl := by
    rw [addressed_append, ← List.append_assoc]
    exact h' p named refused _ N st (h p named refused M N st hl)

variable {s : DriverState}

/-- A transition the driver makes by itself, seen from its passenger. -/
theorem linked_goesOn {named turned refused : Prop} {M : List ToPassenger} {N : List PassengerEvent}
    {st : PassengerState} {t : DriverTransition} (ht : t ∈ goesOn) (hs : s ∈ t.sources)
    (h : Linked named turned refused s.stage M N st) :
    Linked named turned refused t.target.stage (M ++ t.event.toList.map .workflowEvent) N st := by
  simp only [goesOn, List.mem_cons, List.not_mem_nil, or_false] at ht
  obtain rfl | rfl | rfl | rfl := ht
  · obtain rfl := List.mem_singleton.mp hs
    exact h.confirm
  · obtain rfl := List.mem_singleton.mp hs
    exact h.goOn rfl rfl (by decide)
  · obtain rfl := List.mem_singleton.mp hs
    exact h.goOn rfl rfl (by decide)
  · obtain rfl := List.mem_singleton.mp hs
    exact h.goOn rfl rfl (by decide)

/-- The end the driver puts to a trip, seen from its passenger. -/
theorem linked_ends {named turned refused : Prop} {M : List ToPassenger} {N : List PassengerEvent}
    {st : PassengerState} {t : DriverTransition} (ht : t = .endTrip ∨ t = .reject)
    (hs : s ∈ t.sources) (h : Linked named turned refused s.stage M N st) :
    Linked named (turned ∨ t.target = .rejectedTrip) refused none M N st := by
  obtain rfl | rfl := ht
  · refine Linked.mono ?_ Or.inl id
    unfold DriverState.stage at h
    split at h
    · exact h
    · exact h.endTrip hs
  · obtain rfl := List.mem_singleton.mp hs
    exact h.turnDown.mono (fun _ ↦ .inr rfl) id

/-- A trip in hand that changes its state. -/
theorem keepsLinks_update {trip : DriverTrip P} {events : List DriverEvent}
    (h : ∀ (named turned refused : Prop) (M : List ToPassenger) (N : List PassengerEvent)
      (st : PassengerState), Linked named turned refused trip.state.stage M N st →
      Linked named turned refused s.stage (M ++ events.map .workflowEvent) N st)
    (earlier : List (DriverTrip P)) :
    KeepsLinks (trip :: earlier) (trip.notices events) ({ trip with state := s } :: earlier) := by
  intro p named refused M N st hl
  by_cases hp : trip.passenger = some p
  · rw [inHand_of_passenger hp] at hl
    rw [inHand_update, if_pos hp, addressed_notices hp]
    exact h _ _ _ _ _ _ hl
  · rw [inHand_of_ne hp] at hl
    rw [inHand_update, if_neg hp, addressed_notices_of_ne hp, List.append_nil]
    exact hl

/-- **An action of the driver** keeps its links. -/
theorem keepsLinks_actIn (c : DriverChoices) (s : DriverState) (trips : List (DriverTrip P)) :
    KeepsLinks trips (actIn nullPassenger c s trips).sent
      (actIn nullPassenger c s trips).state := by
  cases trips with
  | nil => exact closed_keepsLinks.refl []
  | cons trip earlier =>
    obtain h | ⟨t, ht, hs, h⟩ | ⟨t, ht, hs, h⟩ := actIn_cases nullPassenger c s trip earlier
    · rw [h]
      exact closed_keepsLinks.refl _
    · rw [h, applyTransitionAndNotify_state hs, applyTransitionAndNotify_sent hs]
      exact keepsLinks_update (fun _ _ _ _ _ _ ↦ linked_goesOn ht hs) earlier
    · rw [h]
      intro p named refused M N st hl
      rw [inHand_of_ne (by simp), addressed_nil, List.append_nil]
      by_cases hp : trip.passenger = some p
      · rw [inHand_of_passenger hp] at hl
        refine (linked_ends ht hs hl).mono (fun hturned ↦ ?_) id
        rcases hturned with hturned | htarget
        · exact List.mem_cons_of_mem _ hturned
        · exact List.mem_cons.mpr (.inl (by rw [hp, htarget]))
      · rw [inHand_of_ne hp] at hl
        exact hl.mono (List.mem_cons_of_mem _) id

/-- **A message** keeps the links. -/
theorem keepsInboxLinks_onMessage (msg : P × PassengerEvent) (inbox : List (P × PassengerEvent))
    (trips : List (DriverTrip P)) :
    KeepsInboxLinks (msg :: inbox, trips) (onMessage nullPassenger msg trips).sent
      (inbox, (onMessage nullPassenger msg trips).state) := by
  obtain ⟨q, e⟩ := msg
  intro p named refused M N st hl
  cases trips with
  | nil =>
    have hsent : (onMessage nullPassenger (q, e) ([] : List (DriverTrip P))).sent = [] := rfl
    have hstate : (onMessage nullPassenger (q, e) ([] : List (DriverTrip P))).state = [] := rfl
    rw [hsent, hstate, addressed_nil, List.append_nil]
    by_cases hq : q = p
    · subst hq
      rw [addressed_cons_self] at hl
      exact Linked.unheard hl fun s hs ↦ by cases hs
    · rwa [addressed_cons_of_ne hq] at hl
  | cons trip earlier =>
    obtain ⟨hno, h⟩ | ⟨hq, hopen, h⟩ := onMessage_cases nullPassenger q e trip earlier
    · rw [h, addressed_nil, List.append_nil]
      by_cases hqp : q = p
      · subst hqp
        rw [addressed_cons_self] at hl
        refine Linked.unheard hl fun s hs ↦ ?_
        by_cases hp : trip.passenger = some q
        · rw [inHand_of_passenger hp] at hs
          obtain rfl := DriverState.mem_stage hs
          exact hno.resolve_left fun h ↦ h hp
        · rw [inHand_of_ne hp] at hs
          cases hs
      · rwa [addressed_cons_of_ne hqp] at hl
    · rw [h, addressed_nil, List.append_nil]
      rw [inHand_update]
      by_cases hqp : q = p
      · subst hqp
        rw [addressed_cons_self, inHand_of_passenger hq] at hl
        rw [if_pos hq]
        exact Linked.hears hl
      · have hp : trip.passenger ≠ some p := by
          rw [hq]
          exact fun h ↦ hqp (Option.some.inj h)
        rw [addressed_cons_of_ne hqp, inHand_of_ne hp] at hl
        rw [if_neg hp]
        exact hl

theorem keepsLinks_handleRequestedTrip (q : P) (trips : List (DriverTrip P)) :
    KeepsLinks trips (handleRequestedTrip nullPassenger q trips).sent
      (handleRequestedTrip nullPassenger q trips).state := by
  cases trips with
  | nil => exact closed_keepsLinks.refl []
  | cons trip earlier =>
    by_cases hnone : trip.passenger = none
    · rw [handleRequestedTrip_eq nullPassenger hnone]
      intro p named refused M N st hl
      rw [inHand_of_ne (by simp [hnone])] at hl
      have hl := hl.mono (List.mem_cons_of_mem
        { trip with state := (DriverTransition.endTrip.next trip.state).getD trip.state }) id
      by_cases hqp : q = p
      · subst hqp
        rw [inHand_of_passenger rfl, addressed_cons_self]
        exact hl.recieve
      · rw [inHand_of_ne fun h ↦ hqp (Option.some.inj h), addressed_cons_of_ne hqp, addressed_nil,
          List.append_nil]
        exact hl
    · rw [handleRequestedTrip, if_neg hnone]
      exact closed_keepsLinks.refl _

end Links

/-! ## Earlier trips -/

/-- The number of occupied trips of a driver. -/
def occupied (trips : List (DriverTrip P)) : ℕ := trips.countP fun t ↦ t.passenger.isSome

/-- The earlier trips stay settled, and no occupied trip is started. -/
def Tidy (trips : List (DriverTrip P)) (_ : List (P × ToPassenger))
    (trips' : List (DriverTrip P)) : Prop :=
  ((∀ t ∈ trips.tail, t.Settled) → ∀ t ∈ trips'.tail, t.Settled) ∧ occupied trips' = occupied trips

theorem closed_tidy : Closed (@Tidy P) where
  refl _ := ⟨id, rfl⟩
  trans h h' := ⟨h'.1 ∘ h.1, h'.2.trans h.2⟩

theorem tidy_update (s : DriverState) (out : List (P × ToPassenger)) :
    Tidy (trip :: earlier) out ({ trip with state := s } :: earlier) :=
  ⟨id, rfl⟩

/-- An action of the driver starts no occupied trip. -/
theorem tidy_actIn (c : DriverChoices) (s : DriverState) (trips : List (DriverTrip P)) :
    Tidy trips (actIn nullPassenger c s trips).sent (actIn nullPassenger c s trips).state := by
  cases trips with
  | nil => exact closed_tidy.refl []
  | cons trip earlier =>
    obtain h | ⟨t, ht, hs, h⟩ | ⟨t, ht, hs, h⟩ := actIn_cases nullPassenger c s trip earlier
    · rw [h]
      exact closed_tidy.refl _
    · rw [h, applyTransitionAndNotify_state hs]
      exact tidy_update _ _
    · rw [h]
      refine ⟨fun hsettled t' ht' ↦ ?_, rfl⟩
      rcases List.mem_cons.mp ht' with rfl | ht'
      · intro
        obtain rfl | rfl := ht
        · exact .inl rfl
        · exact .inr rfl
      · exact hsettled t' ht'

/-- A message starts no occupied trip. -/
theorem tidy_onMessage [DecidableEq P] (msg : P × PassengerEvent) (trips : List (DriverTrip P)) :
    Tidy trips (onMessage nullPassenger msg trips).sent
      (onMessage nullPassenger msg trips).state := by
  cases trips with
  | nil => exact closed_tidy.refl []
  | cons trip earlier =>
    obtain ⟨-, h⟩ | ⟨-, -, h⟩ := onMessage_cases nullPassenger msg.1 msg.2 trip earlier
    · rw [h]
      exact closed_tidy.refl _
    · rw [h]
      exact tidy_update _ _

/-- A request keeps the earlier trips settled. -/
theorem settled_handleRequestedTrip {trips : List (DriverTrip P)} (h : ∀ t ∈ trips.tail, t.Settled)
    : ∀ t ∈ (handleRequestedTrip nullPassenger p trips).state.tail, t.Settled := by
  cases trips with
  | nil => exact h
  | cons trip earlier =>
    by_cases hnone : trip.passenger = none
    · rw [handleRequestedTrip_eq nullPassenger hnone]
      exact List.forall_mem_cons.mpr ⟨fun hsome ↦ absurd hnone hsome, h⟩
    · rw [handleRequestedTrip, if_neg hnone]
      exact h

/-- A driver on an occupied trip ignores a request. -/
theorem handleRequestedTrip_of_occupied (h : trip.passenger ≠ none) :
    handleRequestedTrip nullPassenger p (trip :: earlier) = ⟨trip :: earlier, [], false⟩ := by
  rw [handleRequestedTrip, if_neg h]

/-- Who logs out leaves no trip open. -/
theorem settled_endActiveTrip (nullPassenger : Bool) {trips : List (DriverTrip P)}
    (h : ∀ t ∈ trips.tail, t.Settled) :
    ∀ t ∈ (endActiveTrip nullPassenger true trips).state, t.Settled := by
  cases trips with
  | nil => exact nofun
  | cons trip earlier =>
    rw [endActiveTrip]
    split
    · next hnone =>
      rw [applyTransitionAndNotify_silent nullPassenger rfl]
      exact List.forall_mem_cons.mpr ⟨fun hsome ↦ absurd hnone hsome, h⟩
    · rw [if_pos rfl, applyTransitionAndNotify_silent nullPassenger rfl]
      exact List.forall_mem_cons.mpr ⟨fun _ ↦ .inl (DriverState.final_of_forceQuit trip.state), h⟩

/-! ## Passengers -/

/-- A driver hears of, and writes to, none but the passengers it has trips for. -/
def Among (L : P → Prop) (trips : List (DriverTrip P)) (out : List (P × ToPassenger))
    (trips' : List (DriverTrip P)) : Prop :=
  (∀ t ∈ trips, ∀ p ∈ t.passenger, L p) →
    (∀ t ∈ trips', ∀ p ∈ t.passenger, L p) ∧ ∀ msg ∈ out, L msg.1

theorem closed_among (L : P → Prop) : Closed (Among L) where
  refl _ h := ⟨h, nofun⟩
  trans h h' hL := by
    obtain ⟨hL', hout⟩ := h hL
    obtain ⟨hL'', hout'⟩ := h' hL'
    exact ⟨hL'', fun msg hmsg ↦ (List.mem_append.mp hmsg).elim (hout msg) (hout' msg)⟩

theorem passenger_of_mem_notices {events : List DriverEvent} {msg : P × ToPassenger}
    (h : msg ∈ trip.notices events) : trip.passenger = some msg.1 := by
  unfold notices at h
  split at h
  · next p hp =>
    obtain ⟨e, -, rfl⟩ := List.mem_map.mp h
    exact hp
  · cases h

theorem among_update (L : P → Prop) (s : DriverState) (events : List DriverEvent) :
    Among L (trip :: earlier) (trip.notices events) ({ trip with state := s } :: earlier) := by
  intro hL
  refine ⟨fun t ht ↦ ?_, fun msg hmsg ↦ ?_⟩
  · rcases List.mem_cons.mp ht with rfl | ht
    · exact hL trip List.mem_cons_self
    · exact hL t (List.mem_cons_of_mem _ ht)
  · exact hL trip List.mem_cons_self _ (passenger_of_mem_notices hmsg)

theorem among_actIn (L : P → Prop) (c : DriverChoices) (s : DriverState)
    (trips : List (DriverTrip P)) :
    Among L trips (actIn nullPassenger c s trips).sent
      (actIn nullPassenger c s trips).state := by
  cases trips with
  | nil => exact (closed_among L).refl []
  | cons trip earlier =>
    obtain h | ⟨t, ht, hs, h⟩ | ⟨t, ht, hs, h⟩ := actIn_cases nullPassenger c s trip earlier
    · rw [h]
      exact (closed_among L).refl _
    · rw [h, applyTransitionAndNotify_state hs, applyTransitionAndNotify_sent hs]
      exact among_update L _ _
    · rw [h]
      intro hL
      refine ⟨fun t' ht' ↦ ?_, nofun⟩
      rcases List.mem_cons.mp ht' with rfl | ht'
      · exact fun p hp ↦ by cases hp
      · exact (among_update L _ [] hL).1 t' ht'

theorem among_onMessage [DecidableEq P] (L : P → Prop) (msg : P × PassengerEvent)
    (trips : List (DriverTrip P)) :
    Among L trips (onMessage nullPassenger msg trips).sent
      (onMessage nullPassenger msg trips).state := by
  cases trips with
  | nil => exact (closed_among L).refl []
  | cons trip earlier =>
    obtain ⟨-, h⟩ | ⟨-, -, h⟩ := onMessage_cases nullPassenger msg.1 msg.2 trip earlier
    · rw [h]
      exact (closed_among L).refl _
    · rw [h]
      exact fun hL ↦ ⟨(among_update L _ [] hL).1, nofun⟩

theorem among_handleRequestedTrip {L : P → Prop} (hp : L p) (trips : List (DriverTrip P)) :
    Among L trips (handleRequestedTrip nullPassenger p trips).sent
      (handleRequestedTrip nullPassenger p trips).state := by
  cases trips with
  | nil => exact (closed_among L).refl []
  | cons trip earlier =>
    by_cases hnone : trip.passenger = none
    · rw [handleRequestedTrip_eq nullPassenger hnone]
      intro hL
      refine ⟨fun t ht ↦ ?_, fun msg hmsg ↦ ?_⟩
      · rcases List.mem_cons.mp ht with rfl | ht
        · exact fun q hq ↦ Option.some.inj hq ▸ hp
        · exact (among_update L _ [] hL).1 t ht
      · obtain rfl := List.mem_singleton.mp hmsg
        exact hp
    · rw [handleRequestedTrip, if_neg hnone]
      exact (closed_among L).refl _

theorem among_endActiveTrip (L : P → Prop) (trips : List (DriverTrip P)) :
    Among L trips (endActiveTrip nullPassenger true trips).sent
      (endActiveTrip nullPassenger true trips).state := by
  have hnone : ∀ trip : DriverTrip P, trip.notices [] = [] := by
    intro trip
    unfold notices
    split <;> rfl
  cases trips with
  | nil => exact (closed_among L).refl []
  | cons trip earlier =>
    rw [endActiveTrip]
    split
    · rw [applyTransitionAndNotify_silent nullPassenger rfl]
      exact hnone trip ▸ among_update L _ []
    · rw [if_pos rfl, applyTransitionAndNotify_silent nullPassenger rfl]
      exact hnone trip ▸ among_update L _ []

end DriverTrip

/-! ## A step -/

namespace DriverApp

open DriverTrip

variable [DecidableEq P]

/-- **A step of a driver** keeps its links. -/
theorem keepsInboxLinks_executeStepActions (c : DriverChoices) (a : DriverApp P) :
    KeepsInboxLinks (a.inbox, a.trips) (a.executeStepActions nullPassenger c).sent
      ((a.executeStepActions nullPassenger c).state.inbox,
        (a.executeStepActions nullPassenger c).state.trips) := by
  refine closed_keepsInboxLinks.andThen
    (closed_keepsInboxLinks.drain keepsInboxLinks_onMessage a.inbox a.trips) ?_
  intro p named refused M N st hl
  exact closed_keepsLinks.inOrder (keepsLinks_actIn c) stateSequence _ p named refused M _ st hl

/-- **A step of a driver** starts no occupied trip. -/
theorem tidy_executeStepActions (c : DriverChoices) (a : DriverApp P) :
    Tidy a.trips (a.executeStepActions nullPassenger c).sent
      (a.executeStepActions nullPassenger c).state.trips := by
  have hR := closed_tidy.comap fun s : List (P × PassengerEvent) × List (DriverTrip P) ↦ s.2
  exact hR.andThen (hR.drain (fun msg _ ↦ tidy_onMessage msg) a.inbox a.trips)
    (closed_tidy.inOrder (tidy_actIn c) stateSequence _)

theorem among_executeStepActions (L : P → Prop) (c : DriverChoices) (a : DriverApp P) :
    Among L a.trips (a.executeStepActions nullPassenger c).sent
      (a.executeStepActions nullPassenger c).state.trips := by
  have hR := (closed_among L).comap fun s : List (P × PassengerEvent) × List (DriverTrip P) ↦ s.2
  exact hR.andThen (hR.drain (fun msg _ ↦ among_onMessage L msg) a.inbox a.trips)
    ((closed_among L).inOrder (among_actIn L c) stateSequence _)

end DriverApp

end OpenRide.RideHail
