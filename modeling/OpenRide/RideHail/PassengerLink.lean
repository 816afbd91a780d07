import OpenRide.RideHail.Link

/-!
# What a passenger does, and its links

A passenger has a link to every driver.  To the driver its trip names, what the passenger does is a
row further in the table of the ride; to all others it is nothing, unless the trip is assigned anew.
So a step of a passenger keeps its links (`keepsInboxLinks_executeStepActions`), and so does an
`ASSIGNED` that arrives (`linked_handleAssigned`).
-/

namespace OpenRide.RideHail

open Lib

variable {D : Type}

/-- What is over stays over. -/
theorem PassengerState.isOver_next {st : PassengerState} (h : st.isOver = true)
    (t : PassengerTransition) : ((t.next st).getD st).isOver = true := by
  cases st <;> simp [isOver] at h <;> cases t <;> rfl

namespace PassengerTrip

variable {trip : PassengerTrip D}

/-- The events of a trip, for its driver. -/
def notices (trip : PassengerTrip D) (events : List PassengerEvent) : List (D × PassengerEvent) :=
  match trip.driver with
  | some d => events.map fun e ↦ (d, e)
  | none => []

theorem applyTransitionAndNotify_state (t : PassengerTransition) :
    (applyTransitionAndNotify t trip).state =
      { trip with state := (t.next trip.state).getD trip.state } := by
  unfold applyTransitionAndNotify
  cases t.next trip.state with
  | none => rfl
  | some s =>
    dsimp only
    split <;> rfl

theorem applyTransitionAndNotify_sent (t : PassengerTransition) :
    (applyTransitionAndNotify t trip).sent = trip.notices (t.sends trip.state) := by
  unfold applyTransitionAndNotify notices PassengerTransition.sends PassengerTransition.next
  by_cases h : trip.state ∈ t.sources
  · rw [if_pos h, if_pos h]
    cases t.event with
    | none => cases trip.driver <;> rfl
    | some e => cases trip.driver <;> rfl
  · rw [if_neg h, if_neg h]
    cases trip.driver <;> rfl

/-- Only without a driver does an event raise. -/
theorem applyTransitionAndNotify_raised {d : D} (h : trip.driver = some d)
    (t : PassengerTransition) : (applyTransitionAndNotify t trip).raised = false := by
  unfold applyTransitionAndNotify
  rw [h]
  cases t.next trip.state with
  | none => rfl
  | some s => cases t.event <;> rfl

section Links

variable [DecidableEq D]

theorem addressed_notices {d : D} (h : trip.driver = some d) (events : List PassengerEvent) :
    addressed d (trip.notices events) = events := by
  rw [notices, h]
  dsimp only
  induction events with
  | nil => rfl
  | cons e events ih => rw [List.map_cons, addressed_cons_self, ih]

theorem addressed_notices_of_ne {d : D} (h : trip.driver ≠ some d)
    (events : List PassengerEvent) : addressed d (trip.notices events) = [] := by
  unfold notices
  split
  · next d' hd' =>
    have hne : d' ≠ d := by
      rintro rfl
      exact h hd'
    induction events with
    | nil => rfl
    | cons e events ih => rw [List.map_cons, addressed_cons_of_ne hne, ih]
  · rfl

/-- What a passenger does with its trip keeps every link of it. -/
def KeepsLinks (trip : PassengerTrip D) (out : List (D × PassengerEvent))
    (trip' : PassengerTrip D) : Prop :=
  ∀ (d : D) (turned refused : Prop) (x : Option DriverState) (M : List ToPassenger)
    (N : List PassengerEvent), Linked (trip.driver = some d) turned refused x M N trip.state →
      Linked (trip'.driver = some d) turned (refused ∨ .rejectedTrip ∈ addressed d out) x M
        (N ++ work (addressed d out)) trip'.state

/-- The same of what it does with its inbox. -/
def KeepsInboxLinks (s : List (D × DriverEvent) × PassengerTrip D)
    (out : List (D × PassengerEvent)) (s' : List (D × DriverEvent) × PassengerTrip D) : Prop :=
  ∀ (d : D) (turned refused : Prop) (x : Option DriverState) (M : List ToPassenger)
    (N : List PassengerEvent),
    Linked (s.2.driver = some d) turned refused x ((addressed d s.1).map .workflowEvent ++ M) N
        s.2.state →
      Linked (s'.2.driver = some d) turned (refused ∨ .rejectedTrip ∈ addressed d out) x
        ((addressed d s'.1).map .workflowEvent ++ M) (N ++ work (addressed d out)) s'.2.state

theorem closed_keepsLinks : Closed (@KeepsLinks D _) where
  refl trip d turned refused x M N h := by simpa using h
  trans h h' d turned refused x M N hl := by
    rw [addressed_append, work_append, ← List.append_assoc, List.mem_append, ← or_assoc]
    exact h' d turned _ x M _ (h d turned refused x M N hl)

theorem closed_keepsInboxLinks : Closed (@KeepsInboxLinks D _) where
  refl s d turned refused x M N h := by simpa using h
  trans h h' d turned refused x M N hl := by
    rw [addressed_append, work_append, ← List.append_assoc, List.mem_append, ← or_assoc]
    exact h' d turned _ x M _ (h d turned refused x M N hl)

/-- A transition, from what it is to the driver the trip names. -/
theorem keepsLinks_transition {t : PassengerTransition}
    (h : ∀ (named turned refused : Prop) (x : Option DriverState) (M : List ToPassenger)
      (N : List PassengerEvent), named → Linked named turned refused x M N trip.state →
        Linked named turned (refused ∨ .rejectedTrip ∈ t.sends trip.state) x M
          (N ++ work (t.sends trip.state)) ((t.next trip.state).getD trip.state)) :
    KeepsLinks trip (applyTransitionAndNotify t trip).sent
      (applyTransitionAndNotify t trip).state := by
  intro d turned refused x M N hl
  rw [applyTransitionAndNotify_state, applyTransitionAndNotify_sent]
  by_cases hd : trip.driver = some d
  · rw [addressed_notices hd]
    exact h _ turned refused x M N hd hl
  · rw [addressed_notices_of_ne hd, work_nil, List.append_nil]
    exact (hl.elsewhere hd fun hover ↦ PassengerState.isOver_next hover t).mono id Or.inl

/-- **An action of the passenger** keeps its links. -/
theorem keepsLinks_actIn (c : PassengerChoices) (s : PassengerState) (trip : PassengerTrip D) :
    KeepsLinks trip (actIn c s trip).sent (actIn c s trip).state := by
  have hact : ∀ t ∈ trip.state.acts, KeepsLinks trip (applyTransitionAndNotify t trip).sent
      (applyTransitionAndNotify t trip).state :=
    fun t ht ↦ keepsLinks_transition fun _ _ _ _ _ _ hnamed hl ↦ hl.acts hnamed ht
  unfold actIn
  split
  · next hs =>
    unfold onState
    split
    · next hs =>
      refine hact _ ?_
      rw [hs]
      split <;> decide
    · next hs => exact hact _ (by rw [hs]; decide)
    · next hs => exact hact _ (by rw [hs]; decide)
    · exact closed_keepsLinks.refl trip
  · exact closed_keepsLinks.refl trip

/-- A passenger without patience keeps its links. -/
theorem keepsLinks_checkPatience (c : PassengerChoices) (trip : PassengerTrip D) :
    KeepsLinks trip (checkPatience c trip).sent (checkPatience c trip).state := by
  unfold checkPatience
  split
  · next h =>
    exact keepsLinks_transition fun _ _ _ _ _ _ hnamed hl ↦ hl.acts hnamed (by rw [h.1]; decide)
  · exact closed_keepsLinks.refl trip

/-- **A message** keeps the links. -/
theorem keepsInboxLinks_onMessage (msg : D × DriverEvent) (inbox : List (D × DriverEvent))
    (trip : PassengerTrip D) :
    KeepsInboxLinks (msg :: inbox, trip) (onMessage msg trip).sent
      (inbox, (onMessage msg trip).state) := by
  obtain ⟨d', e⟩ := msg
  intro d turned refused x M N hl
  unfold onMessage
  split
  · next h =>
    rw [applyTransitionAndNotify_state, applyTransitionAndNotify_sent]
    by_cases hd : d' = d
    · subst hd
      rw [addressed_cons_self] at hl
      rw [addressed_notices h.2]
      exact (hl.answers h.2 h.1).mono id Or.inl
    · have hnamed : trip.driver ≠ some d := by
        rw [h.2]
        exact fun heq ↦ hd (Option.some.inj heq)
      rw [addressed_cons_of_ne hd] at hl
      rw [addressed_notices_of_ne hnamed, work_nil, List.append_nil]
      exact (hl.elsewhere hnamed fun hover ↦ PassengerState.isOver_next hover _).mono id Or.inl
  · next h =>
    rw [addressed_nil, work_nil, List.append_nil]
    by_cases hd : d' = d
    · subst hd
      rw [addressed_cons_self] at hl
      exact (hl.unanswered fun hnamed ↦ Bool.eq_false_iff.mpr fun hopen ↦ h ⟨hopen, hnamed⟩).mono
        id Or.inl
    · rw [addressed_cons_of_ne hd] at hl
      exact hl.mono id Or.inl

theorem onMessage_raised (msg : D × DriverEvent) (trip : PassengerTrip D) :
    (onMessage msg trip).raised = false := by
  unfold onMessage
  split
  · next h => exact applyTransitionAndNotify_raised h.2 _
  · rfl

/-- **An `ASSIGNED`** that arrives keeps the links. -/
theorem linked_handleAssigned {d d' : D} {turned refused : Prop} {x : Option DriverState}
    {events : List DriverEvent} {M : List ToPassenger} {N : List PassengerEvent}
    (h : Linked (trip.driver = some d') turned refused x
      (events.map .workflowEvent ++ if d' = d then .assigned :: M else M) N trip.state) :
    Linked ((handleAssigned d trip).state.driver = some d') turned
      (refused ∨ .rejectedTrip ∈ addressed d' (handleAssigned d trip).sent) x
      (events.map .workflowEvent ++ M) (N ++ work (addressed d' (handleAssigned d trip).sent))
      (handleAssigned d trip).state.state := by
  by_cases hst : trip.state = .requestedTrip
  · have hassign : handleAssigned d trip = ⟨⟨some d, .assignedTrip⟩, [], false⟩ := by
      rw [handleAssigned, if_pos hst, hst]
      rfl
    rw [hassign, addressed_nil, work_nil, List.append_nil]
    rw [hst] at h
    by_cases hd : d' = d
    · subst hd
      rw [if_pos rfl] at h
      obtain hover | rfl := h.assigned_first
      · cases hover
      · simpa using h.assign rfl
    · rw [if_neg hd] at h
      have hne : ¬d = d' := fun heq ↦ hd heq.symm
      simpa [hne] using h.assignElsewhere
  · have haway : handleAssigned d trip = ⟨trip, [(d, .rejectedTrip)], false⟩ := by
      rw [handleAssigned, if_neg hst]
      rfl
    rw [haway]
    by_cases hd : d' = d
    · subst hd
      rw [if_pos rfl] at h
      simpa [work_rejected] using h.turnAway
    · rw [if_neg hd] at h
      rw [addressed_cons_of_ne (Ne.symm hd), addressed_nil, work_nil, List.append_nil]
      exact h.mono id Or.inl

/-- A passenger that logs out keeps its links. -/
theorem keepsLinks_forceQuit (trip : PassengerTrip D) :
    KeepsLinks trip (endActiveTrip .forceQuit trip).sent
      (endActiveTrip .forceQuit trip).state := by
  refine keepsLinks_transition fun _ _ _ _ _ _ hnamed hl ↦ .ends hnamed ?_ hl.engaged
  cases trip.state <;> rfl

end Links

/-- An action leaves no trip dropped off. -/
theorem performWorkflowActions_ne_droppedoff (c : PassengerChoices) (trip : PassengerTrip D) :
    (performWorkflowActions c trip).state.state ≠ .droppedoff := by
  obtain ⟨driver, state⟩ := trip
  obtain ⟨outOfPatience, accepts⟩ := c
  cases driver <;> cases state <;> cases outOfPatience <;> cases accepts <;> intro h <;> cases h

end PassengerTrip

/-! ## A step -/

namespace PassengerApp

open PassengerTrip

variable [DecidableEq D]

/-- **A step of a passenger** keeps its links. -/
theorem keepsInboxLinks_executeStepActions {c : PassengerChoices} {b : PassengerApp D}
    {trip : PassengerTrip D} (h : b.trip = some trip) :
    ∃ trip', (b.executeStepActions c).state.trip = some trip' ∧ trip'.state ≠ .droppedoff ∧
      KeepsInboxLinks (b.inbox, trip) (b.executeStepActions c).sent
        ((b.executeStepActions c).state.inbox, trip') := by
  unfold executeStepActions
  rw [h]
  refine ⟨_, rfl, ?_, ?_⟩
  · rw [Handled.andThen_of_not_raised (Handled.drain_not_raised onMessage_raised _ _)]
    exact performWorkflowActions_ne_droppedoff c _
  · refine closed_keepsInboxLinks.andThen
      (closed_keepsInboxLinks.drain keepsInboxLinks_onMessage b.inbox trip) ?_
    intro d turned refused x M N hl
    exact (closed_keepsLinks.andThen (keepsLinks_checkPatience c _)
      (closed_keepsLinks.inOrder (keepsLinks_actIn c) stateSequence _)) d turned refused x _ N hl

theorem executeStepActions_exitedMarket (c : PassengerChoices) (b : PassengerApp D) :
    (b.executeStepActions c).state.exitedMarket = b.exitedMarket := by
  unfold executeStepActions
  cases b.trip <;> rfl

end PassengerApp

end OpenRide.RideHail
