import OpenRide.RideHail.Known

/-!
# Every driver is linked to every passenger

`Coupled` says of a state of the run that each driver in the market is linked to each passenger,
that a driver has no open trip but the one in hand, and that who has left has none.  Every event
keeps it (`coupled_step`), so it holds in every state of every run (`coupled_of_reachable`).
-/

namespace OpenRide.RideHail

open Lib DriverTrip

variable {D P : Type}

/-- The trip of a passenger, before it is requested as after. -/
def PassengerApp.current (b : PassengerApp D) : PassengerTrip D := b.trip.getD {}

variable [DecidableEq D] [DecidableEq P] {nullPassenger : Bool}

/-! ## The invariant -/

/-- The link of a driver and a passenger in a state of the run. -/
def World.LinkedAt (w : World D P) (d : D) (p : P) : Prop :=
  Linked ((w.passengers p).current.driver = some d) (TurnedDown p (w.drivers d).trips)
    (w.refused p d = true ∨ (w.passengers p).exitedMarket = true) (inHand p (w.drivers d).trips)
    ((addressed d (w.passengers p).inbox).map .workflowEvent ++ w.toPassenger d p)
    (work (addressed p (w.drivers d).inbox ++ w.toDriver p d)) (w.passengers p).current.state

/-- **What holds of every state of a run.** -/
structure Coupled (w : World D P) : Prop where
  /-- Drivers in the market are linked to all passengers. -/
  linked : ∀ d p, (w.drivers d).exitedMarket = false → w.LinkedAt d p
  /-- Only the trip in hand is open. -/
  settled : ∀ d, ∀ t ∈ (w.drivers d).trips.tail, t.Settled
  /-- Who has left the market has no open trip. -/
  gone : ∀ d, (w.drivers d).exitedMarket = true → ∀ t ∈ (w.drivers d).trips, t.Settled
  left : ∀ p, (w.passengers p).exitedMarket = true → (w.passengers p).current.state.isOver = true
  /-- Being dropped off does not outlast a step. -/
  rested : ∀ p, (w.passengers p).current.state ≠ .droppedoff

theorem coupled_start : Coupled ({} : World D P) where
  linked d p _ := .waiting 0 (.inl rfl) rfl rfl (fun h ↦ by cases h)
    (fun _ h ↦ h.elim (fun h ↦ absurd h (Nat.lt_irrefl 0)) fun h ↦ by cases h) fun h ↦ by cases h
  settled d t ht := absurd ht List.not_mem_nil
  gone d h := by cases h
  left p h := by cases h
  rested p h := by cases h

/-! ## Links along a step -/

variable {w : World D P} {d : D} {p : P}

theorem linkedAt_setDriver {d' : D} {o : Handled (DriverApp P) (P × ToPassenger)}
    (hkeep : KeepsInboxLinks ((w.drivers d).inbox, (w.drivers d).trips) o.sent (o.state.inbox,
      o.state.trips))
    (h : w.LinkedAt d' p) : (w.setDriver d o).LinkedAt d' p := by
  unfold World.LinkedAt World.setDriver at *
  dsimp only at *
  by_cases hd : d' = d
  · subst hd
    rw [Function.update_self, if_pos rfl, ← List.append_assoc]
    exact hkeep p _ _ _ _ _ h
  · rw [Function.update_of_ne hd, if_neg hd, List.append_nil]
    exact h

theorem linkedAt_setPassenger {p' : P} {o : Handled (PassengerApp D) (D × PassengerEvent)}
    (hkeep : PassengerTrip.KeepsInboxLinks ((w.passengers p).inbox, (w.passengers p).current)
      o.sent (o.state.inbox, o.state.current))
    (hexited : (w.passengers p).exitedMarket = true → o.state.exitedMarket = true)
    (h : w.LinkedAt d p') : (w.setPassenger p o).LinkedAt d p' := by
  unfold World.LinkedAt World.setPassenger at *
  dsimp only at *
  by_cases hp : p' = p
  · subst hp
    rw [Function.update_self, if_pos rfl, ← List.append_assoc, work_append]
    refine (hkeep d _ _ _ _ _ h).mono id fun hrefused ↦ ?_
    rw [Bool.or_eq_true, decide_eq_true rfl, Bool.true_and, List.contains_iff_mem]
    rcases hrefused with (hrefused | hrefused) | hrefused
    · exact .inl (.inl hrefused)
    · exact .inr (hexited hrefused)
    · exact .inl (.inr hrefused)
  · rw [Function.update_of_ne hp, if_neg hp, List.append_nil, decide_eq_false hp, Bool.false_and,
      Bool.or_false]
    exact h

theorem Coupled.setDriver (h : Coupled w) {o : Handled (DriverApp P) (P × ToPassenger)}
    (hexited : o.state.exitedMarket = false → (w.drivers d).exitedMarket = false)
    (hkeep : o.state.exitedMarket = false →
      KeepsInboxLinks ((w.drivers d).inbox, (w.drivers d).trips) o.sent (o.state.inbox,
      o.state.trips))
    (hsettled : ∀ t ∈ o.state.trips.tail, t.Settled)
    (hgone : o.state.exitedMarket = true → ∀ t ∈ o.state.trips, t.Settled) :
    Coupled (w.setDriver d o) where
  linked d' p hd' := by
    by_cases hd : d' = d
    · subst hd
      have hin : o.state.exitedMarket = false := by
        simpa [World.setDriver] using hd'
      exact linkedAt_setDriver (hkeep hin) (h.linked d' p (hexited hin))
    · have hin : (w.drivers d').exitedMarket = false := by
        simpa [World.setDriver, Function.update_of_ne hd] using hd'
      have hl := h.linked d' p hin
      unfold World.LinkedAt World.setDriver at *
      dsimp only at *
      rw [Function.update_of_ne hd, if_neg hd, List.append_nil]
      exact hl
  settled := (Function.forall_update_iff w.drivers fun _ a ↦ ∀ t ∈ a.trips.tail, t.Settled).mpr
    ⟨hsettled, fun d' _ ↦ h.settled d'⟩
  gone := (Function.forall_update_iff w.drivers fun _ a ↦ a.exitedMarket = true →
    ∀ t ∈ a.trips, t.Settled).mpr ⟨hgone, fun d' _ ↦ h.gone d'⟩
  left := h.left
  rested := h.rested

theorem Coupled.setPassenger (h : Coupled w) {o : Handled (PassengerApp D) (D × PassengerEvent)}
    (hkeep : PassengerTrip.KeepsInboxLinks ((w.passengers p).inbox, (w.passengers p).current)
      o.sent (o.state.inbox, o.state.current))
    (hexited : (w.passengers p).exitedMarket = true → o.state.exitedMarket = true)
    (hleft : o.state.exitedMarket = true → o.state.current.state.isOver = true)
    (hrested : o.state.current.state ≠ .droppedoff) : Coupled (w.setPassenger p o) where
  linked d p' hd := linkedAt_setPassenger hkeep hexited (h.linked d p' hd)
  settled := h.settled
  gone := h.gone
  left := (Function.forall_update_iff w.passengers fun _ b ↦ b.exitedMarket = true →
    b.current.state.isOver = true).mpr ⟨hleft, fun p' _ ↦ h.left p'⟩
  rested := (Function.forall_update_iff w.passengers fun _ b ↦ b.current.state ≠ .droppedoff).mpr
    ⟨hrested, fun p' _ ↦ h.rested p'⟩

/-! ## The steps -/

theorem keepsInboxLinks_of_keepsLinks {inbox : List (P × PassengerEvent)}
    {trips trips' : List (DriverTrip P)} {out : List (P × ToPassenger)}
    (h : KeepsLinks trips out trips') : KeepsInboxLinks (inbox, trips) out (inbox, trips') :=
  fun p named refused M _ st hl ↦ h p named refused M _ st hl

theorem coupled_launchDriver (h : Coupled w) (hd : (w.drivers d).trips = []) :
    Coupled (w.setDriver d (w.drivers d).launch) := by
  have hlaunch : (w.drivers d).launch =
      ⟨{ w.drivers d with trips := [{ state := .lookingForJob }] }, [], false⟩ := by
    rw [DriverApp.launch, hd]
    rfl
  rw [hlaunch]
  refine h.setDriver id (fun _ ↦ keepsInboxLinks_of_keepsLinks ?_)
    (fun _ hm ↦ absurd hm List.not_mem_nil) fun _ t ht ↦ ?_
  · rw [hd]
    intro p named refused M N st hl
    rw [addressed_nil, List.append_nil]
    exact hl
  · obtain rfl := List.mem_singleton.mp ht
    exact fun hsome ↦ absurd rfl hsome

theorem coupled_launchPassenger (h : Coupled w) (hp : (w.passengers p).trip = none) :
    Coupled (w.setPassenger p ⟨(w.passengers p).launch, [], false⟩) := by
  have hcurrent : (w.passengers p).launch.current = (w.passengers p).current := by
    rw [PassengerApp.launch, PassengerApp.current, PassengerApp.current, hp]
    rfl
  refine h.setPassenger ?_ id ?_ ?_
  · dsimp only
    rw [hcurrent]
    exact PassengerTrip.closed_keepsInboxLinks.refl _
  · dsimp only
    rw [hcurrent]
    exact h.left p
  · dsimp only
    rw [hcurrent]
    exact h.rested p

theorem coupled_leaveRequests (h : Coupled w) (d : D) (rest : List P) :
    Coupled (w.leaveRequests d rest) :=
  ⟨h.linked, h.settled, h.gone, h.left, h.rested⟩

theorem coupled_deliverRequest (h : Coupled w) (d : D) (p : P) :
    Coupled (w.deliverRequest nullPassenger d p) := by
  unfold World.deliverRequest
  split
  · exact h
  · next hin =>
    exact h.setDriver id
      (fun _ ↦ keepsInboxLinks_of_keepsLinks (keepsLinks_handleRequestedTrip p _))
      (settled_handleRequestedTrip (h.settled d)) fun hexited ↦ absurd hexited hin

/-- A link sees no more of a state than this. -/
theorem World.LinkedAt.congr {w' : World D P} (h : w.LinkedAt d p)
    (hcurrent : (w'.passengers p).current = (w.passengers p).current)
    (htrips : (w'.drivers d).trips = (w.drivers d).trips)
    (hrefused : w.refused p d = true ∨ (w.passengers p).exitedMarket = true →
      w'.refused p d = true ∨ (w'.passengers p).exitedMarket = true)
    (hM : (addressed d (w'.passengers p).inbox).map .workflowEvent ++ w'.toPassenger d p =
      (addressed d (w.passengers p).inbox).map .workflowEvent ++ w.toPassenger d p)
    (hN : addressed p (w'.drivers d).inbox ++ w'.toDriver p d = addressed p (w.drivers d).inbox ++
      w.toDriver p d)
    : w'.LinkedAt d p := by
  unfold World.LinkedAt
  rw [hcurrent, htrips, hM, hN]
  exact Linked.mono h id hrefused

/-- An event that arrives in the inbox of a driver is where it was, in between the two. -/
theorem coupled_deliverToDriver (h : Coupled w) {e : PassengerEvent} {rest : List PassengerEvent}
    (hflight : w.toDriver p d = e :: rest) :
    Coupled ((w.leaveToDriver p d rest).deliverToDriver p d e) := by
  unfold World.deliverToDriver
  split
  · next hexited =>
    refine ⟨fun d' p' hd' ↦ ?_, h.settled, h.gone, h.left, h.rested⟩
    have hne : d' ≠ d := by
      rintro rfl
      exact absurd hexited (Bool.eq_false_iff.mp hd')
    refine (h.linked d' p' hd').congr rfl rfl id rfl ?_
    dsimp only [World.leaveToDriver]
    by_cases hp : p' = p
    · subst hp
      rw [Function.update_self, Function.update_of_ne hne]
    · rw [Function.update_of_ne hp]
  · have hsame : ∀ d', (Function.update w.drivers d
        ((w.drivers d).enqueueMessage (p, e)) d').trips = (w.drivers d').trips ∧
        (Function.update w.drivers d ((w.drivers d).enqueueMessage (p, e)) d').exitedMarket =
          (w.drivers d').exitedMarket := by
      intro d'
      by_cases hd : d' = d
      · subst hd
        rw [Function.update_self]
        exact ⟨rfl, rfl⟩
      · rw [Function.update_of_ne hd]
        exact ⟨rfl, rfl⟩
    refine ⟨fun d' p' hd' ↦ ?_, fun d' t ht ↦ ?_, fun d' hd' t ht ↦ ?_, h.left, h.rested⟩
    · refine (h.linked d' p' ((hsame d').2.symm.trans hd')).congr rfl (hsame d').1 id ?_ ?_
      · dsimp only [World.setDriver, World.leaveToDriver]
        rw [addressed_nil, ite_self, List.append_nil]
      · dsimp only [World.setDriver, World.leaveToDriver]
        by_cases hd : d' = d
        · subst hd
          rw [Function.update_self, DriverApp.enqueueMessage]
          rw [addressed_append]
          by_cases hp : p' = p
          · subst hp
            rw [Function.update_self, Function.update_self, hflight, addressed_cons_self,
              addressed_nil, List.append_assoc, List.singleton_append]
          · rw [Function.update_of_ne hp, addressed_cons_of_ne (Ne.symm hp), addressed_nil,
              List.append_nil]
        · rw [Function.update_of_ne hd]
          by_cases hp : p' = p
          · subst hp
            rw [Function.update_self, Function.update_of_ne hd]
          · rw [Function.update_of_ne hp]
    · exact h.settled d' t ((hsame d').1 ▸ ht)
    · exact h.gone d' ((hsame d').2.symm.trans hd') t ((hsame d').1 ▸ ht)

/-- What a passenger does with a message that has reached it.  An `ASSIGNED` finds a trip. -/
theorem linked_handleAppTopicMessages {d' : D} {turned refused : Prop} {x : Option DriverState}
    {m : ToPassenger} {M : List ToPassenger} {N : List PassengerEvent} {b : PassengerApp D}
    (hlaunched : b.trip.isSome = true)
    (h : Linked (b.current.driver = some d') turned refused x
      ((addressed d' b.inbox).map .workflowEvent ++ if d' = d then m :: M else M) N b.current.state)
    :
    Linked ((b.handleAppTopicMessages d m).state.current.driver = some d') turned
      (refused ∨ .rejectedTrip ∈ addressed d' (b.handleAppTopicMessages d m).sent) x
      ((addressed d' (b.handleAppTopicMessages d m).state.inbox).map .workflowEvent ++ M)
      (N ++ work (addressed d' (b.handleAppTopicMessages d m).sent))
      (b.handleAppTopicMessages d m).state.current.state := by
  cases m with
  | workflowEvent e =>
    have hstep : b.handleAppTopicMessages d (.workflowEvent e) =
        ⟨{ b with inbox := b.inbox ++ [(d, e)] }, [], false⟩ := rfl
    rw [hstep, addressed_nil, work_nil, List.append_nil]
    rw [addressed_append]
    by_cases hd : d' = d
    · subst hd
      rw [if_pos rfl] at h
      rw [addressed_cons_self, addressed_nil, List.map_append, List.append_assoc]
      exact h.mono id Or.inl
    · rw [if_neg hd] at h
      rw [addressed_cons_of_ne (Ne.symm hd), addressed_nil, List.append_nil]
      exact h.mono id Or.inl
  | assigned =>
    obtain ⟨trip, htrip⟩ := Option.isSome_iff_exists.mp hlaunched
    have hstep : b.handleAppTopicMessages d .assigned =
        (PassengerTrip.handleAssigned d trip).map fun trip' ↦ { b with trip := some trip' } := by
      unfold PassengerApp.handleAppTopicMessages
      rw [htrip]
    have hcurrent : b.current = trip := by rw [PassengerApp.current, htrip]; rfl
    rw [hcurrent] at h
    rw [hstep]
    exact PassengerTrip.linked_handleAssigned h

omit [DecidableEq D] in
/-- A message takes nobody out of the market and ends no trip. -/
theorem handleAppTopicMessages_spec (d : D) (m : ToPassenger) (b : PassengerApp D) :
    (b.handleAppTopicMessages d m).state.exitedMarket = b.exitedMarket ∧
      (b.current.state ≠ .droppedoff →
        (b.handleAppTopicMessages d m).state.current.state ≠ .droppedoff) := by
  unfold PassengerApp.handleAppTopicMessages
  split
  · exact ⟨rfl, id⟩
  · exact ⟨rfl, id⟩
  · next trip htrip =>
    refine ⟨rfl, ?_⟩
    rw [PassengerApp.current, htrip]
    intro hne
    unfold PassengerTrip.handleAssigned
    split
    · next hst =>
      rw [hst]
      exact PassengerState.noConfusion
    · exact hne

theorem coupled_deliverToPassenger (h : Coupled w) (hknown : Known w) {m : ToPassenger}
    {rest : List ToPassenger} (hflight : w.toPassenger d p = m :: rest) :
    Coupled ((w.leaveToPassenger d p rest).deliverToPassenger d p m) := by
  have hleft : ∀ d', w.toPassenger d' p =
      if d' = d then m :: (w.leaveToPassenger d p rest).toPassenger d' p
      else (w.leaveToPassenger d p rest).toPassenger d' p := by
    intro d'
    dsimp only [World.leaveToPassenger]
    by_cases hd : d' = d
    · subst hd
      rw [if_pos rfl, Function.update_self, Function.update_self, hflight]
    · rw [if_neg hd, Function.update_of_ne hd]
  have hother : ∀ d' p', p' ≠ p →
      (w.leaveToPassenger d p rest).toPassenger d' p' = w.toPassenger d' p' := by
    intro d' p' hp
    dsimp only [World.leaveToPassenger]
    by_cases hd : d' = d
    · subst hd
      rw [Function.update_self, Function.update_of_ne hp]
    · rw [Function.update_of_ne hd]
  unfold World.deliverToPassenger
  split
  · next hexited =>
    refine ⟨fun d' p' hd' ↦ ?_, h.settled, h.gone, h.left, h.rested⟩
    by_cases hp : p' = p
    · subst hp
      exact ((h.linked d' p' hd').of_isOver (h.left p' hexited)).mono id fun _ ↦ .inr hexited
    · exact (h.linked d' p' hd').congr rfl rfl id (by rw [hother d' p' hp]; rfl) rfl
  · next hin =>
    have hspec := handleAppTopicMessages_spec d m (w.passengers p)
    refine ⟨fun d' p' hd' ↦ ?_, h.settled, h.gone, fun p' hp' ↦ ?_, fun p' ↦ ?_⟩
    · by_cases hp : p' = p
      · subst hp
        have hl := h.linked d' p' hd'
        unfold World.LinkedAt at hl
        rw [hleft d'] at hl
        have hlaunched : (w.passengers p').trip.isSome = true :=
          hknown.told d p' (by rw [hflight]; exact List.cons_ne_nil _ _)
        have hl := linked_handleAppTopicMessages hlaunched hl
        unfold World.LinkedAt World.setPassenger
        dsimp only
        rw [Function.update_self, if_pos rfl, ← List.append_assoc, work_append]
        refine hl.mono id fun hrefused ↦ ?_
        rw [Bool.or_eq_true, decide_eq_true rfl, Bool.true_and, List.contains_iff_mem]
        rcases hrefused with (hrefused | hrefused) | hrefused
        · exact .inl (.inl hrefused)
        · exact absurd hrefused hin
        · exact .inl (.inr hrefused)
      · refine (h.linked d' p' hd').congr ?_ rfl (fun hrefused ↦ ?_) ?_ ?_
        · dsimp only [World.setPassenger]
          rw [Function.update_of_ne hp]
          rfl
        · dsimp only [World.setPassenger]
          rw [Function.update_of_ne hp, decide_eq_false hp, Bool.false_and, Bool.or_false]
          exact hrefused
        · dsimp only [World.setPassenger]
          rw [Function.update_of_ne hp, hother d' p' hp]
          rfl
        · dsimp only [World.setPassenger]
          rw [if_neg hp, List.append_nil]
          rfl
    · dsimp only [World.setPassenger] at hp' ⊢
      by_cases hp : p' = p
      · subst hp
        rw [Function.update_self] at hp'
        exact absurd (hspec.1.symm.trans hp') hin
      · rw [Function.update_of_ne hp] at hp' ⊢
        exact h.left p' hp'
    · dsimp only [World.setPassenger]
      by_cases hp : p' = p
      · subst hp
        rw [Function.update_self]
        exact hspec.2 (h.rested p')
      · rw [Function.update_of_ne hp]
        exact h.rested p'

theorem coupled_driverStep (h : Coupled w) (hd : (w.drivers d).inMarket = true) (c : DriverChoices)
    : Coupled (w.setDriver d ((w.drivers d).executeStepActions nullPassenger c)) := by
  have hin : (w.drivers d).exitedMarket = false := by
    simp only [DriverApp.inMarket, Bool.and_eq_true, Bool.not_eq_true'] at hd
    exact hd.1
  refine h.setDriver id (fun _ ↦ DriverApp.keepsInboxLinks_executeStepActions c _)
    ((DriverApp.tidy_executeStepActions c _).1 (h.settled d)) fun hexited ↦ ?_
  exact absurd hexited (Bool.eq_false_iff.mp hin)

theorem coupled_logoutDriver (h : Coupled w) (d : D) :
    Coupled (w.setDriver d ((w.drivers d).close nullPassenger)) := by
  have hsettled := settled_endActiveTrip nullPassenger (h.settled d)
  exact h.setDriver (fun hin ↦ by cases hin) (fun hin ↦ by cases hin)
    (fun t ht ↦ hsettled t (List.mem_of_mem_tail ht)) fun _ ↦ hsettled

theorem coupled_passengerStep (h : Coupled w) (hp : (w.passengers p).inMarket = true)
    (c : PassengerChoices) :
    Coupled (w.setPassenger p ((w.passengers p).executeStepActions c)) := by
  simp only [PassengerApp.inMarket, Bool.and_eq_true, Bool.not_eq_true'] at hp
  obtain ⟨trip, htrip⟩ := Option.isSome_iff_exists.mp hp.2
  obtain ⟨trip', htrip', hrested, hkeep⟩ :=
    PassengerApp.keepsInboxLinks_executeStepActions (c := c) htrip
  have hexited := PassengerApp.executeStepActions_exitedMarket c (w.passengers p)
  refine h.setPassenger ?_ (fun h ↦ by rw [hexited, h]) ?_ ?_
  · rw [PassengerApp.current, PassengerApp.current, htrip, htrip']
    exact hkeep
  · rw [hexited, hp.1]
    exact fun h ↦ by cases h
  · rw [PassengerApp.current, htrip']
    exact hrested

theorem coupled_logoutPassenger (h : Coupled w) (hp : (w.passengers p).inMarket = true) :
    Coupled (w.setPassenger p (w.passengers p).close) := by
  simp only [PassengerApp.inMarket, Bool.and_eq_true, Bool.not_eq_true'] at hp
  obtain ⟨trip, htrip⟩ := Option.isSome_iff_exists.mp hp.2
  have hcurrent : (w.passengers p).current = trip := by rw [PassengerApp.current, htrip]; rfl
  have hclose : (w.passengers p).close.state.current =
      (PassengerTrip.endActiveTrip .forceQuit trip).state := by
    rw [PassengerApp.close, htrip]
    rfl
  have hfinal : (PassengerTrip.endActiveTrip .forceQuit trip).state.state.final = true := by
    rw [PassengerTrip.endActiveTrip, PassengerTrip.applyTransitionAndNotify_state]
    exact PassengerState.final_of_forceQuit trip.state
  refine h.setPassenger ?_ (fun hexited ↦ ?_) (fun _ ↦ ?_) fun hdropped ↦ ?_
  · intro d turned refused x M N hl
    rw [hcurrent] at hl
    have hkeep := PassengerTrip.keepsLinks_forceQuit trip d turned refused x _ N hl
    rw [PassengerApp.close, htrip]
    exact hkeep
  · rw [hp.1] at hexited
    cases hexited
  · rw [hclose]
    exact PassengerState.isOver_of_final hfinal
  · rw [hclose] at hdropped
    rw [hdropped] at hfinal
    cases hfinal

/-- **The invariant** is kept by every event. -/
theorem coupled_step {w' : World D P} {e : Event D P} (h : Coupled w) (hknown : Known w)
    (hs : w.step nullPassenger e = some w') : Coupled w' := by
  cases World.moved_of_step hs with
  | launchDriver hd => exact coupled_launchDriver h hd
  | launchPassenger hp => exact coupled_launchPassenger h hp
  | listDrivers | listPassengers | publish =>
    -- the assignment service is no party to the coupling
    exact ⟨h.linked, h.settled, h.gone, h.left, h.rested⟩
  | deliverRequest => exact coupled_deliverRequest (coupled_leaveRequests h _ _) _ _
  | deliverToDriver hflight => exact coupled_deliverToDriver h hflight
  | deliverToPassenger hflight => exact coupled_deliverToPassenger h hknown hflight
  | driverStep hd => exact coupled_driverStep h hd _
  | passengerStep hp => exact coupled_passengerStep h hp _
  | logoutDriver => exact coupled_logoutDriver h _
  | logoutPassenger hp => exact coupled_logoutPassenger h hp

/-- **Drivers and passengers are linked** in every state of every run. -/
theorem coupled_of_reachable (h : Reachable nullPassenger w) : Coupled w := by
  have hboth := Machine.Reach.invariant (P := fun w ↦ Coupled w ∧ Known w) h
    ⟨coupled_start, known_start⟩ fun _ _ _ hw _ hs ↦
      ⟨coupled_step hw.1 hw.2 hs, known_step hw.2 hs⟩
  exact hboth.1

end OpenRide.RideHail
