import OpenRide.RideHail.DriverLink
import OpenRide.RideHail.PassengerLink

/-!
# Passengers that are known

A driver only ever hears of passengers whose trip has been requested: the assignment service lists
no others, and a driver writes to nobody else (`known_step`).  So no message reaches a
passenger before it has a trip.
-/

namespace OpenRide.RideHail

open Lib DriverTrip

variable {D P : Type}

/-- The passenger has requested its trip. -/
def World.Launched (w : World D P) (p : P) : Prop := (w.passengers p).trip.isSome = true

/-- Whoever is spoken of has requested a trip. -/
structure Known (w : World D P) : Prop where
  trips : ∀ d, ∀ t ∈ (w.drivers d).trips, ∀ p ∈ t.passenger, w.Launched p
  requests : ∀ d, ∀ p ∈ w.requests d, w.Launched p
  listed : ∀ drivers passengers, w.tick = .solving drivers passengers →
    ∀ p ∈ passengers, w.Launched p
  told : ∀ d p, w.toPassenger d p ≠ [] → w.Launched p

theorem known_start : Known ({} : World D P) where
  trips d t ht := absurd ht List.not_mem_nil
  requests d p hp := absurd hp List.not_mem_nil
  listed drivers passengers h := by cases h
  told d p h := absurd rfl h

variable [DecidableEq D] [DecidableEq P] {nullPassenger : Bool}

variable {w : World D P}

/-- A driver that stays among the known. -/
theorem Known.setDriver (h : Known w) {d : D} {o : Handled (DriverApp P) (P × ToPassenger)}
    (ho : Among w.Launched (w.drivers d).trips o.sent o.state.trips) : Known (w.setDriver d o) := by
  obtain ⟨htrips, hsent⟩ := ho (h.trips d)
  refine ⟨fun d' ↦ ?_, h.requests, h.listed, fun d' p hne ↦ ?_⟩
  · dsimp only [World.setDriver]
    by_cases hd : d' = d
    · subst hd
      rw [Function.update_self]
      exact htrips
    · rw [Function.update_of_ne hd]
      exact h.trips d'
  · dsimp only [World.setDriver] at hne
    by_cases hold : w.toPassenger d' p = []
    · rw [hold, List.nil_append] at hne
      split at hne
      · obtain ⟨m, hm⟩ := List.exists_mem_of_ne_nil _ hne
        obtain ⟨msg, hmsg, -⟩ := List.mem_map.mp hm
        obtain ⟨hmsg, hp⟩ := List.mem_filter.mp hmsg
        exact of_decide_eq_true hp ▸ hsent msg hmsg
      · exact absurd rfl hne
    · exact h.told d' p hold

/-- A passenger that keeps its trip. -/
theorem Known.setPassenger (h : Known w) {p : P} {o : Handled (PassengerApp D) (D × PassengerEvent)}
    (ho : w.Launched p → o.state.trip.isSome = true) : Known (w.setPassenger p o) := by
  have hmono : ∀ q, w.Launched q → (w.setPassenger p o).Launched q := by
    intro q hq
    unfold World.Launched World.setPassenger
    dsimp only
    by_cases hqp : q = p
    · subst hqp
      rw [Function.update_self]
      exact ho hq
    · rw [Function.update_of_ne hqp]
      exact hq
  exact ⟨fun d t ht q hq ↦ hmono q (h.trips d t ht q hq), fun d q hq ↦ hmono q (h.requests d q hq),
    fun drivers passengers htick q hq ↦ hmono q (h.listed drivers passengers htick q hq),
    fun d q hne ↦ hmono q (h.told d q hne)⟩

variable {b : PassengerApp D}

theorem PassengerApp.isSome_trip_executeStepActions (c : PassengerChoices)
    (h : b.trip.isSome = true) : (b.executeStepActions c).state.trip.isSome = true := by
  obtain ⟨trip, htrip⟩ := Option.isSome_iff_exists.mp h
  unfold PassengerApp.executeStepActions
  rw [htrip]
  rfl

omit [DecidableEq D] in
theorem PassengerApp.isSome_trip_handleAppTopicMessages (d : D) (m : ToPassenger)
    (h : b.trip.isSome = true) : (b.handleAppTopicMessages d m).state.trip.isSome = true := by
  unfold PassengerApp.handleAppTopicMessages
  split
  · exact h
  · exact h
  · rfl

omit [DecidableEq D] in
theorem PassengerApp.isSome_trip_close (h : b.trip.isSome = true) :
    b.close.state.trip.isSome = true := by
  unfold PassengerApp.close
  split
  · exact h
  · rfl

omit [DecidableEq P] in
/-- A request taken off the channel to its driver was for somebody known. -/
theorem Known.leaveRequests (h : Known w) {d : D} {p : P} {rest : List P}
    (hrequests : w.requests d = p :: rest) : Known (w.leaveRequests d rest) := by
  refine ⟨h.trips, fun d' q hq ↦ ?_, h.listed, h.told⟩
  dsimp only [World.leaveRequests] at hq
  by_cases hd : d' = d
  · subst hd
    rw [Function.update_self] at hq
    exact h.requests d' q (by rw [hrequests]; exact List.mem_cons_of_mem _ hq)
  · rw [Function.update_of_ne hd] at hq
    exact h.requests d' q hq

/-- Who is still told something was told something. -/
theorem Known.leaveToPassenger (h : Known w) {d : D} {p : P} {m : ToPassenger}
    {rest : List ToPassenger} (hflight : w.toPassenger d p = m :: rest) :
    Known (w.leaveToPassenger d p rest) := by
  refine ⟨h.trips, h.requests, h.listed, fun d' q hne ↦ ?_⟩
  dsimp only [World.leaveToPassenger] at hne
  by_cases hd : d' = d
  · subst hd
    rw [Function.update_self] at hne
    by_cases hq : q = p
    · subst hq
      exact h.told d' q (by rw [hflight]; exact List.cons_ne_nil _ _)
    · rw [Function.update_of_ne hq] at hne
      exact h.told d' q hne
  · rw [Function.update_of_ne hd] at hne
    exact h.told d' q hne

/-- Every event leaves the known known. -/
theorem known_step {w' : World D P} {e : Event D P} (h : Known w)
    (hs : w.step nullPassenger e = some w') : Known w' := by
  cases World.moved_of_step hs with
  | launchDriver hd =>
    refine h.setDriver fun hL ↦ ⟨fun t ht ↦ ?_, nofun⟩
    rw [DriverApp.launch, hd] at ht
    obtain rfl := List.mem_singleton.mp ht
    exact fun p hp ↦ by cases hp
  | launchPassenger => exact h.setPassenger fun _ ↦ rfl
  | listDrivers => exact ⟨h.trips, h.requests, (fun _ _ htick ↦ by cases htick), h.told⟩
  | listPassengers _ hlisted =>
    refine ⟨h.trips, h.requests, fun _ _ htick p hp ↦ ?_, h.told⟩
    obtain ⟨-, rfl⟩ := Tick.solving.inj htick
    have hp := hlisted p hp
    unfold World.Launched
    unfold PassengerApp.isListed at hp
    cases htrip : (w.passengers p).trip with
    | none =>
      rw [htrip] at hp
      cases hp
    | some t => rfl
  | @publish drivers passengers pairs htick hpairs =>
    refine ⟨h.trips, fun d p hp ↦ ?_, (fun _ _ htick ↦ by cases htick), h.told⟩
    rcases List.mem_append.mp hp with hp | hp
    · exact h.requests d p hp
    · obtain ⟨pair, hpair, rfl⟩ := List.mem_map.mp hp
      exact h.listed drivers passengers htick _ (hpairs pair (List.mem_of_mem_filter hpair)).2
  | @deliverRequest d p rest hrequests =>
    unfold World.deliverRequest
    split
    · exact h.leaveRequests hrequests
    · refine (h.leaveRequests hrequests).setDriver (among_handleRequestedTrip ?_ _)
      exact h.requests d p (by rw [hrequests]; exact List.mem_cons_self)
  | @deliverToDriver p d e rest =>
    have hleft : Known (w.leaveToDriver p d rest) := ⟨h.trips, h.requests, h.listed, h.told⟩
    unfold World.deliverToDriver
    split
    · exact hleft
    · exact hleft.setDriver ((closed_among _).refl _)
  | @deliverToPassenger d p m rest hflight =>
    unfold World.deliverToPassenger
    split
    · exact h.leaveToPassenger hflight
    · exact (h.leaveToPassenger hflight).setPassenger
        (PassengerApp.isSome_trip_handleAppTopicMessages d m)
  | @driverStep d c => exact h.setDriver (DriverApp.among_executeStepActions _ c _)
  | @passengerStep p c => exact h.setPassenger (PassengerApp.isSome_trip_executeStepActions c)
  | logoutDriver => exact h.setDriver (among_endActiveTrip _ _)
  | logoutPassenger => exact h.setPassenger PassengerApp.isSome_trip_close

end OpenRide.RideHail
