import OpenRide.RideHail.Coupling

/-!
# Drivers and passengers stay in step

A passenger is driven by the driver its trip names, and by no other one, and a driver on an occupied
trip starts no other one (`driven_by_named`).  This is what the handler of `ASSIGNED` and its
overbooking are for.

When nothing is under way between a passenger and the drivers, the two trips are in stages that
belong together (`in_step`), with one exception: nobody tells a passenger that its driver has turned
the request down or has logged out, so its trip may wait for a driver that will not come
(`left_waiting`).
-/

namespace OpenRide.RideHail

open Lib DriverTrip

variable {D P : Type} [DecidableEq D] [DecidableEq P] {nullPassenger : Bool}

/-! ## One driver for a passenger -/

/-- The driver has a trip for the passenger in `driver_moving_to_pickup` or a later stage. -/
def World.Drives (w : World D P) (d : D) (p : P) : Prop :=
  ∃ t ∈ (w.drivers d).trips, t.passenger = some p ∧ t.state.isOnTheWay = true

/-- The passenger's trip names the driver. -/
def World.Names (w : World D P) (p : P) (d : D) : Prop :=
  ∃ t, (w.passengers p).trip = some t ∧ t.driver = some d

/-- The driver's trip in hand is occupied. -/
def DriverApp.IsOccupied (a : DriverApp P) : Prop := ∃ t ∈ a.trips.head?, t.passenger ≠ none

variable {w : World D P} {p : P}

variable {d : D}

omit [DecidableEq D] [DecidableEq P] in
theorem World.names_of_current (h : (w.passengers p).current.driver = some d) : w.Names p d := by
  unfold PassengerApp.current at h
  cases htrip : (w.passengers p).trip with
  | none =>
    rw [htrip] at h
    cases h
  | some t =>
    rw [htrip] at h
    exact ⟨t, htrip, h⟩

/-- An occupied trip under way is in hand, and its driver in the market. -/
theorem Coupled.inHand_of_mem (h : Coupled w) {t : DriverTrip P} (ht : t ∈ (w.drivers d).trips)
    (hp : t.passenger = some p) (hfinal : t.state.final = false)
    (hrejected : t.state ≠ .rejectedTrip) :
    (w.drivers d).exitedMarket = false ∧ inHand p (w.drivers d).trips = some t.state := by
  have hopen : ¬t.Settled := by
    intro hsettled
    rcases hsettled (by rw [hp]; simp) with h | h
    · rw [hfinal] at h
      cases h
    · exact hrejected h
  refine ⟨Bool.eq_false_iff.mpr fun hexited ↦ hopen (h.gone d hexited t ht), ?_⟩
  cases htrips : (w.drivers d).trips with
  | nil =>
    rw [htrips] at ht
    cases ht
  | cons t' earlier =>
    rw [htrips] at ht
    rcases List.mem_cons.mp ht with rfl | ht
    · rw [inHand_of_passenger hp, DriverState.stage_of_not_final hfinal]
    · exact absurd (h.settled d t (by rw [htrips]; exact ht)) hopen

theorem Coupled.named_of_drives (h : Coupled w) (hd : w.Drives d p) : w.Names p d := by
  obtain ⟨t, ht, hp, hway⟩ := hd
  obtain ⟨hin, hhand⟩ := h.inHand_of_mem ht hp (DriverState.not_final_of_isOnTheWay hway)
    (fun hrejected ↦ by rw [hrejected] at hway; cases hway)
  have hl := h.linked d p hin
  unfold World.LinkedAt at hl
  rw [hhand] at hl
  exact w.names_of_current (hl.named_of_isOnTheWay hway)

/-- No event starts an occupied trip for a driver that is on one. -/
theorem occupied_step {w' : World D P} {e : Event D P} (hs : w.step nullPassenger e = some w')
    (hd : (w.drivers d).IsOccupied) :
    occupied (w'.drivers d).trips = occupied (w.drivers d).trips := by
  have hset : ∀ (v : World D P) (d' : D) (o : Handled (DriverApp P) (P × ToPassenger)),
      v.drivers = w.drivers → (d' = d → occupied o.state.trips = occupied (w.drivers d).trips) →
        occupied ((v.setDriver d' o).drivers d).trips = occupied (w.drivers d).trips := by
    intro v d' o hv ho
    dsimp only [World.setDriver]
    by_cases hd' : d = d'
    · subst hd'
      rw [Function.update_self]
      exact ho rfl
    · rw [Function.update_of_ne hd', hv]
  obtain ⟨t, ht, hoccupied⟩ := hd
  obtain ⟨earlier, htrips⟩ : ∃ earlier, (w.drivers d).trips = t :: earlier := by
    cases htrips : (w.drivers d).trips with
    | nil =>
      rw [htrips] at ht
      cases ht
    | cons t' earlier =>
      rw [htrips] at ht
      cases ht
      exact ⟨earlier, rfl⟩
  cases World.moved_of_step hs with
  | @launchDriver d' hd' =>
    refine hset w d' _ rfl fun hdd ↦ ?_
    subst hdd
    rw [htrips] at hd'
    cases hd'
  | @deliverRequest d' p =>
    unfold World.deliverRequest
    split
    · rfl
    · refine hset _ d' _ rfl fun hdd ↦ ?_
      subst hdd
      show occupied (handleRequestedTrip nullPassenger p (w.drivers d').trips).state = _
      rw [htrips, handleRequestedTrip_of_occupied hoccupied]
  | @deliverToDriver p d' =>
    unfold World.deliverToDriver
    split
    · rfl
    · refine hset _ d' _ rfl fun hdd ↦ ?_
      subst hdd
      rfl
  | deliverToPassenger =>
    unfold World.deliverToPassenger
    split <;> rfl
  | @driverStep d' c =>
    refine hset w d' _ rfl fun hdd ↦ ?_
    subst hdd
    exact (DriverApp.tidy_executeStepActions c _).2
  | @logoutDriver d' =>
    refine hset w d' _ rfl fun hdd ↦ ?_
    subst hdd
    show occupied (endActiveTrip nullPassenger true (w.drivers d').trips).state = _
    rw [htrips, endActiveTrip, if_neg hoccupied, if_pos rfl,
      applyTransitionAndNotify_silent nullPassenger rfl]
    rfl
  | launchPassenger | listDrivers | listPassengers | publish | passengerStep | logoutPassenger =>
    -- no driver moves
    rfl

/-- **A passenger is driven by at most one driver**, the one its trip names, in every state of every
run; and no step starts an occupied trip for a driver that is on one. -/
theorem driven_by_named {w : World D P} (h : Reachable nullPassenger w) :
    (∀ d p, w.Drives d p → w.Names p d ∧ ∀ d', w.Drives d' p → d' = d) ∧
      ∀ e w', w.step nullPassenger e = some w' → ∀ d, (w.drivers d).IsOccupied →
        occupied (w'.drivers d).trips = occupied (w.drivers d).trips := by
  have hw := coupled_of_reachable h
  refine ⟨fun d p hd ↦ ⟨hw.named_of_drives hd, fun d' hd' ↦ ?_⟩,
    fun e w' hs d hd ↦ occupied_step hs hd⟩
  obtain ⟨t, ht, hdriver⟩ := hw.named_of_drives hd
  obtain ⟨t', ht', hdriver'⟩ := hw.named_of_drives hd'
  obtain rfl := Option.some.inj (ht.symm.trans ht')
  exact Option.some.inj (hdriver'.symm.trans hdriver)

/-! ## Stages that belong together -/

/-- The stages of a passenger and its driver while nothing is under way between them. -/
def stages : List (PassengerState × DriverState) :=
  [(.assignedTrip, .receivedTrip),
    (.receivedTripConfirmation, .acceptedTrip),
    (.acceptedTrip, .movingToPickup),
    (.waitingForPickup, .movingToPickup),
    (.pickedup, .pickedup),
    (.movingForDropoff, .movingToDropoff)]

/-- No message between the passenger and a driver is queued or in flight.  What is on its way to a
driver that has left the market is lost already. -/
structure World.Quiet (w : World D P) (p : P) : Prop where
  inbox : (w.passengers p).inbox = []
  toPassenger : ∀ d, w.toPassenger d p = []
  toDriver : ∀ d, (w.drivers d).exitedMarket = false →
    w.toDriver p d = [] ∧ addressed p (w.drivers d).inbox = []

/-- On a ride with nothing under way the stages belong together. -/
theorem rides_quiet {s : DriverState} {st : PassengerState} (h : (s, [], [], st) ∈ rides) :
    (st, s) ∈ stages ∧ s.final = false := by
  have hrows : ∀ row ∈ rides, row.2.1 = [] ∧ row.2.2.1 = [] →
      (row.2.2.2, row.1) ∈ stages ∧ row.1.final = false := by decide
  exact hrows _ h ⟨rfl, rfl⟩

/-- A driver in the market and a passenger with nothing under way. -/
theorem Coupled.linked_quiet (h : Coupled w) (hq : w.Quiet p)
    (hd : (w.drivers d).exitedMarket = false) :
    Linked ((w.passengers p).current.driver = some d) (TurnedDown p (w.drivers d).trips)
      (w.refused p d = true ∨ (w.passengers p).exitedMarket = true)
      (inHand p (w.drivers d).trips) [] [] (w.passengers p).current.state := by
  have hl := h.linked d p hd
  unfold World.LinkedAt at hl
  rw [hq.inbox, hq.toPassenger d, (hq.toDriver d hd).1, (hq.toDriver d hd).2] at hl
  exact hl

theorem mem_of_inHand {trips : List (DriverTrip P)} {s : DriverState} (h : inHand p trips = some s)
    : ∃ t ∈ trips, t.passenger = some p ∧ t.state.final = false ∧ t.state = s := by
  cases trips with
  | nil => cases h
  | cons t earlier =>
    rw [inHand] at h
    split at h
    · next hp =>
      unfold DriverState.stage at h
      split at h
      · cases h
      · next hfinal =>
        exact ⟨t, List.mem_cons_self, hp, Bool.eq_false_iff.mpr hfinal, Option.some.inj h⟩
    · cases h

/-- Over, and not only dropped off. -/
theorem Coupled.final_of_isOver (h : Coupled w)
    (hover : (w.passengers p).current.state.isOver = true) :
    (w.passengers p).current.state.final = true := by
  have hrested := h.rested p
  cases hst : (w.passengers p).current.state <;> rw [hst] at hover hrested <;>
    first | rfl | exact absurd rfl hrested | cases hover

/-- The driver a passenger's trip names is in step with it, or has left, or has turned it down. -/
theorem driver_in_step (h : Reachable nullPassenger w) (hq : w.Quiet p) {t : PassengerTrip D}
    (htrip : (w.passengers p).trip = some t) (hdriver : t.driver = some d)
    (hrequested : t.state ≠ .requestedTrip) (hfinal : t.state.final = false) :
    (∃ t' ∈ (w.drivers d).trips, t'.passenger = some p ∧ t'.state.final = false ∧
      (t.state, t'.state) ∈ stages) ∨
    (w.drivers d).exitedMarket = true ∨
    t.state = .assignedTrip ∧ TurnedDown p (w.drivers d).trips := by
  have hw := coupled_of_reachable h
  have hcurrent : (w.passengers p).current = t := by rw [PassengerApp.current, htrip]; rfl
  by_cases hd : (w.drivers d).exitedMarket = true
  · exact .inr (.inl hd)
  have hl := hw.linked_quiet hq (Bool.eq_false_iff.mpr hd)
  have hover := hw.final_of_isOver (p := p)
  rw [hcurrent] at hl hover
  cases hl with
  | waiting k hx hM _ hst hturned =>
    rw [hst hdriver]
    obtain hx | hx := hx
    · exact .inr (.inr ⟨rfl, hturned hx (.inr hdriver)⟩)
    · obtain ⟨t', ht', hp, hopen, hs⟩ := mem_of_inHand hx
      exact .inl ⟨t', ht', hp, hopen, by rw [hs]; decide⟩
  | confirming k hx hM => simp at hM
  | confirmed hx hM _ hst =>
    obtain ⟨t', ht', hp, hopen, hs⟩ := mem_of_inHand hx
    refine .inl ⟨t', ht', hp, hopen, ?_⟩
    rw [hs, (hst hdriver).resolve_left hrequested]
    decide
  | riding s events hride hx hM =>
    obtain rfl := List.map_eq_nil_iff.mp hM.symm
    obtain ⟨t', ht', hp, hopen, hs⟩ := mem_of_inHand hx
    exact .inl ⟨t', ht', hp, hopen, hs ▸ (rides_quiet hride).1⟩
  | ended hst =>
    rw [hover hst] at hfinal
    cases hfinal

/-- A driver's open trip is in step with the trip of its passenger, or the passenger refused it or
has left. -/
theorem passenger_in_step (h : Reachable nullPassenger w) (hq : w.Quiet p) {t' : DriverTrip P}
    (ht' : t' ∈ (w.drivers d).trips) (hp : t'.passenger = some p) (hopen : t'.state.final = false)
    (hrejected : t'.state ≠ .rejectedTrip) :
    (∃ t, (w.passengers p).trip = some t ∧ t.driver = some d ∧
      (t.state.final = true ∨ (t.state, t'.state) ∈ stages)) ∨
    (t'.state = .receivedTrip ∨ t'.state = .acceptedTrip) ∧
      (w.refused p d = true ∨ (w.passengers p).exitedMarket = true) := by
  have hw := coupled_of_reachable h
  obtain ⟨hd, hhand⟩ := hw.inHand_of_mem ht' hp hopen hrejected
  have hl := hw.linked_quiet hq hd
  have hnamed : (w.passengers p).current.driver = some d →
      (w.passengers p).current.state.final = true ∨
        ((w.passengers p).current.state, t'.state) ∈ stages →
      ∃ t, (w.passengers p).trip = some t ∧ t.driver = some d ∧
        (t.state.final = true ∨ (t.state, t'.state) ∈ stages) := by
    intro hcurrent hstage
    obtain ⟨t, htrip, hdriver⟩ := w.names_of_current hcurrent
    have heq : (w.passengers p).current = t := by rw [PassengerApp.current, htrip]; rfl
    exact ⟨t, htrip, hdriver, heq ▸ hstage⟩
  rw [hhand] at hl
  cases hl with
  | waiting k hx hM _ hst _ hrefused =>
    obtain hx | hx := hx
    · cases hx
    have hs := Option.some.inj hx
    have hk : k = 0 := by
      cases k with
      | zero => rfl
      | succ k => cases hM
    rcases hrefused hx hk with hn | hrefused
    · refine .inl (hnamed hn (.inr ?_))
      rw [hst hn, hs]
      decide
    · exact .inr ⟨.inl hs, hrefused⟩
  | confirming k hx hM => simp at hM
  | confirmed hx _ _ hst hrefused =>
    have hs := Option.some.inj hx
    rcases hrefused with ⟨hn, hne⟩ | hrefused
    · refine .inl (hnamed hn (.inr ?_))
      rw [(hst hn).resolve_left hne, hs]
      decide
    · exact .inr ⟨.inr hs, hrefused⟩
  | riding s events hride hx hM hn =>
    obtain rfl := List.map_eq_nil_iff.mp hM.symm
    rw [← Option.some.inj hx] at hride
    exact .inl (hnamed hn (.inr (rides_quiet hride).1))
  | ended hst hway _ hengaged =>
    have hfinal := hw.final_of_isOver hst
    rcases hengaged t'.state rfl with honway | ⟨hs, hn | hassigned | hrefused⟩
    · exact .inl (hnamed (hway t'.state rfl honway) (.inl hfinal))
    · exact .inl (hnamed hn (.inl hfinal))
    · cases hassigned
    · exact .inr ⟨hs, hrefused⟩

/-- **Drivers and passengers stay in step.**  While nothing is under way between a passenger and the
drivers: the driver a passenger's trip names, unless the trip is requested or over, has an open trip
for it in a stage that belongs to the passenger's, or has left the market, or has turned the trip
down and the passenger's is still assigned; and an open trip of a driver for a passenger belongs to
a trip that names the driver, and is over or in a stage that belongs to it, unless the driver was
sent a rejection, or the passenger left, before they were on their way. -/
theorem in_step {w : World D P} (h : Reachable nullPassenger w) {p : P} (hq : w.Quiet p) :
    (∀ t d, (w.passengers p).trip = some t → t.driver = some d → t.state ≠ .requestedTrip →
      t.state.final = false →
        (∃ t' ∈ (w.drivers d).trips, t'.passenger = some p ∧ t'.state.final = false ∧
          (t.state, t'.state) ∈ stages) ∨
        (w.drivers d).exitedMarket = true ∨
        t.state = .assignedTrip ∧ TurnedDown p (w.drivers d).trips) ∧
    ∀ d, ∀ t' ∈ (w.drivers d).trips, t'.passenger = some p → t'.state.final = false →
      t'.state ≠ .rejectedTrip →
        (∃ t, (w.passengers p).trip = some t ∧ t.driver = some d ∧
          (t.state.final = true ∨ (t.state, t'.state) ∈ stages)) ∨
        (t'.state = .receivedTrip ∨ t'.state = .acceptedTrip) ∧
          (w.refused p d = true ∨ (w.passengers p).exitedMarket = true) :=
  ⟨fun _ _ htrip hdriver hrequested hfinal ↦ driver_in_step h hq htrip hdriver hrequested hfinal,
    fun _ _ ht' hp hopen hrejected ↦ passenger_in_step h hq ht' hp hopen hrejected⟩

/-- Two drivers are sent for one passenger: the first one is on its way, the second one is turned
away. -/
def overbooked : List (Event Bool Unit) :=
  [.launchDriver false, .launchDriver true, .launchPassenger (), .listDrivers [false, true],
    .listPassengers [()], .publish [(false, ()), (true, ())], .deliverRequest false,
    .deliverRequest true, .deliverToPassenger false (), .deliverToPassenger true (),
    .driverStep false { accepts := true }, .deliverToPassenger false (),
    .passengerStep () { accepts := true }, .deliverToDriver () false, .deliverToDriver () true,
    .driverStep false {}, .driverStep true {}]

theorem overbooked_spec : ∃ w : World Bool Unit, Reachable true w ∧ w.Quiet () ∧
    (w.passengers ()).trip = some ⟨some false, .waitingForPickup⟩ ∧
    (w.drivers false).trips = [⟨some (), .movingToPickup⟩, ⟨none, .completedTrip⟩] ∧
    (w.drivers true).trips = [⟨some (), .receivedTrip⟩, ⟨none, .completedTrip⟩] ∧
    (w.drivers false).exitedMarket = false := by
  refine ⟨_, reachable_of_exec overbooked rfl, ⟨?_, ?_, fun d _ ↦ ?_⟩, ?_⟩
  · decide +kernel
  · decide +kernel
  · revert d
    decide +kernel
  · decide +kernel

theorem in_step_overbooked : ∃ w : World Bool Unit, Reachable true w ∧
    ∃ t ∈ (w.drivers false).trips, t.passenger = some () ∧ t.state.final = false ∧
      (PassengerState.waitingForPickup, t.state) ∈ stages := by
  obtain ⟨w, hreach, hq, htrip, -, -, hin⟩ := overbooked_spec
  refine ⟨w, hreach, ?_⟩
  rcases (in_step hreach hq).1 _ false htrip rfl (by decide) rfl with h | h | h
  · exact h
  · rw [hin] at h
    cases h
  · exact absurd h.1 (by decide)

theorem driven_by_named_overbooked : ∃ w : World Bool Unit, Reachable true w ∧
    w.Names () false ∧ ∀ d, w.Drives d () → d = false := by
  obtain ⟨w, hreach, -, -, htrips, -⟩ := overbooked_spec
  refine ⟨w, hreach, (driven_by_named hreach).1 false () ⟨⟨some (), .movingToPickup⟩, ?_, rfl, rfl⟩⟩
  rw [htrips]
  exact List.mem_cons_self

/-- A driver on its way logs out. -/
def leftBehind : List (Event Unit Unit) :=
  [.launchDriver (), .launchPassenger (), .listDrivers [()], .listPassengers [()],
    .publish [((), ())], .deliverRequest (), .deliverToPassenger () (),
    .driverStep () { accepts := true }, .deliverToPassenger () (),
    .passengerStep () { accepts := true }, .deliverToDriver () (), .driverStep () {},
    .logoutDriver ()]

/-- A driver turns a request down. -/
def turnedDown : List (Event Unit Unit) :=
  [.launchDriver (), .launchPassenger (), .listDrivers [()], .listPassengers [()],
    .publish [((), ())], .deliverRequest (), .deliverToPassenger () (), .driverStep () {}]

/-- **Left waiting.**  The driver a passenger's trip names has logged out, and none of its trips is
open; or it has turned the request down, and looks for another job. -/
theorem left_waiting :
    (∃ w : World Unit Unit, Reachable true w ∧ w.Quiet () ∧
      (w.passengers ()).trip = some ⟨some (), .waitingForPickup⟩ ∧
      ∀ t ∈ (w.drivers ()).trips, t.state.final = true) ∧
    ∃ w : World Unit Unit, Reachable true w ∧ w.Quiet () ∧
      (w.passengers ()).trip = some ⟨some (), .assignedTrip⟩ ∧
      (w.drivers ()).trips =
        [⟨none, .lookingForJob⟩, ⟨some (), .rejectedTrip⟩, ⟨none, .completedTrip⟩] := by
  constructor
  · refine ⟨_, reachable_of_exec leftBehind rfl, ⟨?_, fun d ↦ ?_, fun d _ ↦ ?_⟩, ?_⟩
    · decide +kernel
    · cases d
      decide +kernel
    · cases d
      decide +kernel
    · decide +kernel
  · refine ⟨_, reachable_of_exec turnedDown rfl, ⟨?_, fun d ↦ ?_, fun d _ ↦ ?_⟩, ?_⟩
    · decide +kernel
    · cases d
      decide +kernel
    · cases d
      decide +kernel
    · decide +kernel

end OpenRide.RideHail
