import Mathlib.Data.List.Basic
import OpenRide.RideHail.Protocol

/-!
# One driver and one passenger

Seen from one driver and one passenger the protocol is small.  What matters is the state `x` of the
driver's trip for the passenger, if there is one in hand, the messages `M` to the passenger and `N`
to the driver, the state `st` of the passenger's trip, and whether that trip names the driver.
`Linked` lists what these may be together:

* before the driver confirms, its `ASSIGNED`s are all that is under way, and the passenger may be
  with anybody else;
* once the passenger has accepted, both are on a ride together and `rides` says how far;
* once the passenger's trip is over, nothing it sends can put a driver on the way that it does not
  name.

A rejection changes nothing for the driver, since its handler raises, and is left out of `N`
(`work`).  This module says that `Linked` is kept by everything the two may do, and by what the
passenger does with other drivers (`Linked.elsewhere`).
-/

namespace OpenRide.RideHail

open Lib

/-! ## The link -/

/-- The state of a trip that is not over. -/
def DriverState.stage (s : DriverState) : Option DriverState := if s.final then none else some s

/-- A passenger's trip after which there is nothing left to drive. -/
def PassengerState.isOver : PassengerState → Bool
  | droppedoff => true
  | completedTrip => true
  | cancelledTrip => true
  | _ => false

theorem PassengerState.isOver_of_final {st : PassengerState} (h : st.final = true) :
    st.isOver = true := by
  cases st <;> simp [final] at h <;> rfl

/-- The events a driver acts on. -/
def work (N : List PassengerEvent) : List PassengerEvent := N.filter (· ≠ .rejectedTrip)

/-- A ride, stage by stage: the driver, the events on their way to the passenger and to the driver,
and the passenger. -/
def rides : List (DriverState × List DriverEvent × List PassengerEvent × PassengerState) :=
  [(.acceptedTrip, [], [.confirmedTrip], .acceptedTrip),
    (.acceptedTrip, [], [.confirmedTrip], .waitingForPickup),
    (.movingToPickup, [], [], .acceptedTrip),
    (.movingToPickup, [], [], .waitingForPickup),
    (.waitingToPickup, [.arrivedForPickup], [], .acceptedTrip),
    (.waitingToPickup, [.arrivedForPickup], [], .waitingForPickup),
    (.waitingToPickup, [], [.acknowledgePickup], .pickedup),
    (.pickedup, [], [], .pickedup),
    (.movingToDropoff, [.moveForDropoff], [], .pickedup),
    (.waitingToDropoff, [.moveForDropoff, .waitingForDropoff], [], .pickedup),
    (.movingToDropoff, [], [], .movingForDropoff),
    (.waitingToDropoff, [.waitingForDropoff], [], .movingForDropoff)]

/-- **How a driver and a passenger are linked.**  `named`: the passenger's trip names the driver;
`turned`: the driver has turned a request for it down; `refused`: the driver was sent a rejection,
or the passenger has left. -/
inductive Linked (named turned refused : Prop) (x : Option DriverState) (M : List ToPassenger)
    (N : List PassengerEvent) (st : PassengerState) : Prop where
  /-- The driver has said nothing but `ASSIGNED`. -/
  | waiting (k : ℕ) (hx : x = none ∨ x = some .receivedTrip)
      (hM : M = List.replicate k .assigned) (hN : N = []) (hst : named → st = .assignedTrip)
      (hturned : x = none → 0 < k ∨ named → turned)
      (hrefused : x = some .receivedTrip → k = 0 → named ∨ refused)
  /-- The driver's confirmation is on its way. -/
  | confirming (k : ℕ) (hx : x = some .acceptedTrip)
      (hM : M = List.replicate k .assigned ++ [.workflowEvent .confirmedTrip]) (hN : N = [])
      (hst : named → st = .assignedTrip) (hrefused : k = 0 → named ∨ refused)
  /-- The confirmation has been heard, dropped or turned down. -/
  | confirmed (hx : x = some .acceptedTrip) (hM : M = []) (hN : N = [])
      (hst : named → st = .requestedTrip ∨ st = .receivedTripConfirmation)
      (hrefused : named ∧ st ≠ .requestedTrip ∨ refused)
  /-- They ride together. -/
  | riding (s : DriverState) (events : List DriverEvent) (hride : (s, events, N, st) ∈ rides)
      (hx : x = some s) (hM : M = events.map .workflowEvent) (hnamed : named)
  /-- The passenger's trip is over. -/
  | ended (hst : st.isOver = true) (hway : ∀ s ∈ x, s.isOnTheWay = true → named)
      (hconfirmed : .confirmedTrip ∈ N → named)
      (hengaged : ∀ s ∈ x, s.isOnTheWay = true ∨
        (s = .receivedTrip ∨ s = .acceptedTrip) ∧ (named ∨ .assigned ∈ M ∨ refused))

variable {named turned refused : Prop} {x : Option DriverState} {M : List ToPassenger}
  {N : List PassengerEvent} {s : DriverState} {st : PassengerState}

@[simp] theorem work_nil : work [] = [] := rfl

theorem work_rejected (N : List PassengerEvent) : work (.rejectedTrip :: N) = work N := rfl

variable {e : PassengerEvent}

theorem work_cons (h : e ≠ .rejectedTrip) (N : List PassengerEvent) :
    work (e :: N) = e :: work N := by
  simp [work, h]

@[simp] theorem work_append (N N' : List PassengerEvent) : work (N ++ N') = work N ++ work N' :=
  List.filter_append ..

theorem DriverState.stage_of_not_final (h : s.final = false) : s.stage = some s := by
  simp [stage, h]

theorem DriverState.stage_of_final (h : s.final = true) : s.stage = none := by
  simp [stage, h]

theorem DriverState.stage_of_isOnTheWay (h : s.isOnTheWay = true) : s.stage = some s :=
  stage_of_not_final (not_final_of_isOnTheWay h)

theorem DriverState.mem_stage {s' : DriverState} (h : s' ∈ s.stage) : s' = s := by
  unfold stage at h
  split at h
  · cases h
  · exact (Option.some.inj h).symm

/-- Who is on the way is named. -/
theorem Linked.named_of_isOnTheWay (h : Linked named turned refused (some s) M N st)
    (hs : s.isOnTheWay = true) : named := by
  cases h with
  | waiting k hx =>
    obtain hx | hx := hx
    · cases hx
    · rw [Option.some.inj hx] at hs
      cases hs
  | confirming k hx =>
    rw [Option.some.inj hx] at hs
    cases hs
  | confirmed hx =>
    rw [Option.some.inj hx] at hs
    cases hs
  | riding s' events hride hx hM hnamed => exact hnamed
  | ended hst hway => exact hway s rfl hs

theorem Linked.engaged (h : Linked named turned refused x M N st) :
    ∀ s ∈ x, s.isOnTheWay = true ∨ s = .receivedTrip ∨ s = .acceptedTrip := by
  intro s hs
  cases h with
  | waiting k hx =>
    obtain rfl | rfl := hx
    · cases hs
    · exact .inr (.inl (Option.some.inj hs).symm)
  | confirming k hx => exact .inr (.inr (Option.some.inj (hs.symm.trans hx)))
  | confirmed hx => exact .inr (.inr (Option.some.inj (hs.symm.trans hx)))
  | riding s' events hride hx =>
    obtain rfl := Option.some.inj (hs.symm.trans hx)
    have hrows : ∀ row ∈ rides, row.1.isOnTheWay = true ∨ row.1 = .acceptedTrip := by decide
    exact (hrows _ hride).imp_right .inr
  | ended hst hway hconfirmed hengaged => exact (hengaged s hs).imp_right And.left

/-! ## What the driver does -/

/-- The link asks no more of the two when the driver has turned something down, or was refused. -/
theorem Linked.mono {turned' refused' : Prop} (h : Linked named turned refused x M N st)
    (ht : turned → turned') (hr : refused → refused') :
    Linked named turned' refused' x M N st := by
  cases h with
  | waiting k hx hM hN hst hturned hrefused =>
    exact .waiting k hx hM hN hst (fun hx h ↦ ht (hturned hx h))
      fun hx hk ↦ (hrefused hx hk).imp_right hr
  | confirming k hx hM hN hst hrefused =>
    exact .confirming k hx hM hN hst fun hk ↦ (hrefused hk).imp_right hr
  | confirmed hx hM hN hst hrefused => exact .confirmed hx hM hN hst (hrefused.imp_right hr)
  | riding s events hride hx hM hnamed => exact .riding s events hride hx hM hnamed
  | ended hst hway hconfirmed hengaged =>
    exact .ended hst hway hconfirmed fun s hs ↦
      (hengaged s hs).imp_right (And.imp_right (Or.imp_right (Or.imp_right hr)))

/-- A driver with no trip for the passenger, once all is over. -/
theorem Linked.ended_none (hst : st.isOver = true) (hconfirmed : .confirmedTrip ∈ N → named) :
    Linked named turned refused none M N st :=
  .ended hst (fun s hs ↦ by cases hs) hconfirmed fun s hs ↦ by cases hs

/-- The driver turns to somebody else's trip, after turning this one down. -/
theorem Linked.turnDown (h : Linked named turned refused (some .receivedTrip) M N st) :
    Linked named True refused none M N st := by
  cases h with
  | waiting k hx hM hN hst =>
    exact .waiting k (.inl rfl) hM hN hst (fun _ _ ↦ trivial) fun hx ↦ by cases hx
  | confirming k hx => cases hx
  | confirmed hx => cases hx
  | riding s events hride hx =>
    cases hx
    revert hride
    simp [rides]
  | ended hst _ hconfirmed => exact .ended_none hst hconfirmed

theorem Linked.recieve (h : Linked named turned refused none M N st) :
    Linked named turned refused (some .receivedTrip) (M ++ [.assigned]) N st := by
  cases h with
  | waiting k hx hM hN hst hturned =>
    refine .waiting (k + 1) (.inr rfl) ?_ hN hst (fun h ↦ by cases h) fun _ hk ↦ by cases hk
    rw [hM, List.replicate_succ']
  | confirming k hx => cases hx
  | confirmed hx => cases hx
  | riding s events hride hx => cases hx
  | ended hst _ hconfirmed =>
    refine .ended hst (fun s hs hway ↦ ?_) hconfirmed fun s hs ↦ .inr ⟨.inl ?_, .inr (.inl ?_)⟩
    · cases hs
      cases hway
    · exact (Option.some.inj hs).symm
    · simp

theorem Linked.confirm (h : Linked named turned refused (some .receivedTrip) M N st) :
    Linked named turned refused (some .acceptedTrip)
      (M ++ [.workflowEvent .confirmedTrip]) N st := by
  cases h with
  | waiting k hx hM hN hst hturned hrefused =>
    exact .confirming k rfl (by rw [hM]) hN hst (hrefused rfl)
  | confirming k hx => cases hx
  | confirmed hx => cases hx
  | riding s events hride hx =>
    cases hx
    revert hride
    simp [rides]
  | ended hst _ hconfirmed hengaged =>
    refine .ended hst (fun s hs hway ↦ ?_) hconfirmed fun s hs ↦ .inr ⟨.inr ?_, ?_⟩
    · cases hs
      cases hway
    · exact (Option.some.inj hs).symm
    · obtain h | ⟨-, h⟩ := hengaged _ rfl
      · cases h
      · exact h.imp_right (Or.imp_left (List.mem_append_left _))

/-- The passenger's trip ends, and its own driver may still hear of it. -/
theorem Linked.ends (hnamed : named) (hst : st.isOver = true)
    (hx : ∀ s ∈ x, s.isOnTheWay = true ∨ s = .receivedTrip ∨ s = .acceptedTrip) :
    Linked named turned refused x M N st :=
  .ended hst (fun _ _ _ ↦ hnamed) (fun _ ↦ hnamed) fun s hs ↦
    (hx s hs).imp_right fun h ↦ ⟨h, .inl hnamed⟩

/-- A driver on the way goes on by itself: the next row of the table. -/
theorem Linked.goOn {s' : DriverState} {e : DriverEvent}
    (h : Linked named turned refused (some s) M N st) (hs : s.isOnTheWay = true)
    (hs' : s'.isOnTheWay = true)
    (hrow : ∀ row ∈ rides, row.1 = s → (s', row.2.1 ++ [e], row.2.2.1, row.2.2.2) ∈ rides) :
    Linked named turned refused (some s') (M ++ [.workflowEvent e]) N st := by
  have hnamed := h.named_of_isOnTheWay hs
  cases h with
  | waiting k hx =>
    obtain hx | hx := hx
    · cases hx
    · rw [Option.some.inj hx] at hs
      cases hs
  | confirming k hx =>
    rw [Option.some.inj hx] at hs
    cases hs
  | confirmed hx =>
    rw [Option.some.inj hx] at hs
    cases hs
  | riding s events hride hx hM =>
    cases hx
    exact .riding s' (events ++ [e])
      (hrow _ hride rfl) rfl (by rw [hM, List.map_append]; rfl) hnamed
  | ended hst => exact .ends hnamed hst fun s hs ↦ .inl (Option.some.inj hs ▸ hs')

theorem Linked.endTrip (h : Linked named turned refused (some s) M N st)
    (hs : s ∈ DriverTransition.endTrip.sources) : Linked named turned refused none M N st := by
  cases h with
  | waiting k hx =>
    obtain hx | hx := hx
    · cases hx
    · rw [Option.some.inj hx] at hs
      exact absurd hs (by decide)
  | confirming k hx =>
    rw [Option.some.inj hx] at hs
    exact absurd hs (by decide)
  | confirmed hx =>
    rw [Option.some.inj hx] at hs
    exact absurd hs (by decide)
  | riding s events hride hx =>
    cases hx
    have hrows : ∀ row ∈ rides, row.1 ∉ DriverTransition.endTrip.sources := by decide
    exact absurd hs (hrows _ hride)
  | ended hst _ hconfirmed => exact .ended_none hst hconfirmed

/-! ## What the driver hears -/

/-- The transition a handler of `PassengerInteractionMixin` makes, if it gets that far. -/
def PassengerEvent.transition : PassengerEvent → Option DriverTransition
  | confirmedTrip => some .passengerConfirmedTrip
  | rejectedTrip => none
  | cancelTrip => some .passengerCancelledTrip
  | acknowledgePickup => some .passengerAcknowledgePickup
  | acknowledgeDropoff => some .passengerAcknowledgeDropoff

/-- The state of the driver's trip after an event of its passenger. -/
def PassengerEvent.heard (e : PassengerEvent) (s : DriverState) : DriverState :=
  (e.transition.bind fun t ↦ t.next s).getD s

theorem PassengerEvent.heard_cases (e : PassengerEvent) (s : DriverState) :
    (e.heard s).final = true ∨ (e.heard s).isOnTheWay = true ∨ e.heard s = s := by
  cases e <;> cases s <;> decide

theorem PassengerEvent.isOnTheWay_of_heard (he : e ≠ .confirmedTrip)
    (h : (e.heard s).isOnTheWay = true) : s.isOnTheWay = true := by
  cases e <;> cases s <;> first | rfl | exact absurd rfl he | cases h

variable {events : List DriverEvent}

/-- On a ride an event to the driver leads to the next row. -/
theorem rides_heard (h : (s, events, e :: N, st) ∈ rides) :
    (e.heard s, events, N, st) ∈ rides ∧ (e.heard s).final = false ∧
      s.isPassengerChannelOpen = true := by
  have hrows : ∀ row ∈ rides, ∀ e ∈ row.2.2.1.head?,
      (e.heard row.1, row.2.1, row.2.2.1.tail, row.2.2.2) ∈ rides ∧
        (e.heard row.1).final = false ∧ row.1.isPassengerChannelOpen = true := by decide
  exact hrows _ h e rfl

theorem Linked.hears (h : Linked named turned refused s.stage M (work (e :: N)) st) :
    Linked named turned refused (e.heard s).stage M (work N) st := by
  by_cases he : e = .rejectedTrip
  · subst he
    exact h
  rw [work_cons he] at h
  cases h with
  | waiting k hx hM hN => cases hN
  | confirming k hx hM hN => cases hN
  | confirmed hx hM hN => cases hN
  | riding s' events hride hx hM hnamed =>
    obtain rfl := DriverState.mem_stage hx
    obtain ⟨hride, hopen, -⟩ := rides_heard hride
    exact .riding _ events hride (DriverState.stage_of_not_final hopen) hM hnamed
  | ended hst hway hconfirmed hengaged =>
    refine .ended hst (fun s' hs' hway' ↦ ?_) (fun h ↦ hconfirmed (List.mem_cons_of_mem _ h))
      fun s' hs' ↦ ?_
    · obtain rfl := DriverState.mem_stage hs'
      by_cases hc : e = .confirmedTrip
      · exact hconfirmed (by simp [hc])
      · have hs := PassengerEvent.isOnTheWay_of_heard hc hway'
        exact hway s (DriverState.stage_of_isOnTheWay hs) hs
    · obtain rfl := DriverState.mem_stage hs'
      rcases PassengerEvent.heard_cases e s with h | h | h
      · rw [DriverState.stage_of_final h] at hs'
        cases hs'
      · exact .inl h
      · rw [h] at hs' ⊢
        exact hengaged s hs'

theorem Linked.unheard (h : Linked named turned refused x M (work (e :: N)) st)
    (hx : ∀ s ∈ x, s.isPassengerChannelOpen = false) :
    Linked named turned refused x M (work N) st := by
  by_cases he : e = .rejectedTrip
  · subst he
    exact h
  rw [work_cons he] at h
  cases h with
  | waiting k _ hM hN => cases hN
  | confirming k _ hM hN => cases hN
  | confirmed _ hM hN => cases hN
  | riding s events hride hs =>
    obtain ⟨-, -, hopen⟩ := rides_heard hride
    exact absurd hopen (Bool.eq_false_iff.mp (hx s hs))
  | ended hst hway hconfirmed hengaged =>
    exact .ended hst hway (fun h ↦ hconfirmed (List.mem_cons_of_mem _ h)) hengaged

/-! ## What the passenger does -/

/-- What a passenger does with other drivers is nothing to a driver it does not name. -/
theorem Linked.elsewhere {st' : PassengerState} (h : Linked named turned refused x M N st)
    (hnamed : ¬named) (hover : st.isOver = true → st'.isOver = true) :
    Linked named turned refused x M N st' := by
  cases h with
  | waiting k hx hM hN _ hturned hrefused =>
    exact .waiting k hx hM hN (fun h ↦ absurd h hnamed) hturned hrefused
  | confirming k hx hM hN _ hrefused =>
    exact .confirming k hx hM hN (fun h ↦ absurd h hnamed) hrefused
  | confirmed hx hM hN _ hrefused =>
    exact .confirmed hx hM hN (fun h ↦ absurd h hnamed)
      (hrefused.imp_left fun h ↦ absurd h.1 hnamed)
  | riding _ _ _ _ _ h => exact absurd h hnamed
  | ended hst hway hconfirmed hengaged => exact .ended (hover hst) hway hconfirmed hengaged

theorem Linked.assignElsewhere (h : Linked named turned refused x M N .requestedTrip) :
    Linked False turned refused x M N .assignedTrip := by
  cases h with
  | waiting k hx hM hN hst hturned hrefused =>
    have hn : ¬named := fun h ↦ by cases hst h
    exact .waiting k hx hM hN False.elim (fun hx h ↦ hturned hx (h.imp_right False.elim))
      fun hx hk ↦ .inr ((hrefused hx hk).resolve_left hn)
  | confirming k hx hM hN hst hrefused =>
    have hn : ¬named := fun h ↦ by cases hst h
    exact .confirming k hx hM hN False.elim fun hk ↦ .inr ((hrefused hk).resolve_left hn)
  | confirmed hx hM hN hst hrefused =>
    exact .confirmed hx hM hN False.elim (.inr (hrefused.resolve_left fun h ↦ h.2 rfl))
  | riding s events hride =>
    revert hride
    simp [rides]
  | ended hst => cases hst

/-- An `ASSIGNED` arrives before any event of its driver, unless all is over. -/
theorem Linked.assigned_first
    (h : Linked named turned refused x (events.map .workflowEvent ++ .assigned :: M) N st) :
    st.isOver = true ∨ events = [] := by
  cases events with
  | nil => exact .inr rfl
  | cons e events =>
    left
    cases h with
    | waiting k hx hM =>
      have hmem : ToPassenger.workflowEvent e ∈ List.replicate k ToPassenger.assigned := by
        rw [← hM]
        simp
      cases List.eq_of_mem_replicate hmem
    | confirming k hx hM =>
      cases k with
      | zero => simp at hM
      | succ k => simp [List.replicate_succ] at hM
    | confirmed hx hM => simp at hM
    | riding s events' hride hx hM =>
      have hmem : ToPassenger.assigned ∈ events'.map ToPassenger.workflowEvent := by
        rw [← hM]
        simp
      simp at hmem
    | ended hst => exact hst

/-- The trip is assigned to the driver whose `ASSIGNED` comes first. -/
theorem Linked.assign {M' : List ToPassenger}
    (h : Linked named turned refused x M' N .requestedTrip)
    (hM' : M' = .assigned :: M) : Linked True turned refused x M N .assignedTrip := by
  cases h with
  | waiting k hx hM hN hst hturned =>
    cases k with
    | zero => simp [hM'] at hM
    | succ k =>
      rw [hM', List.replicate_succ, List.cons.injEq] at hM
      exact .waiting k hx hM.2 hN (fun _ ↦ rfl) (fun hx _ ↦ hturned hx (.inl k.succ_pos))
        fun _ _ ↦ .inl trivial
  | confirming k hx hM hN hst =>
    cases k with
    | zero => simp [hM'] at hM
    | succ k =>
      rw [hM', List.replicate_succ, List.cons_append, List.cons.injEq] at hM
      exact .confirming k hx hM.2 hN (fun _ ↦ rfl) fun _ ↦ .inl trivial
  | confirmed hx hM => simp [hM'] at hM
  | riding s events hride =>
    revert hride
    simp [rides]
  | ended hst => cases hst

/-- Once the passenger's trip is over and the driver refused, what the passenger is sent is of no
account. -/
theorem Linked.of_isOver {M' : List ToPassenger} (h : Linked named turned refused x M N st)
    (hst : st.isOver = true) : Linked named turned True x M' N st := by
  have hengaged : ∀ s ∈ x, s.isOnTheWay = true ∨
      (s = .receivedTrip ∨ s = .acceptedTrip) ∧ (named ∨ .assigned ∈ M' ∨ True) :=
    fun s hs ↦ (h.engaged s hs).imp_right fun hs ↦ ⟨hs, .inr (.inr trivial)⟩
  refine .ended hst (fun s hs hway ↦ ?_) (fun hconfirmed ↦ ?_) hengaged
  · rw [Option.mem_def.mp hs] at h
    exact h.named_of_isOnTheWay hway
  · cases h with
    | waiting k hx hM hN =>
      rw [hN] at hconfirmed
      cases hconfirmed
    | confirming k hx hM hN =>
      rw [hN] at hconfirmed
      cases hconfirmed
    | confirmed hx hM hN =>
      rw [hN] at hconfirmed
      cases hconfirmed
    | riding _ _ _ _ _ hnamed => exact hnamed
    | ended _ _ h => exact h hconfirmed

/-- A driver that comes second is turned away, and refused. -/
theorem Linked.turnAway
    (h : Linked named turned refused x (events.map .workflowEvent ++ .assigned :: M) N st) :
    Linked named turned True x (events.map .workflowEvent ++ M) N st := by
  obtain hover | rfl := h.assigned_first
  · exact h.of_isOver hover
  cases h with
  | waiting k hx hM hN hst hturned =>
    cases k with
    | zero => cases hM
    | succ k =>
      rw [List.replicate_succ, List.map_nil, List.nil_append, List.cons.injEq] at hM
      exact .waiting k hx hM.2 hN hst (fun hx h ↦ hturned hx (h.imp_left fun _ ↦ k.succ_pos))
        fun _ _ ↦ .inr trivial
  | confirming k hx hM hN hst =>
    cases k with
    | zero => simp at hM
    | succ k =>
      rw [List.replicate_succ, List.map_nil, List.nil_append, List.cons_append,
        List.cons.injEq] at hM
      exact .confirming k hx hM.2 hN hst fun _ ↦ .inr trivial
  | confirmed hx hM => cases hM
  | riding s events hride hx hM =>
    cases events with
    | nil => cases hM
    | cons e events => simp at hM
  | ended hst hway hconfirmed hengaged =>
    exact .ended hst hway hconfirmed fun s hs ↦
      (hengaged s hs).imp_right (And.imp_right (Or.imp_right fun _ ↦ .inr trivial))

/-- The events a transition publishes, if the server accepts it. -/
def PassengerTransition.sends (t : PassengerTransition) (st : PassengerState) :
    List PassengerEvent :=
  if st ∈ t.sources then t.event.toList else []

/-- On a ride an event to the passenger leads to the next row, or to the end of the trip. -/
theorem rides_answered {e : DriverEvent} (h : (s, e :: events, N, st) ∈ rides) :
    ((s, events, N ++ work ((PassengerTrip.transitionOf e).sends st),
        ((PassengerTrip.transitionOf e).next st).getD st) ∈ rides ∨
      (((PassengerTrip.transitionOf e).next st).getD st).isOver = true) ∧
      st.isDriverChannelOpen = true := by
  have hrows : ∀ row ∈ rides, ∀ e ∈ row.2.1.head?,
      ((row.1, row.2.1.tail, row.2.2.1 ++ work ((PassengerTrip.transitionOf e).sends row.2.2.2),
        ((PassengerTrip.transitionOf e).next row.2.2.2).getD row.2.2.2) ∈ rides ∨
      (((PassengerTrip.transitionOf e).next row.2.2.2).getD row.2.2.2).isOver = true) ∧
      row.2.2.2.isDriverChannelOpen = true := by decide
  exact hrows _ h e rfl

theorem Linked.answers {e : DriverEvent}
    (h : Linked named turned refused x (.workflowEvent e :: M) N st)
    (hnamed : named) (hopen : st.isDriverChannelOpen = true) :
    Linked named turned refused x M (N ++ work ((PassengerTrip.transitionOf e).sends st))
      (((PassengerTrip.transitionOf e).next st).getD st) := by
  have hengaged := h.engaged
  cases h with
  | waiting k hx hM =>
    cases k with
    | zero => cases hM
    | succ k => simp [List.replicate_succ] at hM
  | confirming k hx hM hN hst =>
    cases k with
    | zero =>
      obtain ⟨rfl, rfl⟩ := hM
      obtain rfl := hst hnamed
      exact .confirmed hx rfl (by rw [hN]; rfl) (fun _ ↦ .inr rfl)
        (.inl ⟨hnamed, fun h ↦ by cases h⟩)
    | succ k => simp [List.replicate_succ] at hM
  | confirmed hx hM => cases hM
  | riding s events hride hx hM =>
    cases events with
    | nil => cases hM
    | cons e' events =>
      obtain ⟨rfl, rfl⟩ := hM
      obtain hride | hover := (rides_answered hride).1
      · exact .riding s events hride hx rfl hnamed
      · exact .ends hnamed hover hengaged
  | ended hst => cases st <;> simp [PassengerState.isOver] at hst <;> cases hopen

/-- An event is dropped unless its driver is named and the passenger's channel is open. -/
theorem Linked.unanswered {e : DriverEvent}
    (h : Linked named turned refused x (.workflowEvent e :: M) N st)
    (hclosed : named → st.isDriverChannelOpen = false) :
    Linked named turned refused x M N st := by
  cases h with
  | waiting k hx hM =>
    cases k with
    | zero => cases hM
    | succ k => simp [List.replicate_succ] at hM
  | confirming k hx hM hN hst hrefused =>
    have hn : ¬named := by
      intro hnamed
      have hopen := hclosed hnamed
      rw [hst hnamed] at hopen
      cases hopen
    cases k with
    | zero =>
      simp only [List.replicate_zero, List.nil_append, List.cons.injEq] at hM
      exact .confirmed hx hM.2 hN (fun h ↦ absurd h hn) (.inr ((hrefused rfl).resolve_left hn))
    | succ k => simp [List.replicate_succ] at hM
  | confirmed hx hM => cases hM
  | riding s events hride hx hM hnamed =>
    cases events with
    | nil => cases hM
    | cons e' events => exact absurd (hclosed hnamed) (by simp [(rides_answered hride).2])
  | ended hst hway hconfirmed hengaged =>
    exact .ended hst hway hconfirmed fun s hs ↦ by simpa using hengaged s hs

/-- The states in which the passenger acts by itself, with the transitions it makes there. -/
def PassengerState.acts : PassengerState → List PassengerTransition
  | requestedTrip => [.cancel]
  | receivedTripConfirmation => [.accept, .reject]
  | acceptedTrip => [.waitForPickup]
  | droppedoff => [.endTrip]
  | _ => []

/-- The passenger acts, and its own driver may be told. -/
theorem Linked.acts {t : PassengerTransition} (h : Linked named turned refused x M N st)
    (hnamed : named) (ht : t ∈ st.acts) :
    Linked named turned (refused ∨ .rejectedTrip ∈ t.sends st) x M (N ++ work (t.sends st))
      ((t.next st).getD st) := by
  have hover : t = .cancel ∨ t = .endTrip → ((t.next st).getD st).isOver = true := by
    rintro (rfl | rfl) <;> cases st <;> simp [PassengerState.acts] at ht <;> rfl
  have hengaged := h.engaged
  cases h with
  | waiting k hx hM hN hst hturned =>
    rw [hst hnamed] at ht
    cases ht
  | confirming k hx hM hN hst =>
    rw [hst hnamed] at ht
    cases ht
  | confirmed hx hM hN hst =>
    obtain rfl | rfl := hst hnamed
    · exact .ends hnamed (hover (.inl (by simpa [PassengerState.acts] using ht))) hengaged
    · simp only [PassengerState.acts, List.mem_cons, List.not_mem_nil, or_false] at ht
      obtain rfl | rfl := ht
      · exact .riding .acceptedTrip [] (by rw [hN]; decide) hx hM hnamed
      · exact .confirmed hx hM (by rw [hN]; rfl) (fun _ ↦ .inl rfl) (.inr (.inr (by decide)))
  | riding s events hride hx hM =>
    have hrows : ∀ row ∈ rides, ∀ t ∈ row.2.2.2.acts,
        (row.1, row.2.1, row.2.2.1 ++ work (t.sends row.2.2.2),
          (t.next row.2.2.2).getD row.2.2.2) ∈ rides := by decide
    exact .riding s events (hrows _ hride t ht) hx hM hnamed
  | ended hst =>
    refine .ends hnamed ?_ hengaged
    cases st <;> simp [PassengerState.isOver] at hst <;> simp [PassengerState.acts] at ht
    subst ht
    rfl

end OpenRide.RideHail
