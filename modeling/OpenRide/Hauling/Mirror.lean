import Mathlib.Data.List.Chain
import OpenRide.Hauling.System
import OpenRide.OrderLifecycle.Redelivery

/-!
# The order document mirrors its haul trip

Three artefacts decide what an order document says about its haul trip: the state machine of the
trip, the table of the events its transitions emit, and the fold of the batch writer.  They meet in
the state machine of the order.  Each transition of a trip is a step of the order machine or no step
at all (`transition_simulates`), so the events a trip has emitted walk that machine from
`unassigned` to the image of the trip's state.  The document stands at some point of the walk
(`Absorbed`), and the queued events are the rest of it; a drain moves the document along, and the
sweep can touch it only before its first event.

`order_mirrors_trip` is what follows when the queue holds nothing about the order any more.  A trip
cancelled before it was assigned never told anybody its truck (`cancelled_without_truck`).
-/

namespace OpenRide.Hauling

open Lib Haulage OrderLifecycle

/-! ## The walk of a trip through the order machine -/

/-- The order state that a state of the haul trip stands for. -/
def orderImage : HaulState → OrderState
  | .created => .unassigned
  | .assigned => .assigned
  | .repositioningToPickup => .assigned
  | .queuedForPickup => .assigned
  | .atPickupGate => .pickupInProgress
  | .loadedInTransit => .inTransit
  | .queuedForDropoff => .inTransit
  | .atDropoffGate => .dropoffInProgress
  | .completed => .completed
  | .cancelled => .cancelled

/-- The order state a transition announces, if any. -/
def announces (tr : HaulTransition) : List OrderState :=
  ((orderRule tr).map OrderInteraction.targetNewState).toList

/-- The order states a trip has announced so far. -/
def HaulDoc.announced (t : HaulDoc) : List OrderState := t.made.flatMap announces

/-- A walk of the order machine from a state. -/
def Walk (a : OrderState) (l : List OrderState) : Prop := (a :: l).IsChain fun s t ↦ t ∈ adjacent s

/-- **A transition of a trip is a step of its order, or none.** -/
theorem transition_simulates {tr : HaulTransition} {s : HaulState} (h : s ∈ tr.sources) :
    (announces tr = [] ∧ orderImage tr.target = orderImage s) ∨
      (announces tr = [orderImage tr.target] ∧
        orderImage tr.target ∈ adjacent (orderImage s)) := by
  revert h
  cases tr <;> cases s <;> decide

variable {l : List OrderState}

variable {a : OrderState}

theorem walk_snoc {b : OrderState} :
    Walk a (l ++ [b]) ↔ Walk a l ∧ b ∈ adjacent (l.getLastD a) := by
  induction l generalizing a with
  | nil => simp [Walk]
  | cons c l ih =>
    have h : Walk a (c :: (l ++ [b])) ↔ c ∈ adjacent a ∧ Walk c (l ++ [b]) :=
      List.isChain_cons_cons
    have h' : Walk a (c :: l) ↔ c ∈ adjacent a ∧ Walk c l := List.isChain_cons_cons
    rw [List.cons_append, h, h', ih, and_assoc, List.getLastD_cons]

theorem Walk.left {l' : List OrderState} (h : Walk a (l ++ l')) : Walk a l :=
  List.IsChain.left_of_append (show ((a :: l) ++ l').IsChain _ from h)

/-- Nothing leads back to a state in which an order waits. -/
theorem Walk.not_waiting (h : Walk a l) (ha : a ≠ .created) :
    ∀ s ∈ l, s ≠ .created ∧ s ≠ .unassigned := by
  induction l generalizing a with
  | nil => exact nofun
  | cons b l ih =>
    obtain ⟨hb, h⟩ := List.isChain_cons_cons.mp h
    have hne : b ≠ .created ∧ b ≠ .unassigned := by
      revert hb ha
      cases a <;> cases b <;> decide
    exact List.forall_mem_cons.mpr ⟨hne, ih h hne.1⟩

/-- A walk of an order that waits starts with the assignment, or is a cancel and nothing else. -/
theorem Walk.head {s : OrderState} (h : Walk .unassigned (s :: l)) :
    s = .assigned ∨ (s = .cancelled ∧ l = []) := by
  obtain ⟨hs, h⟩ := List.isChain_cons_cons.mp h
  have hs' : s = .assigned ∨ s = .cancelled := by
    revert hs
    cases s <;> decide
  refine hs'.imp_right fun hc ↦ ⟨hc, ?_⟩
  subst hc
  cases l with
  | nil => rfl
  | cons t l =>
    have ht := (List.isChain_cons_cons.mp h).1
    exact absurd ht List.not_mem_nil

/-- A trip as its transitions made it: its announcements walk to the image of its state. -/
def HaulDoc.Sound (t : HaulDoc) : Prop :=
  Walk .unassigned t.announced ∧ t.announced.getLastD .unassigned = orderImage t.state

theorem HaulDoc.announced_transition (t : HaulDoc) (tr : HaulTransition)
    (simClock : Option RawClock) :
    (t.transition tr simClock).announced = t.announced ++ announces tr := by
  rw [HaulDoc.announced, HaulDoc.announced, HaulDoc.transition, List.flatMap_append,
    List.flatMap_singleton]

theorem HaulDoc.Sound.transition {t : HaulDoc} (h : t.Sound) {tr : HaulTransition}
    (hs : t.state ∈ tr.sources) (simClock : Option RawClock) :
    (t.transition tr simClock).Sound := by
  rw [HaulDoc.Sound, t.announced_transition]
  rcases transition_simulates hs with ⟨hno, himg⟩ | ⟨hone, hadj⟩
  · rw [hno, List.append_nil]
    exact ⟨h.1, h.2.trans himg.symm⟩
  · rw [hone]
    refine ⟨walk_snoc.mpr ⟨h.1, ?_⟩, List.getLastD_concat⟩
    rw [h.2]
    exact hadj

/-! ## How far a document has got -/

/-- Nothing about the order has been applied: it is unassigned, unless the sweep took it. -/
def Waiting (d : OrderDoc) : Prop :=
  (d.state = .unassigned ∧ d.cancelReason = none) ∨ d.advisory = true

/-- The document of an order that has taken in these states of its walk. -/
def Absorbed (truck : Id) (d : OrderDoc) : List OrderState → Prop
  | [] => Waiting d
  | s :: l => d.state = l.getLastD s ∧
      (s = .assigned → d.truck = some truck.val ∧ d.cancelReason = none)

variable {d : OrderDoc}

variable {truck : Id}

theorem Absorbed.state_eq (h : Absorbed truck d l) (hl : l ≠ []) (a : OrderState) :
    d.state = l.getLastD a := by
  cases l with
  | nil => exact absurd rfl hl
  | cons s l => rw [List.getLastD_cons]; exact h.1

theorem Waiting.not_stale (h : Waiting d) : d.stale = false := by
  rcases h with ⟨-, hr⟩ | ha
  · exact Bool.eq_false_iff.mpr fun hs ↦ by
      rw [(stale_iff.mp hs).2] at hr
      cases hr
  · exact Bool.eq_false_iff.mpr fun hs ↦ by
      rw [advisory_of_not_terminal (stale_iff.mp hs).1] at ha
      cases ha

theorem Absorbed.not_stale (h : Absorbed truck d l) (hw : Walk .unassigned l) :
    d.stale = false := by
  cases l with
  | nil => exact Waiting.not_stale h
  | cons s l =>
    refine Bool.eq_false_iff.mpr fun hs ↦ ?_
    obtain ⟨hopen, hr⟩ := stale_iff.mp hs
    rcases hw.head with rfl | ⟨rfl, rfl⟩
    · rw [(h.2 rfl).2] at hr
      cases hr
    · rw [h.1] at hopen
      exact absurd hopen (by decide)

/-- **One event moves the document one state along the walk**, and skips none. -/
theorem Absorbed.receive {ev : ParsedEvent} (h : Absorbed truck d l)
    (hw : Walk .unassigned (l ++ [ev.targetState])) (htruck : ev.truckId = some truck.val) :
    (drops d.known ev.targetState = false → d.advisory = false →
      ev.targetState ≠ d.state → ev.targetState ∈ adjacent d.state) ∧
    Absorbed truck (d.receive ev) (l ++ [ev.targetState]) := by
  have hnew : ev.targetState = .assigned → ev.newTruck = some truck.val := by
    intro ha
    have hne : ev.truckId.any (· ≠ "") = true := by
      rw [htruck]
      exact decide_eq_true truck.property
    rw [ParsedEvent.newTruck, if_pos ⟨ha, hne⟩, htruck]
  obtain ⟨hwl, hadj⟩ := walk_snoc.mp hw
  cases l with
  | nil =>
    rcases h with ⟨hst, hr⟩ | ha
    · -- the first event of an order that was waiting
      have hopen : d.state.terminal = false := by rw [hst]; rfl
      obtain ⟨h1, h2, h3⟩ := receive_open hopen ev
      refine ⟨fun _ _ _ ↦ by rw [hst]; exact hadj, h1, fun has ↦ ⟨?_, h3.trans hr⟩⟩
      rw [h2, hnew has]
      rfl
    · refine ⟨fun _ hna ↦ absurd (ha.symm.trans hna) (by simp), ?_⟩
      rcases hw.head with has | ⟨hc, -⟩
      · have hne : d.advisory = true → ev.targetState ≠ .cancelled := fun _ ↦ by rw [has]; decide
        obtain ⟨h1, h2, h3⟩ := receive_of_writable (writable_of_advisory ha) hne
        refine ⟨h1, fun _ ↦ ⟨?_, by rw [h3, ha]; rfl⟩⟩
        rw [h2, hnew has]
        rfl
      · -- a cancel of an order the sweep has cancelled changes nothing
        rw [receive_cancel_of_advisory ha hc]
        refine ⟨(advisory_iff.mp ha).1.trans hc.symm, fun has ↦ ?_⟩
        rw [hc] at has
        cases has
  | cons s l =>
    have hsd : d.state = (s :: l).getLastD .unassigned := h.state_eq (List.cons_ne_nil _ _) _
    rw [← hsd] at hadj
    have hopen : d.state.terminal = false := by
      refine Bool.eq_false_iff.mpr fun ht ↦ ?_
      rw [(adjacent_eq_nil_iff _).mpr ht] at hadj
      exact absurd hadj List.not_mem_nil
    obtain ⟨h1, h2, h3⟩ := receive_open hopen ev
    refine ⟨fun _ _ _ ↦ hadj, ?_, fun has ↦ ?_⟩
    · exact h1.trans List.getLastD_concat.symm
    · obtain ⟨ht, hr⟩ := h.2 has
      refine ⟨?_, h3.trans hr⟩
      rw [h2, ParsedEvent.newTruck, htruck, ht]
      split <;> rfl

/-- **A batch moves the document along the walk.** -/
theorem Absorbed.foldl_receive {es : List ParsedEvent} (h : Absorbed truck d l)
    (hw : Walk .unassigned (l ++ es.map ParsedEvent.targetState))
    (htruck : ∀ ev ∈ es, ev.truckId = some truck.val) :
    Sequential d es ∧
      Absorbed truck (es.foldl OrderDoc.receive d) (l ++ es.map ParsedEvent.targetState) := by
  induction es generalizing d l with
  | nil => exact ⟨trivial, by rwa [List.map_nil, List.append_nil]⟩
  | cons ev es ih =>
    have hsplit : l ++ (ev :: es).map ParsedEvent.targetState =
        (l ++ [ev.targetState]) ++ es.map ParsedEvent.targetState := by simp
    rw [hsplit] at hw ⊢
    obtain ⟨hseq, hstep⟩ := h.receive hw.left (htruck ev List.mem_cons_self)
    obtain ⟨hrest, hall⟩ := ih hstep hw fun e he ↦ htruck e (List.mem_cons_of_mem _ he)
    exact ⟨⟨hseq, hrest⟩, hall⟩

/-! ## The queued events of an order -/

section

variable (strToTime : String → Option ℤ)

/-- What the queued events say about an order: the states they announce, and the truck. -/
def told (events : List (Option Payload)) (oid : String) : List (OrderState × Option String) :=
  (eventsOf (parsedEvents strToTime 0 events) oid).map fun ev ↦ (ev.targetState, ev.truckId)

/-- A trip that announces some states, in the form of `told`. -/
def HaulDoc.tells (t : HaulDoc) (l : List OrderState) : List (OrderState × Option String) :=
  l.map fun s ↦ (s, some t.truck.val)

theorem map_of_sameEvents {es es' : List ParsedEvent} (h : SameEvents es es') :
    es.map (fun ev ↦ (ev.targetState, ev.truckId)) =
      es'.map fun ev ↦ (ev.targetState, ev.truckId) := by
  induction h with
  | nil => rfl
  | cons hab _ ih => rw [List.map_cons, List.map_cons, ih, hab.2.1, hab.2.2]

theorem told_eq (c : ℤ) (events : List (Option Payload)) (oid : String) :
    (eventsOf (parsedEvents strToTime c events) oid).map (fun ev ↦ (ev.targetState, ev.truckId)) =
      told strToTime events oid :=
  map_of_sameEvents ((parsedEvents_sameEvents strToTime c 0 events).eventsOf oid)

theorem told_nil (oid : String) : told strToTime [] oid = [] := rfl

theorem told_append (events events' : List (Option Payload)) (oid : String) :
    told strToTime (events ++ events') oid =
      told strToTime events oid ++ told strToTime events' oid := by
  simp only [told, parsedEvents, eventsOf, List.filterMap_append, List.filter_append,
    List.map_append]

theorem parseEvent_messageTemplate (t : HaulDoc) {rule : OrderInteraction}
    (h : rule ∈ haultripOrderInteractions) (c : ℤ) :
    parseEvent strToTime c (some (t.messageTemplate rule.event.value)) =
      some { orderId := t.order.val
             event := rule.event.value
             targetState := rule.targetNewState
             truckId := some t.truck.val
             simClock := eventClock strToTime t.simClock c } := by
  have hevent : rule.event.value ≠ "" := by
    revert rule
    decide
  simp [parseEvent, HaulDoc.messageTemplate, orElseTruthy, hevent, (interaction_spec h).2,
    t.order.property, t.truck.property, Option.filter_some]

/-- A transition tells its order what it announces, and no other order anything. -/
theorem told_notices (t : HaulDoc) (tr : HaulTransition) (oid : String) :
    told strToTime (t.notices tr) oid =
      if t.order.val = oid then t.tells (announces tr) else [] := by
  rw [HaulDoc.notices, announces]
  cases hr : orderRule tr with
  | none =>
    have hnil : t.tells [] = [] := rfl
    rw [Option.map_none, Option.map_none, Option.toList_none, Option.toList_none, hnil, ite_self]
    rfl
  | some rule =>
    have hp := parseEvent_messageTemplate strToTime t (List.mem_of_find?_eq_some hr) 0
    have hparsed : parsedEvents strToTime 0 [some (t.messageTemplate rule.event.value)] = [_] :=
      List.filterMap_cons_some hp
    show (eventsOf (parsedEvents strToTime 0 [some (t.messageTemplate rule.event.value)]) oid).map _
      = _
    rw [hparsed]
    by_cases ho : t.order.val = oid
    · simp [eventsOf, ho, HaulDoc.tells]
    · simp [eventsOf, ho]

end

/-! ## The invariant -/

/-- The orders some tick has read, or some truck is still to be told of. -/
def World.held (s : World) : List Id := s.tick.orders ++ s.published.map Assignment.order

/-- No trip is about the order. -/
def World.NoTrip (s : World) (oid : String) : Prop :=
  ∀ id ∈ s.trips.map HaulDoc.order, id.val ≠ oid

/-- A document no trip has reached. -/
def Unhauled (d : OrderDoc) : Prop :=
  (d.state = .created ∧ d.cancelReason = none) ∨ Waiting d

section

variable (w : OrderBatchWriter) (strToTime : String → Option ℤ)

/-- The document of a trip's order stands somewhere on the trip's walk, and the queue holds the
rest. -/
def Hauled (orders : Orders) (events : List (Option Payload)) (t : HaulDoc) : Prop :=
  ∃ d done rest, orders.get? t.order.val = some d ∧ d.runId = w.runId ∧
    t.announced = done ++ rest ∧ told strToTime events t.order.val = t.tells rest ∧
    Absorbed t.truck d done

/-- What holds of every state of a run in which no order is on two trips. -/
structure Mirrored (s : World) : Prop where
  quiet : s.warnedJumps = 0
  distinct : (s.trips.map HaulDoc.order).Nodup
  held : ∀ oid ∈ s.held, ∃ d, s.orders.get? oid.val = some d ∧ d.runId = w.runId ∧
    d.state ≠ .created
  untold : ∀ oid, s.NoTrip oid → told strToTime s.events oid = []
  unhauled : ∀ oid, s.NoTrip oid → ∀ d, s.orders.get? oid = some d → d.runId = w.runId →
    Unhauled d
  sound : ∀ t ∈ s.trips, t.Sound
  hauled : ∀ t ∈ s.trips, Hauled w strToTime s.orders s.events t

end

section

variable {w : OrderBatchWriter} {strToTime : String → Option ℤ} {rejectBusy : Bool}

theorem mirrored_start {orders : Orders} (h : Fresh w.runId orders) :
    Mirrored w strToTime { orders := orders } where
  quiet := rfl
  distinct := List.nodup_nil
  held oid hoid := absurd hoid List.not_mem_nil
  untold oid _ := told_nil strToTime oid
  unhauled oid _ d hd hrun := by
    obtain ⟨hst | hst, hr⟩ := h oid d hd hrun
    · exact Or.inl ⟨hst, hr⟩
    · exact Or.inr (Or.inl ⟨hst, hr⟩)
  sound t ht := absurd ht List.not_mem_nil
  hauled t ht := absurd ht List.not_mem_nil

/-! ## The steps of the invariant -/

theorem Absorbed.state_mem {truck : Id} {d : OrderDoc} {l : List OrderState}
    (h : Absorbed truck d l) (hl : l ≠ []) : d.state ∈ l := by
  rw [h.state_eq hl .created, List.getLastD_eq_getLast?, List.getLast?_eq_some_getLast hl,
    Option.getD_some]
  exact List.getLast_mem hl

/-- A document that has taken something in is out of reach of the two sweeps. -/
theorem Absorbed.beyond {truck : Id} {d : OrderDoc} {l : List OrderState}
    (h : Absorbed truck d l) (hw : Walk .unassigned l) :
    d.state ≠ .created ∧ (d.state = .unassigned → l = []) := by
  by_cases hl : l = []
  · subst hl
    refine ⟨?_, fun _ ↦ rfl⟩
    rcases h with ⟨hst, -⟩ | ha
    · rw [hst]; decide
    · rw [(advisory_iff.mp ha).1]; decide
  · have hne := hw.not_waiting (by decide) d.state (h.state_mem hl)
    exact ⟨hne.1, fun hst ↦ absurd hst hne.2⟩

variable {s : World}

/-- A step that touches neither documents nor trips nor events. -/
theorem Mirrored.frame {s' : World} (h : Mirrored w strToTime s) (hd : s'.orders = s.orders)
    (ht : s'.trips = s.trips) (he : s'.events = s.events) (hj : s'.warnedJumps = s.warnedJumps)
    (hheld : ∀ oid ∈ s'.held, oid ∈ s.held ∨ ∃ d, s.orders.get? oid.val = some d ∧
      d.runId = w.runId ∧ d.state ≠ .created)
    : Mirrored w strToTime s' where
  quiet := hj.trans h.quiet
  distinct := by rw [ht]; exact h.distinct
  held oid hoid := by
    rw [hd]
    exact (hheld oid hoid).elim (h.held oid) fun hx ↦ hx
  untold oid hno := by
    rw [World.NoTrip, ht] at hno
    rw [he]
    exact h.untold oid hno
  unhauled oid hno := by
    rw [World.NoTrip, ht] at hno
    rw [hd]
    exact h.unhauled oid hno
  sound := by rw [ht]; exact h.sound
  hauled := by rw [hd, ht, he]; exact h.hauled

/-- A new trip for an order that has none. -/
theorem Mirrored.handle (h : Mirrored w strToTime s) {x : Assignment} (hx : x ∈ s.published)
    (hnew : x.order ∉ s.trips.map HaulDoc.order) (i : ℕ) (simClock : Option RawClock)
    (active : Id → Option ℕ) :
    Mirrored w strToTime { s with
      published := s.published.eraseIdx i
      trips := s.trips ++ [{ truck := x.truck, order := x.order, simClock := simClock }]
      active := active } := by
  have hno : s.NoTrip x.order.val := fun id hid he ↦ hnew (Subtype.ext he ▸ hid)
  have hsub : ∀ {oid}, World.NoTrip { s with
      trips := s.trips ++ [{ truck := x.truck, order := x.order, simClock := simClock }] } oid →
      s.NoTrip oid := by
    intro oid hn id hid
    refine hn id ?_
    rw [List.map_append]
    exact List.mem_append_left _ hid
  refine ⟨h.quiet, ?_, fun oid hoid ↦ h.held oid ?_, fun oid hn ↦ h.untold oid (hsub hn),
    fun oid hn ↦ h.unhauled oid (hsub hn), fun t ht ↦ ?_, fun t ht ↦ ?_⟩
  · rw [List.map_append]
    exact h.distinct.append (List.nodup_singleton _) (List.disjoint_singleton.mpr hnew)
  · rcases List.mem_append.mp hoid with hoid | hoid
    · exact List.mem_append_left _ hoid
    · refine List.mem_append_right _ ?_
      exact ((List.eraseIdx_sublist _ _).map _).subset hoid
  · rcases List.mem_append.mp ht with ht | ht
    · exact h.sound t ht
    · obtain rfl := List.mem_singleton.mp ht
      exact ⟨List.isChain_singleton _, rfl⟩
  · rcases List.mem_append.mp ht with ht | ht
    · exact h.hauled t ht
    · obtain rfl := List.mem_singleton.mp ht
      have hheld : x.order ∈ s.held :=
        List.mem_append_right _ (List.mem_map.mpr ⟨x, hx, rfl⟩)
      obtain ⟨d, hd, hrun, hc⟩ := h.held x.order hheld
      refine ⟨d, [], [], hd, hrun, rfl, h.untold _ hno, ?_⟩
      exact (h.unhauled _ hno d hd hrun).resolve_left fun hcr ↦ hc hcr.1

variable {t : HaulDoc}

theorem map_order_set {trips : List HaulDoc} {k : ℕ} {t' : HaulDoc} (ht : trips[k]? = some t)
    (ho : t'.order = t.order) : (trips.set k t').map HaulDoc.order = trips.map HaulDoc.order := by
  obtain ⟨hk, rfl⟩ := List.getElem?_eq_some_iff.mp ht
  have hk' : k < (trips.map HaulDoc.order).length := by rwa [List.length_map]
  rw [List.map_set, ho, ← List.getElem_map HaulDoc.order (h := hk'), List.set_getElem_self hk']

/-- Of the trips after a step of one of them, the others are as they were, and about other
orders. -/
theorem mem_set_cases {trips : List HaulDoc} (hn : (trips.map HaulDoc.order).Nodup) {k : ℕ}
    {t' u : HaulDoc} (ht : trips[k]? = some t) (hu : u ∈ trips.set k t') :
    u = t' ∨ (u ∈ trips ∧ u.order ≠ t.order) := by
  obtain ⟨j, hj⟩ := List.mem_iff_getElem?.mp hu
  by_cases hkj : k = j
  · subst hkj
    have hk : k < trips.length := (List.getElem?_eq_some_iff.mp ht).1
    rw [List.getElem?_set_self hk] at hj
    exact Or.inl (Option.some_inj.mp hj).symm
  · rw [List.getElem?_set_ne hkj] at hj
    refine Or.inr ⟨List.mem_of_getElem? hj, fun ho ↦ hkj ?_⟩
    have hk : k < (trips.map HaulDoc.order).length := by
      rw [List.length_map]
      exact (List.getElem?_eq_some_iff.mp ht).1
    refine (List.getElem?_inj hk hn).mp ?_
    rw [List.getElem?_map, List.getElem?_map, ht, hj, Option.map_some, Option.map_some, ho]

theorem Mirrored.transition (h : Mirrored w strToTime s) {k : ℕ} (ht : s.trips[k]? = some t)
    {tr : HaulTransition} (hs : t.state ∈ tr.sources) (simClock : Option RawClock) :
    Mirrored w strToTime { s with
      trips := s.trips.set k (t.transition tr simClock)
      events := s.events ++ (t.transition tr simClock).notices tr } := by
  have hmap : (s.trips.set k (t.transition tr simClock)).map HaulDoc.order =
      s.trips.map HaulDoc.order := map_order_set ht rfl
  have htold : ∀ oid, told strToTime (s.events ++ (t.transition tr simClock).notices tr) oid =
      told strToTime s.events oid ++
        if t.order.val = oid then t.tells (announces tr) else [] := by
    intro oid
    rw [told_append, told_notices]
    rfl
  have hmem := List.mem_of_getElem? ht
  refine ⟨h.quiet, ?_, h.held, fun oid hn ↦ ?_, fun oid hn ↦ ?_, fun u hu ↦ ?_, fun u hu ↦ ?_⟩
  · rw [hmap]
    exact h.distinct
  · rw [World.NoTrip, hmap] at hn
    rw [htold, h.untold oid hn, if_neg (hn _ (List.mem_map.mpr ⟨t, hmem, rfl⟩)), List.append_nil]
  · rw [World.NoTrip, hmap] at hn
    exact h.unhauled oid hn
  · rcases mem_set_cases h.distinct ht hu with rfl | ⟨hu, -⟩
    · exact (h.sound t hmem).transition hs simClock
    · exact h.sound u hu
  · rcases mem_set_cases h.distinct ht hu with rfl | ⟨hu, hne⟩
    · obtain ⟨d, done, rest, hd, hrun, hann, hq, habs⟩ := h.hauled t hmem
      refine ⟨d, done, rest ++ announces tr, hd, hrun, ?_, ?_, habs⟩
      · rw [t.announced_transition, hann, List.append_assoc]
      · show told strToTime _ t.order.val = t.tells _
        rw [htold, if_pos rfl, hq, HaulDoc.tells, HaulDoc.tells, HaulDoc.tells, List.map_append]
    · obtain ⟨d, done, rest, hd, hrun, hann, hq, habs⟩ := h.hauled u hu
      refine ⟨d, done, rest, hd, hrun, hann, ?_, habs⟩
      have hne' : t.order.val ≠ u.order.val := fun he ↦ hne (Subtype.ext he).symm
      rw [htold, if_neg hne', List.append_nil, hq]

/-- A write that no document of a trip minds. -/
theorem Mirrored.rewrite (h : Mirrored w strToTime s) {orders' : Orders}
    {f : String → OrderDoc → OrderDoc}
    (hget : ∀ oid, orders'.get? oid = (s.orders.get? oid).map (f oid))
    (hrun : ∀ oid d, (f oid d).runId = d.runId)
    (hfree : ∀ oid d, d.runId = w.runId → Unhauled d → Unhauled (f oid d))
    (hheld : ∀ oid d, d.runId = w.runId → d.state ≠ .created → (f oid d).state ≠ .created)
    (habs : ∀ oid d truck l, d.runId = w.runId → Walk .unassigned l → Absorbed truck d l →
      Absorbed truck (f oid d) l)
    : Mirrored w strToTime { s with orders := orders' } := by
  refine ⟨h.quiet, h.distinct, fun oid hoid ↦ ?_, h.untold, fun oid hn d' hd' hr' ↦ ?_, h.sound,
    fun t ht ↦ ?_⟩
  · obtain ⟨d, hd, hr, hc⟩ := h.held oid hoid
    refine ⟨f oid.val d, ?_, (hrun _ _).trans hr, hheld _ _ hr hc⟩
    rw [hget, hd, Option.map_some]
  · replace hd' : orders'.get? oid = some d' := hd'
    rw [hget, Option.map_eq_some_iff] at hd'
    obtain ⟨d, hd, rfl⟩ := hd'
    rw [hrun] at hr'
    exact hfree oid d hr' (h.unhauled oid hn d hd hr')
  · obtain ⟨d, done, rest, hd, hr, hann, hq, hab⟩ := h.hauled t ht
    have hw : Walk .unassigned (done ++ rest) := hann ▸ (h.sound t ht).1
    refine ⟨f t.order.val d, done, rest, ?_, (hrun _ _).trans hr, hann, hq,
      habs _ _ _ _ hr hw.left hab⟩
    rw [hget, hd, Option.map_some]

theorem Mirrored.publishDue (h : Mirrored w strToTime s) (step simClock : ℤ) :
    Mirrored w strToTime { s with orders := (w.publishDue s.orders step simClock).1 } := by
  refine h.rewrite (fun oid ↦ updateMany_get? _ _ _ oid) (fun oid d ↦ ?_) (fun oid d _ hu ↦ ?_)
    (fun oid d _ hc ↦ ?_) fun oid d truck l _ hw hab ↦ ?_
  · split <;> rfl
  · split
    · next hm =>
      obtain ⟨-, -, hst, -⟩ := of_decide_eq_true hm
      refine Or.inr (Or.inl ⟨rfl, ?_⟩)
      rcases hu with ⟨-, hr⟩ | ⟨-, hr⟩ | ha
      · exact hr
      · exact hr
      · rw [(advisory_iff.mp ha).1] at hst
        cases hst
    · exact hu
  · split
    · exact fun hx ↦ OrderState.noConfusion hx
    · exact hc
  · rw [if_neg]
    · exact hab
    · intro hm
      exact (hab.beyond hw).1 (of_decide_eq_true hm).2.2.1

theorem Mirrored.sweep (h : Mirrored w strToTime s) (step maxWaitSteps : ℤ) (openHaul : List String)
    (simClock : ℤ) :
    Mirrored w strToTime { s with
      orders := (w.cancelOverdueUnassigned s.orders step maxWaitSteps openHaul simClock).1 } := by
  have hadv : ∀ d : OrderDoc, Waiting { d with
      state := .cancelled
      feasibleTransitions := []
      simClock := some simClock
      updated := some simClock
      cancelReason := some sweepCancelReason
      etag := .sweep w.runId step } := fun d ↦ Or.inr (advisory_iff.mpr ⟨rfl, rfl⟩)
  refine h.rewrite (fun oid ↦ updateMany_get? _ _ _ oid) (fun oid d ↦ ?_) (fun oid d _ hu ↦ ?_)
    (fun oid d _ hc ↦ ?_) fun oid d truck l _ hw hab ↦ ?_
  · split <;> rfl
  · split
    · exact Or.inr (hadv d)
    · exact hu
  · split
    · exact fun hx ↦ OrderState.noConfusion hx
    · exact hc
  · split
    · next hm =>
      -- an unassigned document has taken nothing in yet
      obtain rfl := (hab.beyond hw).2 (of_decide_eq_true hm).2.2.1
      exact hadv d
    · exact hab

/-- The events of a list, cut into those of a drain and the rest. -/
theorem told_take_drop (strToTime : String → Option ℤ) (events : List (Option Payload)) (n : ℕ)
    (oid : String) : told strToTime events oid =
      told strToTime (events.take n) oid ++ told strToTime (events.drop n) oid := by
  rw [← told_append, List.take_append_drop]

/-- What a drain of some announcements of a trip hands to the document of its order. -/
theorem drained_of_told {events : List (Option Payload)} {c : ℤ} {l : List OrderState}
    (h : told strToTime events t.order.val = t.tells l) :
    (eventsOf (parsedEvents strToTime c events) t.order.val).map ParsedEvent.targetState = l ∧
      ∀ ev ∈ eventsOf (parsedEvents strToTime c events) t.order.val,
        ev.truckId = some t.truck.val := by
  rw [← told_eq strToTime c] at h
  have hfst := congrArg (List.map Prod.fst) h
  rw [HaulDoc.tells, List.map_map, List.map_map] at hfst
  refine ⟨hfst.trans (List.map_id l), fun ev hev ↦ ?_⟩
  have hmem : (ev.targetState, ev.truckId) ∈ t.tells l := h ▸ List.mem_map.mpr ⟨ev, hev, rfl⟩
  obtain ⟨s, -, hs⟩ := List.mem_map.mp hmem
  exact (Prod.mk.inj hs).2.symm

theorem applyEvents_warnedJumps {orders : Orders} {payloads : List (Option Payload)} {c : ℤ}
    (h : ∀ oid, eventsOf (parsedEvents strToTime c payloads) oid ≠ [] → ∃ d,
      orders.get? oid = some d ∧ d.stale = false ∧
        Sequential d (eventsOf (parsedEvents strToTime c payloads) oid)) :
    (w.applyEvents strToTime .complete orders payloads c).2.warnedJumps = 0 := by
  rw [OrderBatchWriter.applyEvents]
  split
  · rfl
  · exact applyParsed_warnedJumps w h

/-- **A drain** moves every document along the walk of its trip. -/
theorem Mirrored.drain (h : Mirrored w strToTime s) (n : ℕ) (c : ℤ) :
    Mirrored w strToTime { s with
      orders := (w.applyEvents strToTime .complete s.orders (s.events.take n) c).1
      events := s.events.drop n
      warnedJumps := s.warnedJumps +
        (w.applyEvents strToTime .complete s.orders (s.events.take n) c).2.warnedJumps } := by
  have hget : ∀ oid, (w.applyEvents strToTime .complete s.orders (s.events.take n) c).1.get? oid =
      (s.orders.get? oid).map fun d ↦
        d.drain w.runId (eventsOf (parsedEvents strToTime c (s.events.take n)) oid) := by
    intro oid
    rw [applyEvents_orders, applyParsed_complete_get?]
  -- an order without a trip has nothing in the queue
  have hnone : ∀ oid, s.NoTrip oid → told strToTime (s.events.take n) oid = [] ∧
      told strToTime (s.events.drop n) oid = [] := by
    intro oid hn
    have hq := h.untold oid hn
    rw [told_take_drop strToTime _ n, List.append_eq_nil_iff] at hq
    exact hq
  have hempty : ∀ oid, s.NoTrip oid →
      eventsOf (parsedEvents strToTime c (s.events.take n)) oid = [] := by
    intro oid hn
    have ht := told_eq strToTime c (s.events.take n) oid
    rw [(hnone oid hn).1] at ht
    exact List.map_eq_nil_iff.mp ht
  -- of the announcements of a trip, the drain takes the first ones still queued
  have htrip : ∀ t ∈ s.trips, ∃ d, s.orders.get? t.order.val = some d ∧ d.stale = false ∧
      Sequential d (eventsOf (parsedEvents strToTime c (s.events.take n)) t.order.val) ∧
      ∃ done rest, t.announced = done ++ rest ∧
        told strToTime (s.events.drop n) t.order.val = t.tells rest ∧
        (d.drain w.runId
          (eventsOf (parsedEvents strToTime c (s.events.take n)) t.order.val)).runId = w.runId ∧
        Absorbed t.truck (d.drain w.runId
          (eventsOf (parsedEvents strToTime c (s.events.take n)) t.order.val)) done := by
    intro t ht
    obtain ⟨d, done, rest, hd, hr, hann, hq, hab⟩ := h.hauled t ht
    rw [told_take_drop strToTime _ n, HaulDoc.tells, eq_comm, List.map_eq_append_iff] at hq
    obtain ⟨now, later, rfl, hnow, hlater⟩ := hq
    obtain ⟨hstates, htruck⟩ := drained_of_told (c := c) (t := t) hnow.symm
    have hw : Walk .unassigned ((done ++ now) ++ later) := by
      rw [List.append_assoc, ← hann]
      exact (h.sound t ht).1
    have hstale := hab.not_stale hw.left.left
    obtain ⟨hseq, habs⟩ := hab.foldl_receive (by rw [hstates]; exact hw.left) htruck
    have hkeep := (foldl_receive_runId d (eventsOf (parsedEvents strToTime c (s.events.take n))
      t.order.val)).trans hr
    rw [← drain_eq_foldl_receive hr hstale] at habs hkeep
    rw [hstates] at habs
    exact ⟨d, hd, hstale, hseq, done ++ now, later, by rw [hann, List.append_assoc],
      hlater.symm, hkeep, habs⟩
  have hhauled : ∀ t ∈ s.trips, Hauled w strToTime
      (w.applyEvents strToTime .complete s.orders (s.events.take n) c).1 (s.events.drop n) t := by
    intro t ht
    obtain ⟨d, hd, -, -, done, rest, hann, hq, hr, hab⟩ := htrip t ht
    exact ⟨_, done, rest, by rw [hget, hd, Option.map_some], hr, hann, hq, hab⟩
  have hcase : ∀ oid, (∃ t ∈ s.trips, t.order.val = oid) ∨ s.NoTrip oid := by
    intro oid
    by_cases hex : ∃ t ∈ s.trips, t.order.val = oid
    · exact Or.inl hex
    · refine Or.inr fun id hid he ↦ hex ?_
      obtain ⟨t, ht, rfl⟩ := List.mem_map.mp hid
      exact ⟨t, ht, he⟩
  refine ⟨?_, h.distinct, fun oid hoid ↦ ?_, fun oid hn ↦ (hnone oid hn).2,
    fun oid hn d' hd' hr' ↦ ?_, h.sound, hhauled⟩
  · show s.warnedJumps + _ = 0
    rw [h.quiet, applyEvents_warnedJumps]
    intro oid hne
    rcases hcase oid with ⟨t, ht, rfl⟩ | hn
    · obtain ⟨d, hd, hstale, hseq, -⟩ := htrip t ht
      exact ⟨d, hd, hstale, hseq⟩
    · exact absurd (hempty oid hn) hne
  · show ∃ d, (w.applyEvents strToTime .complete s.orders (s.events.take n) c).1.get? oid.val =
      some d ∧ _
    rcases hcase oid.val with ⟨t, ht, he⟩ | hn
    · obtain ⟨d, done, rest, hd, hr, hann, -, hab⟩ := hhauled t ht
      have hw : Walk .unassigned (done ++ rest) := hann ▸ (h.sound t ht).1
      exact ⟨d, he ▸ hd, hr, (hab.beyond hw.left).1⟩
    · obtain ⟨d, hd, hr, hc⟩ := h.held oid hoid
      refine ⟨d, ?_, hr, hc⟩
      rw [hget, hd, hempty _ hn]
      rfl
  · replace hd' : (w.applyEvents strToTime .complete s.orders (s.events.take n) c).1.get? oid =
      some d' := hd'
    rw [hget, hempty _ hn] at hd'
    obtain ⟨d, hd, rfl⟩ := Option.map_eq_some_iff.mp hd'
    exact h.unhauled oid hn d hd hr'

/-! ## Runs -/

/-- The condition on a run: a trip is only created for an order that no trip was created for. -/
def OneTrip (s : World) : Event → Prop
  | .handle i online _ => ∀ x ∈ s.published[i]?, online = true → s.active x.truck = none →
      x.order ∉ s.trips.map HaulDoc.order
  | _ => True

instance (s : World) : (e : Event) → Decidable (OneTrip s e)
  | .handle i online _ => inferInstanceAs (Decidable (∀ x ∈ s.published[i]?, online = true →
      s.active x.truck = none → x.order ∉ s.trips.map HaulDoc.order))
  | .listTrucks _ | .listOrders _ | .readClaimed _ | .readBusy _ | .publish _ | .transition ..
  | .refresh _ | .drain .. | .publishDue .. | .sweep .. => inferInstanceAs (Decidable True)

theorem mirrored_step {s' : World} {e : Event} (h : Mirrored w strToTime s) (hC : OneTrip s e)
    (hs : (hauling w strToTime rejectBusy).step s e = some s') : Mirrored w strToTime s' := by
  cases moves_of_step hs with
  | listTrucks hidle hnone =>
    exact h.frame rfl rfl rfl rfl fun oid hoid ↦ Or.inl (List.mem_append_right _ hoid)
  | listOrdersFails htick =>
    exact h.frame rfl rfl rfl rfl fun oid hoid ↦ Or.inl (List.mem_append_right _ hoid)
  | @listOrders trucks orders htick hread =>
    refine h.frame rfl rfl rfl rfl fun oid hoid ↦ ?_
    rcases List.mem_append.mp hoid with hoid | hoid
    · obtain ⟨d, hd, hdo⟩ := Option.any_eq_true _ _ |>.mp (hread oid hoid)
      obtain ⟨hr, hst⟩ := of_decide_eq_true hdo
      exact Or.inr ⟨d, hd, hr, hst⟩
    · exact Or.inl (List.mem_append_right _ hoid)
  | readClaimed htick =>
    refine h.frame rfl rfl rfl rfl fun oid hoid ↦ Or.inl ?_
    rw [World.held, htick]
    rcases List.mem_append.mp hoid with hoid | hoid
    · exact List.mem_append_left _ (List.mem_of_mem_filter hoid)
    · exact List.mem_append_right _ hoid
  | readBusy htick =>
    refine h.frame rfl rfl rfl rfl fun oid hoid ↦ Or.inl ?_
    rw [World.held, htick]
    exact hoid
  | @publish candidates orders assignments htick hmatch =>
    refine h.frame rfl rfl rfl rfl fun oid hoid ↦ Or.inl ?_
    rw [World.held, htick]
    have hoid : oid ∈ (s.published ++ assignments).map Assignment.order := hoid
    rw [List.map_append] at hoid
    rcases List.mem_append.mp hoid with hoid | hoid
    · exact List.mem_append_right _ hoid
    · obtain ⟨x, hx, rfl⟩ := List.mem_map.mp hoid
      exact List.mem_append_left _ (hmatch.1 x hx).2
  | handle hx honline hfree =>
    exact h.handle (List.mem_of_getElem? hx) (hC _ hx honline hfree) _ _ _
  | ignore =>
    refine h.frame rfl rfl rfl rfl fun oid hoid ↦ Or.inl ?_
    rcases List.mem_append.mp hoid with hoid | hoid
    · exact List.mem_append_left _ hoid
    · exact List.mem_append_right _ (((List.eraseIdx_sublist _ _).map _).subset hoid)
  | transition ht hsource => exact h.transition ht hsource _
  | refresh hactive ht hover => exact h.frame rfl rfl rfl rfl fun oid hoid ↦ Or.inl hoid
  | drain => exact h.drain _ _
  | publishDue => exact h.publishDue _ _
  | sweep => exact h.sweep _ _ _ _

/-- A payload about an order. -/
def About (p : Option Payload) (oid : String) : Prop :=
  p.any (fun p ↦ orElseTruthy p.data.orderId p.orderId = some oid) = true

instance (p : Option Payload) (oid : String) : Decidable (About p oid) :=
  inferInstanceAs (Decidable (_ = true))

theorem about_of_parse {c : ℤ} {p : Option Payload} {ev : ParsedEvent}
    (h : parseEvent strToTime c p = some ev) : About p ev.orderId := by
  cases p with
  | none => cases h
  | some p =>
    simp only [parseEvent, Option.bind_eq_bind, Option.bind_some, Option.bind_eq_some_iff,
      Option.filter_eq_some_iff] at h
    obtain ⟨event, -, target, -, oid, ⟨hoid, -⟩, h⟩ := h
    cases h
    exact decide_eq_true hoid

theorem told_eq_nil {events : List (Option Payload)} {oid : String}
    (h : ∀ p ∈ events, ¬ About p oid) : told strToTime events oid = [] := by
  rw [told, List.map_eq_nil_iff, eventsOf, List.filter_eq_nil_iff]
  intro ev hev ho
  obtain ⟨p, hp, hparse⟩ := List.mem_filterMap.mp hev
  exact h p hp (of_decide_eq_true ho ▸ about_of_parse hparse)

/-- The document of an order says what its trip says. -/
structure Mirrors (t : HaulDoc) (d : OrderDoc) : Prop where
  state : t.state ≠ .created → d.state = orderImage t.state
  /-- The truck, if the trip ever was assigned. -/
  truck : .assign ∈ t.made → d.truck = some t.truck.val
  completed : d.state = .completed → d.cancelReason = none

/-- A document that has taken in everything its trip announced. -/
theorem mirrors_of_absorbed {d : OrderDoc} (hs : t.Sound) (h : Absorbed t.truck d t.announced) :
    Mirrors t d := by
  cases hann : t.announced with
  | nil =>
    rw [hann] at h
    have himg := hs.2
    rw [hann] at himg
    have hcreated : t.state = .created := by
      revert himg
      cases t.state <;> decide
    refine ⟨fun hne ↦ absurd hcreated hne, fun hassign ↦ ?_, fun hc ↦ ?_⟩
    · have hmem : OrderState.assigned ∈ t.announced :=
        List.mem_flatMap.mpr ⟨.assign, hassign, by decide⟩
      rw [hann] at hmem
      exact absurd hmem List.not_mem_nil
    · rcases h with ⟨hst, -⟩ | ha
      · rw [hst] at hc
        cases hc
      · rw [(advisory_iff.mp ha).1] at hc
        cases hc
  | cons a l =>
    have hne : t.announced ≠ [] := by rw [hann]; exact List.cons_ne_nil _ _
    refine ⟨fun _ ↦ (h.state_eq hne _).trans hs.2, fun hassign ↦ ?_, fun hc ↦ ?_⟩
    · have hmem : OrderState.assigned ∈ t.announced :=
        List.mem_flatMap.mpr ⟨.assign, hassign, by decide⟩
      have hw := hs.1
      rw [hann] at hmem h hw
      rcases hw.head with rfl | ⟨rfl, rfl⟩
      · exact (h.2 rfl).1
      · exact absurd hmem (by decide)
    · have hw := hs.1
      rw [hann] at h hw
      rcases hw.head with rfl | ⟨rfl, rfl⟩
      · exact (h.2 rfl).2
      · rw [h.1] at hc
        cases hc

/-- **An order document mirrors its haul trip** as soon as the queue holds nothing about the order,
in every run that starts with new orders and puts no order on two trips; and the writer never warns
of a jump.  The truck is there unless the trip was cancelled before it was assigned. -/
theorem order_mirrors_trip {orders : Orders} (h0 : Fresh w.runId orders) {s : World}
    (hs : (hauling w strToTime rejectBusy).Reach OneTrip { orders := orders } s) :
    s.warnedJumps = 0 ∧ ∀ t ∈ s.trips, (∀ p ∈ s.events, ¬ About p t.order.val) →
      ∃ d, s.orders.get? t.order.val = some d ∧ Mirrors t d := by
  have hI : Mirrored w strToTime s :=
    hs.invariant (mirrored_start h0) fun a e b ha hC hstep ↦ mirrored_step ha hC hstep
  refine ⟨hI.quiet, fun t ht hquiet ↦ ?_⟩
  obtain ⟨d, done, rest, hd, -, hann, hq, hab⟩ := hI.hauled t ht
  rw [told_eq_nil hquiet, HaulDoc.tells, eq_comm, List.map_eq_nil_iff] at hq
  subst hq
  rw [List.append_nil] at hann
  exact ⟨d, hd, mirrors_of_absorbed (hI.sound t ht) (hann ▸ hab)⟩

end

theorem oneOrder_fresh : Fresh "run" oneOrder := by
  intro oid d hd _
  rw [oneOrder, Dict.get?_ofList (by decide), List.mem_singleton] at hd
  obtain ⟨-, rfl⟩ := Prod.mk.inj hd
  exact ⟨Or.inl rfl, rfl⟩

/-- The order is swept before the first event is drained, and delivered all the same. -/
def deliveredRun : List Event :=
  oneTick ++ [.transition 0 .assign none, .sweep 9 1 [] 5, .drain 1 6,
    .transition 0 .arrivePickupQueue none, .transition 0 .enterPickupGate none,
    .transition 0 .finishPickupService none, .transition 0 .arriveDropoffQueue none,
    .transition 0 .enterDropoffGate none, .drain 3 7, .transition 0 .finishDropoffService none,
    .drain 1 8]

/-- The trip of `deliveredRun`, at its end. -/
def deliveredTrip : HaulDoc where
  truck := ⟨"t1", t1_ne_empty⟩
  order := ⟨"o1", o1_ne_empty⟩
  state := .completed
  made := [.assign, .arrivePickupQueue, .enterPickupGate, .finishPickupService,
    .arriveDropoffQueue, .enterDropoffGate, .finishDropoffService]

theorem order_mirrors_trip_delivered : ∃ s d,
    (hauling { runId := "run" } (fun _ ↦ none) true).execWhen OneTrip { orders := oneOrder }
      deliveredRun = some s ∧ s.orders.get? "o1" = some d ∧ Mirrors deliveredTrip d := by
  have hrun : ((hauling { runId := "run" } (fun _ ↦ none) true).execWhen OneTrip
      { orders := oneOrder } deliveredRun).map (fun s ↦ (s.trips, s.events)) =
        some ([deliveredTrip], []) := by decide
  obtain ⟨s, hs, hend⟩ := Option.map_eq_some_iff.mp hrun
  obtain ⟨htrips, hevents⟩ := Prod.mk.inj hend
  obtain ⟨d, hd, hmirror⟩ := (order_mirrors_trip oneOrder_fresh
    (Machine.reach_of_execWhen hs)).2 deliveredTrip (by rw [htrips]; exact List.mem_cons_self)
    (by rw [hevents]; exact fun p hp ↦ absurd hp List.not_mem_nil)
  exact ⟨s, d, hs, hd, hmirror⟩

/-- A trip that is cancelled before it is assigned: everything is drained, and the document does not
know the truck. -/
theorem cancelled_without_truck : ∃ s t d,
    (hauling { runId := "run" } (fun _ ↦ none) true).Reach OneTrip { orders := oneOrder } s ∧
      Fresh "run" oneOrder ∧ t ∈ s.trips ∧ t.state = .cancelled ∧ s.events = [] ∧
      s.orders.get? t.order.val = some d ∧ d.truck ≠ some t.truck.val := by
  have hrun : ((hauling { runId := "run" } (fun _ ↦ none) true).execWhen OneTrip
      { orders := oneOrder } (oneTick ++ [.transition 0 .cancel none, .drain 1 6])).map (fun s ↦
        (s.trips, s.events, (s.orders.get? "o1").map OrderDoc.truck)) =
      some ([{ truck := ⟨"t1", by decide⟩, order := ⟨"o1", by decide⟩, state := .cancelled
               made := [.cancel] }], [], some none) := by decide
  obtain ⟨s, hs, hend⟩ := Option.map_eq_some_iff.mp hrun
  obtain ⟨htrips, hrest⟩ := Prod.mk.inj hend
  obtain ⟨hevents, hdoc⟩ := Prod.mk.inj hrest
  obtain ⟨d, hd, htruck⟩ := Option.map_eq_some_iff.mp hdoc
  refine ⟨s, _, d, Machine.reach_of_execWhen hs, oneOrder_fresh,
    by rw [htrips]; exact List.mem_cons_self, rfl, hevents, hd, ?_⟩
  rw [htruck]
  exact fun h ↦ Option.some_ne_none _ h.symm

end OpenRide.Hauling
