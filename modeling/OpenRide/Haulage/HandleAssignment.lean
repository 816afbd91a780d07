import OpenRide.Haulage.TripManager

/-!
# Taking an assignment, over a network

A truck without a trip that is assigned an order ends its idle trip, posts the document of a haul
trip, reads it again, and makes the transition `assign`.  It has the trip from the POST on: first
its id alone, then the document in state `created`, in which no handler acts.

A failure leaves the truck with whatever it has by then.  Nothing is taken back, and the response of
the PATCH is not looked at; `handleAssignment_usable_iff` says which failures leave a truck usable.
-/

namespace OpenRide.Haulage

open Lib Simulation

/-- A truck, and the documents of its haul trips on the server, the latest first. -/
structure RemoteTruck where
  /-- Whether the truck's own resource is online. -/
  online : Bool := true
  /-- Whether there is an idle trip. -/
  idle : Bool := true
  trip : TripCopy HaulTrip := .unset
  docs : List HaulTrip := []
  latestSimClock : ℤ := 0
  currentLoc : Option Point := none
deriving DecidableEq

/-- What comes of the requests of an assignment, in their order. -/
structure AssignmentRequests where
  endIdle : WriteOutcome := .answered
  /-- What the router finds; for a failure, a route without a geometry. -/
  reposition : Route := {}
  loaded : Route := {}
  pickupLookup : LookupOutcome := .answered
  dropoffLookup : LookupOutcome := .answered
  post : WriteOutcome := .answered
  getCreated : ReadOutcome := .answered
  assign : TripRequests := {}

/-- How `handle_assignment` ends. -/
structure AssignmentOutcome where
  truck : RemoteTruck
  /-- What was handed to the messenger. -/
  handed : List Published := []
  raised : Option TripError := none

namespace RemoteTruck

variable (g : Messaging) (c : TruckConfig) (k : RemoteTruck) (o : HaulOrder)
  (r : AssignmentRequests)

/-- The agent, as far as planning and the document depend on it. -/
def agent : Truck Unit where
  online := k.online
  posted := k.docs.length
  latestSimClock := k.latestSimClock
  currentLoc := k.currentLoc

/-- `TruckManager.is_assignable`. -/
def isAssignable : Bool := k.online && k.trip = .unset

/-- The plan of the assignment. -/
def plan : Truck.Plan := k.agent.planRoutesForAssignment c o r.reposition r.loaded

/-- The facility of an order: the id it carries, or else the one its profile names. -/
def orderFacility (c : TruckConfig) (lookup : LookupOutcome) (id : Option FacilityId)
    (name : Option String) : Except TripError (Option FacilityId) :=
  match truthy id with
  | some fid => .ok (some fid)
  | none => facilityResourceIdByProfileName c lookup name

/-- Both facilities of an order. -/
def orderFacilities : Except TripError (Option FacilityId × Option FacilityId) :=
  match orderFacility c r.pickupLookup o.pickupFacilityResourceId o.pickupFacilityName,
    orderFacility c r.dropoffLookup o.dropoffFacilityResourceId o.dropoffFacilityName with
  | .ok pickup, .ok dropoff => .ok (pickup, dropoff)
  | .error e, _ => .error e
  | .ok _, .error e => .error e

/-- The document that is posted. -/
def newTrip (facilities : Option FacilityId × Option FacilityId) : HaulTrip :=
  { k.agent.createNewTrip c o (k.plan c o r) with
    pickupFacilityResourceId := facilities.1
    dropoffFacilityResourceId := facilities.2 }

/-- `assign`, with what it makes of the document. -/
def assign (t : HaulTrip) : Attempt HaulTrip Published :=
  let eta := Truck.planFloors c o (k.plan c o r)
  attemptTransition g c (.assign (some o) eta.1 eta.2) { r.assign with now := k.latestSimClock }
    ⟨t, .doc t⟩

/-- `create_new_trip` from the POST on, and `assign`. -/
def createAndAssign (t : HaulTrip) : AssignmentOutcome :=
  match r.post with
  | .refused => ⟨k, [], some .writeFailed⟩
  | .lost => ⟨k, [], some .other⟩
  | .unanswered => ⟨{ k with docs := t :: k.docs }, [], some .other⟩
  | .answered =>
    match refresh .writeFailed r.getCreated ⟨t, .stub⟩ with
    | (m, some e) => ⟨{ k with trip := m.trip, docs := t :: k.docs }, [], some e⟩
    | (_, none) =>
      let a := k.assign g c o r t
      ⟨{ k with trip := a.manager.trip, docs := a.manager.stored :: k.docs }, a.handed, a.raised⟩

/-- `handle_assignment`. -/
def handleAssignment : AssignmentOutcome :=
  if !k.isAssignable then ⟨k, [], none⟩
  else if k.idle && r.endIdle ≠ .answered then ⟨{ k with idle := false }, [], some .other⟩
  else
    match orderFacilities c o r with
    | .error e => ⟨{ k with idle := false }, [], some e⟩
    | .ok facilities =>
      createAndAssign g c { k with idle := false } o r (k.newTrip c o r facilities)

end RemoteTruck

/-! ## Usable trucks -/

namespace AssignmentOutcome

/-- The truck has no trip, and neither has the server an open one of it. -/
def Free (out : AssignmentOutcome) : Prop :=
  out.truck.trip = .unset ∧ ∀ t ∈ out.truck.docs, t.state.final = true

/-- The truck has a trip that is assigned, the server has the same one, and the order was told. -/
def Assigned (g : Messaging) (c : TruckConfig) (out : AssignmentOutcome) : Prop :=
  ∃ t, out.truck.trip = .doc t ∧ t.state = .assigned ∧ out.truck.docs.head? = some t ∧
    ∃ msg ∈ out.handed, msg.event = .orderAssignedToTruck ∧ msg.taken = true ∧
      t.ownTopic g c .orderAssignedToTruck = some msg.topic

/-- The truck is usable. -/
def Usable (g : Messaging) (c : TruckConfig) (out : AssignmentOutcome) : Prop :=
  out.Free ∨ out.Assigned g c

end AssignmentOutcome

namespace RemoteTruck

variable (g : Messaging) (c : TruckConfig) (k : RemoteTruck) (o : HaulOrder)
  (r : AssignmentRequests)

/-- Does an assignment get as far as a document on the server? -/
def Creates : Prop :=
  (k.idle = true → r.endIdle = .answered) ∧ (∃ facilities, orderFacilities c o r = .ok facilities) ∧
    r.post.arrives = true

/-- The outcomes that leave a truck usable: there is no document, and none was open before; or
everything from the POST on is answered, and there is an order to tell and a messenger that takes
the message. -/
def Survives : Prop :=
  (¬k.Creates c o r ∧ ∀ t ∈ k.docs, t.state.final = true) ∨
    (k.Creates c o r ∧ r.post = .answered ∧ r.getCreated = .answered ∧ r.assign.patch = .answered ∧
      r.assign.get = .answered ∧ (truthy o.id).isSome ∧ g.messenger = true ∧
      r.assign.publish = true)

variable {g} {c} {k} {o} {r}

theorem trip_of_isAssignable (h : k.isAssignable = true) : k.trip = .unset := by
  rw [isAssignable, Bool.and_eq_true] at h
  exact of_decide_eq_true h.2

/-- A truck without a trip is usable when the server has no open one either. -/
theorem usable_iff_of_unset {out : AssignmentOutcome} (h : out.truck.trip = .unset) :
    out.Usable g c ↔ ∀ t ∈ out.truck.docs, t.state.final = true := by
  constructor
  · rintro (⟨-, hfinal⟩ | ⟨t, ht, -⟩)
    · exact hfinal
    · rw [h] at ht
      cases ht
  · exact fun hfinal ↦ Or.inl ⟨h, hfinal⟩

/-- A truck with a trip whose document it does not hold as assigned is not usable. -/
theorem not_usable_of_ne {out : AssignmentOutcome} (hset : out.truck.trip ≠ .unset)
    (h : ∀ t, out.truck.trip = .doc t → t.state ≠ .assigned) : ¬out.Usable g c := by
  rintro (⟨hunset, -⟩ | ⟨t, ht, hstate, -⟩)
  · exact hset hunset
  · exact h t ht hstate

theorem hook_assign {lookup : LookupOutcome} {publish : Bool} (t : HaulTrip) :
    postTransitionHook g c lookup publish .assign t =
      (if g.messenger then
        ((t.ownTopic g c .orderAssignedToTruck).map fun topic ↦
          (⟨topic, .orderAssignedToTruck, t.order, t.simClock, publish⟩ : Published)).toList
      else [], none) := by
  have hevent : HaulTransition.assign.event = some .orderAssignedToTruck := rfl
  have horder : WorkflowEvent.orderAssignedToTruck.isOfOrder = true := rfl
  rw [postTransitionHook, hevent]
  dsimp only
  rw [mqttTopic_eq (by simp [HaulTrip.looksUp])]
  cases t.ownTopic g c .orderAssignedToTruck with
  | none => cases g.messenger <;> rfl
  | some topic => cases g.messenger <;> simp [horder]

/-- **What `assign` leaves** of a new trip: the assigned document, told as far as the hook tells it,
if both requests are answered; and the new trip as it was otherwise. -/
theorem assign_cases {t : HaulTrip} (hnew : t.state = .created) :
    (∃ d, d.state = .assigned ∧ d.order = o.id ∧ r.assign.patch = .answered ∧
        r.assign.get = .answered ∧ (k.assign g c o r t).manager = ⟨d, .doc d⟩ ∧
        (k.assign g c o r t).handed =
          (postTransitionHook g c r.assign.lookup r.assign.publish .assign d).1) ∨
      ((r.assign.patch ≠ .answered ∨ r.assign.get ≠ .answered) ∧
        (k.assign g c o r t).manager.trip = .doc t) := by
  have hs : t.state ∈ HaulTransition.assign.sources := List.mem_singleton.mpr hnew
  rw [assign]
  by_cases harrives : r.assign.patch.arrives = true
  · obtain ⟨d, hstate, horder, hmade⟩ : ∃ d : HaulTrip, d.state = .assigned ∧ d.order = o.id ∧
        r.assign.patch.carryOut ((TripCall.assign (some o)
          (Truck.planFloors c o (k.plan c o r)).1 (Truck.planFloors c o (k.plan c o r)).2).serve t
            k.latestSimClock r.assign.updated t) = some d :=
      ⟨_, rfl, rfl, (WriteOutcome.carryOut_of_arrives harrives).trans (if_pos hs)⟩
    rcases @attempt_of_carriedOut _ _ .writeFailed _ (postTransitionHook g c r.assign.lookup
      r.assign.publish .assign) _ r.assign.get ⟨t, .doc t⟩ t d rfl hmade with
      ⟨hpatch, hget, heq⟩ | ⟨hfail, e, -, heq⟩
    · refine Or.inl ⟨d, hstate, horder, hpatch, hget, ?_, ?_⟩
      · exact congrArg Attempt.manager heq
      · exact congrArg Attempt.handed heq
    · exact Or.inr ⟨hfail, congrArg (fun a ↦ a.manager.trip) heq⟩
  · have hmade : r.assign.patch.carryOut ((TripCall.assign (some o)
        (Truck.planFloors c o (k.plan c o r)).1 (Truck.planFloors c o (k.plan c o r)).2).serve t
          k.latestSimClock r.assign.updated t) = none := if_neg harrives
    refine Or.inr ⟨Or.inl fun hpatch ↦ harrives (hpatch ▸ rfl), ?_⟩
    have heq := @attempt_of_not_carriedOut _ _ .writeFailed _ (postTransitionHook g c
      r.assign.lookup r.assign.publish .assign) _ r.assign.get ⟨t, .doc t⟩ t rfl hmade
    exact congrArg (fun a ↦ a.manager.trip) heq

/-- **Assigning a new trip** leaves the truck usable when both requests are answered and the order
is told. -/
theorem assign_usable_iff {t : HaulTrip} (hnew : t.state = .created) (docs : List HaulTrip) :
    AssignmentOutcome.Usable g c
        ⟨{ k with
            trip := (k.assign g c o r t).manager.trip
            docs := (k.assign g c o r t).manager.stored :: docs },
          (k.assign g c o r t).handed, (k.assign g c o r t).raised⟩ ↔
      r.assign.patch = .answered ∧ r.assign.get = .answered ∧ (truthy o.id).isSome ∧
        g.messenger = true ∧ r.assign.publish = true := by
  rcases assign_cases (g := g) (c := c) (k := k) (o := o) (r := r) hnew with
    ⟨d, hstate, horder, hpatch, hget, hmanager, hhanded⟩ | ⟨hfail, htrip⟩
  · rw [hmanager, hhanded, hook_assign]
    have htopic : (d.ownTopic g c .orderAssignedToTruck) =
        (truthy o.id).map fun oid ↦ g.topic ((truthy g.orderEventsTopic).getD oid) := by
      rw [← horder]
      exact if_pos rfl
    rw [htopic]
    constructor
    · rintro (⟨hunset, -⟩ | ⟨d', htrip, -, -, msg, hmsg, -, htaken, -⟩)
      · cases hunset
      · obtain rfl := TripCopy.doc.inj htrip
        cases hg : g.messenger with
        | false => simp [hg] at hmsg
        | true =>
          cases hoid : truthy o.id with
          | none => simp [hg, hoid] at hmsg
          | some oid =>
            simp only [hg, hoid, if_true, Option.map_some, Option.toList_some,
              List.mem_singleton] at hmsg
            exact ⟨hpatch, hget, rfl, rfl, by rw [hmsg] at htaken; exact htaken⟩
    · rintro ⟨-, -, hoid, hg, hpublish⟩
      obtain ⟨oid, hoid⟩ := Option.isSome_iff_exists.mp hoid
      refine Or.inr ⟨d, rfl, hstate, rfl, ⟨g.topic ((truthy g.orderEventsTopic).getD oid),
        .orderAssignedToTruck, d.order, d.simClock, r.assign.publish⟩, ?_, rfl, hpublish, ?_⟩
      · simp [hg, hoid]
      · rw [htopic, hoid]
        rfl
  · constructor
    · intro h
      refine absurd h (not_usable_of_ne ?_ fun t' ht' hassigned ↦ ?_)
      · dsimp only
        rw [htrip]
        simp
      · obtain rfl := TripCopy.doc.inj (htrip.symm.trans ht')
        rw [hnew] at hassigned
        cases hassigned
    · rintro ⟨hpatch, hget, -⟩
      rcases hfail with hfail | hfail
      · exact absurd hpatch hfail
      · exact absurd hget hfail

/-- **Posting a new trip**: without a document the truck is as usable as it was, and with one
everything has to be answered. -/
theorem createAndAssign_usable_iff {t : HaulTrip} (hnew : t.state = .created)
    (htrip : k.trip = .unset) :
    (createAndAssign g c k o r t).Usable g c ↔
      (r.post.arrives = false ∧ ∀ t ∈ k.docs, t.state.final = true) ∨
        (r.post = .answered ∧ r.getCreated = .answered ∧ r.assign.patch = .answered ∧
          r.assign.get = .answered ∧ (truthy o.id).isSome ∧ g.messenger = true ∧
          r.assign.publish = true) := by
  rw [createAndAssign]
  cases hpost : r.post with
  | refused => simp [usable_iff_of_unset, htrip, WriteOutcome.arrives]
  | lost => simp [usable_iff_of_unset, htrip, WriteOutcome.arrives]
  | unanswered => simp [usable_iff_of_unset, htrip, WriteOutcome.arrives, hnew, HaulState.final]
  | answered =>
    have hstub (e : TripError) : ¬AssignmentOutcome.Usable g c
        ⟨{ k with trip := .stub, docs := t :: k.docs }, [], some e⟩ :=
      not_usable_of_ne (by simp) (by simp)
    cases hget : r.getCreated with
    | refused => simpa [WriteOutcome.arrives, refresh] using hstub .writeFailed
    | raised => simpa [WriteOutcome.arrives, refresh] using hstub .other
    | answered =>
      refine (assign_usable_iff (g := g) (c := c) (k := k) (o := o) (r := r) hnew k.docs).trans ?_
      simp [WriteOutcome.arrives]

/-- **Which failures leave a truck usable.**  A truck that is not assignable makes no request at
all; one that is remains usable exactly under the conditions of `Survives`. -/
theorem handleAssignment_usable_iff (g : Messaging) (c : TruckConfig) (k : RemoteTruck)
    (o : HaulOrder) (r : AssignmentRequests) :
    (k.isAssignable = false → k.handleAssignment g c o r = ⟨k, [], none⟩) ∧
      (k.isAssignable = true →
        ((k.handleAssignment g c o r).Usable g c ↔ k.Survives g c o r)) := by
  refine ⟨fun h ↦ by rw [handleAssignment, h]; rfl, fun h ↦ ?_⟩
  have htrip := trip_of_isAssignable h
  rw [handleAssignment, h, Survives]
  by_cases hidle : k.idle = true ∧ r.endIdle ≠ .answered
  · have hcreates : ¬k.Creates c o r := fun hc ↦ hidle.2 (hc.1 hidle.1)
    simp [hidle.1, hidle.2, hcreates, usable_iff_of_unset, htrip]
  · have hidle' : (k.idle && decide (r.endIdle ≠ .answered)) = false := by
      rw [Bool.eq_false_iff]
      intro hboth
      rw [Bool.and_eq_true] at hboth
      exact hidle ⟨hboth.1, of_decide_eq_true hboth.2⟩
    have hend : k.idle = true → r.endIdle = .answered := fun hi ↦
      Classical.not_not.mp fun hne ↦ hidle ⟨hi, hne⟩
    rw [hidle']
    cases hfacilities : orderFacilities c o r with
    | error e =>
      have hcreates : ¬k.Creates c o r := by
        rintro ⟨-, ⟨facilities, hok⟩, -⟩
        rw [hfacilities] at hok
        cases hok
      simp [hcreates, usable_iff_of_unset, htrip]
    | ok facilities =>
      have hcreates : k.Creates c o r ↔ r.post.arrives = true :=
        ⟨fun hc ↦ hc.2.2, fun hp ↦ ⟨hend, ⟨facilities, hfacilities⟩, hp⟩⟩
      refine (createAndAssign_usable_iff (k := { k with idle := false })
        (t := k.newTrip c o r facilities) rfl htrip).trans ?_
      rw [hcreates, Bool.not_eq_true]
      refine or_congr_right ⟨fun hall ↦ ⟨hall.1 ▸ rfl, hall⟩, fun hall ↦ hall.2⟩

/-! One truck and one order. -/

/-- An order between two facilities. -/
def oneOrder : HaulOrder where
  id := some "order"
  pickupFacilityResourceId := some "pickup"
  dropoffFacilityResourceId := some "dropoff"

theorem handleAssignment_usable_oneOrder :
    (({} : RemoteTruck).handleAssignment ⟨"run", none, true⟩ {} oneOrder {}).Usable
      ⟨"run", none, true⟩ {} :=
  ((handleAssignment_usable_iff ⟨"run", none, true⟩ {} {} oneOrder {}).2 (by decide)).mpr
    (Or.inr ⟨⟨fun _ ↦ rfl, ⟨_, rfl⟩, rfl⟩, rfl, rfl, rfl, rfl, by decide, rfl, rfl⟩)

/-- The PATCH of the assignment is answered with an error status: the truck has a trip in state
`created`, which nothing moves, and is not assignable any more. -/
theorem refused_assignment_stuck :
    ¬(({} : RemoteTruck).handleAssignment ⟨"run", none, true⟩ {} oneOrder
        { assign := { patch := .refused } }).Usable ⟨"run", none, true⟩ {} ∧
      (({} : RemoteTruck).handleAssignment ⟨"run", none, true⟩ {} oneOrder
        { assign := { patch := .refused } }).truck.isAssignable = false := by
  refine ⟨?_, by decide +kernel⟩
  refine not_usable_of_ne (by decide +kernel) fun t ht ↦ ?_
  obtain rfl := TripCopy.doc.inj ht
  decide +kernel

end RemoteTruck

end OpenRide.Haulage
