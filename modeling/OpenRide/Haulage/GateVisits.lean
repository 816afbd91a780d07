import Mathlib.Logic.Function.Basic
import OpenRide.Haulage.FacilityApp

/-!
# Which visit a gate event is about

Trucks and facilities, with the messages between them under way.  A truck tells the facility that it
has arrived; the facility tells the truck that a gate is its own, and later that the service is
complete.  Messages of one sender to one receiver are delivered in order, and any of them may be
under way for any time.

What a facility tells names the truck and the kind of the visit, not the trip.  The trip of a visit
is noted beside each message here (`Visitor`, `Origin`), where neither party can see it.  A truck
whose order is cancelled leaves its place in the queue behind, and what the facility tells it then
is taken for the next trip (`stale_gate_event`): nothing sends or handles
`facility_queue_cancelled`.

In every run in which a truck takes an assignment only when nothing is left of its earlier visits,
all that is left of its visits belongs to the trip it has (`Attributed`), so every gate event that a
truck carries out comes from the queue entry its trip has made (`gate_events_attributed`).
-/

namespace OpenRide.Haulage

open Lib

/-! ## The yard -/

/-- A truck id, with the trip the truck was on when it sent it. -/
structure Visitor where
  truck : TruckId
  trip : ℕ
deriving DecidableEq

/-- The queue entry a facility's message stems from, with its facility. -/
structure Origin where
  facility : FacilityId
  entry : QueueEntry Visitor
deriving DecidableEq

/-- All trucks and facilities, and the messages under way. -/
structure Yard where
  trucks : TruckId → Truck Origin
  facilities : FacilityId → FacilityApp Visitor
  /-- From each truck, oldest first: the facility and the entry it asks for. -/
  arrivals : TruckId → List (FacilityId × QueueEntry Visitor) := fun _ ↦ []
  /-- From each facility, oldest first. -/
  notices : FacilityId → List (GateNotice Visitor) := fun _ ↦ []

inductive YardEvent where
  /-- Something happens at a truck, other than the arrival of a facility's message. -/
  | truck (i : TruckId) (e : TruckEvent Origin)
  /-- Something happens at a facility, other than the arrival of a truck's message. -/
  | facility (f : FacilityId) (e : FacilityEvent Visitor)
  /-- The first message under way from the truck to the facility arrives. -/
  | arrive (i : TruckId) (f : FacilityId)
  /-- The first message under way from the facility to the truck arrives. -/
  | inform (f : FacilityId) (i : TruckId)

/-- Whether an event of a truck is the arrival of a facility's message. -/
def TruckEvent.fromFacility {τ : Type} : TruckEvent τ → Bool
  | deliver (.facilityWorkflowEvent _ _ _) => true
  | _ => false

/-- Whether an event of a facility is the arrival of a truck's message. -/
def FacilityEvent.fromTruck {T : Type} : FacilityEvent T → Bool
  | deliver (.truckArrived _ _) => true
  | _ => false

/-- The arrivals a truck hands to the messenger. -/
def Notice.arrivalOf (i : TruckId) : Notice → Option (FacilityId × QueueEntry Visitor)
  | arrival f visit n => some (f, ⟨⟨i, n⟩, visit⟩)
  | order _ _ _ => none

/-- The message a facility's notice is for the truck. -/
def GateNotice.message (f : FacilityId) (n : GateNotice Visitor) : Message Origin :=
  .facilityWorkflowEvent n.event { serviceTime := some (.num (.fin n.serviceTime)) }
    ⟨f, n.truckId, n.visitType⟩

namespace Yard

variable (s : Yard)

/-- A truck has become `k`, and the messenger takes what was handed to it. -/
def afterTruck (i : TruckId) (k : Truck Origin) : Yard :=
  { s with
    trucks := Function.update s.trucks i { k with published := [] }
    arrivals := Function.update s.arrivals i
      (s.arrivals i ++ k.published.filterMap (Notice.arrivalOf i)) }

/-- A facility has become `a`, and the messenger takes what was handed to it. -/
def afterFacility (f : FacilityId) (a : FacilityApp Visitor) : Yard :=
  { s with
    facilities := Function.update s.facilities f { a with published := [] }
    notices := Function.update s.notices f (s.notices f ++ a.published) }

/-- A truck's message reaches the facility. -/
def afterArrive (i : TruckId) (f : FacilityId) (entry : QueueEntry Visitor) : Yard :=
  { s with
    facilities := Function.update s.facilities f
      { s.facilities f with
        messageQueue := (s.facilities f).messageQueue ++
          [.truckArrived entry.truckId entry.visitType] }
    arrivals := Function.update s.arrivals i ((s.arrivals i).eraseP fun p ↦ p.1 = f) }

/-- A facility's message reaches the truck. -/
def afterInform (f : FacilityId) (i : TruckId) (n : GateNotice Visitor) : Yard :=
  { s with
    trucks := Function.update s.trucks i
      { s.trucks i with messageQueue := (s.trucks i).messageQueue ++ [n.message f] }
    notices := Function.update s.notices f
      ((s.notices f).eraseP fun n ↦ n.truckId.truck = i) }

variable (config : TruckId → TruckConfig) (serviceTime : FacilityId → ℕ)

/-- The yard. -/
def machine : Machine Yard YardEvent where
  step s
    | .truck i e =>
      if e.fromFacility then none
      else ((Truck.machine (config i)).step (s.trucks i) e).map (s.afterTruck i)
    | .facility f e =>
      if e.fromTruck then none
      else ((FacilityApp.machine (serviceTime f)).step (s.facilities f) e).map (s.afterFacility f)
    | .arrive i f =>
      ((s.arrivals i).find? fun p ↦ p.1 = f).map fun p ↦ s.afterArrive i f p.2
    | .inform f i =>
      ((s.notices f).find? fun n ↦ n.truckId.truck = i).map (s.afterInform f i)

/-- The yard when everybody has been launched. -/
def launched (loc : TruckId → Option Point) (gateCount : FacilityId → ℕ) (clock : ℤ) : Yard where
  trucks i := { currentTime := clock, latestSimClock := clock, currentLoc := loc i }
  facilities f := .launched (gateCount f) clock

/-! ## What is left of a visit -/

/-- Something is left of the visit: a message under way in either direction, what the facility holds
of it, or a message the truck has not handled. -/
inductive Left (s : Yard) (o : Origin) : Prop
  | arriving (i : TruckId) (h : (o.facility, o.entry) ∈ s.arrivals i)
  | held (h : (s.facilities o.facility).Holds o.entry)
  | noticed (n : GateNotice Visitor) (hn : n ∈ s.notices o.facility)
      (h : (⟨n.truckId, n.visitType⟩ : QueueEntry Visitor) = o.entry)
  | informed (i : TruckId) (event : GateEvent) (data : GateData)
      (h : .facilityWorkflowEvent event data o ∈ (s.trucks i).messageQueue)

/-- The side condition: a truck takes an assignment only when nothing is left of its visits. -/
def Settled (s : Yard) : YardEvent → Prop
  | .truck i (.assign _ _ _ _) =>
    (s.trucks i).isAssignable = true → ∀ o : Origin, o.entry.truckId.truck = i → ¬ s.Left o
  | _ => True

/-- The visit belongs to the trip: the trip has made it, at the facility it visits. -/
structure BelongsTo (o : Origin) (c : TruckConfig) (t : HaulTrip) : Prop where
  trip : o.entry.truckId.trip = t.number
  facility : t.facility c o.entry.visitType = some o.facility

/-- All that is left of the visits of a truck belongs to the trip it has, and each message says what
its visit is. -/
structure Attributed (config : TruckId → TruckConfig) (s : Yard) : Prop where
  belongs : ∀ o, s.Left o → ∀ t, (s.trucks o.entry.truckId.truck).trip = some t →
    BelongsTo o (config o.entry.truckId.truck) t
  own : ∀ i event data o, .facilityWorkflowEvent event data o ∈ (s.trucks i).messageQueue →
    o.entry.truckId.truck = i ∧ event.visitType = o.entry.visitType
  proper : ∀ f, (s.facilities f).Proper
  noticed : ∀ f, ∀ n ∈ s.notices f, n.event.visitType = n.visitType
  taken : ∀ i, (s.trucks i).published = []

variable {config} {serviceTime} {s : Yard}

variable {o : Origin}

theorem BelongsTo.of_sameJob {c : TruckConfig} {t t' : HaulTrip} (h : BelongsTo o c t)
    (hjob : t.SameJob t') : BelongsTo o c t' where
  trip := h.trip.trans hjob.number.symm
  facility := by
    rw [← h.facility]
    cases o.entry.visitType <;>
      simp only [HaulTrip.facility, hjob.pickupFacilityResourceId, hjob.dropoffFacilityResourceId,
        hjob.pickupFacilityName, hjob.dropoffFacilityName]

/-! ## Events of a truck -/

variable {i : TruckId}

/-- After an event of a truck, what is left was left before, or is an arrival it has published. -/
theorem left_of_truck {k : Truck Origin}
    (hqueue : ∀ event data o, .facilityWorkflowEvent event data o ∈ k.messageQueue →
      .facilityWorkflowEvent event data o ∈ (s.trucks i).messageQueue)
    (h : (s.afterTruck i k).Left o) :
    s.Left o ∨ o.entry.truckId.truck = i ∧
      .arrival o.facility o.entry.visitType o.entry.truckId.trip ∈ k.published := by
  cases h with
  | arriving j h =>
    simp only [afterTruck, Function.update_apply] at h
    split at h
    · rcases List.mem_append.mp h with h | h
      · exact Or.inl (.arriving i h)
      · obtain ⟨n, hn, heq⟩ := List.mem_filterMap.mp h
        cases n with
        | order => cases heq
        | arrival f visit n =>
          obtain ⟨hf, hentry⟩ := Prod.mk.inj (Option.some.inj heq)
          rw [← hf, ← hentry]
          exact Or.inr ⟨rfl, hn⟩
    · exact Or.inl (.arriving j h)
  | held h => exact Or.inl (.held h)
  | noticed n hn h => exact Or.inl (.noticed n hn h)
  | informed j event data h =>
    simp only [afterTruck, Function.update_apply] at h
    split at h
    · exact Or.inl (.informed i event data (hqueue _ _ _ h))
    · exact Or.inl (.informed j event data h)

theorem Attributed.truck (hs : s.Attributed config) {e : TruckEvent Origin} {k : Truck Origin}
    (hsettled : s.Settled (.truck i e)) (hout : e.fromFacility = false)
    (hk : (Truck.machine (config i)).step (s.trucks i) e = some k) :
    (s.afterTruck i k).Attributed config := by
  have hnot (event : GateEvent) (data : GateData) (o : Origin) :
      e ≠ .deliver (.facilityWorkflowEvent event data o) := by
    rintro rfl
    cases hout
  have hcases := Truck.continues_of_step hk hnot
  have hqueue : ∀ event data o, .facilityWorkflowEvent event data o ∈ k.messageQueue →
      .facilityWorkflowEvent event data o ∈ (s.trucks i).messageQueue := by
    rcases hcases with hcont | ⟨_, _, _, _, -, -, hsame, -⟩
    · exact hcont.queue
    · exact fun _ _ _ h ↦ hsame ▸ h
  refine ⟨fun o ho t ht ↦ ?_, fun j event data o ho ↦ ?_, hs.proper, hs.noticed, fun j ↦ ?_⟩
  · have hleft := left_of_truck hqueue ho
    rcases eq_or_ne o.entry.truckId.truck i with rfl | hne
    · simp only [afterTruck, Function.update_self] at ht
      rcases hcases with hcont | ⟨_, _, _, _, rfl, hfree, -, hpublished⟩
      · rcases hleft with hleft | ⟨-, hsent⟩
        · obtain ⟨t₀, ht₀, hjob⟩ := hcont.trip t ht
          exact (hs.belongs o hleft t₀ ht₀).of_sameJob hjob
        · rcases hcont.arrivals _ _ _ hsent with hold | ⟨t', ht', hnumber, hfacility⟩
          · rw [hs.taken] at hold
            cases hold
          · obtain rfl := Option.some.inj (ht'.symm.trans ht)
            exact ⟨hnumber.symm, hfacility⟩
      -- a truck without a trip: nothing was left, and an assignment publishes no arrival
      · rcases hleft with hleft | ⟨-, hsent⟩
        · exact absurd hleft (hsettled hfree o rfl)
        · have hold := hpublished _ _ _ hsent
          rw [hs.taken] at hold
          cases hold
    · simp only [afterTruck, Function.update_of_ne hne] at ht
      exact hs.belongs o (hleft.resolve_right fun h ↦ hne h.1) t ht
  · simp only [afterTruck, Function.update_apply] at ho
    split at ho
    · next hi => exact hi ▸ hs.own i event data o (hqueue _ _ _ ho)
    · exact hs.own j event data o ho
  · simp only [afterTruck, Function.update_apply]
    split
    · rfl
    · exact hs.taken j

/-! ## Events of a facility, and deliveries -/

variable {f : FacilityId}

/-- After an event of a facility, what is left was left before. -/
theorem left_of_facility {e : FacilityEvent Visitor} {a : FacilityApp Visitor}
    (ha : (FacilityApp.machine (serviceTime f)).step (s.facilities f) e = some a)
    (hout : e.fromTruck = false) (h : (s.afterFacility f a).Left o) : s.Left o := by
  have hheld (ho : a.Holds o.entry) : (s.facilities f).Holds o.entry := by
    rcases FacilityApp.holds_of_step ha ho with h | rfl
    · exact h
    · cases hout
  cases h with
  | arriving j h => exact .arriving j h
  | held h =>
    simp only [afterFacility, Function.update_apply] at h
    split at h
    · next hf =>
      have hflush : a.Holds o.entry := h.of_le (fun _ h ↦ h) rfl rfl nofun
      exact .held (hf ▸ hheld hflush)
    · exact .held h
  | noticed n hn h =>
    simp only [afterFacility, Function.update_apply] at hn
    split at hn
    · next hf =>
      rcases List.mem_append.mp hn with hn | hn
      · exact .noticed n (hf ▸ hn) h
      · exact .held (hf ▸ hheld (.told n hn h))
    · exact .noticed n hn h
  | informed j event data h => exact .informed j event data h

theorem Attributed.facility (hs : s.Attributed config) {e : FacilityEvent Visitor}
    {a : FacilityApp Visitor} (hout : e.fromTruck = false)
    (ha : (FacilityApp.machine (serviceTime f)).step (s.facilities f) e = some a) :
    (s.afterFacility f a).Attributed config := by
  have hproper : a.Proper := (hs.proper f).step ha
  refine ⟨fun o ho ↦ hs.belongs o (left_of_facility ha hout ho), hs.own, fun g ↦ ?_,
    fun g n hn ↦ ?_, hs.taken⟩
  · simp only [afterFacility, Function.update_apply]
    split
    · exact nofun
    · exact hs.proper g
  · simp only [afterFacility, Function.update_apply] at hn
    split at hn
    · exact (List.mem_append.mp hn).elim (hs.noticed f n) (hproper n)
    · exact hs.noticed g n hn

theorem left_of_arrive {entry : QueueEntry Visitor} (hsent : (f, entry) ∈ s.arrivals i)
    (h : (s.afterArrive i f entry).Left o) : s.Left o := by
  cases h with
  | arriving j h =>
    simp only [afterArrive, Function.update_apply] at h
    split at h
    · exact .arriving i (List.mem_of_mem_eraseP h)
    · exact .arriving j h
  | held h =>
    simp only [afterArrive, Function.update_apply] at h
    split at h
    · next hf =>
      have hstep : (FacilityApp.machine 0).step (s.facilities f)
          (.deliver (.truckArrived entry.truckId entry.visitType)) = some _ := rfl
      rcases FacilityApp.holds_of_step hstep h with h | h
      · exact .held (hf ▸ h)
      · have hentry : entry = o.entry := by
          obtain ⟨htruck, hvisit⟩ := FacilityMessage.truckArrived.inj (FacilityEvent.deliver.inj h)
          cases hentry : o.entry
          rw [hentry] at htruck hvisit
          cases entry
          subst htruck hvisit
          rfl
        exact .arriving i (hf ▸ hentry ▸ hsent)
    · exact .held h
  | noticed n hn h => exact .noticed n hn h
  | informed j event data h => exact .informed j event data h

theorem Attributed.arrive (hs : s.Attributed config) {entry : QueueEntry Visitor}
    (hsent : (f, entry) ∈ s.arrivals i) : (s.afterArrive i f entry).Attributed config := by
  refine ⟨fun o ho ↦ hs.belongs o (left_of_arrive hsent ho), hs.own, fun g ↦ ?_, hs.noticed,
    hs.taken⟩
  simp only [afterArrive, Function.update_apply]
  split
  · exact hs.proper f
  · exact hs.proper g

theorem left_of_inform {n : GateNotice Visitor} (hsent : n ∈ s.notices f)
    (h : (s.afterInform f i n).Left o) : s.Left o := by
  cases h with
  | arriving j h => exact .arriving j h
  | held h => exact .held h
  | noticed m hm h =>
    simp only [afterInform, Function.update_apply] at hm
    split at hm
    · next hf => exact .noticed m (hf ▸ List.mem_of_mem_eraseP hm) h
    · exact .noticed m hm h
  | informed j event data h =>
    simp only [afterInform, Function.update_apply] at h
    split at h
    · rcases List.mem_append.mp h with h | h
      · exact .informed i event data h
      · obtain ⟨-, -, rfl⟩ := Message.facilityWorkflowEvent.inj (List.mem_singleton.mp h)
        exact .noticed n hsent rfl
    · exact .informed j event data h

theorem Attributed.inform (hs : s.Attributed config) {n : GateNotice Visitor}
    (hsent : n ∈ s.notices f) (hi : n.truckId.truck = i) :
    (s.afterInform f i n).Attributed config := by
  refine ⟨fun o ho t ht ↦ ?_, fun j event data o ho ↦ ?_, hs.proper, fun g m hm ↦ ?_, fun j ↦ ?_⟩
  · refine hs.belongs o (left_of_inform hsent ho) t ?_
    simp only [afterInform, Function.update_apply] at ht
    split at ht
    · next hj => exact hj ▸ ht
    · exact ht
  · simp only [afterInform, Function.update_apply] at ho
    split at ho
    · next hj =>
      rcases List.mem_append.mp ho with ho | ho
      · exact hj ▸ hs.own i event data o ho
      · obtain ⟨rfl, -, rfl⟩ := Message.facilityWorkflowEvent.inj (List.mem_singleton.mp ho)
        exact ⟨hi.trans hj.symm, hs.noticed f n hsent⟩
    · exact hs.own j event data o ho
  · simp only [afterInform, Function.update_apply] at hm
    split at hm
    · exact hs.noticed f m (List.mem_of_mem_eraseP hm)
    · exact hs.noticed g m hm
  · simp only [afterInform, Function.update_apply]
    split
    · exact hs.taken i
    · exact hs.taken j

/-! ## Every run -/

theorem Attributed.step {e : YardEvent} {s' : Yard} (hs : s.Attributed config)
    (hsettled : s.Settled e) (h : (machine config serviceTime).step s e = some s') :
    s'.Attributed config := by
  cases e with
  | truck i e =>
    simp only [machine] at h
    split at h
    · cases h
    · next hout =>
      obtain ⟨k, hk, rfl⟩ := Option.map_eq_some_iff.mp h
      exact hs.truck hsettled (eq_false_of_ne_true hout) hk
  | facility f e =>
    simp only [machine] at h
    split at h
    · cases h
    · next hout =>
      obtain ⟨a, ha, rfl⟩ := Option.map_eq_some_iff.mp h
      exact hs.facility (eq_false_of_ne_true hout) ha
  | arrive i f =>
    obtain ⟨⟨g, entry⟩, hfind, rfl⟩ := Option.map_eq_some_iff.mp h
    have hg := List.find?_some hfind
    obtain rfl : g = f := of_decide_eq_true hg
    exact hs.arrive (List.mem_of_find?_eq_some hfind)
  | inform f i =>
    obtain ⟨n, hfind, rfl⟩ := Option.map_eq_some_iff.mp h
    have hi := List.find?_some hfind
    exact hs.inform (List.mem_of_find?_eq_some hfind) (of_decide_eq_true hi)

theorem attributed_launched (loc : TruckId → Option Point) (gateCount : FacilityId → ℕ)
    (clock : ℤ) : (launched loc gateCount clock).Attributed config where
  belongs _ _ _ ht := nomatch ht
  own _ _ _ _ h := nomatch h
  proper _ _ h := nomatch h
  noticed _ _ h := nomatch h
  taken _ := rfl

/-- The truck is about to carry out the gate event of a facility's message: the message is the next
it handles, and the state of its trip allows the transition. -/
structure CarriesOut (s : Yard) (i : TruckId) (event : GateEvent) (o : Origin) (t : HaulTrip) :
    Prop where
  handles : (s.trucks i).phase = .consuming ∨ (s.trucks i).phase = .consumingAgain
  message : ∃ data rest,
    (s.trucks i).messageQueue = .facilityWorkflowEvent event data o :: rest
  trip : (s.trucks i).trip = some t
  allowed : t.state ∈ event.transition.sources

/-- Whether an event is an assignment that reaches a truck. -/
def assigns : YardEvent → Bool
  | .truck _ (.assign _ _ _ _) => true
  | _ => false

theorem settled_of_not_assigns {e : YardEvent} (h : assigns e = false) : s.Settled e := by
  cases e with
  | truck i e => cases e <;> trivial
  | _ => trivial

/-- Nothing is left of any visit when everybody has been launched. -/
theorem not_left_launched {loc : TruckId → Option Point} {gateCount : FacilityId → ℕ} {clock : ℤ} :
    ¬ (launched loc gateCount clock).Left o := by
  intro h
  cases h with
  | arriving _ h => cases h
  | held h => exact FacilityApp.not_holds_launched h
  | noticed _ h _ => cases h
  | informed _ _ _ h => cases h

end Yard

open Yard in
/-- **A gate event is carried out only for the visit that asked for it**, in every run in which a
truck takes an assignment only when nothing is left of its earlier visits: the message stems from
an entry the truck's trip has made, at the facility and for the leg the trip waits for. -/
theorem gate_events_attributed {config : TruckId → TruckConfig} {serviceTime : FacilityId → ℕ}
    (loc : TruckId → Option Point) (gateCount : FacilityId → ℕ) (clock : ℤ) {s : Yard}
    (h : (Yard.machine config serviceTime).Reach Settled (launched loc gateCount clock) s)
    {i : TruckId} {event : GateEvent} {o : Origin} {t : HaulTrip}
    (hdo : s.CarriesOut i event o t) :
    o.entry.truckId = ⟨i, t.number⟩ ∧ o.entry.visitType = event.visitType ∧
      t.facility (config i) event.visitType = some o.facility := by
  have hs : s.Attributed config :=
    h.invariant (attributed_launched loc gateCount clock) fun _ _ _ hs hC hstep ↦ hs.step hC hstep
  obtain ⟨data, rest, hqueue⟩ := hdo.message
  have hmem : .facilityWorkflowEvent event data o ∈ (s.trucks i).messageQueue :=
    hqueue ▸ List.mem_cons_self
  obtain ⟨rfl, hvisit⟩ := hs.own i event data o hmem
  obtain ⟨htrip, hfacility⟩ := hs.belongs o (.informed _ event data hmem) t hdo.trip
  refine ⟨?_, hvisit.symm, hvisit ▸ hfacility⟩
  rw [← htrip]

/-! ## Two orders -/

/-- An order that is picked up where the truck stands. -/
def orderAt (f : FacilityId) : HaulOrder := { id := some f, pickupFacilityResourceId := some f }

/-- A step of the truck `"T"` in which the handler of the trip's state acts on an empty queue. -/
def truckActs (now : ℤ) : List YardEvent :=
  [.truck "T" (.step now true), .truck "T" (.consume none), .truck "T" (.act none),
    .truck "T" (.consume none)]

/-- The arrival of the truck reaches the facility `"F"`, which gives it a gate. -/
def gateGiven (now : ℤ) : List YardEvent :=
  [.arrive "T" "F", .facility "F" (.step now), .facility "F" .consume, .facility "F" .consume,
    .facility "F" .act, .facility "F" .consume]

/-- The yard with one gate at each facility and services of a minute. -/
def oneGate : Machine Yard YardEvent := Yard.machine (fun _ ↦ {}) fun _ ↦ 60

def oneGateLaunched : Yard := .launched (fun _ ↦ none) (fun _ ↦ 1) 0

/-- The order at the facility `"F"` reaches the truck. -/
def firstOrder : YardEvent := .truck "T" (.assign (orderAt "F") {} {} none)

/-- What the facility `"F"` tells the truck on its first trip. -/
def firstGate : Message Origin :=
  .facilityWorkflowEvent .gateSlotAssignedForPickup { serviceTime := some (.num (.fin 60)) }
    ⟨"F", ⟨⟨"T", 0⟩, .pickup⟩⟩

/-- The truck is about to handle the first gate's message, on a trip with this number that is picked
up at this facility. -/
def Yard.showsGate (s : Yard) (number : ℕ) (f : FacilityId) : Bool :=
  (s.trucks "T").phase = .consuming && (s.trucks "T").messageQueue = [firstGate] &&
    (s.trucks "T").trip.any fun t ↦
      t.number = number && t.state = .queuedForPickup && t.facility {} .pickup = some f

theorem Yard.carriesOut_of_showsGate {s : Yard} {number : ℕ} {f : FacilityId}
    (h : s.showsGate number f = true) :
    ∃ t, s.CarriesOut "T" .gateSlotAssignedForPickup ⟨"F", ⟨⟨"T", 0⟩, .pickup⟩⟩ t ∧
      t.number = number ∧ t.facility {} .pickup = some f := by
  simp only [showsGate, Bool.and_eq_true, decide_eq_true_eq, Option.any_eq_true] at h
  obtain ⟨⟨hphase, hqueue⟩, t, htrip, ⟨hnumber, hstate⟩, hfacility⟩ := h
  exact ⟨t, ⟨Or.inl hphase, ⟨_, _, hqueue⟩, htrip, hstate ▸ List.mem_singleton_self _⟩, hnumber,
    hfacility⟩

/-- The truck waits at the facility its order is picked up at, and is given a gate. -/
theorem gate_events_attributed_one :
    ∃ (s : Yard) (t : HaulTrip),
      s.CarriesOut "T" .gateSlotAssignedForPickup ⟨"F", ⟨⟨"T", 0⟩, .pickup⟩⟩ t ∧
        (⟨"T", 0⟩ : Visitor) = ⟨"T", t.number⟩ ∧ t.facility {} .pickup = some "F" := by
  have hexec : ((oneGate.exec oneGateLaunched (firstOrder :: (truckActs 30 ++ gateGiven 30 ++
      [.inform "F" "T", .truck "T" (.step 60 true)]))).map (Yard.showsGate · 0 "F")) =
        some true := by decide +kernel
  obtain ⟨s, hs, hshows⟩ := Option.map_eq_some_iff.mp hexec
  obtain ⟨t, hdo, -, -⟩ := Yard.carriesOut_of_showsGate hshows
  rw [Machine.exec, Option.bind_eq_some_iff] at hs
  obtain ⟨s₁, hs₁, hs⟩ := hs
  have hsettled : oneGateLaunched.Settled firstOrder := fun _ _ _ h ↦ Yard.not_left_launched h
  have hfirst : oneGate.Reach Yard.Settled oneGateLaunched s₁ :=
    (Machine.Reach.refl _).tail hsettled hs₁
  have hrun : oneGate.Reach Yard.Settled oneGateLaunched s :=
    hfirst.trans (Machine.reach_of_exec _ hs fun a e he ↦ Yard.settled_of_not_assigns
      ((by decide : ∀ e ∈ truckActs 30 ++ gateGiven 30 ++
        [.inform "F" "T", .truck "T" (.step 60 true)], Yard.assigns e = false) e he))
  obtain ⟨htruck, -, hfacility⟩ := gate_events_attributed _ _ 0 hrun hdo
  exact ⟨s, t, hdo, htruck, hfacility⟩

/-- The truck's order is cancelled while it waits at `"F"`, and it waits at `"G"` when the gate at
`"F"` is given to it: it enters the gate at `"G"`. -/
theorem stale_gate_event :
    ∃ (s : Yard) (event : GateEvent) (o : Origin) (t : HaulTrip),
      oneGate.Reach (fun _ _ ↦ True) oneGateLaunched s ∧ s.CarriesOut "T" event o t ∧
        o.entry.truckId ≠ ⟨"T", t.number⟩ ∧
        t.facility {} event.visitType ≠ some o.facility := by
  have hexec : ((oneGate.exec oneGateLaunched (firstOrder :: (truckActs 30 ++ gateGiven 30 ++
      [.truck "T" (.deliver .orderCancelled), .truck "T" (.step 60 true),
        .truck "T" (.consume none), .truck "T" (.consume none), .truck "T" (.act none),
        .truck "T" (.consume none)] ++ truckActs 90 ++
      [.truck "T" (.assign (orderAt "G") {} {} none)] ++ truckActs 120 ++
      [.inform "F" "T", .truck "T" (.step 150 true)]))).map (Yard.showsGate · 1 "G")) =
        some true := by decide +kernel
  obtain ⟨s, hs, hshows⟩ := Option.map_eq_some_iff.mp hexec
  obtain ⟨t, hdo, hnumber, hfacility⟩ := Yard.carriesOut_of_showsGate hshows
  refine ⟨s, _, _, t, Machine.reach_of_exec _ hs fun _ _ _ ↦ trivial, hdo, ?_, ?_⟩
  · rw [hnumber]
    decide
  · rw [GateEvent.visitType, hfacility]
    decide

end OpenRide.Haulage
