import OpenRide.Haulage.FacilityApp
import OpenRide.Haulage.LegTimes

/-!
# The plan of a trip

An assignment plans both legs of a trip: how long each takes, and the route it follows.  No
transition but one writes anything else to the plan.  That one is the end of the pickup service:
the facility's message names neither a route nor a time for the loaded leg; the route is kept, while
the time is taken to be `0` and put above the floors again (`plan_finishPickupService`).

So the plan a trip was assigned with is the one it drives, as long as every pickup that ends was
planned with the shortest loaded leg the floors allow, and no longer (`plan_survives_iff`).  The
empty leg and the geometry of the loaded one are always kept (`legs_keep_geometry`).
-/

namespace OpenRide.Haulage

open Lib

/-! ## Plans -/

/-- What is planned for the two legs of a trip. -/
structure TripPlan where
  timeToPickup : ℚ
  timeToDropoff : ℚ
  toPickup : Option Route
  toDropoff : Option Route
deriving DecidableEq

/-- What the document of a trip says about its legs. -/
def HaulTrip.plan (t : HaulTrip) : TripPlan where
  timeToPickup := t.stats.estimatedTimeToPickup
  timeToDropoff := t.stats.estimatedTimeToDropoff
  toPickup := t.repositioningToPickup
  toDropoff := t.loadedToDropoff

/-- A trip that drives a leg has the time and the route of that leg as planned. -/
def TripPlan.DrivenBy (p : TripPlan) (t : HaulTrip) : Prop :=
  match t.state with
  | .repositioningToPickup =>
    t.stats.estimatedTimeToPickup = p.timeToPickup ∧ t.repositioningToPickup = p.toPickup
  | .loadedInTransit =>
    t.stats.estimatedTimeToDropoff = p.timeToDropoff ∧ t.loadedToDropoff = p.toDropoff
  | _ => True

theorem drivenBy_plan (t : HaulTrip) : t.plan.DrivenBy t := by
  rw [TripPlan.DrivenBy]
  split
  · exact ⟨rfl, rfl⟩
  · exact ⟨rfl, rfl⟩
  · exact trivial

/-! ## The shortest loaded leg -/

namespace HaulTrip

/-- The shortest time the floors allow for the loaded leg: the least dropoff time, or what is left
of the least time of a haul after the empty leg and the two services. -/
def shortestLoadedLeg (t : HaulTrip) (serviceTime : Number) : ℚ :=
  let least := clampLegEta (.num (.fin 0)) t.bounds.minDropoff t.bounds.maxDropoff
  match t.stats.pickupServiceTime.coerceSeconds 120, serviceTime.coerceSeconds 120 with
  | .fin pickupSvc, .fin dropoffSvc =>
    max least (t.bounds.minHaul - clampLegEta (.num (.fin t.stats.estimatedTimeToPickup))
      t.bounds.minPickup t.bounds.maxPickup - pickupSvc - dropoffSvc)
  | _, _ => least

/-- The loaded leg is planned as the shortest one the floors allow: its time, and the duration of
its route. -/
def PlannedShortest (t : HaulTrip) (serviceTime : Number) : Prop :=
  t.stats.estimatedTimeToDropoff = t.shortestLoadedLeg serviceTime ∧
    ∀ r ∈ t.loadedToDropoff, r.duration = some (.fin (t.shortestLoadedLeg serviceTime))

instance (t : HaulTrip) (serviceTime : Number) : Decidable (t.PlannedShortest serviceTime) :=
  inferInstanceAs (Decidable (_ ∧ _))

end HaulTrip

theorem clampLegEta_le (eta : Number) (minSeconds maxSeconds : ℤ) :
    clampLegEta eta minSeconds maxSeconds ≤ maxSeconds := by
  rw [clampLegEta]
  split
  · exact min_le_right _ _
  · exact le_rfl

/-- A time of `0` is put on the floor. -/
theorem pickupServiceFloors_zero (t : HaulTrip) {serviceTime : Number}
    (hsvc : serviceTime ≠ .null) :
    t.pickupServiceFloors (.num (.fin 0)) serviceTime = t.shortestLoadedLeg serviceTime := by
  rw [HaulTrip.pickupServiceFloors, HaulTrip.shortestLoadedLeg, applyHaulTripDurationFloors,
    if_neg hsvc]
  have hle := clampLegEta_le (.num (.fin 0)) t.bounds.minDropoff t.bounds.maxDropoff
  generalize clampLegEta (.num (.fin 0)) t.bounds.minDropoff t.bounds.maxDropoff = least at hle ⊢
  generalize clampLegEta (.num (.fin t.stats.estimatedTimeToPickup)) t.bounds.minPickup
    t.bounds.maxPickup = pickup
  cases t.stats.pickupServiceTime.coerceSeconds 120 with
  | fin a =>
    cases serviceTime.coerceSeconds 120 with
    | fin b =>
      dsimp only
      by_cases hshort : pickup + least + a + b < t.bounds.minHaul
      -- what is left of the haul is added, and then nothing is left
      · rw [if_pos hshort, max_eq_right (by linarith), if_neg fun h ↦ by linarith [h.1, h.2],
          if_neg (by linarith)]
        ring
      · rw [if_neg hshort, max_eq_left (by linarith), if_neg fun h ↦ hle.not_gt h.1, if_neg hshort]
    | _ => exact congrArg Prod.snd (if_neg hle.not_gt)
  | _ => exact congrArg Prod.snd (if_neg hle.not_gt)

/-! ## What the transitions do to the plan -/

namespace HaulTrip

variable {t t' : HaulTrip} {simClock : ℤ} {updated : Option ℤ}

/-- A write leaves the plan that its edit leaves. -/
theorem plan_of_transition {tr : HaulTransition} {edit : HaulTrip → HaulTrip}
    (h : t.transition tr simClock updated edit = some t') : t'.plan = (edit t).plan := by
  rw [transition] at h
  split at h
  · cases h
    rfl
  · cases h

/-- The empty leg begins with the plan the trip has. -/
theorem plan_startEmptyReposition (h : t.startEmptyReposition simClock updated
    t.repositioningToPickup t.stats.estimatedTimeToPickup = some t') : t'.plan = t.plan := by
  rw [plan_of_transition h, plan, plan, Option.or_self]

/-- **The end of the pickup service** keeps the plan exactly when the loaded leg was planned as the
shortest there is. -/
theorem plan_finishPickupService {serviceTime : Number} (hsvc : serviceTime ≠ .null)
    (h : t.finishPickupService simClock updated none (.num (.fin 0)) serviceTime = some t') :
    t'.plan = { t.plan with
      timeToDropoff := t.shortestLoadedLeg serviceTime
      toDropoff := Route.patchDuration t.loadedToDropoff (t.shortestLoadedLeg serviceTime) } := by
  rw [plan_of_transition h]
  dsimp only [plan]
  rw [pickupServiceFloors_zero t hsvc, Option.none_or]

theorem patchDuration_eq_self_iff {route : Option Route} {seconds : ℚ} :
    Route.patchDuration route seconds = route ↔ ∀ r ∈ route, r.duration = some (.fin seconds) := by
  cases route with
  | none => simp [Route.patchDuration]
  | some r =>
    simp only [Route.patchDuration, Option.map_some, Option.some.injEq, Option.mem_def,
      forall_eq']
    constructor
    · intro h
      rw [← h]
    · intro h
      rw [← h]

end HaulTrip

/-! ## The run of a truck, with the plan of its trip -/

/-- A truck, with the plan its trip was assigned with. -/
structure PlannedTruck (τ : Type) where
  truck : Truck τ
  plan : Option TripPlan := none
deriving DecidableEq

namespace PlannedTruck

variable {τ : Type} (c : TruckConfig)

/-- The plan once an event has led to the truck `k'`: that of the trip an assignment has just
made. -/
def planAfter (a : PlannedTruck τ) (k' : Truck τ) : TruckEvent τ → Option TripPlan
  | .assign _ _ _ _ => if a.truck.trip = none then k'.trip.map HaulTrip.plan else a.plan
  | _ => a.plan

/-- The truck, with the plan noted at each assignment. -/
def machine : Machine (PlannedTruck τ) (TruckEvent τ) where
  step a e := ((Truck.machine c).step a.truck e).map fun k' ↦ ⟨k', a.planAfter k' e⟩

/-- The trip drives its legs as they were planned. -/
def Kept (a : PlannedTruck τ) : Prop :=
  ∀ t p, a.truck.trip = some t → a.plan = some p → p.DrivenBy t

end PlannedTruck

/-- What the truck's handlers read of a facility's message. -/
def GateNotice.data {T : Type} (n : GateNotice T) : GateData where
  serviceTime := some (.num (.fin n.serviceTime))

/-- A message that comes from a facility is one that `FacilityApp` publishes. -/
def Message.Published {τ : Type} (m : Message τ) : Prop :=
  ∀ event data tag, m = .facilityWorkflowEvent event data tag →
    ∃ n : GateNotice TruckId, n.event = event ∧ n.data = data

/-! ## What an event does to the plan -/

namespace Truck

variable {τ : Type} {c : TruckConfig} {k : Truck τ}

/-- What handling the end of the pickup service makes of a trip. -/
def CompletesPickup (k : Truck τ) (m : Message τ) (t t' : HaulTrip) : Prop :=
  ∃ data tag updated, m = .facilityWorkflowEvent .pickupGateServiceCompleted data tag ∧
    t.finishPickupService k.currentTime updated data.plannedRoute
      (data.estimatedTimeToDropoff.getD (.num (.fin 0))) (data.serviceTime.getD .null) = some t'

theorem trip_applyTripTransitionAndNotify (tr : HaulTransition) (result : Option HaulTrip) :
    (k.applyTripTransitionAndNotify c tr result).trip = result.or k.trip := by
  cases result with
  | none => rfl
  | some t => rfl

/-- A transition that leaves the plan. -/
theorem plan_applyTripTransitionAndNotify {t t' : HaulTrip} (htrip : k.trip = some t)
    {tr : HaulTransition} {result : Option HaulTrip}
    (hplan : ∀ t₁, result = some t₁ → t₁.plan = t.plan)
    (h : (k.applyTripTransitionAndNotify c tr result).trip = some t') : t'.plan = t.plan := by
  rw [trip_applyTripTransitionAndNotify] at h
  cases result with
  | some t₁ => exact hplan t' h
  | none =>
    rw [Option.none_or, htrip] at h
    rw [Option.some.inj h]

/-- A message leaves the plan of the trip, or is the end of the pickup service. -/
theorem plan_onMessage {m : Message τ} {updated : Option ℤ} {t' : HaulTrip}
    (h : (k.onMessage c m updated).trip = some t') :
    ∃ t, k.trip = some t ∧ (t'.plan = t.plan ∨ k.CompletesPickup m t t') := by
  cases htrip : k.trip with
  | none => cases m <;> simp [onMessage, htrip, abortStep] at h
  | some t =>
    refine ⟨t, rfl, ?_⟩
    cases m with
    | unhandled =>
      simp only [onMessage, htrip, Option.some.injEq] at h
      rw [h]
      exact Or.inl rfl
    | orderCancelled =>
      simp only [onMessage, htrip] at h
      exact Or.inl (plan_applyTripTransitionAndNotify htrip
        (fun _ h₁ ↦ HaulTrip.plan_of_transition h₁) h)
    | facilityWorkflowEvent event data tag =>
      simp only [onMessage, htrip] at h
      cases event with
      | pickupGateServiceCompleted =>
        rw [onPickupServiceCompleted, trip_applyTripTransitionAndNotify] at h
        cases hresult : t.finishPickupService k.currentTime updated data.plannedRoute
            (data.estimatedTimeToDropoff.getD (.num (.fin 0))) (data.serviceTime.getD .null) with
        | none =>
          rw [hresult, Option.none_or, htrip] at h
          rw [Option.some.inj h]
          exact Or.inl rfl
        | some t₁ =>
          rw [hresult] at h
          cases h
          exact Or.inr ⟨data, tag, updated, rfl, hresult⟩
      | gateSlotAssignedForPickup | gateSlotAssignedForDropoff | dropoffGateServiceCompleted =>
        exact Or.inl (plan_applyTripTransitionAndNotify htrip
          (fun _ h₁ ↦ HaulTrip.plan_of_transition h₁) h)

theorem plan_performWorkflowActions {updated : Option ℤ} {t' : HaulTrip}
    (h : (k.performWorkflowActions c updated).trip = some t') :
    ∃ t, k.trip = some t ∧ t'.plan = t.plan := by
  cases htrip : k.trip with
  | none =>
    simp only [performWorkflowActions, htrip] at h
    cases h
  | some t =>
    refine ⟨t, rfl, ?_⟩
    simp only [performWorkflowActions, htrip] at h
    split at h
    · rw [onStateAssigned] at h
      split at h
      · exact plan_applyTripTransitionAndNotify htrip
          (fun _ h₁ ↦ HaulTrip.plan_startEmptyReposition h₁) h
      · exact plan_applyTripTransitionAndNotify htrip
          (fun _ h₁ ↦ HaulTrip.plan_of_transition h₁) h
    · exact plan_applyTripTransitionAndNotify htrip
        (fun _ h₁ ↦ HaulTrip.plan_of_transition h₁) h
    · exact plan_applyTripTransitionAndNotify htrip
        (fun _ h₁ ↦ HaulTrip.plan_of_transition h₁) h
    · rw [htrip] at h
      rw [Option.some.inj h]

/-- An event leaves the plan of the trip as it was, or is the end of its pickup service, or an
assignment where there was no trip. -/
def Replans (k : Truck τ) (e : TruckEvent τ) (t' : HaulTrip) : Prop :=
  (∃ t, k.trip = some t ∧ (t'.plan = t.plan ∨ ∃ m rest updated, e = .consume updated ∧
    k.messageQueue = m :: rest ∧ k.CompletesPickup m t t')) ∨
  k.trip = none ∧ ∃ o reposition loaded updated, e = .assign o reposition loaded updated

/-- **What an event does to the plan** of the trip. -/
theorem plan_of_step {e : TruckEvent τ} {k' : Truck τ} (h : (machine c).step k e = some k')
    {t' : HaulTrip} (ht' : k'.trip = some t') : k.Replans e t' := by
  have hsame (heq : k'.trip = k.trip) : k.Replans e t' := Or.inl ⟨t', heq ▸ ht', Or.inl rfl⟩
  have hmessage {m : Message τ} {rest : List (Message τ)} {updated : Option ℤ}
      (he : e = .consume updated) (hqueue : k.messageQueue = m :: rest)
      (hk' : ({ k with messageQueue := rest } : Truck τ).onMessage c m updated = k') :
      k.Replans e t' := by
    subst hk'
    obtain ⟨t, ht, hplan | hdone⟩ := plan_onMessage ht'
    · exact Or.inl ⟨t, ht, Or.inl hplan⟩
    · exact Or.inl ⟨t, ht, Or.inr ⟨m, rest, updated, he, hqueue, hdone⟩⟩
  cases e with
  | deliver m =>
    cases h
    exact hsame rfl
  | assign o reposition loaded updated =>
    cases h
    rcases handleAssignment_cases (c := c) (k := k) o reposition loaded updated with
      ⟨t, hnone, -, -, -⟩ | heq
    · exact Or.inr ⟨hnone, o, reposition, loaded, updated, rfl⟩
    · exact hsame (by rw [heq])
  | setOnline online =>
    cases h
    exact hsame rfl
  | step now acts =>
    simp only [machine] at h
    split at h
    · cases h
      split at ht'
      · obtain ⟨loc, heq⟩ := beginStep_eq (c := c) (k := { k with latestSimClock := now }) now
        rw [heq] at ht'
        exact Or.inl ⟨t', (Option.filter_eq_some_iff.mp ht').1, Or.inl rfl⟩
      · exact Or.inl ⟨t', ht', Or.inl rfl⟩
    · cases h
  | consume updated =>
    simp only [machine] at h
    split at h
    · cases h
      exact hsame rfl
    · cases h
      exact hsame rfl
    · next hqueue => exact hmessage rfl hqueue (Option.some.inj h)
    · next hqueue => exact hmessage rfl hqueue (Option.some.inj h)
    · cases h
  | act updated =>
    simp only [machine] at h
    split at h
    · split at h
      · cases h
        exact hsame rfl
      · cases h
        obtain ⟨t, ht, hplan⟩ := plan_performWorkflowActions ht'
        exact Or.inl ⟨t, ht, Or.inl hplan⟩
    · cases h

end Truck

/-! ## Runs -/

namespace PlannedTruck

variable {τ : Type} {c : TruckConfig} {a b : PlannedTruck τ} {e : TruckEvent τ}

/-- The messages that arrive from facilities are those that facilities publish. -/
def FromFacilities (_ : PlannedTruck τ) : TruckEvent τ → Prop
  | .deliver m => m.Published
  | _ => True

/-- A pickup that ends was planned with the shortest loaded leg the floors allow. -/
def LoadsAsPlanned (a : PlannedTruck τ) : TruckEvent τ → Prop
  | .consume _ => ∀ t data tag rest, a.truck.trip = some t → t.state = .atPickupGate →
      a.truck.phase ∈ [Phase.consuming, .consumingAgain] →
      a.truck.messageQueue = .facilityWorkflowEvent .pickupGateServiceCompleted data tag :: rest →
      t.PlannedShortest (data.serviceTime.getD .null)
  | _ => True

/-- The messages that wait are published ones. -/
def QueuePublished (a : PlannedTruck τ) : Prop := ∀ m ∈ a.truck.messageQueue, m.Published

/-- The document of the trip still has the plan it was assigned with. -/
def PlanStands (a : PlannedTruck τ) : Prop :=
  ∀ t, a.truck.trip = some t → a.plan = some t.plan

theorem PlanStands.kept (h : a.PlanStands) : a.Kept := by
  intro t p ht hp
  obtain rfl := Option.some.inj (hp.symm.trans (h t ht))
  exact drivenBy_plan t

theorem QueuePublished.step (hq : a.QueuePublished) (hfrom : a.FromFacilities e)
    (h : (machine c).step a e = some b) : b.QueuePublished := by
  obtain ⟨k', hk, rfl⟩ := Option.map_eq_some_iff.mp h
  intro m hm
  by_cases hdeliver : ∃ m', e = .deliver m'
  · obtain ⟨m', rfl⟩ := hdeliver
    cases hk
    rcases List.mem_append.mp hm with hm | hm
    · exact hq m hm
    · rw [List.mem_singleton.mp hm]
      exact hfrom
  · intro event data tag hmsg
    subst hmsg
    rcases Truck.continues_of_step hk fun event data tag he ↦ hdeliver ⟨_, he⟩ with
      hcont | ⟨_, _, _, _, _, -, hqueue, -⟩
    · exact hq _ (hcont.queue _ _ _ hm) _ _ _ rfl
    · exact hq _ (hqueue ▸ hm) _ _ _ rfl

/-- What the end of a pickup service makes of the plan. -/
theorem plan_of_completesPickup {k : Truck τ} {m : Message τ} {t t' : HaulTrip}
    (hm : m.Published) (h : k.CompletesPickup m t t') :
    ∃ data tag, m = .facilityWorkflowEvent .pickupGateServiceCompleted data tag ∧
      t.state = .atPickupGate ∧ t'.state = .loadedInTransit ∧
      t'.plan = { t.plan with
        timeToDropoff := t.shortestLoadedLeg (data.serviceTime.getD .null)
        toDropoff := Route.patchDuration t.loadedToDropoff
          (t.shortestLoadedLeg (data.serviceTime.getD .null)) } := by
  obtain ⟨data, tag, updated, rfl, hresult⟩ := h
  obtain ⟨n, -, rfl⟩ := hm _ _ _ rfl
  refine ⟨n.data, tag, rfl, ?_, ?_, HaulTrip.plan_finishPickupService
    (by simp [GateNotice.data]) hresult⟩
  · rw [HaulTrip.finishPickupService, HaulTrip.transition] at hresult
    split at hresult
    · next hs => exact List.mem_singleton.mp hs
    · cases hresult
  · rw [HaulTrip.finishPickupService, HaulTrip.transition] at hresult
    split at hresult
    · rw [← Option.some.inj hresult]
      rfl
    · cases hresult

theorem plan_eq_iff {t : HaulTrip} {serviceTime : Number} :
    t.PlannedShortest serviceTime ↔ t.plan.timeToDropoff = t.shortestLoadedLeg serviceTime ∧
      Route.patchDuration t.loadedToDropoff (t.shortestLoadedLeg serviceTime) =
        t.plan.toDropoff := by
  rw [HaulTrip.PlannedShortest, ← HaulTrip.patchDuration_eq_self_iff]
  rfl

/-- A plan is noted only when there is no trip. -/
theorem planAfter_of_trip {t : HaulTrip} (ht : a.truck.trip = some t) (k' : Truck τ)
    (e : TruckEvent τ) : a.planAfter k' e = a.plan := by
  cases e with
  | assign o reposition loaded updated => exact if_neg (by rw [ht]; exact Option.some_ne_none t)
  | _ => rfl

/-- A step that ends no pickup service but one planned as the shortest leaves the plan. -/
theorem PlanStands.step (hp : a.PlanStands) (hq : a.QueuePublished) (hloads : a.LoadsAsPlanned e)
    (h : (machine c).step a e = some b) : b.PlanStands := by
  obtain ⟨k', hk, rfl⟩ := Option.map_eq_some_iff.mp h
  intro t' ht'
  rcases Truck.plan_of_step hk ht' with
    ⟨t, ht, hplan⟩ | ⟨hnone, o, reposition, loaded, updated, rfl⟩
  · have hnoted := planAfter_of_trip ht k' e
    refine hnoted.trans ((hp t ht).trans (congrArg some ?_))
    rcases hplan with hplan | ⟨m, rest, updated, rfl, hqueue, hdone⟩
    · exact hplan.symm
    · obtain ⟨data, tag, rfl, hs, -, hplan⟩ :=
        plan_of_completesPickup (hq m (hqueue ▸ List.mem_cons_self)) hdone
      have hphase : a.truck.phase ∈ [Phase.consuming, .consumingAgain] := by
        cases hphase : a.truck.phase <;> simp [Truck.machine, hphase] at hk ⊢
      obtain ⟨htime, hroute⟩ := plan_eq_iff.mp (hloads t data tag rest ht hs hphase hqueue)
      rw [hplan, hroute, ← htime]
  · show (if a.truck.trip = none then k'.trip.map HaulTrip.plan else a.plan) = some t'.plan
    rw [if_pos hnone, ht', Option.map_some]

/-- At the gate the end of the pickup service is carried out. -/
theorem exists_completesPickup {k k' : Truck τ} {t : HaulTrip} {data : GateData} {tag : τ}
    {rest : List (Message τ)} {updated : Option ℤ} (ht : k.trip = some t)
    (hs : t.state = .atPickupGate) (hphase : k.phase ∈ [Phase.consuming, .consumingAgain])
    (hqueue : k.messageQueue = .facilityWorkflowEvent .pickupGateServiceCompleted data tag :: rest)
    (hk : (Truck.machine c).step k (.consume updated) = some k') :
    ∃ t', k'.trip = some t' ∧
      k.CompletesPickup (.facilityWorkflowEvent .pickupGateServiceCompleted data tag) t t' := by
  have hmessage : k' = ({ k with messageQueue := rest } : Truck τ).onMessage c
      (.facilityWorkflowEvent .pickupGateServiceCompleted data tag) updated := by
    rcases List.mem_pair.mp hphase with hphase | hphase <;>
      simp only [Truck.machine, hphase, hqueue, Option.some.injEq] at hk <;>
      rw [hphase, ← hk]
  have hsource : t.state ∈ HaulTransition.finishPickupService.sources :=
    List.mem_singleton.mpr hs
  refine ⟨_, ?_, data, tag, updated, rfl, if_pos hsource⟩
  rw [hmessage]
  simp only [Truck.onMessage, ht]
  rw [Truck.onPickupServiceCompleted, Truck.trip_applyTripTransitionAndNotify,
    HaulTrip.finishPickupService, HaulTrip.transition, if_pos hsource]
  rfl

/-- **A step keeps the plan exactly when** a pickup it ends was planned as the shortest. -/
theorem kept_step_iff (hp : a.PlanStands) (hq : a.QueuePublished)
    (h : (machine c).step a e = some b) : b.Kept ↔ a.LoadsAsPlanned e := by
  refine ⟨fun hkept ↦ ?_, fun hloads ↦ (hp.step hq hloads h).kept⟩
  obtain ⟨k', hk, rfl⟩ := Option.map_eq_some_iff.mp h
  cases e with
  | consume updated =>
    intro t data tag rest ht hs hphase hqueue
    obtain ⟨t', ht', hdone⟩ := exists_completesPickup ht hs hphase hqueue hk
    obtain ⟨data', tag', heq, -, hs', hplan⟩ :=
      plan_of_completesPickup (hq _ (hqueue ▸ List.mem_cons_self)) hdone
    obtain ⟨-, rfl, rfl⟩ := Message.facilityWorkflowEvent.inj heq
    have hdriven := hkept t' t.plan ht' (hp t ht)
    rw [TripPlan.DrivenBy, hs'] at hdriven
    obtain ⟨htime, hroute⟩ := hdriven
    have htime' := congrArg TripPlan.timeToDropoff hplan
    have hroute' := congrArg TripPlan.toDropoff hplan
    exact plan_eq_iff.mpr ⟨htime.symm.trans htime', hroute'.symm.trans hroute⟩
  | _ => trivial

/-- A truck that has been launched. -/
def launched (loc : Option Point) (clock : ℤ) : PlannedTruck τ where
  truck := { currentTime := clock, latestSimClock := clock, currentLoc := loc }

end PlannedTruck

open PlannedTruck in
/-- **A trip is driven as it was planned**, in every run in which the pickups that end were planned
with the shortest loaded leg there is; and the first one that was not is not. -/
theorem plan_survives_iff {τ : Type} (c : TruckConfig) (loc : Option Point) (clock : ℤ)
    {a : PlannedTruck τ} (h : (PlannedTruck.machine c).Reach
      (fun a e ↦ a.FromFacilities e ∧ a.LoadsAsPlanned e) (launched loc clock) a) :
    a.Kept ∧ ∀ e b, a.FromFacilities e → (PlannedTruck.machine c).step a e = some b →
      (b.Kept ↔ a.LoadsAsPlanned e) := by
  have hinv : a.PlanStands ∧ a.QueuePublished := by
    refine h.invariant (P := fun a ↦ a.PlanStands ∧ a.QueuePublished)
      ⟨fun _ ht ↦ absurd ht (by simp [launched]), fun _ hm ↦ absurd hm List.not_mem_nil⟩ ?_
    rintro a e b ⟨hp, hq⟩ ⟨hfrom, hloads⟩ hs
    exact ⟨hp.step hq hloads hs, hq.step hfrom hs⟩
  exact ⟨hinv.1.kept, fun e b _ hs ↦ kept_step_iff hinv.1 hinv.2 hs⟩

/-! ## What is always kept -/

/-- Two plans with the same empty leg, and with the same lines for the loaded one. -/
structure TripPlan.SameLines (p q : TripPlan) : Prop where
  timeToPickup : q.timeToPickup = p.timeToPickup
  toPickup : q.toPickup = p.toPickup
  geometry : q.toDropoff.map Route.geometry = p.toDropoff.map Route.geometry

namespace PlannedTruck

variable {τ : Type} {c : TruckConfig} {a b : PlannedTruck τ} {e : TruckEvent τ}

/-- The document of the trip still has the lines it was assigned with. -/
def LinesStand (a : PlannedTruck τ) : Prop :=
  ∀ t, a.truck.trip = some t → ∃ p, a.plan = some p ∧ p.SameLines t.plan

theorem LinesStand.step (hl : a.LinesStand) (hq : a.QueuePublished)
    (h : (machine c).step a e = some b) : b.LinesStand := by
  obtain ⟨k', hk, rfl⟩ := Option.map_eq_some_iff.mp h
  intro t' ht'
  rcases Truck.plan_of_step hk ht' with
    ⟨t, ht, hplan⟩ | ⟨hnone, o, reposition, loaded, updated, rfl⟩
  · obtain ⟨p, hp, hlines⟩ := hl t ht
    have hnoted := planAfter_of_trip ht k' e
    refine ⟨p, hnoted.trans hp, ?_⟩
    rcases hplan with hplan | ⟨m, rest, updated, rfl, hqueue, hdone⟩
    · rwa [hplan]
    · obtain ⟨data, tag, rfl, -, -, hplan⟩ :=
        plan_of_completesPickup (hq m (hqueue ▸ List.mem_cons_self)) hdone
      rw [hplan]
      refine ⟨hlines.timeToPickup, hlines.toPickup, ?_⟩
      rw [← hlines.geometry, Route.patchDuration, Option.map_map]
      rfl
  · refine ⟨t'.plan, ?_, rfl, rfl, rfl⟩
    show (if a.truck.trip = none then k'.trip.map HaulTrip.plan else a.plan) = some t'.plan
    rw [if_pos hnone, ht', Option.map_some]

/-- **In every run the empty leg and the geometry of the loaded leg are those of the plan.** -/
theorem legs_keep_geometry (loc : Option Point) (clock : ℤ)
    (h : (machine c).Reach FromFacilities (launched loc clock) a) : a.LinesStand := by
  have hinv : a.LinesStand ∧ a.QueuePublished := by
    refine h.invariant (P := fun a ↦ a.LinesStand ∧ a.QueuePublished)
      ⟨fun _ ht ↦ absurd ht (by simp [launched]),
        fun _ h ↦ absurd h List.not_mem_nil⟩ ?_
    rintro a e b ⟨hl, hq⟩ hfrom hs
    exact ⟨hl.step hq hs, hq.step hfrom hs⟩
  exact hinv.1

/-! ### A loaded leg of half an hour -/

/-- The same as `LoadsAsPlanned`, as a computation. -/
def loadsAsPlanned (a : PlannedTruck τ) (e : TruckEvent τ) : Bool :=
  match e, a.truck.trip, a.truck.messageQueue with
  | .consume _, some t, .facilityWorkflowEvent .pickupGateServiceCompleted data _ :: _ =>
    t.PlannedShortest (data.serviceTime.getD .null)
  | _, _, _ => true

theorem loadsAsPlanned_spec (h : a.loadsAsPlanned e = true) : a.LoadsAsPlanned e := by
  cases e with
  | consume updated =>
    intro t data tag rest ht _ _ hqueue
    simp only [loadsAsPlanned, ht, hqueue] at h
    exact of_decide_eq_true h
  | _ => trivial

end PlannedTruck

/-- A truck that asks the router at assignment. -/
def routedTruck : TruckConfig := { eventTruck with useOsrmAtAssignment := true }

/-- A planned route of some seconds. -/
def routeOf (seconds : ℚ) : Route where
  duration := some (.fin seconds)
  geometry := [⟨0, 0⟩, ⟨1, 1⟩]

/-- The truck takes the job with a loaded leg of some seconds, drives to the pickup, enters its gate
and is served. -/
def servedAfter (loaded : ℚ) : List (TruckEvent Unit) :=
  [.assign { job with dropoffLoc := some ⟨2, 2⟩ } (routeOf 900) (routeOf loaded) none,
    .step 30 true, .consume none, .act none, .consume none, .step 930 true, .consume none,
    .act none, .consume none] ++ stepOf 960 .gateSlotAssignedForPickup ++
  [.deliver (.facilityWorkflowEvent .pickupGateServiceCompleted minute ()), .step 1020 true,
    .consume none]

theorem fromFacilities_servedAfter {loaded : ℚ} {a : PlannedTruck Unit} {e : TruckEvent Unit}
    (he : e ∈ servedAfter loaded) : a.FromFacilities e := by
  cases e with
  | deliver m =>
    intro event data tag hm
    subst hm
    have hdata : data = minute := by
      simp only [servedAfter, stepOf, List.mem_append, List.mem_cons, List.not_mem_nil] at he
      simp only [reduceCtorEq, false_or, or_false, TruckEvent.deliver.injEq,
        Message.facilityWorkflowEvent.injEq] at he
      rcases he with he | he <;> exact he.2.1
    exact ⟨⟨"truck", event, 0, 60, .pickup⟩, rfl, hdata.symm⟩
  | _ => trivial

/-- The loaded leg of half an hour is driven as one of eighteen minutes. -/
theorem loaded_leg_cut_short :
    ∃ a : PlannedTruck Unit, (PlannedTruck.machine routedTruck).Reach PlannedTruck.FromFacilities
      (PlannedTruck.launched (some ⟨0, 0⟩) 0) a ∧ ¬ a.Kept := by
  have hexec : (((PlannedTruck.machine routedTruck).exec
      (PlannedTruck.launched (some ⟨0, 0⟩) 0) (servedAfter 1800)).map fun a ↦
        (a.truck.trip.map fun t ↦ (t.state, t.stats.estimatedTimeToDropoff),
          a.plan.map TripPlan.timeToDropoff)) =
      some (some (.loadedInTransit, 1080), some 1800) := by decide +kernel
  obtain ⟨a, ha, hread⟩ := Option.map_eq_some_iff.mp hexec
  obtain ⟨htrip, hplan⟩ := Prod.mk.inj hread
  obtain ⟨t, ht, htread⟩ := Option.map_eq_some_iff.mp htrip
  obtain ⟨p, hp, hpread⟩ := Option.map_eq_some_iff.mp hplan
  obtain ⟨hs, htime⟩ := Prod.mk.inj htread
  refine ⟨a, ?_, fun hkept ↦ ?_⟩
  · exact Machine.reach_of_exec _ ha fun _ _ he ↦ fromFacilities_servedAfter he
  · have hdriven := hkept t p ht hp
    rw [TripPlan.DrivenBy, hs] at hdriven
    have hsame := hdriven.1
    rw [htime, hpread] at hsame
    exact absurd hsame (by decide)

/-- A loaded leg of eighteen minutes is the shortest there is, and is driven as planned. -/
theorem plan_survives_shortest :
    ∃ a : PlannedTruck Unit, (a.truck.trip.map HaulTrip.state) = some .loadedInTransit ∧
      a.Kept := by
  have hexec : (((PlannedTruck.machine routedTruck).execWhen
      (fun a e ↦ a.loadsAsPlanned e = true) (PlannedTruck.launched (some ⟨0, 0⟩) 0)
      (servedAfter 1080)).map fun a ↦ a.truck.trip.map HaulTrip.state) =
      some (some .loadedInTransit) := by decide +kernel
  obtain ⟨a, ha, hs⟩ := Option.map_eq_some_iff.mp hexec
  exact ⟨a, hs, (plan_survives_iff routedTruck (some ⟨0, 0⟩) 0
    (Machine.reach_of_execWhen_imp ha fun _ he _ hloads ↦
      ⟨fromFacilities_servedAfter he, PlannedTruck.loadsAsPlanned_spec hloads⟩)).1⟩

/-- The leg that is cut short keeps its line. -/
theorem line_kept_when_cut_short :
    ∃ a : PlannedTruck Unit, (a.truck.trip.map HaulTrip.state) = some .loadedInTransit ∧
      a.LinesStand := by
  have hexec : (((PlannedTruck.machine routedTruck).exec
      (PlannedTruck.launched (some ⟨0, 0⟩) 0) (servedAfter 1800)).map fun a ↦
        a.truck.trip.map HaulTrip.state) = some (some .loadedInTransit) := by decide +kernel
  obtain ⟨a, ha, hs⟩ := Option.map_eq_some_iff.mp hexec
  exact ⟨a, hs, PlannedTruck.legs_keep_geometry (some ⟨0, 0⟩) 0
    (Machine.reach_of_exec _ ha fun _ _ he ↦ fromFacilities_servedAfter he)⟩

end OpenRide.Haulage
