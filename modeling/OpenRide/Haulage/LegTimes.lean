import Mathlib.Tactic.FinCases
import OpenRide.Haulage.TruckApp

/-!
# How long a leg takes

A leg is over when the truck joins the next queue: `arrive_pickup_queue` out of
`repositioning_to_pickup`, `arrive_dropoff_queue` out of `loaded_in_transit`.  Nothing in either
transition looks at the clock.  What makes a leg take its time is the beginning of the step, which
is skipped until the leg's planned time has passed since the last transition; the handler then acts
on whatever state the trip is in after the messages of that step.

The empty leg is begun by a state handler, so its end always comes in a later step.  The loaded leg
is begun by a message, and when that message is handled at the beginning of a step the leg ends in
the same step (`leg_skipped`).  In every run in which the loaded leg a handler ends is the one the
step looked at, and in which the leg's gate can be trusted, each leg takes at least its planned time
(`legs_take_their_time`).
-/

namespace OpenRide.Haulage

open Lib

/-! ## The run of a truck, with its arrivals -/

/-- The end of a leg. -/
structure LegEnd where
  /-- The state of the trip on the leg. -/
  leg : HaulState
  /-- The sim time at which the trip entered that state. -/
  entered : ℤ
  /-- The planned time of the leg. -/
  seconds : ℚ
  /-- The sim time at which the truck joined the queue. -/
  arrived : ℤ
deriving DecidableEq

/-- The leg took at least its planned time. -/
def LegEnd.TookItsTime (e : LegEnd) : Prop := e.entered + e.seconds ≤ (e.arrived : ℚ)

instance (e : LegEnd) : Decidable e.TookItsTime := inferInstanceAs (Decidable (_ ≤ _))

/-- A truck, with what there is to know about its legs. -/
structure Drive (τ : Type) where
  truck : Truck τ := {}
  /-- The sim time of the event that last changed the state of the trip. -/
  entered : ℤ := 0
  /-- The document the beginning of the step looked at. -/
  gated : Option HaulTrip := none
  legEnds : List LegEnd := []
deriving DecidableEq

/-- The state handler of the step under way has not acted yet. -/
def Phase.early : Phase → Bool
  | consuming => true
  | acting => true
  | _ => false

namespace Drive

variable {τ : Type} (c : TruckConfig)

/-- The state of the truck's trip. -/
def haulState (k : Truck τ) : Option HaulState := k.trip.map HaulTrip.state

/-- The leg that ended when the truck `k` became `k'`. -/
def legEnd (k k' : Truck τ) (entered : ℤ) : Option LegEnd :=
  match k.trip, haulState k' with
  | some t, some s =>
    if t.state = .repositioningToPickup ∧ s = .queuedForPickup ∨
        t.state = .loadedInTransit ∧ s = .queuedForDropoff then
      some ⟨t.state, entered, t.legSeconds, k'.currentTime⟩
    else none
  | _, _ => none

/-- What is noted when the truck becomes `k'`. -/
def note (d : Drive τ) (gated : Option HaulTrip) (k' : Truck τ) : Drive τ where
  truck := k'
  entered := if haulState k' = haulState d.truck then d.entered else k'.latestSimClock
  gated := gated
  legEnds := d.legEnds ++ (legEnd d.truck k' d.entered).toList

/-- The document the step under way has looked at, once the event has happened. -/
def gatedBy (d : Drive τ) : TruckEvent τ → Option HaulTrip
  | .step _ _ => d.truck.trip
  | _ => d.gated

/-- The truck, with its legs noted. -/
def machine : Machine (Drive τ) (TruckEvent τ) where
  step d e := ((Truck.machine c).step d.truck e).map (d.note (d.gatedBy e))

/-- The side condition: when a handler is about to end a leg that takes time, the document it acts
on is the one the beginning of the step looked at, and the leg's gate can be trusted. -/
def Looked (d : Drive τ) : TruckEvent τ → Prop
  | .act _ =>
    match d.truck.trip with
    | some t =>
      0 < t.legSeconds → d.truck.online = true →
        (t.state = .loadedInTransit → d.gated = some t) ∧ t.Timed
    | none => True
  | _ => True

instance (d : Drive τ) (e : TruckEvent τ) : Decidable (d.Looked e) :=
  match e with
  | .act _ =>
    match h : d.truck.trip with
    | some t => decidable_of_iff (0 < t.legSeconds → d.truck.online = true →
        (t.state = .loadedInTransit → d.gated = some t) ∧ t.Timed) (by rw [Looked, h])
    | none => isTrue (by rw [Looked, h]; trivial)
  | .deliver _ | .assign _ _ _ _ | .setOnline _ | .step _ _ | .consume _ => isTrue trivial

/-! ## The invariant -/

/-- What holds of the truck and of what is noted about it. -/
structure Paced (d : Drive τ) : Prop where
  /-- In a step, the two clocks of the truck agree. -/
  clocks : d.truck.phase ≠ .idle → d.truck.currentTime = d.truck.latestSimClock
  /-- The trip has been in its state since some time in the past. -/
  past : d.entered ≤ d.truck.latestSimClock
  /-- The document of a driving trip is dated with the beginning of its leg. -/
  dated : ∀ t, d.truck.trip = some t → t.state.driving = true → t.simClock = d.entered
  /-- Before its handler acts, the step looked at a trip that was due. -/
  due : d.truck.phase.early = true → ∀ t, d.gated = some t →
    t.estimateNextEventTime d.truck.currentTime ≤ 1000000 * d.truck.currentTime
  /-- Before its handler acts, an empty leg is the one the step looked at. -/
  empty : d.truck.phase.early = true → ∀ t, d.truck.trip = some t →
    t.state = .repositioningToPickup → d.gated = some t
  /-- Every leg took its time. -/
  kept : ∀ e ∈ d.legEnds, e.TookItsTime

variable {c} {d : Drive τ} {k' : Truck τ}

theorem legEnd_of_trip_eq {k : Truck τ} (h : k'.trip = k.trip) (entered : ℤ) :
    legEnd k k' entered = none := by
  cases htrip : k.trip with
  | none => simp only [legEnd, htrip]
  | some t => cases hs : t.state <;> simp [legEnd, haulState, h, htrip, hs]

/-- A leg ends when a driving trip joins a queue. -/
theorem of_legEnd {k : Truck τ} {entered : ℤ} {e : LegEnd} (h : legEnd k k' entered = some e) :
    ∃ t t', k.trip = some t ∧ k'.trip = some t' ∧
      (t.state = .repositioningToPickup ∧ t'.state = .queuedForPickup ∨
        t.state = .loadedInTransit ∧ t'.state = .queuedForDropoff) ∧
      e = ⟨t.state, entered, t.legSeconds, k'.currentTime⟩ := by
  unfold legEnd at h
  split at h
  · next t s htrip hs =>
    split at h
    · next hleg =>
      obtain ⟨t', htrip', rfl⟩ := Option.map_eq_some_iff.mp hs
      exact ⟨t, t', htrip, htrip', hleg, (Option.some.inj h).symm⟩
    · cases h
  · cases h

theorem Paced.quiet (hd : d.Paced) (htrip : k'.trip = d.truck.trip)
    (hcur : k'.currentTime = d.truck.currentTime)
    (hsim : k'.latestSimClock = d.truck.latestSimClock)
    (hidle : k'.phase ≠ .idle → d.truck.phase ≠ .idle)
    (hearly : k'.phase.early = true → d.truck.phase.early = true) : (d.note d.gated k').Paced := by
  have hsame : haulState k' = haulState d.truck := by rw [haulState, htrip, haulState]
  have hentered : (d.note d.gated k').entered = d.entered := if_pos hsame
  refine ⟨fun h ↦ ?_, ?_, fun t ht hdrive ↦ ?_, fun h t ht ↦ ?_, fun h t ht hs ↦ ?_, fun e he ↦ ?_⟩
  · exact hcur.trans ((hd.clocks (hidle h)).trans hsim.symm)
  · rw [hentered]
    exact hd.past.trans_eq hsim.symm
  · rw [hentered]
    exact hd.dated t (htrip.symm.trans ht) hdrive
  · have hdue := hd.due (hearly h) t ht
    rwa [← hcur] at hdue
  · exact hd.empty (hearly h) t (htrip.symm.trans ht) hs
  · simp only [note, legEnd_of_trip_eq htrip, Option.toList_none, List.append_nil] at he
    exact hd.kept e he

theorem Paced.moved (hd : d.Paced) (hchange : haulState k' ≠ haulState d.truck)
    (hcur : k'.currentTime = d.truck.currentTime)
    (hsim : k'.latestSimClock = d.truck.latestSimClock)
    (hidle : k'.phase ≠ .idle → d.truck.phase ≠ .idle)
    (hearly : k'.phase.early = true → d.truck.phase.early = true)
    (hdated : ∀ t, k'.trip = some t → t.state.driving = true → t.simClock = k'.latestSimClock)
    (hempty : k'.phase.early = true → ∀ t, k'.trip = some t → t.state ≠ .repositioningToPickup)
    (hend : ∀ e, legEnd d.truck k' d.entered = some e → e.TookItsTime) :
    (d.note d.gated k').Paced := by
  have hentered : (d.note d.gated k').entered = k'.latestSimClock := if_neg hchange
  refine ⟨fun h ↦ ?_, hentered.le, fun t ht hdrive ↦ ?_, fun h t ht ↦ ?_, fun h t ht hs ↦ ?_,
    fun e he ↦ ?_⟩
  · exact hcur.trans ((hd.clocks (hidle h)).trans hsim.symm)
  · rw [hentered]
    exact hdated t ht hdrive
  · have hdue := hd.due (hearly h) t ht
    rwa [← hcur] at hdue
  · exact absurd hs (hempty h t ht)
  · rcases List.mem_append.mp he with he | he
    · exact hd.kept e he
    · exact hend e (Option.mem_toList.mp he)

/-! ## One event -/

theorem target_notMem_sources (tr : HaulTransition) : tr.target ∉ tr.sources := by
  cases tr <;> decide

theorem haulState_ne_of_made {k : Truck τ} {tr : HaulTransition} {now : ℤ} {t t' : HaulTrip}
    (hk : k.trip = some t) (hmade : HaulTrip.Made tr now t t') (hk' : k'.trip = some t') :
    haulState k' ≠ haulState k := by
  rw [haulState, haulState, hk, hk', Option.map_some, Option.map_some, hmade.state]
  intro heq
  exact target_notMem_sources tr (Option.some.inj heq ▸ hmade.allowed)

/-- No message begins an empty leg or ends a leg. -/
theorem target_of_message {m : Message τ} {tr : HaulTransition} (h : m.transition = some tr) :
    tr.target ≠ .repositioningToPickup ∧ tr.target ≠ .queuedForPickup ∧
      tr.target ≠ .queuedForDropoff := by
  cases m with
  | facilityWorkflowEvent event _ _ =>
    cases h
    cases event <;> exact ⟨by decide, by decide, by decide⟩
  | orderCancelled =>
    cases h
    exact ⟨by decide, by decide, by decide⟩
  | unhandled => cases h

theorem Paced.onMessage (hd : d.Paced) {m : Message τ} {rest : List (Message τ)}
    (updated : Option ℤ) (hphase : d.truck.phase ≠ .idle) :
    (d.note d.gated
      (({ d.truck with messageQueue := rest } : Truck τ).onMessage c m updated)).Paced := by
  rcases Truck.onMessage_cases (c := c) (k := { d.truck with messageQueue := rest }) m updated with
    ⟨tr, hm, t, t', htrip, hmade, heq⟩ | heq | heq
  · obtain ⟨hrepo, hpickup, hdropoff⟩ := target_of_message hm
    rw [heq]
    refine hd.moved (haulState_ne_of_made htrip hmade rfl) rfl rfl id id ?_ ?_ ?_
    · intro t₁ ht₁ _
      cases ht₁
      exact hmade.dated.trans (hd.clocks hphase)
    · intro _ t₁ ht₁
      cases ht₁
      exact hmade.state ▸ hrepo
    · intro e he
      obtain ⟨_, t₁, -, ht₁, hleg, -⟩ := of_legEnd he
      cases ht₁
      rw [hmade.state] at hleg
      exact hleg.elim (fun h ↦ absurd h.2 hpickup) fun h ↦ absurd h.2 hdropoff
  · rw [heq]
    exact hd.quiet rfl rfl rfl id id
  · rw [heq]
    exact hd.quiet rfl rfl rfl (absurd rfl) (by simp [Truck.abortStep, Phase.early])

theorem Paced.assign (hd : d.Paced) (o : HaulOrder) (reposition loaded : Route)
    (updated : Option ℤ) :
    (d.note d.gated (d.truck.handleAssignment c o reposition loaded updated)).Paced := by
  rcases Truck.handleAssignment_cases (c := c) (k := d.truck) o reposition loaded updated with
    ⟨t, htrip, -, hs, heq⟩ | heq
  · rw [heq]
    have hstate {t₁ : HaulTrip} (ht₁ : some t = some t₁) : t₁.state = .assigned :=
      Option.some.inj ht₁ ▸ hs
    refine hd.moved ?_ rfl rfl id id ?_ ?_ ?_
    · rw [haulState, haulState, htrip]
      exact Option.some_ne_none _
    · intro t₁ ht₁ hdrive
      rw [hstate ht₁] at hdrive
      exact absurd hdrive (by decide)
    · intro _ t₁ ht₁
      rw [hstate ht₁]
      decide
    · intro e he
      obtain ⟨t₁, _, ht₁, -⟩ := of_legEnd he
      rw [htrip] at ht₁
      cases ht₁
  · rw [heq]
    exact hd.quiet rfl rfl rfl id id

/-- The leg the state handler ends took its time. -/
theorem Paced.tookItsTime (hd : d.Paced) {t : HaulTrip} (htrip : d.truck.trip = some t)
    (hphase : d.truck.phase = .acting) (hdrive : t.state.driving = true)
    (hgated : 0 < t.legSeconds → d.gated = some t ∧ t.Timed) :
    LegEnd.TookItsTime ⟨t.state, d.entered, t.legSeconds, d.truck.currentTime⟩ := by
  have hclock : d.truck.currentTime = d.truck.latestSimClock :=
    hd.clocks (by rw [hphase]; decide)
  have hpast : d.entered ≤ d.truck.currentTime := hd.past.trans_eq hclock.symm
  rcases le_or_gt t.legSeconds 0 with hzero | hpos
  · have hle : (d.entered : ℚ) ≤ d.truck.currentTime := by exact_mod_cast hpast
    rw [LegEnd.TookItsTime]
    linarith
  · obtain ⟨hlooked, htimed⟩ := hgated hpos
    have hdue := hd.due (by rw [hphase]; rfl) t hlooked
    have hdated := hd.dated t htrip hdrive
    rw [LegEnd.TookItsTime, ← hdated]
    exact le_of_estimate (fun _ ↦ htimed) (hdated.trans_le hpast) hdue

theorem Paced.act (hd : d.Paced) (updated : Option ℤ) (hphase : d.truck.phase = .acting)
    (hlooked : d.Looked (.act updated)) (honline : d.truck.online = true) :
    (d.note d.gated
      { d.truck.performWorkflowActions c updated with phase := .consumingAgain }).Paced := by
  have hne : d.truck.phase ≠ .idle := by rw [hphase]; decide
  rcases Truck.performWorkflowActions_cases (c := c) (k := d.truck) updated with
    ⟨tr, htr, t, t', htrip, hmade, heq⟩ | heq
  · rw [heq]
    refine hd.moved (haulState_ne_of_made htrip hmade rfl) rfl rfl (fun _ ↦ hne) nofun ?_ nofun ?_
    · intro t₁ ht₁ _
      cases ht₁
      exact hmade.dated.trans (hd.clocks hne)
    · intro e he
      obtain ⟨t₁, _, ht₁, -, hleg, rfl⟩ := of_legEnd he
      obtain rfl := Option.some.inj (htrip.symm.trans ht₁)
      simp only [Looked, htrip] at hlooked
      refine hd.tookItsTime htrip hphase ?_ fun hpos ↦ ?_
      · rcases hleg with ⟨h, -⟩ | ⟨h, -⟩ <;> rw [h] <;> rfl
      · obtain ⟨hloaded, htimed⟩ := hlooked hpos honline
        refine ⟨?_, htimed⟩
        rcases hleg with ⟨h, -⟩ | ⟨h, -⟩
        · exact hd.empty (by rw [hphase]; rfl) t htrip h
        · exact hloaded h
  · rw [heq]
    exact hd.quiet rfl rfl rfl (fun _ ↦ hne) nofun

theorem Paced.begin (hd : d.Paced) {now : ℤ} (hnow : d.truck.latestSimClock ≤ now)
    (hdue : ∀ t, d.truck.trip = some t → t.estimateNextEventTime now ≤ 1000000 * now) :
    (d.note d.truck.trip
      (({ d.truck with latestSimClock := now } : Truck τ).beginStep c now)).Paced := by
  obtain ⟨loc, heq⟩ :=
    Truck.beginStep_eq (c := c) (k := { d.truck with latestSimClock := now }) now
  rw [heq]
  have htrip {t : HaulTrip} (ht : (d.truck.trip.filter fun t ↦ !t.state.final) = some t) :
      d.truck.trip = some t := (Option.filter_eq_some_iff.mp ht).1
  refine ⟨fun _ ↦ rfl, ?_, fun t ht hdrive ↦ ?_, fun _ ↦ hdue, fun _ t ht _ ↦ htrip ht,
    fun e he ↦ ?_⟩
  · simp only [note]
    split
    · exact hd.past.trans hnow
    · exact le_rfl
  · simp only [note] at ht ⊢
    rw [if_pos (by rw [haulState, haulState, ht, htrip ht])]
    exact hd.dated t (htrip ht) hdrive
  · rcases List.mem_append.mp he with he | he
    · exact hd.kept e he
    -- a leg that ended would be one whose trip is in two states
    · obtain ⟨t, t', ht, ht', hleg, -⟩ := of_legEnd (Option.mem_toList.mp he)
      obtain rfl := Option.some.inj (ht.symm.trans (htrip ht'))
      rcases hleg with ⟨h, h'⟩ | ⟨h, h'⟩ <;> rw [h] at h' <;> cases h'

theorem Paced.skip (hd : d.Paced) {now : ℤ} (hnow : d.truck.latestSimClock ≤ now)
    (hphase : d.truck.phase = .idle) :
    (d.note d.truck.trip { d.truck with latestSimClock := now }).Paced := by
  have hentered : (d.note d.truck.trip { d.truck with latestSimClock := now }).entered =
      d.entered := if_pos rfl
  refine ⟨fun h ↦ absurd hphase h, ?_, fun t ht hdrive ↦ ?_, fun h ↦ ?_, fun h ↦ ?_, fun e he ↦ ?_⟩
  · rw [hentered]
    exact hd.past.trans hnow
  · rw [hentered]
    exact hd.dated t ht hdrive
  · rw [note, hphase] at h
    cases h
  · rw [note, hphase] at h
    cases h
  · simp only [note, legEnd_of_trip_eq, Option.toList_none, List.append_nil] at he
    exact hd.kept e he

/-! ## Every event -/

theorem Paced.step {e : TruckEvent τ} {d' : Drive τ} (hc : c.stepOnlyOnEvents = true)
    (hd : d.Paced) (hlooked : d.Looked e) (h : (machine c).step d e = some d') : d'.Paced := by
  obtain ⟨k', hk, rfl⟩ := Option.map_eq_some_iff.mp h
  cases e with
  | deliver m =>
    cases hk
    exact hd.quiet rfl rfl rfl id id
  | assign o reposition loaded updated =>
    cases hk
    exact hd.assign o reposition loaded updated
  | setOnline online =>
    cases hk
    exact hd.quiet rfl rfl rfl id id
  | step now acts =>
    simp only [Truck.machine] at hk
    split at hk
    · next hidle =>
      cases hk
      split
      · next hacts =>
        refine hd.begin hidle.2 fun t ht ↦ ?_
        simp [Truck.stepActs, hc, Truck.estimateNextEventTime, ht] at hacts
        exact hacts.2
      · exact hd.skip hidle.2 hidle.1
    · cases hk
  | consume updated =>
    simp only [Truck.machine] at hk
    split at hk
    · next hphase hqueue =>
      cases hk
      exact hd.quiet rfl rfl rfl (fun _ ↦ by rw [hphase]; decide) fun _ ↦ by rw [hphase]; rfl
    · cases hk
      exact hd.quiet rfl rfl rfl (absurd rfl) fun h ↦ absurd h Bool.false_ne_true
    · next hphase _ =>
      cases hk
      exact hd.onMessage updated (by rw [hphase]; decide)
    · next hphase _ =>
      cases hk
      exact hd.onMessage updated (by rw [hphase]; decide)
    · cases hk
  | act updated =>
    simp only [Truck.machine] at hk
    split at hk
    · next hphase =>
      split at hk
      · cases hk
        exact hd.quiet rfl rfl rfl (absurd rfl) fun h ↦ absurd h Bool.false_ne_true
      · next honline =>
        cases hk
        exact hd.act updated hphase hlooked (by simpa using honline)
    · cases hk

/-- A truck that has been launched. -/
def launched (loc : Option Point) (clock : ℤ) : Drive τ where
  truck := { currentTime := clock, latestSimClock := clock, currentLoc := loc }
  entered := clock

theorem paced_launched (loc : Option Point) (clock : ℤ) : (launched loc clock : Drive τ).Paced where
  clocks h := absurd rfl h
  past := le_rfl
  dated _ h := nomatch h
  due h := nomatch h
  empty h := nomatch h
  kept _ h := nomatch h

end Drive

open Drive in
/-- **A truck drives every leg for its planned time**, in every run in which a handler that ends a
loaded leg ends the one the step looked at, and in which the gates of the legs can be trusted. -/
theorem legs_take_their_time {τ : Type} {c : TruckConfig} (hc : c.stepOnlyOnEvents = true)
    (loc : Option Point) (clock : ℤ) {d : Drive τ}
    (h : (Drive.machine c).Reach Looked (launched loc clock) d) :
    ∀ e ∈ d.legEnds, e.TookItsTime := by
  have hpaced : d.Paced :=
    h.invariant (paced_launched loc clock) fun _ _ _ hd hlooked hs ↦ hd.step hc hlooked hs
  exact hpaced.kept

/-! ## A haul -/

/-- A truck that steps on events. -/
def eventTruck : TruckConfig := { stepOnlyOnEvents := true }

/-- A job between two facilities. -/
def job : HaulOrder where
  id := some "order"
  pickupLoc := some ⟨1, 1⟩
  pickupFacilityResourceId := some "P"
  dropoffFacilityResourceId := some "D"

/-- What a facility tells about a service of a minute. -/
def minute : GateData := { serviceTime := some (.num (.fin 60)) }

/-- A step with one message in the queue at its beginning. -/
def stepOf (now : ℤ) (event : GateEvent) : List (TruckEvent Unit) :=
  [.deliver (.facilityWorkflowEvent event minute ()), .step now true, .consume none, .consume none,
   .act none, .consume none]

/-- The truck takes the job, drives to the pickup, and enters its gate. -/
def toTheGate : List (TruckEvent Unit) :=
  [.assign job {} {} none, .step 30 true, .consume none, .act none, .consume none, .step 930 true,
   .consume none, .act none, .consume none] ++ stepOf 960 .gateSlotAssignedForPickup

/-- The completion of the pickup arrives after the handler of the step has acted. -/
def drivesLoaded : List (TruckEvent Unit) :=
  toTheGate ++ [.step 1020 true, .consume none, .act none,
    .deliver (.facilityWorkflowEvent .pickupGateServiceCompleted minute ()), .consume none,
    .consume none, .step 2100 true, .consume none, .act none]

theorem legs_take_their_time_two :
    ∃ d : Drive Unit, d.legEnds.length = 2 ∧ ∀ e ∈ d.legEnds, e.TookItsTime := by
  have hexec : (((Drive.machine eventTruck).execWhen Drive.Looked (Drive.launched none 0)
      drivesLoaded).map fun d ↦ d.legEnds.length) = some 2 := by decide +kernel
  obtain ⟨d, hd, htwo⟩ := Option.map_eq_some_iff.mp hexec
  exact ⟨d, htwo, legs_take_their_time rfl none 0 (Machine.reach_of_execWhen hd)⟩

/-- The completion of the pickup arrives before the step, and the loaded leg of eighteen minutes
is over in that step. -/
theorem leg_skipped :
    ∃ d : Drive Unit, (Drive.machine eventTruck).Reach (fun _ _ ↦ True) (Drive.launched none 0) d ∧
      ∃ e ∈ d.legEnds, ¬ e.TookItsTime := by
  have hexec : (((Drive.machine eventTruck).exec (Drive.launched none 0)
      (toTheGate ++ stepOf 1020 .pickupGateServiceCompleted)).map fun d ↦
        decide (⟨.loadedInTransit, 1020, 1080, 1020⟩ ∈ d.legEnds)) = some true := by decide +kernel
  obtain ⟨d, hd, hend⟩ := Option.map_eq_some_iff.mp hexec
  refine ⟨d, Machine.reach_of_exec _ hd fun _ _ _ ↦ trivial, _, of_decide_eq_true hend, ?_⟩
  norm_num [LegEnd.TookItsTime]

end OpenRide.Haulage
