import OpenRide.OrderLifecycle.EventFold

/-!
# Cutting a stream of events into drains

`drains_eq_singly_iff` compares a stream of events cut into drains with the same events applied one
by one.  The two agree on every document except a stale one whose first terminal event is a cancel
that a haul event follows (`haulAfterCancel`): there the fold stops at the cancel, while the stored
document, its marker never cleared, is revived by the next event.
-/

namespace OpenRide.OrderLifecycle

open Lib

/-! ## What one event does to a document -/

/-- The truck an event sets, if it sets one. -/
def ParsedEvent.newTruck (ev : ParsedEvent) : Option String :=
  if ev.targetState = .assigned ∧ ev.truckId.any (· ≠ "") then ev.truckId else none

variable {d : OrderDoc}

variable {ev : ParsedEvent}

theorem receive_of_writable (hw : d.writable = true)
    (hc : d.advisory = true → ev.targetState ≠ .cancelled) :
    (d.receive ev).state = ev.targetState ∧ (d.receive ev).truck = (ev.newTruck <|> d.truck) ∧
      (d.receive ev).cancelReason = if d.advisory then none else d.cancelReason := by
  have hd : ¬ drops d.known ev.targetState = true := by
    rw [drops_known, not_or, Bool.not_eq_false]
    exact ⟨fun h ↦ hc h.1 h.2, hw⟩
  rw [OrderDoc.receive, if_neg hd]
  exact ⟨rfl, rfl, rfl⟩

theorem receive_runId (d : OrderDoc) (ev : ParsedEvent) : (d.receive ev).runId = d.runId := by
  rw [OrderDoc.receive]
  split <;> rfl

theorem receive_of_not_writable (hw : d.writable = false) (ev : ParsedEvent) : d.receive ev = d :=
  receive_of_drops (drops_known.mpr (Or.inr hw))

/-- A hard-terminal document stays as it is. -/
theorem foldl_receive_of_not_writable (hw : d.writable = false) (es : List ParsedEvent) :
    es.foldl OrderDoc.receive d = d := by
  induction es with
  | nil => rfl
  | cons ev es ih => rw [List.foldl_cons, receive_of_not_writable hw, ih]

theorem writable_of_not_terminal (h : d.state.terminal = false) : d.writable = true := by
  rw [OrderDoc.writable, h]
  rfl

theorem advisory_of_not_terminal (h : d.state.terminal = false) : d.advisory = false := by
  refine Bool.eq_false_iff.mpr fun ha ↦ ?_
  rw [(advisory_iff.mp ha).1] at h
  exact absurd h (by decide)

theorem writable_of_advisory (h : d.advisory = true) : d.writable = true := by
  have hr : resurrectable (some d.state) d.cancelReason = true := h
  rw [OrderDoc.writable, hr, Bool.or_true]

/-- An open document takes over the state and the truck of an event, and keeps its marker. -/
theorem receive_open (h : d.state.terminal = false) (ev : ParsedEvent) :
    (d.receive ev).state = ev.targetState ∧ (d.receive ev).truck = (ev.newTruck <|> d.truck) ∧
      (d.receive ev).cancelReason = d.cancelReason := by
  have ha := advisory_of_not_terminal h
  obtain ⟨h1, h2, h3⟩ := receive_of_writable (writable_of_not_terminal h)
    fun h ↦ absurd (h.symm.trans ha) Bool.noConfusion
  rw [ha] at h3
  exact ⟨h1, h2, h3⟩

theorem not_writable_iff : d.writable = false ↔
    d.state.terminal = true ∧ d.advisory = false := by
  rw [OrderDoc.writable, Bool.or_eq_false_iff, Bool.not_eq_false']
  rfl

theorem not_writable_of_unmarked (ht : d.state.terminal = true)
    (hc : d.cancelReason ≠ some sweepCancelReason) : d.writable = false :=
  not_writable_iff.mpr ⟨ht, Bool.eq_false_iff.mpr fun ha ↦ hc (advisory_iff.mp ha).2⟩

/-- A cleared marker stays cleared. -/
theorem foldl_receive_cancelReason_none (h : d.cancelReason = none) (es : List ParsedEvent) :
    (es.foldl OrderDoc.receive d).cancelReason = none := by
  induction es generalizing d with
  | nil => exact h
  | cons ev es ih =>
    refine ih ?_
    rw [OrderDoc.receive]
    split
    · exact h
    · rw [OrderDoc.write, h, ite_self]

/-- An advisory document ignores cancels. -/
theorem receive_cancel_of_advisory (ha : d.advisory = true) (hc : ev.targetState = .cancelled) :
    d.receive ev = d :=
  receive_of_drops (drops_known.mpr (Or.inl ⟨ha, hc⟩))

variable {es : List ParsedEvent}

theorem foldl_receive_cancels (ha : d.advisory = true) (hc : ∀ ev ∈ es, ev.targetState = .cancelled)
    : es.foldl OrderDoc.receive d = d := by
  induction es with
  | nil => rfl
  | cons ev es ih =>
    rw [List.foldl_cons, receive_cancel_of_advisory ha (hc ev List.mem_cons_self)]
    exact ih fun e he ↦ hc e (List.mem_cons_of_mem _ he)

/-- A haul event clears the marker of an advisory document. -/
theorem foldl_receive_revived (ha : d.advisory = true) (hh : ∃ ev ∈ es, ev.targetState ≠ .cancelled)
    : (es.foldl OrderDoc.receive d).cancelReason = none := by
  induction es with
  | nil =>
    obtain ⟨ev, hev, -⟩ := hh
    exact absurd hev List.not_mem_nil
  | cons ev es ih =>
    rw [List.foldl_cons]
    by_cases hc : ev.targetState = .cancelled
    · rw [receive_cancel_of_advisory ha hc]
      obtain ⟨e, he, hne⟩ := hh
      rcases List.mem_cons.mp he with rfl | he
      · exact absurd hc hne
      · exact ih ⟨e, he, hne⟩
    · refine foldl_receive_cancelReason_none ?_ es
      rw [(receive_of_writable (writable_of_advisory ha) fun _ ↦ hc).2.2, ha]
      rfl

/-! ## Stale documents -/

/-- The first terminal event is a cancel, and a haul event follows it. -/
def haulAfterCancel : List ParsedEvent → Bool
  | [] => false
  | ev :: es =>
    if ev.targetState = .cancelled then es.any fun e ↦ e.targetState ≠ .cancelled
    else if ev.targetState.terminal then false
    else haulAfterCancel es

theorem foldl_step_of_terminal {f : OrderFold} {s : OrderState} (hk : f.known = (some s, none))
    (hs : s.terminal = true) (es : List ParsedEvent) : es.foldl OrderFold.step f = f := by
  induction es with
  | nil => rfl
  | cons ev es ih =>
    have hd : drops f.known ev.targetState = true := by
      rw [hk, drops]
      simp [resurrectable, hs]
    rw [List.foldl_cons, OrderFold.step, if_pos hd, ih]

/-- **A drain on a stale document.**  From a point where the document is still open, either the
fold keeps up with the events one by one, or it ends with the marker standing where the events
one by one have cleared it. -/
theorem foldl_stale {e : OrderDoc} {f : OrderFold} (hstale : d.stale = true) (h : Tracks d f e)
    (hopen : e.state.terminal = false) (es : List ParsedEvent) :
    (haulAfterCancel es = false →
      Tracks d (es.foldl OrderFold.step f) (es.foldl OrderDoc.receive e)) ∧
    (haulAfterCancel es = true → ∀ runId, d.runId = runId →
      (d.applyFold runId (es.foldl OrderFold.step f)).cancelReason = some sweepCancelReason ∧
      (es.foldl OrderDoc.receive e).cancelReason = none) := by
  induction es generalizing f e with
  | nil => exact ⟨fun _ ↦ h, fun hh ↦ absurd hh Bool.false_ne_true⟩
  | cons ev es ih =>
    obtain ⟨hd, hreason⟩ := stale_iff.mp hstale
    have hadv := advisory_of_not_terminal hopen
    have hstep := h.step (fun _ ↦ hadv) ev
    obtain ⟨hst, -, hcr⟩ := receive_open hopen ev
    have hmark : e.cancelReason = some sweepCancelReason := by
      cases hs : f.slot with
      | none => rw [(h.fresh hs).2, hreason]
      | some s => rw [h.cancelReason hs, advisory_of_not_terminal hd, hreason]; rfl
    -- the fold has taken the event over, so it knows the state it leads to
    have hknown : (f.step ev).known = (some ev.targetState, none) := by
      have hdrop : ¬ drops f.known ev.targetState = true := by
        cases hs : f.slot with
        | none =>
          obtain ⟨rfl, rfl⟩ := h.fresh hs
          rw [drops_known, hadv, not_or, Bool.not_eq_false]
          exact ⟨fun hx ↦ absurd hx.1 Bool.false_ne_true, writable_of_not_terminal hopen⟩
        | some s =>
          obtain ⟨-, he, hk, -⟩ := h.folded s hs
          have hse : e.state = s.state := by rw [he]; rfl
          rw [hk, drops]
          simp [resurrectable, ← hse, hopen]
      rw [OrderFold.step, if_neg hdrop]
    rw [List.foldl_cons, List.foldl_cons, haulAfterCancel]
    by_cases hc : ev.targetState = .cancelled
    · rw [if_pos hc, foldl_step_of_terminal hknown (by rw [hc]; rfl)]
      have hadv' : (e.receive ev).advisory = true :=
        advisory_iff.mpr ⟨hst.trans hc, hcr.trans hmark⟩
      constructor
      · intro hany
        rw [foldl_receive_cancels hadv' fun x hx ↦ by
          simpa using List.any_eq_false.mp hany x hx]
        exact hstep
      · intro hany runId hrun
        obtain ⟨x, hx, hne⟩ := List.any_eq_true.mp hany
        rw [hstep.applyFold hrun, hcr, hmark]
        exact ⟨rfl, foldl_receive_revived hadv' ⟨x, hx, of_decide_eq_true hne⟩⟩
    · rw [if_neg hc]
      by_cases ht : ev.targetState.terminal = true
      · rw [if_pos ht, foldl_step_of_terminal hknown ht]
        refine ⟨fun _ ↦ ?_, fun hh ↦ absurd hh Bool.false_ne_true⟩
        have hw : (e.receive ev).writable = false :=
          not_writable_iff.mpr ⟨hst ▸ ht, Bool.eq_false_iff.mpr fun ha ↦
            hc (hst ▸ (advisory_iff.mp ha).1)⟩
        rw [foldl_receive_of_not_writable hw]
        exact hstep
      · rw [if_neg ht]
        exact ih hstep (by rw [hst]; exact Bool.eq_false_iff.mpr ht)

variable {runId : String}

/-- The document a drain leaves, unless the document is stale and hauled after a cancel. -/
theorem drain_eq (hrun : d.runId = runId) (h : d.stale = true → haulAfterCancel es = false) :
    d.drain runId es = es.foldl OrderDoc.receive d := by
  cases hs : d.stale with
  | false => exact drain_eq_foldl_receive hrun hs es
  | true =>
    exact ((foldl_stale hs (Tracks.start d) (stale_iff.mp hs).1 es).1 (h hs)).applyFold hrun

/-- The document a drain leaves in the remaining case still carries the marker; the events one by
one clear it. -/
theorem drain_marker (hrun : d.runId = runId) (hs : d.stale = true) (h : haulAfterCancel es = true)
    :
    (d.drain runId es).cancelReason = some sweepCancelReason ∧
      (es.foldl OrderDoc.receive d).cancelReason = none :=
  (foldl_stale hs (Tracks.start d) (stale_iff.mp hs).1 es).2 h runId hrun

/-- Only a stale document is stale after an event, and the event is not terminal. -/
theorem stale_of_receive (h : (d.receive ev).stale = true) :
    d.stale = true ∧ ev.targetState.terminal = false := by
  obtain ⟨ht, hc⟩ := stale_iff.mp h
  by_cases hd : drops d.known ev.targetState = true
  · rw [receive_of_drops hd] at ht hc
    rcases drops_known.mp hd with ⟨ha, -⟩ | hw
    · rw [advisory_of_not_terminal ht] at ha
      exact absurd ha Bool.false_ne_true
    · rw [writable_of_not_terminal ht] at hw
      exact absurd hw Bool.noConfusion
  · rw [drops_known, not_or, Bool.not_eq_false] at hd
    obtain ⟨h1, -, h3⟩ := receive_of_writable hd.2 fun ha he ↦ hd.1 ⟨ha, he⟩
    rw [hc] at h3
    split at h3
    · cases h3
    · next ha =>
      have hnt : d.state.terminal = false := by
        have hr : resurrectable (some d.state) d.cancelReason = false := Bool.eq_false_iff.mpr ha
        have hw := hd.2
        rw [OrderDoc.writable, hr, Bool.or_false, Bool.not_eq_true'] at hw
        exact hw
      exact ⟨stale_iff.mpr ⟨hnt, h3.symm⟩, h1 ▸ ht⟩

theorem stale_of_foldl_receive (h : (es.foldl OrderDoc.receive d).stale = true) :
    d.stale = true ∧ ∀ ev ∈ es, ev.targetState.terminal = false := by
  induction es generalizing d with
  | nil => exact ⟨h, nofun⟩
  | cons ev es ih =>
    obtain ⟨hs, hall⟩ := ih h
    obtain ⟨hd, ht⟩ := stale_of_receive hs
    refine ⟨hd, fun x hx ↦ ?_⟩
    rcases List.mem_cons.mp hx with rfl | hx
    · exact ht
    · exact hall x hx

theorem haulAfterCancel_append_of_open (h : ∀ ev ∈ es, ev.targetState.terminal = false)
    (rest : List ParsedEvent) : haulAfterCancel (es ++ rest) = haulAfterCancel rest := by
  induction es with
  | nil => rfl
  | cons ev es ih =>
    have ht := h ev List.mem_cons_self
    have hc : ev.targetState ≠ .cancelled := fun hc ↦ by rw [hc] at ht; cases ht
    rw [List.cons_append, haulAfterCancel, if_neg hc, if_neg (by rw [ht]; exact Bool.false_ne_true)]
    exact ih fun e he ↦ h e (List.mem_cons_of_mem _ he)

theorem haulAfterCancel_of_append {rest : List ParsedEvent}
    (h : haulAfterCancel (es ++ rest) = false) : haulAfterCancel es = false := by
  induction es with
  | nil => rfl
  | cons ev es ih =>
    rw [List.cons_append, haulAfterCancel] at h
    rw [haulAfterCancel]
    split
    · next hc =>
      rw [if_pos hc, List.any_append, Bool.or_eq_false_iff] at h
      exact h.1
    · next hc =>
      rw [if_neg hc] at h
      split
      · rfl
      · next ht =>
        rw [if_neg ht] at h
        exact ih h

theorem foldl_receive_runId (d : OrderDoc) (es : List ParsedEvent) :
    (es.foldl OrderDoc.receive d).runId = d.runId := by
  induction es generalizing d with
  | nil => rfl
  | cons ev es ih => rw [List.foldl_cons, ih, receive_runId]

/-- **Drains compose** as long as none of them meets a stale document it hauls after a cancel. -/
theorem foldl_drain (hrun : d.runId = runId) {drains : List (List ParsedEvent)}
    (h : d.stale = true → haulAfterCancel drains.flatten = false) :
    drains.foldl (OrderDoc.drain runId) d = drains.flatten.foldl OrderDoc.receive d := by
  induction drains generalizing d with
  | nil => rfl
  | cons es rest ih =>
    rw [List.foldl_cons, List.flatten_cons, List.foldl_append,
      drain_eq hrun fun hs ↦ haulAfterCancel_of_append (h hs)]
    refine ih ((foldl_receive_runId d es).trans hrun) fun hs ↦ ?_
    obtain ⟨hd, hopen⟩ := stale_of_foldl_receive hs
    rw [← haulAfterCancel_append_of_open hopen]
    exact h hd

/-! ## Drains against single events -/

/-- Cut a stream into drains and apply them one after the other, every read completing. -/
def OrderBatchWriter.applyDrains (w : OrderBatchWriter) (orders : Orders)
    (drains : List (List ParsedEvent)) : Orders :=
  drains.foldl (fun o es ↦ (w.applyParsed .complete o es).1) orders

/-- Apply each event in a drain of its own. -/
def OrderBatchWriter.applySingly (w : OrderBatchWriter) (orders : Orders)
    (events : List ParsedEvent) : Orders :=
  w.applyDrains orders (events.map fun ev ↦ [ev])

theorem drain_of_other_run (h : d.runId ≠ runId) (es : List ParsedEvent) :
    d.drain runId es = d := by
  rw [OrderDoc.drain, OrderDoc.applyFold]
  split
  · rfl
  · rw [if_neg fun hc ↦ h hc.1]

theorem foldl_drain_of_other_run (h : d.runId ≠ runId) (drains : List (List ParsedEvent)) :
    drains.foldl (OrderDoc.drain runId) d = d := by
  induction drains with
  | nil => rfl
  | cons es rest ih => rw [List.foldl_cons, drain_of_other_run h, ih]

theorem applyDrains_get? (w : OrderBatchWriter) (orders : Orders)
    (drains : List (List ParsedEvent)) (oid : String) :
    (w.applyDrains orders drains).get? oid = (orders.get? oid).map fun d ↦
      (drains.map (eventsOf · oid)).foldl (OrderDoc.drain w.runId) d := by
  induction drains generalizing orders with
  | nil => exact Option.map_id'.symm
  | cons es rest ih =>
    have h := ih (w.applyParsed .complete orders es).1
    rw [applyParsed_complete_get?, Option.map_map] at h
    exact h

theorem eventsOf_flatten (drains : List (List ParsedEvent)) (oid : String) :
    (drains.map (eventsOf · oid)).flatten = eventsOf drains.flatten oid := by
  induction drains with
  | nil => rfl
  | cons es rest ih =>
    rw [List.map_cons, List.flatten_cons, ih, List.flatten_cons, eventsOf, eventsOf, eventsOf,
      List.filter_append]

theorem drain_nil (runId : String) (d : OrderDoc) : d.drain runId [] = d := rfl

theorem foldl_drain_singly (hrun : d.runId = runId) (events : List ParsedEvent) (oid : String) :
    ((events.map fun ev ↦ [ev]).map (eventsOf · oid)).foldl (OrderDoc.drain runId) d =
      (eventsOf events oid).foldl OrderDoc.receive d := by
  induction events generalizing d with
  | nil => rfl
  | cons ev events ih =>
    rw [List.map_cons, List.map_cons, List.foldl_cons]
    by_cases ho : ev.orderId = oid
    · have h1 : eventsOf [ev] oid = [ev] := List.filter_cons_of_pos (decide_eq_true ho)
      have h2 : eventsOf (ev :: events) oid = ev :: eventsOf events oid :=
        List.filter_cons_of_pos (decide_eq_true ho)
      rw [h1, h2, drain_singleton hrun, List.foldl_cons]
      exact ih ((receive_runId d ev).trans hrun)
    · have hno : ¬ decide (ev.orderId = oid) = true := by simpa using ho
      have h1 : eventsOf [ev] oid = [] := List.filter_cons_of_neg hno
      have h2 : eventsOf (ev :: events) oid = eventsOf events oid := List.filter_cons_of_neg hno
      rw [h1, h2, drain_nil]
      exact ih hrun

/-- The workflow fields of an order. -/
structure OrderView where
  state : OrderState
  truck : Option String
  simClock : Option ℤ
  feasibleTransitions : List String
  cancelReason : Option String
deriving DecidableEq

/-- The workflow fields of a document. -/
def OrderDoc.view (d : OrderDoc) : OrderView where
  state := d.state
  truck := d.truck
  simClock := d.simClock
  feasibleTransitions := d.feasibleTransitions
  cancelReason := d.cancelReason

/-- **A stream may be cut into drains at will exactly when no stale document of the run is hauled
after a cancel.**  On the left: every way of cutting the stream into drains, one drain included,
leaves every document as the events one by one do. -/
theorem drains_eq_singly_iff (w : OrderBatchWriter) (orders : Orders)
    (events : List ParsedEvent) :
    (∀ drains : List (List ParsedEvent), drains.flatten = events → ∀ oid,
      ((w.applyDrains orders drains).get? oid).map OrderDoc.view =
        ((w.applySingly orders events).get? oid).map OrderDoc.view) ↔
    ∀ oid d, orders.get? oid = some d → d.runId = w.runId → d.stale = true →
      haulAfterCancel (eventsOf events oid) = false := by
  constructor
  · intro hall oid d hd hrun hs
    by_contra hbad
    rw [Bool.not_eq_false] at hbad
    have h := hall [events] (List.append_nil _) oid
    rw [OrderBatchWriter.applySingly, applyDrains_get?, applyDrains_get?, hd, Option.map_some,
      Option.map_some, Option.map_some, Option.map_some, foldl_drain_singly hrun] at h
    obtain ⟨h1, h2⟩ := drain_marker hrun hs hbad
    have hv := congrArg OrderView.cancelReason (Option.some_inj.mp h)
    exact absurd (h1.symm.trans (hv.trans h2)) (by simp)
  · intro hcond drains hflat oid
    rw [OrderBatchWriter.applySingly, applyDrains_get?, applyDrains_get?]
    cases hd : orders.get? oid with
    | none => rfl
    | some d =>
      rw [Option.map_some, Option.map_some, Option.map_some, Option.map_some]
      by_cases hrun : d.runId = w.runId
      · rw [foldl_drain_singly hrun, foldl_drain hrun, eventsOf_flatten, hflat]
        rw [eventsOf_flatten, hflat]
        exact hcond oid d hd hrun
      · rw [foldl_drain_of_other_run hrun, foldl_drain_of_other_run hrun]

/-- An unassigned order that still carries the marker. -/
def staleOrders : Orders :=
  Dict.ofList [("o1", { runId := "run", state := .unassigned,
                        cancelReason := some sweepCancelReason })]

def cancelEvent : ParsedEvent where
  orderId := "o1"
  event := "order_cancelled"
  targetState := .cancelled
  truckId := none
  simClock := 10

def assignEvent : ParsedEvent where
  orderId := "o1"
  event := "order_assigned_to_truck"
  targetState := .assigned
  truckId := some "t1"
  simClock := 20

/-- In one drain the cancel is final; one by one the order is assigned after all. -/
theorem one_drain_ne_singly :
    ((OrderBatchWriter.applyDrains { runId := "run" } staleOrders
        [[cancelEvent, assignEvent]]).get? "o1").map OrderDoc.view =
      some ⟨.cancelled, none, some 10, [], some sweepCancelReason⟩ ∧
    ((OrderBatchWriter.applySingly { runId := "run" } staleOrders
        [cancelEvent, assignEvent]).get? "o1").map OrderDoc.view =
      some ⟨.assigned, some "t1", some 20, ["pickup_started", "cancel"], none⟩ := by
  decide

end OpenRide.OrderLifecycle
