import OpenRide.OrderLifecycle.Absorbing
import OpenRide.OrderLifecycle.Redelivery

/-!
# The order lifecycle service

The service queues every order event it receives.  A step takes the whole queue, applies it, then
publishes due orders and sweeps overdue ones; closing applies what is queued one last time.  Every
access to the collection may raise.  The read of the current states is caught and the events are
applied without it; any other exception ends the step, and closing swallows it.  A write that raises
has reached some of the documents and not the others.

The queue is empty by the time the events are written, and nothing puts them back.  Beside the
documents a run keeps what they would be had the application of events never failed (`expected`);
publishing and sweeping happen to both alike.  `no_event_lost` gives the condition under which the
two agree all along, and `assignment_lost` is a step that raises, followed by one that does not.
-/

namespace OpenRide.OrderLifecycle

open Lib

/-! ## Calls that raise -/

/-- How a write ends: it reaches every document, or raises after reaching some. -/
inductive WriteOutcome where
  | complete
  | raises (reached : String → Bool)

namespace WriteOutcome

/-- Does the write reach a document? -/
def reaches (o : WriteOutcome) (oid : String) : Bool :=
  match o with
  | complete => true
  | raises reached => reached oid

def isRaised : WriteOutcome → Bool
  | complete => false
  | raises _ => true

/-- The documents a write leaves: those it reaches are as the complete write leaves them. -/
def leaves (o : WriteOutcome) (before after : Orders) : Orders :=
  match o with
  | complete => after
  | raises reached =>
    before.update (before.selected (fun oid _ ↦ reached oid) fun oid d ↦ (after.get? oid).getD d)

end WriteOutcome

/-- How the calls of a step end.  The read of the open hauls gives `none` when it raises. -/
structure Calls where
  read : ReadOutcome := .complete
  write : WriteOutcome := .complete
  publish : WriteOutcome := .complete
  openHauls : Option (List String) := some []
  sweep : WriteOutcome := .complete

/-! ## The service -/

/-- `OrderLifecycleApp`. -/
structure OrderLifecycleApp where
  writer : OrderBatchWriter
  sweepInterval : ℤ := 30

/-- The documents and the queue of the service. -/
structure Lifecycle where
  orders : Orders
  queue : List Payload := []
  closed : Bool := false
  /-- The documents if no application of events had failed; nothing reads them. -/
  expected : Orders
  /-- Did every call of the last step, or of closing, succeed? -/
  clean : Bool := false

/-- What happens to the service. -/
inductive LifecycleEvent where
  | receive (payload : Payload)
  | runStep (now timeStep maxWaitSteps horizonSteps : ℤ) (calls : Calls)
  | close (now : ℤ) (read : ReadOutcome) (write : WriteOutcome)

namespace OrderLifecycleApp

variable (app : OrderLifecycleApp) (strToTime : String → Option ℤ)

/-- The updates `apply_events` writes. -/
def plannedOps (read : ReadOutcome) (orders : Orders) (payloads : List (Option Payload))
    (now : ℤ) : List (String × Slot) :=
  let events := parsedEvents strToTime now payloads
  (planEventUpdates events (currentStates read orders events)).merged.entries

/-- `apply_events` on the drained queue, and whether it raises: without updates there is no bulk
write that could. -/
def applyQueue (s : Lifecycle) (now : ℤ) (read : ReadOutcome) (write : WriteOutcome) :
    Lifecycle × Bool :=
  let payloads := s.queue.map some
  let raised := write.isRaised && !(plannedOps strToTime read s.orders payloads now).isEmpty
  let applied := (app.writer.applyEvents strToTime read s.orders payloads now).1
  ({ s with
      orders := if raised then write.leaves s.orders applied else applied
      queue := []
      expected := (app.writer.applyEvents strToTime .complete s.expected payloads now).1
      clean := decide (read = .complete) && !raised }, raised)

/-- Publishing or sweeping, and whether it raises. -/
def write (s : Lifecycle) (outcome : WriteOutcome) (f : Orders → Orders) : Lifecycle × Bool :=
  ({ s with
      orders := outcome.leaves s.orders (f s.orders)
      expected := outcome.leaves s.expected (f s.expected)
      clean := s.clean && !outcome.isRaised }, outcome.isRaised)

/-- The publishing of a step, suppressed at the horizon. -/
def publish (s : Lifecycle) (now timeStep horizonSteps : ℤ) (outcome : WriteOutcome) :
    Lifecycle × Bool :=
  if horizonSteps = 0 ∨ timeStep < horizonSteps then
    write s outcome fun orders ↦ (app.writer.publishDue orders timeStep now).1
  else (s, false)

/-- The sweep of a step, every `sweepInterval` steps. -/
def sweep (s : Lifecycle) (now timeStep maxWaitSteps : ℤ) (openHauls : Option (List String))
    (outcome : WriteOutcome) : Lifecycle :=
  if 0 < maxWaitSteps ∧ timeStep % app.sweepInterval = 0 then
    match openHauls with
    | none => { s with clean := false }
    | some ids =>
      (write s outcome fun orders ↦
        (app.writer.cancelOverdueUnassigned orders timeStep maxWaitSteps ids now).1).1
  else s

/-- `run_step`. -/
def runStep (s : Lifecycle) (now timeStep maxWaitSteps horizonSteps : ℤ) (calls : Calls) :
    Lifecycle :=
  let (s, raised) := app.applyQueue strToTime s now calls.read calls.write
  if raised then s
  else
    let (s, raised) := app.publish s now timeStep horizonSteps calls.publish
    if raised then s
    else app.sweep s now timeStep maxWaitSteps calls.openHauls calls.sweep

/-- The service of a run. -/
def machine : Machine Lifecycle LifecycleEvent where
  step s
    | .receive payload =>
      if s.closed then none else some { s with queue := s.queue ++ [payload], clean := false }
    | .runStep now timeStep maxWaitSteps horizonSteps calls =>
      if s.closed then none
      else some (app.runStep strToTime s now timeStep maxWaitSteps horizonSteps calls)
    | .close now read write =>
      if s.closed then none
      else some { (app.applyQueue strToTime s now read write).1 with closed := true }

end OrderLifecycleApp

/-- The service before anything happens. -/
def Lifecycle.start (orders : Orders) : Lifecycle where
  orders := orders
  expected := orders

/-! ## The condition -/

/-- The condition on the application of the queue, document by document: a document the write
reaches was read, or is not one the sweep cancelled, or has no event but cancels; a document it does
not reach has no event that its state lets through. -/
def KeepsQueue (app : OrderLifecycleApp) (strToTime : String → Option ℤ) (s : Lifecycle) (now : ℤ)
    (read : ReadOutcome) (write : WriteOutcome) : Prop :=
  ∀ oid d, s.orders.get? oid = some d → d.runId = app.writer.runId →
    if write.reaches oid then
      (currentStates read s.orders (parsedEvents strToTime now (s.queue.map some))).get? oid =
          none → d.advisory = true →
        ∀ ev ∈ eventsOf (parsedEvents strToTime now (s.queue.map some)) oid,
          ev.targetState = .cancelled
    else ∀ ev ∈ eventsOf (parsedEvents strToTime now (s.queue.map some)) oid,
      drops d.known ev.targetState = true

/-- The condition on a run. -/
def Keeps (app : OrderLifecycleApp) (strToTime : String → Option ℤ) (s : Lifecycle) :
    LifecycleEvent → Prop
  | .receive _ => True
  | .runStep now _ _ _ calls => KeepsQueue app strToTime s now calls.read calls.write
  | .close now read write => KeepsQueue app strToTime s now read write

/-! ## Documents that agree -/

/-- What later operations go by, of a document: its state, truck and marker, and the fields nobody
writes. -/
structure OrderTrace where
  core : OrderCore
  runId : String
  haulierId : Option String
  requestTimeStep : Option ℤ

def OrderDoc.trace (d : OrderDoc) : OrderTrace where
  core := d.core
  runId := d.runId
  haulierId := d.haulierId
  requestTimeStep := d.requestTimeStep

variable {d e : OrderDoc}

/-- Two documents with the same trace. -/
theorem trace_inj (h : d.trace = e.trace) : d.state = e.state ∧
    d.truck = e.truck ∧ d.cancelReason = e.cancelReason ∧ d.runId = e.runId ∧
      d.haulierId = e.haulierId ∧ d.requestTimeStep = e.requestTimeStep := by
  obtain ⟨hc, hr, hh, hs⟩ := OrderTrace.mk.inj h
  obtain ⟨h1, h2, h3⟩ := OrderCore.mk.inj hc
  exact ⟨h1, h2, h3, hr, hh, hs⟩

theorem known_of_trace (h : d.trace = e.trace) : d.known = e.known := by
  obtain ⟨hs, -, hc, -⟩ := trace_inj h
  rw [OrderDoc.known, OrderDoc.known, hs, hc]

theorem write_trace (h : d.trace = e.trace) (s : Slot) : (d.write s).trace = (e.write s).trace := by
  obtain ⟨-, ht, hc, hr, hh, hq⟩ := trace_inj h
  simp only [OrderDoc.trace, OrderDoc.core, OrderDoc.write, ht, hc, hr, hh, hq]

variable {runId : String}

theorem applyFold_trace (h : d.trace = e.trace) (f : OrderFold) :
    (d.applyFold runId f).trace = (e.applyFold runId f).trace := by
  obtain ⟨hs, -, hc, hr, -⟩ := trace_inj h
  rw [OrderDoc.applyFold, OrderDoc.applyFold]
  split
  · exact h
  · rw [OrderDoc.writable, OrderDoc.writable, hs, hc, hr]
    split
    · exact write_trace h _
    · exact h

theorem drain_trace (h : d.trace = e.trace) (es : List ParsedEvent) :
    (d.drain runId es).trace = (e.drain runId es).trace := by
  rw [OrderDoc.drain, OrderDoc.drain, known_of_trace h]
  exact applyFold_trace h _

variable {es : List ParsedEvent}

/-- Events a document drops leave it as it is. -/
theorem drain_of_drops (h : ∀ ev ∈ es, drops d.known ev.targetState = true) :
    d.drain runId es = d := by
  have hfold : foldOrder d.known es = { known := d.known, slot := none, revived := false } := by
    rw [foldOrder]
    induction es with
    | nil => rfl
    | cons ev es ih =>
      rw [List.foldl_cons, OrderFold.step, if_pos (h ev List.mem_cons_self)]
      exact ih fun e he ↦ h e (List.mem_cons_of_mem _ he)
  rw [OrderDoc.drain, hfold, OrderDoc.applyFold]

/-- For an open document, the fold needs no read. -/
theorem foldOrder_unread (h : d.state.terminal = false) (es : List ParsedEvent) :
    (foldOrder (none, none) es).slot = (foldOrder d.known es).slot := by
  cases es with
  | nil => rfl
  | cons ev es =>
    have hadv : resurrectable (some d.state) d.cancelReason = false := advisory_of_not_terminal h
    have hd : ¬ drops d.known ev.targetState = true := by
      rw [drops, OrderDoc.known]
      simp [hadv, h]
    have hd' : ¬ drops (none, none) ev.targetState = true := by
      simp [drops, resurrectable]
    have hadv' : resurrectable d.known.1 d.known.2 = false := hadv
    have hnone : resurrectable none none = false := rfl
    rw [foldOrder, foldOrder, List.foldl_cons, List.foldl_cons, OrderFold.step, OrderFold.step,
      if_neg hd, if_neg hd']
    simp only [hadv', hnone]

/-- An unread document the sweep cancelled may be cancelled again: nothing shows. -/
theorem applyFold_cancels (ha : d.advisory = true) (h : ∀ ev ∈ es, ev.targetState = .cancelled) :
    (d.applyFold runId (foldOrder (none, none) es)).trace = d.trace := by
  cases es with
  | nil => rfl
  | cons ev es =>
    have hc := h ev List.mem_cons_self
    have hd : ¬ drops (none, none) ev.targetState = true := by
      simp [drops, resurrectable]
    rw [foldOrder, List.foldl_cons, OrderFold.step, if_neg hd,
      foldl_step_of_terminal rfl (by rw [hc]; rfl), OrderDoc.applyFold]
    dsimp only
    split
    · obtain ⟨hst, hm⟩ := advisory_iff.mp ha
      simp [OrderDoc.trace, OrderDoc.core, OrderDoc.write, mergeSlot, hc, hst, resurrectable]
    · rfl

/-- **What the read does not return is missed only by an order the sweep cancelled.** -/
theorem applyFold_unread (h : d.advisory = true → ∀ ev ∈ es, ev.targetState = .cancelled) :
    (d.applyFold runId (foldOrder (none, none) es)).trace = (d.drain runId es).trace := by
  by_cases hw : d.writable = true
  · cases ht : d.state.terminal with
    | false => rw [OrderDoc.drain, OrderDoc.applyFold, OrderDoc.applyFold, foldOrder_unread ht]
    | true =>
      have ha : d.advisory = true := by
        rw [OrderDoc.writable, ht, Bool.not_true, Bool.false_or] at hw
        exact hw
      rw [applyFold_cancels ha (h ha),
        drain_of_drops fun ev hev ↦ drops_known.mpr (Or.inl ⟨ha, h ha ev hev⟩)]
  · rw [OrderDoc.drain, OrderDoc.applyFold, OrderDoc.applyFold]
    split
    · split
      · rfl
      · rw [if_neg fun hx ↦ hw hx.2]
    · rw [if_neg fun hx ↦ hw hx.2]
      split
      · rfl
      · rw [if_neg fun hx ↦ hw hx.2]

/-! ## Collections that agree -/

/-- Two collections whose documents have the same traces. -/
def Agrees (orders expected : Orders) : Prop :=
  ∀ oid, (orders.get? oid).map OrderDoc.trace = (expected.get? oid).map OrderDoc.trace

variable {orders expected : Orders}

theorem Agrees.change {orders' expected' : Orders} (h : Agrees orders expected)
    {f g : String → OrderDoc → OrderDoc}
    (ho : ∀ oid, orders'.get? oid = (orders.get? oid).map (f oid))
    (he : ∀ oid, expected'.get? oid = (expected.get? oid).map (g oid))
    (hfg : ∀ oid d e, orders.get? oid = some d → d.trace = e.trace →
      (f oid d).trace = (g oid e).trace)
    : Agrees orders' expected' := by
  intro oid
  have hoid := h oid
  rw [ho, he]
  cases hd : orders.get? oid with
  | none =>
    rw [hd, Option.map_none, eq_comm, Option.map_eq_none_iff] at hoid
    rw [hoid]
    rfl
  | some d =>
    rw [hd, Option.map_some, eq_comm, Option.map_eq_some_iff] at hoid
    obtain ⟨e, he', hde⟩ := hoid
    rw [he']
    exact congrArg some (hfg oid d e hd hde.symm)

theorem leaves_get? {o : WriteOutcome} {before after : Orders} {f : String → OrderDoc → OrderDoc}
    (h : ∀ oid, after.get? oid = (before.get? oid).map (f oid)) (oid : String) :
    (o.leaves before after).get? oid =
      (before.get? oid).map fun d ↦ if o.reaches oid then f oid d else d := by
  cases o with
  | complete => exact h oid
  | raises reached =>
    rw [WriteOutcome.leaves, Dict.get?_update_selected]
    cases hd : before.get? oid with
    | none => rfl
    | some d =>
      have ha := h oid
      rw [hd, Option.map_some] at ha
      rw [Option.map_some, Option.map_some, ha, Option.getD_some]
      rfl

theorem writes_get? (orders : Orders) (o : WriteOutcome) (matching : String → OrderDoc → Bool)
    (set : OrderDoc → OrderDoc) (oid : String) :
    (o.leaves orders (updateMany orders matching set).1).get? oid = (orders.get? oid).map fun d ↦
      if o.reaches oid then (if matching oid d then set d else d) else d :=
  leaves_get? (fun oid ↦ updateMany_get? orders matching set oid) oid

/-- A write to many documents that goes by their traces. -/
theorem Agrees.updateMany (h : Agrees orders expected) (o : WriteOutcome)
    {matching : String → OrderDoc → Bool} {set : OrderDoc → OrderDoc}
    (hmatch : ∀ oid d e, d.trace = e.trace → matching oid d = matching oid e)
    (hset : ∀ d e, d.trace = e.trace → (set d).trace = (set e).trace) :
    Agrees (o.leaves orders (updateMany orders matching set).1)
      (o.leaves expected (updateMany expected matching set).1) := by
  refine h.change (writes_get? orders o matching set) (writes_get? expected o matching set)
    fun oid d e _ hde ↦ ?_
  rw [hmatch oid d e hde]
  split
  · split
    · exact hset d e hde
    · exact hde
  · exact hde

theorem inScope_of_trace (w : OrderBatchWriter) (h : d.trace = e.trace) :
    w.inScope d = w.inScope e := by
  obtain ⟨-, -, -, -, hh, -⟩ := trace_inj h
  rw [OrderBatchWriter.inScope, OrderBatchWriter.inScope, hh]

theorem Agrees.publishDue (h : Agrees orders expected) (w : OrderBatchWriter) (o : WriteOutcome)
    (step simClock : ℤ) :
    Agrees (o.leaves orders (w.publishDue orders step simClock).1)
      (o.leaves expected (w.publishDue expected step simClock).1) := by
  refine h.updateMany o (fun oid d e hde ↦ ?_) fun d e hde ↦ ?_
  · obtain ⟨hs, -, -, hr, -, hq⟩ := trace_inj hde
    rw [inScope_of_trace w hde, hs, hr, OrderDoc.requestStep, OrderDoc.requestStep, hq]
  · obtain ⟨-, ht, hc, hr, hh, hq⟩ := trace_inj hde
    simp only [OrderDoc.trace, OrderDoc.core, ht, hc, hr, hh, hq]

theorem Agrees.cancelOverdueUnassigned (h : Agrees orders expected) (w : OrderBatchWriter)
    (o : WriteOutcome) (step maxWaitSteps : ℤ) (ids : List String) (simClock : ℤ) :
    Agrees (o.leaves orders (w.cancelOverdueUnassigned orders step maxWaitSteps ids simClock).1)
      (o.leaves expected
        (w.cancelOverdueUnassigned expected step maxWaitSteps ids simClock).1) := by
  refine h.updateMany o (fun oid d e hde ↦ ?_) fun d e hde ↦ ?_
  · obtain ⟨hs, -, -, hr, -, hq⟩ := trace_inj hde
    rw [inScope_of_trace w hde, hs, hr, OrderDoc.requestStep, OrderDoc.requestStep, hq]
  · obtain ⟨-, ht, -, hr, hh, hq⟩ := trace_inj hde
    simp only [OrderDoc.trace, OrderDoc.core, ht, hr, hh, hq]

/-! ## The steps -/

variable {app : OrderLifecycleApp} {strToTime : String → Option ℤ}

theorem applyFold_of_other_run (h : d.runId ≠ runId) (f : OrderFold) : d.applyFold runId f = d := by
  rw [OrderDoc.applyFold]
  split
  · rfl
  · rw [if_neg fun hc ↦ h hc.1]

variable {read : ReadOutcome}

/-- An order no update is planned for. -/
theorem slot_of_plannedOps {payloads : List (Option Payload)} {now : ℤ}
    (h : (OrderLifecycleApp.plannedOps strToTime read orders payloads now).isEmpty = true)
    (oid : String) :
    (foldOrder (((currentStates read orders (parsedEvents strToTime now payloads)).get? oid).getD
      (none, none)) (eventsOf (parsedEvents strToTime now payloads) oid)).slot = none := by
  rw [← planEventUpdates_get?, Dict.get?_eq_none_iff, Dict.keys]
  rw [OrderLifecycleApp.plannedOps, List.isEmpty_iff] at h
  rw [h]
  exact List.not_mem_nil

/-- An update of a document that was read, or that can do without. -/
theorem applied_trace {events : List ParsedEvent} {oid : String} (hd : orders.get? oid = some d)
    (hde : d.trace = e.trace)
    (hc : (currentStates read orders events).get? oid = none → d.advisory = true →
      ∀ ev ∈ eventsOf events oid, ev.targetState = .cancelled)
    :
    (d.applyFold runId (foldOrder (((currentStates read orders events).get? oid).getD (none, none))
      (eventsOf events oid))).trace = (e.drain runId (eventsOf events oid)).trace := by
  rw [← drain_trace hde]
  rcases currentStates_cases read orders events oid with hno | ⟨d', hd', hread⟩
  · rw [hno, Option.getD_none]
    exact applyFold_unread (hc hno)
  · obtain rfl := Option.some_inj.mp (hd.symm.trans hd')
    rw [hread, Option.getD_some, OrderDoc.drain]

variable {s : Lifecycle}

/-- **Applying the queue** keeps the documents as expected, on the condition. -/
theorem applyQueue_agrees {now : ℤ} {write : WriteOutcome} (h : Agrees s.orders s.expected)
    (hC : KeepsQueue app strToTime s now read write) :
    Agrees (app.applyQueue strToTime s now read write).1.orders
      (app.applyQueue strToTime s now read write).1.expected := by
  have hafter : ∀ oid,
      (app.writer.applyEvents strToTime read s.orders (s.queue.map some) now).1.get? oid =
      (s.orders.get? oid).map fun d ↦ d.applyFold app.writer.runId (foldOrder
        (((currentStates read s.orders (parsedEvents strToTime now (s.queue.map some))).get?
          oid).getD (none, none))
            (eventsOf (parsedEvents strToTime now (s.queue.map some)) oid)) := by
    intro oid
    rw [applyEvents_orders, applyParsed_get?]
  have hexp : ∀ oid,
      (app.writer.applyEvents strToTime .complete s.expected (s.queue.map some) now).1.get? oid =
      (s.expected.get? oid).map fun d ↦ d.drain app.writer.runId
        (eventsOf (parsedEvents strToTime now (s.queue.map some)) oid) := by
    intro oid
    rw [applyEvents_orders, applyParsed_complete_get?]
  -- a document the write does not reach
  have hmiss : ∀ (oid : String) (d e : OrderDoc), s.orders.get? oid = some d → d.trace = e.trace →
      d.runId = app.writer.runId → write.reaches oid = false →
      d.trace = (e.drain app.writer.runId
        (eventsOf (parsedEvents strToTime now (s.queue.map some)) oid)).trace := by
    intro oid d e hd hde hrun hw
    have hc := hC oid d hd hrun
    rw [if_neg (by rw [hw]; exact Bool.false_ne_true)] at hc
    rw [← drain_trace hde, drain_of_drops hc]
  rw [OrderLifecycleApp.applyQueue]
  split
  · refine h.change (leaves_get? hafter) hexp fun oid d e hd hde ↦ ?_
    by_cases hrun : d.runId = app.writer.runId
    · split
      · next hw => exact applied_trace hd hde (by simpa only [if_pos hw] using hC oid d hd hrun)
      · next hw => exact hmiss oid d e hd hde hrun (Bool.eq_false_iff.mpr hw)
    · have hrun' : e.runId ≠ app.writer.runId := (trace_inj hde).2.2.2.1 ▸ hrun
      rw [applyFold_of_other_run hrun, drain_of_other_run hrun', ite_self]
      exact hde
  · next hraised =>
    refine h.change hafter hexp fun oid d e hd hde ↦ ?_
    by_cases hrun : d.runId = app.writer.runId
    · cases hw : write.reaches oid with
      | true => exact applied_trace hd hde (by simpa only [if_pos hw] using hC oid d hd hrun)
      | false =>
        -- the write would have raised, so there was nothing to write
        have hempty : (OrderLifecycleApp.plannedOps strToTime read s.orders (s.queue.map some)
            now).isEmpty = true := by
          cases write with
          | complete => cases hw
          | raises reached => simpa [WriteOutcome.isRaised] using hraised
        rw [← hmiss oid d e hd hde hrun hw, OrderDoc.applyFold, slot_of_plannedOps hempty]
    · have hrun' : e.runId ≠ app.writer.runId := (trace_inj hde).2.2.2.1 ▸ hrun
      rw [applyFold_of_other_run hrun, drain_of_other_run hrun']
      exact hde

/-- What holds of every state of a run. -/
structure Lossless (s : Lifecycle) : Prop where
  drained : s.clean = true → s.queue = []
  agrees : Agrees s.orders s.expected

theorem publish_lossless (h : Lossless s) (now timeStep horizonSteps : ℤ) (outcome : WriteOutcome) :
    Lossless (app.publish s now timeStep horizonSteps outcome).1 := by
  rw [OrderLifecycleApp.publish]
  split
  · exact ⟨fun hc ↦ h.drained (Bool.and_eq_true _ _ |>.mp hc).1, h.agrees.publishDue _ _ _ _⟩
  · exact h

theorem sweep_lossless (h : Lossless s) (now timeStep maxWaitSteps : ℤ)
    (openHauls : Option (List String)) (outcome : WriteOutcome) :
    Lossless (app.sweep s now timeStep maxWaitSteps openHauls outcome) := by
  unfold OrderLifecycleApp.sweep
  split
  · split
    · exact ⟨fun hc ↦ absurd hc Bool.false_ne_true, h.agrees⟩
    · exact ⟨fun hc ↦ h.drained (Bool.and_eq_true _ _ |>.mp hc).1,
        h.agrees.cancelOverdueUnassigned _ _ _ _ _ _⟩
  · exact h

theorem lossless_step {s' : Lifecycle} {e : LifecycleEvent} (h : Lossless s)
    (hC : Keeps app strToTime s e) (hs : (app.machine strToTime).step s e = some s') :
    Lossless s' := by
  cases e with
  | receive payload =>
    simp only [OrderLifecycleApp.machine] at hs
    split at hs
    · cases hs
    · cases hs
      exact ⟨fun hc ↦ absurd hc Bool.false_ne_true, h.agrees⟩
  | runStep now timeStep maxWaitSteps horizonSteps calls =>
    simp only [OrderLifecycleApp.machine] at hs
    split at hs
    · cases hs
    · cases hs
      have hq : Lossless (app.applyQueue strToTime s now calls.read calls.write).1 :=
        ⟨fun _ ↦ rfl, applyQueue_agrees h.agrees hC⟩
      rw [OrderLifecycleApp.runStep]
      dsimp only
      split
      · exact hq
      · split
        · exact publish_lossless hq _ _ _ _
        · exact sweep_lossless (publish_lossless hq _ _ _ _) _ _ _ _ _
  | close now read write =>
    simp only [OrderLifecycleApp.machine] at hs
    split at hs
    · cases hs
    · cases hs
      exact ⟨fun _ ↦ rfl, applyQueue_agrees h.agrees hC⟩

/-- **No order event is lost** in a run whose failing calls leave none behind: after every step and
every closing, whether its calls succeed or not, the state, the truck and the marker of every
document are what they would be had every event been applied. -/
theorem no_event_lost {orders : Orders} {s : Lifecycle}
    (hs : (app.machine strToTime).Reach (Keeps app strToTime) (Lifecycle.start orders) s) :
    (s.clean = true → s.queue = []) ∧ ∀ oid,
      (s.orders.get? oid).map OrderDoc.core = (s.expected.get? oid).map OrderDoc.core := by
  have hI : Lossless s := hs.invariant ⟨fun hc ↦ absurd hc Bool.false_ne_true, fun _ ↦ rfl⟩
    fun a e b ha hC hstep ↦ lossless_step ha hC hstep
  refine ⟨hI.drained, fun oid ↦ ?_⟩
  have h := congrArg (Option.map OrderTrace.core) (hI.agrees oid)
  rwa [Option.map_map, Option.map_map] at h

/-- A collection with one unassigned order. -/
def unassignedOrder : Orders := Dict.ofList [("o1", { runId := "run", state := .unassigned })]

/-- A truck tells the order that it has been assigned. -/
def assignedPayload : Payload where
  truckId := some "t1"
  data := { event := some "order_assigned_to_truck", orderId := some "o1" }

/-- The read of the current states fails: the order is not one the sweep cancelled, so its event is
applied all the same. -/
theorem no_event_lost_unread : ∃ s,
    (OrderLifecycleApp.machine { writer := { runId := "run" } } fun _ ↦ none).exec
      (Lifecycle.start unassignedOrder)
      [.receive assignedPayload, .runStep 0 0 0 0 { read := .raisesAfter 0 }] = some s ∧
    (s.clean = true → s.queue = []) ∧ ∀ oid,
      (s.orders.get? oid).map OrderDoc.core = (s.expected.get? oid).map OrderDoc.core := by
  have hqueued : (OrderLifecycleApp.machine { writer := { runId := "run" } } fun _ ↦ none).Reach
      (Keeps { writer := { runId := "run" } } fun _ ↦ none) (Lifecycle.start unassignedOrder)
      { Lifecycle.start unassignedOrder with queue := [assignedPayload] } :=
    (Machine.Reach.refl _).tail (e := .receive assignedPayload) trivial rfl
  refine ⟨_, rfl, no_event_lost
    (hqueued.tail (e := .runStep 0 0 0 0 { read := .raisesAfter 0 }) ?_ rfl)⟩
  intro oid d hd _
  have hd' : unassignedOrder.get? oid = some d := hd
  rw [unassignedOrder, Dict.get?_ofList (by decide), List.mem_singleton] at hd'
  obtain ⟨-, rfl⟩ := Prod.mk.inj hd'
  exact fun _ ha ↦ absurd ha (by decide)

/-- The write of an assignment raises in one step.  All calls of the next step succeed, and the
order is still unassigned. -/
theorem assignment_lost : ∃ s,
    (OrderLifecycleApp.machine { writer := { runId := "run" } } fun _ ↦ none).exec
      (Lifecycle.start unassignedOrder)
      [.receive assignedPayload, .runStep 0 0 0 0 { write := .raises fun _ ↦ false },
        .runStep 1 1 0 0 {}] = some s ∧
    s.clean = true ∧ (s.orders.get? "o1").map OrderDoc.core = some ⟨.unassigned, none, none⟩ ∧
      (s.expected.get? "o1").map OrderDoc.core = some ⟨.assigned, some "t1", none⟩ := by
  exact ⟨_, rfl, by decide, by decide, by decide⟩

end OpenRide.OrderLifecycle
