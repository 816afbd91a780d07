import OpenRide.Lib.Machine
import OpenRide.OrderLifecycle.Drains

/-!
# Terminal states over whole runs

Any number of writers apply events, publish due orders and sweep overdue ones, in any order.  Beside
the documents a run keeps, for each order, what cancelled it last: the sweep or a workflow event.
Nothing reads that history; the writers go by the marker alone.

An event that cancels an order is final only if it leaves no marker behind.  As long as that is so
(`ClearsMarker`), every document that still looks advisory was cancelled last by the sweep, a
completed order stays as it is, and an order cancelled by an event stays cancelled
(`terminal_absorbing`).  `event_cancel_undone` is a run in which a read fails, a cancel leaves the
marker standing, and the order is revived.
-/

namespace OpenRide.OrderLifecycle

open Lib

/-! ## Runs -/

/-- What cancelled an order. -/
inductive CancelSource where
  | sweep
  | event
deriving DecidableEq

/-- One operation of a writer. -/
inductive WriterOp where
  | applyEvents (w : OrderBatchWriter) (read : ReadOutcome) (payloads : List (Option Payload))
      (fallback : ℤ)
  | publishDue (w : OrderBatchWriter) (step simClock : ℤ)
  | cancelOverdueUnassigned (w : OrderBatchWriter) (step maxWaitSteps : ℤ)
      (openHaulOrderIds : List String) (simClock : ℤ)

/-- The documents, and what cancelled each order last. -/
structure History where
  orders : Orders
  lastCancel : String → Option CancelSource

/-- The documents after an operation. -/
def WriterOp.run (strToTime : String → Option ℤ) (orders : Orders) : WriterOp → Orders
  | .applyEvents w read payloads c => (w.applyEvents strToTime read orders payloads c).1
  | .publishDue w step simClock => (w.publishDue orders step simClock).1
  | .cancelOverdueUnassigned w step maxWaitSteps openHaul simClock =>
    (w.cancelOverdueUnassigned orders step maxWaitSteps openHaul simClock).1

/-- The filter of the sweep. -/
def sweepMatches (w : OrderBatchWriter) (step maxWaitSteps : ℤ) (openHaul : List String)
    (oid : String) (d : OrderDoc) : Bool :=
  w.inScope d ∧ d.runId = w.runId ∧ d.state = .unassigned ∧
    d.requestStep (· < step - maxWaitSteps) ∧ oid ∉ openHaul

/-- What cancels an order in an operation, if anything does: an update of `applyEvents` that sets
the state to cancelled, or the sweep. -/
def WriterOp.cancels (strToTime : String → Option ℤ) (orders : Orders) (op : WriterOp)
    (oid : String) : Option CancelSource :=
  match orders.get? oid with
  | none => none
  | some d =>
    match op with
    | .applyEvents w read payloads c =>
      let events := parsedEvents strToTime c payloads
      match (planEventUpdates events (currentStates read orders events)).merged.get? oid with
      | none => none
      | some s =>
        if s.state = .cancelled ∧ d.runId = w.runId ∧ d.writable then some .event else none
    | .publishDue .. => none
    | .cancelOverdueUnassigned w step maxWaitSteps openHaul _ =>
      if sweepMatches w step maxWaitSteps openHaul oid d then some .sweep else none

/-- The runs of any number of writers. -/
def writers (strToTime : String → Option ℤ) : Machine History WriterOp where
  step h op := some
    { orders := op.run strToTime h.orders
      lastCancel := fun oid ↦ op.cancels strToTime h.orders oid <|> h.lastCancel oid }

/-- The history a collection starts with: a cancelled order was cancelled by the sweep if it carries
the marker, and by an event otherwise. -/
def History.start (orders : Orders) : History where
  orders := orders
  lastCancel oid :=
    match orders.get? oid with
    | none => none
    | some d =>
      if d.state ≠ .cancelled then none
      else if d.cancelReason = some sweepCancelReason then some .sweep else some .event

/-! ## The condition -/

/-- The first terminal event of a batch is a cancel. -/
def cancelsFirst (es : List ParsedEvent) : Bool :=
  (es.find? fun ev ↦ ev.targetState.terminal).any fun ev ↦ ev.targetState = .cancelled

/-- The condition on an operation: a batch that cancels an order still carrying the marker finds it
cancelled, and reads it before it writes. -/
def ClearsMarker (strToTime : String → Option ℤ) (h : History) : WriterOp → Prop
  | .applyEvents w read payloads c =>
    ∀ oid d, h.orders.get? oid = some d → d.runId = w.runId → d.state ≠ .completed →
      d.cancelReason = some sweepCancelReason →
      cancelsFirst (eventsOf (parsedEvents strToTime c payloads) oid) = true →
      d.state = .cancelled ∧
        (currentStates read h.orders (parsedEvents strToTime c payloads)).get? oid ≠ none
  | _ => True

/-- The invariant: a cancelled document has a history, and one that still looks advisory was
cancelled last by the sweep. -/
structure MarkerSound (h : History) : Prop where
  known : ∀ oid d, h.orders.get? oid = some d → d.state = .cancelled → h.lastCancel oid ≠ none
  sweep : ∀ oid d, h.orders.get? oid = some d → d.advisory = true →
    h.lastCancel oid = some .sweep

theorem start_markerSound (orders : Orders) : MarkerSound (History.start orders) where
  known := by
    intro oid d hd hc
    have hd' : orders.get? oid = some d := hd
    simp only [History.start, hd', hc]
    split
    · next hne => exact absurd rfl hne
    · split <;> simp
  sweep := by
    intro oid d hd ha
    have hd' : orders.get? oid = some d := hd
    obtain ⟨hs, hr⟩ := advisory_iff.mp ha
    simp [History.start, hd', hs, hr]

/-! ## What each operation does to one document -/

theorem updateMany_get? (orders : Orders) (matching : String → OrderDoc → Bool)
    (set : OrderDoc → OrderDoc) (oid : String) :
    (updateMany orders matching set).1.get? oid =
      (orders.get? oid).map fun d ↦ if matching oid d then set d else d :=
  Dict.get?_update_selected orders matching (fun _ d ↦ set d) oid

/-- A fold from an open order ends cancelled only if the first terminal event is a cancel. -/
theorem cancelsFirst_of_foldl {f : OrderFold} (hf : f.known.1.any OrderState.terminal = false)
    (hs : ∀ s, f.slot = some s → s.state ≠ .cancelled) {es : List ParsedEvent} {s : Slot}
    (h : (es.foldl OrderFold.step f).slot = some s) (hc : s.state = .cancelled) :
    cancelsFirst es = true := by
  induction es generalizing f with
  | nil => exact absurd hc (hs s h)
  | cons ev es ih =>
    have hr : resurrectable f.known.1 f.known.2 = false := by
      refine Bool.eq_false_iff.mpr fun hr ↦ ?_
      rw [(of_decide_eq_true hr).1] at hf
      cases hf
    have hd : ¬ drops f.known ev.targetState = true := by
      rw [drops, hr, hf]
      exact Bool.false_ne_true
    rw [List.foldl_cons, OrderFold.step, if_neg hd] at h
    rw [cancelsFirst, List.find?_cons]
    cases ht : ev.targetState.terminal with
    | true =>
      rw [foldl_step_of_terminal rfl ht] at h
      have hst : ev.targetState = s.state := congrArg Slot.state (Option.some_inj.mp h)
      exact decide_eq_true (hst.trans hc)
    | false =>
      refine ih ?_ ?_ h
      · exact ht
      · intro s' hs' hc'
        have hst : ev.targetState = s'.state := congrArg Slot.state (Option.some_inj.mp hs')
        rw [hst, hc'] at ht
        cases ht

variable {strToTime : String → Option ℤ} {oid : String} {d : OrderDoc}

variable {h : History}

/-- A batch that cancels an order leaves no marker, on the condition. -/
theorem write_not_advisory {w : OrderBatchWriter} {read : ReadOutcome}
    {payloads : List (Option Payload)} {c : ℤ}
    (hC : ClearsMarker strToTime h (.applyEvents w read payloads c))
    (hd : h.orders.get? oid = some d) (hrun : d.runId = w.runId) (hw : d.writable = true) {s : Slot}
    (hc : s.state = .cancelled)
    (hs : (foldOrder (((currentStates read h.orders (parsedEvents strToTime c payloads)).get?
      oid).getD (none, none)) (eventsOf (parsedEvents strToTime c payloads) oid)).slot = some s)
    : (d.write s).advisory = false := by
  refine Bool.eq_false_iff.mpr fun ha ↦ ?_
  have hreason : (if s.clearsReason then none else d.cancelReason) = some sweepCancelReason :=
    (advisory_iff.mp ha).2
  have hcl : s.clearsReason = false := by
    refine Bool.eq_false_iff.mpr fun hcl ↦ ?_
    rw [hcl] at hreason
    cases hreason
  rw [hcl] at hreason
  have hne : d.state ≠ .completed := by
    intro hcomp
    rw [OrderDoc.writable, hcomp] at hw
    exact absurd hw (by simp [resurrectable, OrderState.terminal])
  have hopen : d.state ≠ .cancelled → d.known.1.any OrderState.terminal = false := by
    intro hnc
    show d.state.terminal = false
    cases hst : d.state <;> first | rfl | exact absurd hst hne | exact absurd hst hnc
  rcases currentStates_cases read h.orders (parsedEvents strToTime c payloads) oid with
    hno | ⟨d0, hd0, hread⟩
  · -- unread: the fold takes the order for an open one
    rw [hno, Option.getD_none] at hs
    have hcf := cancelsFirst_of_foldl (f := ⟨(none, none), none, false⟩) rfl
      (fun s hs ↦ absurd hs.symm (Option.some_ne_none s)) hs hc
    exact (hC oid d hd hrun hne hreason hcf).2 hno
  · obtain rfl := Option.some_inj.mp (hd.symm.trans hd0)
    rw [hread, Option.getD_some] at hs
    by_cases hdc : d.state = .cancelled
    · -- read as cancelled by the sweep: the update clears the marker
      have hadv : d.advisory = true := advisory_iff.mpr ⟨hdc, hreason⟩
      have hstale : d.stale = false := by
        rw [OrderDoc.stale, hdc]
        rfl
      rw [((tracks_foldl hstale _).folded s hs).2.2.2.1, hadv] at hcl
      cases hcl
    · have hcf := cancelsFirst_of_foldl (f := ⟨d.known, none, false⟩) (hopen hdc)
        (fun s hs ↦ absurd hs.symm (Option.some_ne_none s)) hs hc
      exact hdc (hC oid d hd hrun hne hreason hcf).1

/-- An operation cancels a document in no way, or by the sweep, or by an event that leaves no
marker. -/
def WriterOp.Leaves (strToTime : String → Option ℤ) (orders : Orders) (op : WriterOp) (oid : String)
    (d d' : OrderDoc) : Prop :=
  (op.cancels strToTime orders oid = none ∧ (d' = d ∨ d'.state ≠ .cancelled)) ∨
    op.cancels strToTime orders oid = some .sweep ∨
    (op.cancels strToTime orders oid = some .event ∧ d'.advisory = false)

/-- **What an operation does to a document.** -/
theorem run_cases {op : WriterOp} (hC : ClearsMarker strToTime h op)
    (hd : h.orders.get? oid = some d) :
    ∃ d', (op.run strToTime h.orders).get? oid = some d' ∧
      op.Leaves strToTime h.orders oid d d' := by
  cases op with
  | applyEvents w read payloads c =>
    refine ⟨d.applyFold w.runId (foldOrder (((currentStates read h.orders
      (parsedEvents strToTime c payloads)).get? oid).getD (none, none))
      (eventsOf (parsedEvents strToTime c payloads) oid)), ?_, ?_⟩
    · rw [WriterOp.run, applyEvents_orders, applyParsed_get?, hd, Option.map_some]
    · simp only [WriterOp.Leaves, WriterOp.cancels, hd]
      rw [planEventUpdates_get?, OrderDoc.applyFold]
      cases hs : (foldOrder (((currentStates read h.orders
        (parsedEvents strToTime c payloads)).get? oid).getD (none, none))
        (eventsOf (parsedEvents strToTime c payloads) oid)).slot with
      | none => exact Or.inl ⟨rfl, Or.inl rfl⟩
      | some s =>
        dsimp only
        by_cases hrw : d.runId = w.runId ∧ d.writable = true
        · rw [if_pos hrw]
          by_cases hc : s.state = .cancelled
          · rw [if_pos ⟨hc, hrw⟩]
            exact Or.inr (Or.inr ⟨rfl, write_not_advisory hC hd hrw.1 hrw.2 hc hs⟩)
          · rw [if_neg fun hx ↦ hc hx.1]
            exact Or.inl ⟨rfl, Or.inr hc⟩
        · rw [if_neg hrw, if_neg fun hx ↦ hrw hx.2]
          exact Or.inl ⟨rfl, Or.inl rfl⟩
  | publishDue w step simClock =>
    refine ⟨_, by rw [WriterOp.run, OrderBatchWriter.publishDue, updateMany_get?, hd,
      Option.map_some], Or.inl ⟨by rw [WriterOp.cancels, hd], ?_⟩⟩
    split
    · exact Or.inr fun hc ↦ OrderState.noConfusion hc
    · exact Or.inl rfl
  | cancelOverdueUnassigned w step maxWaitSteps openHaul simClock =>
    refine ⟨_, by rw [WriterOp.run, OrderBatchWriter.cancelOverdueUnassigned, updateMany_get?, hd,
      Option.map_some], ?_⟩
    simp only [WriterOp.Leaves, WriterOp.cancels, hd]
    by_cases hm : sweepMatches w step maxWaitSteps openHaul oid d = true
    · rw [if_pos hm]
      exact Or.inr (Or.inl rfl)
    · rw [if_neg hm]
      exact Or.inl ⟨rfl, Or.inl (if_neg hm)⟩

variable {orders : Orders}

/-- A hard-terminal document is out of reach of every operation. -/
theorem run_of_not_writable (hd : orders.get? oid = some d) (hw : d.writable = false)
    (op : WriterOp) :
    (op.run strToTime orders).get? oid = some d ∧ op.cancels strToTime orders oid = none := by
  have ht := (not_writable_iff.mp hw).1
  cases op with
  | applyEvents w read payloads c =>
    rw [WriterOp.run, applyEvents_orders, applyParsed_get?, hd, Option.map_some]
    refine ⟨congrArg some ?_, ?_⟩
    · rw [OrderDoc.applyFold]
      split
      · rfl
      · rw [if_neg fun hc ↦ by rw [hw] at hc; exact absurd hc.2 Bool.false_ne_true]
    · simp only [WriterOp.cancels, hd]
      split
      · rfl
      · rw [if_neg fun hc ↦ by rw [hw] at hc; exact absurd hc.2.2 Bool.false_ne_true]
  | publishDue w step simClock =>
    rw [WriterOp.run, OrderBatchWriter.publishDue, updateMany_get?, hd, Option.map_some, if_neg]
    · exact ⟨rfl, by rw [WriterOp.cancels, hd]⟩
    · intro hm
      have hc := (of_decide_eq_true hm).2.2.1
      rw [hc] at ht
      cases ht
  | cancelOverdueUnassigned w step maxWaitSteps openHaul simClock =>
    have hno : ¬ sweepMatches w step maxWaitSteps openHaul oid d = true := by
      intro hm
      have hc := (of_decide_eq_true hm).2.2.1
      rw [hc] at ht
      cases ht
    refine ⟨?_, ?_⟩
    · rw [WriterOp.run, OrderBatchWriter.cancelOverdueUnassigned, updateMany_get?, hd,
        Option.map_some]
      exact congrArg some (if_neg hno)
    · simp only [WriterOp.cancels, hd]
      exact if_neg hno

theorem run_of_none (hd : orders.get? oid = none) (op : WriterOp) :
    (op.run strToTime orders).get? oid = none := by
  cases op with
  | applyEvents w read payloads c =>
    rw [WriterOp.run, applyEvents_orders, applyParsed_get?, hd, Option.map_none]
  | publishDue w step simClock =>
    rw [WriterOp.run, OrderBatchWriter.publishDue, updateMany_get?, hd, Option.map_none]
  | cancelOverdueUnassigned w step maxWaitSteps openHaul simClock =>
    rw [WriterOp.run, OrderBatchWriter.cancelOverdueUnassigned, updateMany_get?, hd,
      Option.map_none]

theorem advisory_of_writable (hc : d.state = .cancelled) (hw : d.writable = true) :
    d.advisory = true := by
  rw [OrderDoc.writable, hc] at hw
  rw [OrderDoc.advisory, hc]
  exact hw

/-! ## Whole runs -/

theorem markerSound_step {h' : History} {op : WriterOp} (hI : MarkerSound h)
    (hC : ClearsMarker strToTime h op) (hs : (writers strToTime).step h op = some h') :
    MarkerSound h' := by
  cases hs
  -- the document before an operation, and what the operation did to it
  have hback : ∀ oid d', (op.run strToTime h.orders).get? oid = some d' →
      ∃ d, h.orders.get? oid = some d ∧ op.Leaves strToTime h.orders oid d d' := by
    intro oid d' hd'
    cases hd : h.orders.get? oid with
    | none => rw [run_of_none hd] at hd'; cases hd'
    | some d =>
      obtain ⟨d'', hd'', hcases⟩ := run_cases hC hd
      obtain rfl := Option.some_inj.mp (hd'.symm.trans hd'')
      exact ⟨d, rfl, hcases⟩
  refine ⟨fun oid d' hd' hc ↦ ?_, fun oid d' hd' ha ↦ ?_⟩
  · obtain ⟨d, hd, ⟨hn, rfl | hne⟩ | hsw | ⟨hev, -⟩⟩ := hback oid d' hd'
    · dsimp only
      rw [hn]
      exact hI.known oid d' hd hc
    · exact absurd hc hne
    · dsimp only
      rw [hsw]
      exact Option.some_ne_none _
    · dsimp only
      rw [hev]
      exact Option.some_ne_none _
  · obtain ⟨d, hd, ⟨hn, rfl | hne⟩ | hsw | ⟨hev, hna⟩⟩ := hback oid d' hd'
    · dsimp only
      rw [hn]
      exact hI.sweep oid d' hd ha
    · exact absurd (advisory_iff.mp ha).1 hne
    · dsimp only
      rw [hsw]
      rfl
    · rw [ha] at hna
      cases hna

variable {s : History}

theorem reach_markerSound
    (hs : (writers strToTime).Reach (ClearsMarker strToTime) (History.start orders) s) :
    MarkerSound s :=
  hs.invariant (start_markerSound orders) fun _ _ _ hI hC hst ↦ markerSound_step hI hC hst

/-- A hard-terminal document, and its history, stay as they are in every run. -/
theorem reach_of_not_writable {C : History → WriterOp → Prop} {t : History}
    (ht : (writers strToTime).Reach C s t) (hd : s.orders.get? oid = some d)
    (hw : d.writable = false) :
    t.orders.get? oid = some d ∧ t.lastCancel oid = s.lastCancel oid := by
  refine ht.invariant (P := fun h ↦ h.orders.get? oid = some d ∧
    h.lastCancel oid = s.lastCancel oid) ⟨hd, rfl⟩ fun a op b hP _ hstep ↦ ?_
  cases hstep
  obtain ⟨hget, hno⟩ := run_of_not_writable hP.1 hw op
  refine ⟨hget, ?_⟩
  dsimp only
  rw [hno]
  exact hP.2

theorem reach_get? {t : History} (ht : (writers strToTime).Reach (ClearsMarker strToTime) s t)
    (hd : s.orders.get? oid = some d) : ∃ d', t.orders.get? oid = some d' :=
  ht.invariant (P := fun h ↦ ∃ d', h.orders.get? oid = some d') ⟨d, hd⟩
    fun _ _ _ hP hC hstep ↦ by
      cases hstep
      obtain ⟨d', hd'⟩ := hP
      obtain ⟨d'', hd'', -⟩ := run_cases hC hd'
      exact ⟨d'', hd''⟩

/-- **Terminal states are absorbing**, in every run in which no cancel leaves the marker standing: a
completed order keeps its state and its truck, an order cancelled by an event stays cancelled, and
what leaves cancelled was cancelled last by the sweep. -/
theorem terminal_absorbing (strToTime : String → Option ℤ) (orders : Orders) (s t : History)
    (hs : (writers strToTime).Reach (ClearsMarker strToTime) (History.start orders) s)
    (ht : (writers strToTime).Reach (ClearsMarker strToTime) s t) (oid : String) (d : OrderDoc)
    (hd : s.orders.get? oid = some d) : ∃ d', t.orders.get? oid = some d' ∧
      (d.state = .completed → d'.state = .completed ∧ d'.truck = d.truck) ∧
      (d.state = .cancelled → s.lastCancel oid = some .event → d'.state = .cancelled) ∧
      (d.state = .cancelled → d'.state ≠ .cancelled → s.lastCancel oid = some .sweep) := by
  have hI := reach_markerSound hs
  cases hw : d.writable with
  | false =>
    refine ⟨d, (reach_of_not_writable ht hd hw).1, fun hc ↦ ⟨hc, rfl⟩, fun hc _ ↦ hc, ?_⟩
    exact fun hc hne ↦ absurd hc hne
  | true =>
    obtain ⟨d', hd'⟩ := reach_get? ht hd
    refine ⟨d', hd', fun hc ↦ ?_, fun hc hev ↦ ?_, fun hc _ ↦ ?_⟩
    · rw [OrderDoc.writable, hc] at hw
      exact absurd hw (by simp [resurrectable, OrderState.terminal])
    · rw [hI.sweep oid d hd (advisory_of_writable hc hw)] at hev
      cases hev
    · exact hI.sweep oid d hd (advisory_of_writable hc hw)

/-- An order that is due at step 0. -/
def dueOrders : Orders :=
  Dict.ofList [("o1", { runId := "run", requestTimeStep := some 0, state := .created })]

/-- The payload of an event about that order. -/
def orderPayload (event : String) : Option Payload :=
  some { truckId := some "t1", data := { event := some event, orderId := some "o1" } }

def publishOp : WriterOp := .publishDue { runId := "run" } 0 0

def sweepOp : WriterOp := .cancelOverdueUnassigned { runId := "run" } 10 5 [] 10

def cancelOp (read : ReadOutcome) : WriterOp :=
  .applyEvents { runId := "run" } read [orderPayload "order_cancelled"] 20

def assignOp : WriterOp :=
  .applyEvents { runId := "run" } .complete [orderPayload "order_assigned_to_truck"] 30

/-- The history after some operations on the order. -/
def historyAfter (ops : List WriterOp) : History :=
  ops.foldl (fun h op ↦ ((writers fun _ ↦ none).step h op).getD h) (History.start dueOrders)

/-- An order published, cancelled by an event and assigned after that stays cancelled. -/
theorem terminal_absorbing_small :
    ((historyAfter [publishOp, cancelOp .complete]).orders.get? "o1").any
        (fun d ↦ d.state = .cancelled) ∧
      (historyAfter [publishOp, cancelOp .complete]).lastCancel "o1" = some .event ∧
      ((historyAfter [publishOp, cancelOp .complete, assignOp]).orders.get? "o1").any
        fun d ↦ d.state = .cancelled := by
  have hunmarked : ∀ ops ∈ [[publishOp], [publishOp, cancelOp .complete]],
      ∀ p ∈ (historyAfter ops).orders.entries, p.2.cancelReason = none := by decide
  have hC : ∀ ops ∈ [[publishOp], [publishOp, cancelOp .complete]], ∀ op,
      ClearsMarker (fun _ ↦ none) (historyAfter ops) op := by
    intro ops hops op
    cases op with
    | applyEvents w read payloads c =>
      intro oid d hd _ _ hr
      rw [hunmarked ops hops _ (Dict.mem_entries_iff.mpr hd)] at hr
      cases hr
    | publishDue => trivial
    | cancelOverdueUnassigned => trivial
  have hs : (writers fun _ ↦ none).Reach (ClearsMarker fun _ ↦ none) (History.start dueOrders)
      (historyAfter [publishOp, cancelOp .complete]) :=
    ((Machine.Reach.refl _).tail (t := History.start dueOrders) (e := publishOp) trivial rfl).tail
      (t := historyAfter [publishOp]) (hC _ (by simp) (cancelOp .complete)) rfl
  have ht : (writers fun _ ↦ none).Reach (ClearsMarker fun _ ↦ none)
      (historyAfter [publishOp, cancelOp .complete])
      (historyAfter [publishOp, cancelOp .complete, assignOp]) :=
    (Machine.Reach.refl _).tail (t := historyAfter [publishOp, cancelOp .complete])
      (hC _ (by simp) assignOp) rfl
  obtain ⟨d, hd⟩ : ∃ d, (historyAfter [publishOp, cancelOp .complete]).orders.get? "o1" = some d :=
    ⟨_, rfl⟩
  have hc : d.state = .cancelled := by
    obtain rfl := Option.some_inj.mp hd
    rfl
  obtain ⟨d', hd', -, hev, -⟩ := terminal_absorbing _ _ _ _ hs ht "o1" d hd
  refine ⟨by decide, by decide, ?_⟩
  rw [hd', Option.any_some]
  exact decide_eq_true (hev hc (by decide))

/-- The sweep cancels the order, a cancel event finds it although its read has raised, and the
order leaves that cancel. -/
theorem event_cancel_undone :
    (((historyAfter [publishOp, sweepOp, cancelOp (.raisesAfter 0)]).orders.get? "o1").map
        OrderDoc.state = some .cancelled ∧
      (historyAfter [publishOp, sweepOp, cancelOp (.raisesAfter 0)]).lastCancel "o1" =
        some .event) ∧
    ((historyAfter [publishOp, sweepOp, cancelOp (.raisesAfter 0), assignOp]).orders.get? "o1").map
        OrderDoc.state = some .assigned := by
  decide

end OpenRide.OrderLifecycle
