import Mathlib.Data.String.Basic
import OpenRide.Lib.Dict
import OpenRide.OrderLifecycle.OrderMachine

/-!
# The order batch writer

Three operations write order documents: `applyEvents` folds a drain of workflow events into one
update per order, `publishDue` moves created orders to unassigned, and `cancelOverdueUnassigned`
sheds demand.  The last one marks what it cancels; a marked cancelled document is *resurrectable*,
any other terminal document is final.

`planEventUpdates` validates a drain against a running view of each order that starts from a read of
the collection.  The read may raise after any number of documents, and what it had not returned by
then is unknown to the fold.  Every update then carries its own filter against the stored document,
so a document is written only while it is not terminal or is resurrectable.

A document is keyed by the text of its id, which is also what an event carries.  The `_etag` is a
hash of its parts; the parts are kept instead.
-/

namespace OpenRide.OrderLifecycle

open Lib

/-! ## Documents and events -/

/-- What an `_etag` is a hash of. -/
inductive Etag where
  | stored (etag : String)
  | event (orderId : String) (state : OrderState) (simClock : ℤ)
  | publish (runId : String) (step : ℤ)
  | sweep (runId : String) (step : ℤ)
deriving DecidableEq

/-- An order document.  Clocks are datetimes, as a number of seconds. -/
@[ext] structure OrderDoc where
  runId : String
  haulierId : Option String := none
  requestTimeStep : Option ℤ := none
  state : OrderState
  /-- `meta.cancel_reason`. -/
  cancelReason : Option String := none
  truck : Option String := none
  simClock : Option ℤ := none
  updated : Option ℤ := none
  feasibleTransitions : List String := []
  etag : Etag := .stored ""
deriving DecidableEq

/-- The order collection. -/
abbrev Orders := Dict String OrderDoc

/-- `SWEEP_CANCEL_REASON`. -/
def sweepCancelReason : String := "overdue_unassigned"

/-- `_resurrectable`: the sweep cancelled it, so a real haul overrides that. -/
def resurrectable (state : Option OrderState) (cancelReason : Option String) : Bool :=
  state = some .cancelled ∧ cancelReason = some sweepCancelReason

/-- A clock field of a payload: a datetime, or something to be parsed. -/
inductive RawClock where
  | datetime (c : ℤ)
  | text (s : String)
deriving DecidableEq

/-- The `data` of a payload. -/
structure PayloadData where
  event : Option String := none
  orderId : Option String := none
  truckId : Option String := none
  simClock : Option RawClock := none
deriving DecidableEq

/-- A workflow payload: its `data`, and the fields also looked for at the top level. -/
structure Payload where
  event : Option String := none
  orderId : Option String := none
  truckId : Option String := none
  data : PayloadData := {}
deriving DecidableEq

/-- A payload that has been parsed. -/
structure ParsedEvent where
  orderId : String
  event : String
  targetState : OrderState
  truckId : Option String
  simClock : ℤ
deriving DecidableEq

/-- `a or b` on optional strings, the empty one being false. -/
def orElseTruthy (a b : Option String) : Option String :=
  match a with
  | none => b
  | some s => if s = "" then b else some s

/-- The clock of an event: its own when it has one that parses, the fallback otherwise. -/
def eventClock (strToTime : String → Option ℤ) (raw : Option RawClock) (fallback : ℤ) : ℤ :=
  match raw with
  | none => fallback
  | some (.datetime c) => c
  | some (.text s) => if s = "" then fallback else (strToTime s).getD fallback

/-- `parse_event`.  A payload that is not a dictionary is `none`. -/
def parseEvent (strToTime : String → Option ℤ) (fallback : ℤ) (p : Option Payload) :
    Option ParsedEvent := do
  let p ← p
  let event ← (orElseTruthy p.data.event p.event).filter (· ≠ "")
  let target ← eventToState event
  let orderId ← (orElseTruthy p.data.orderId p.orderId).filter (· ≠ "")
  return { orderId := orderId
           event := event
           targetState := target
           truckId := orElseTruthy p.truckId p.data.truckId
           simClock := eventClock strToTime p.data.simClock fallback }

/-! ## Planning -/

/-- `ApplyStats`. -/
structure ApplyStats where
  eventsSeen : ℕ := 0
  parsed : ℕ := 0
  unknown : ℕ := 0
  ordersTouched : ℕ := 0
  applied : ℕ := 0
  skippedTerminal : ℕ := 0
  warnedJumps : ℕ := 0
  resurrected : ℕ := 0
deriving DecidableEq

/-- The `$set` of one order. -/
structure Slot where
  state : OrderState
  simClock : ℤ
  updated : ℤ
  feasibleTransitions : List String
  etag : Etag
  truck : Option String
  /-- Does it set `meta.cancel_reason` to nothing? -/
  clearsReason : Bool
deriving DecidableEq

/-- The state and the cancel reason of an order, as far as they are known. -/
abbrev Known := Option OrderState × Option String

/-- The running state of the plan. -/
structure PlanState where
  merged : Dict String Slot
  effective : Dict String Known
  resurrected : List String
  stats : ApplyStats

/-- What the plan takes an order to be: what an earlier event of the drain left, else what was
read. -/
def PlanState.knownOf (current : Dict String Known) (st : PlanState) (oid : String) : Known :=
  (st.effective.get? oid).getD ((current.get? oid).getD (none, none))

/-- An event the fold drops: a cancel of a resurrectable order, or any event of a hard-terminal
one. -/
def drops (known : Known) (target : OrderState) : Bool :=
  if resurrectable known.1 known.2 then target = .cancelled
  else known.1.any OrderState.terminal

/-- An event that skips a state of the machine. -/
def jumps (known : Known) (target : OrderState) : Bool :=
  match known.1 with
  | none => false
  | some s => target ≠ s ∧ target ∉ adjacent s

/-- The slot of an order after an event. -/
def mergeSlot (old : Option Slot) (ev : ParsedEvent) (revived : Bool) : Slot where
  state := ev.targetState
  simClock := ev.simClock
  updated := ev.simClock
  feasibleTransitions := feasibleTransitions ev.targetState
  etag := .event ev.orderId ev.targetState ev.simClock
  truck :=
    if ev.targetState = .assigned ∧ ev.truckId.any (· ≠ "") then ev.truckId
    else old.bind Slot.truck
  clearsReason := old.any Slot.clearsReason || revived

/-- One event of a drain. -/
def planStep (current : Dict String Known) (st : PlanState) (ev : ParsedEvent) : PlanState :=
  if drops (st.knownOf current ev.orderId) ev.targetState then
    { st with stats := { st.stats with skippedTerminal := st.stats.skippedTerminal + 1 } }
  else
    let reviving := resurrectable (st.knownOf current ev.orderId).1
      (st.knownOf current ev.orderId).2
    let first := reviving && !decide (ev.orderId ∈ st.resurrected)
    { merged := st.merged.set ev.orderId
        (mergeSlot (st.merged.get? ev.orderId) ev
          (reviving || decide (ev.orderId ∈ st.resurrected)))
      effective := st.effective.set ev.orderId (some ev.targetState, none)
      resurrected := if first then ev.orderId :: st.resurrected else st.resurrected
      stats := { st.stats with
        resurrected := st.stats.resurrected + first.toNat
        warnedJumps := st.stats.warnedJumps +
          (!reviving && jumps (st.knownOf current ev.orderId) ev.targetState).toNat } }

/-- `plan_event_updates`: one update per order, in the order the orders were first touched. -/
def planEventUpdates (events : List ParsedEvent) (current : Dict String Known) : PlanState :=
  let st := events.foldl (planStep current)
    { merged := Dict.empty, effective := Dict.empty, resurrected := [],
      stats := { parsed := events.length } }
  { st with stats := { st.stats with ordersTouched := st.merged.size } }

/-! ## Writing -/

/-- The filter of an event update: not terminal, or resurrectable. -/
def OrderDoc.writable (d : OrderDoc) : Bool :=
  !d.state.terminal || resurrectable (some d.state) d.cancelReason

/-- `$set` a slot. -/
def OrderDoc.write (d : OrderDoc) (s : Slot) : OrderDoc :=
  { d with
    state := s.state
    simClock := some s.simClock
    updated := some s.updated
    feasibleTransitions := s.feasibleTransitions
    etag := s.etag
    truck := s.truck <|> d.truck
    cancelReason := if s.clearsReason then none else d.cancelReason }

/-- One `UpdateOne`, and the number of documents it modified so far. -/
def updateOne (runId : String) (st : Orders × ℕ) (op : String × Slot) : Orders × ℕ :=
  match st.1.get? op.1 with
  | none => st
  | some d =>
    if d.runId = runId ∧ d.writable then
      (st.1.set op.1 (d.write op.2), st.2 + (decide (d.write op.2 ≠ d)).toNat)
    else st

/-- The writer of a run. -/
structure OrderBatchWriter where
  runId : String
  haulierFilter : List String := []
deriving DecidableEq

/-- How far the read of the current states gets: to the end, or it raises after some documents. -/
inductive ReadOutcome where
  | complete
  | raisesAfter (n : ℕ)
deriving DecidableEq

/-- The documents a read returns. -/
def ReadOutcome.returned {α : Type} (r : ReadOutcome) (docs : List α) : List α :=
  match r with
  | .complete => docs
  | .raisesAfter n => docs.take n

/-- The state and the cancel reason of a document. -/
def OrderDoc.known (d : OrderDoc) : Known := (some d.state, d.cancelReason)

/-- The current states of the orders of a drain, as far as the read got. -/
def currentStates (read : ReadOutcome) (orders : Orders) (events : List ParsedEvent) :
    Dict String Known :=
  Dict.ofList ((read.returned (orders.entries.filter fun p ↦
    p.1 ∈ events.map ParsedEvent.orderId)).map fun p ↦ (p.1, p.2.known))

/-- The part of `apply_events` after parsing. -/
def OrderBatchWriter.applyParsed (w : OrderBatchWriter) (read : ReadOutcome) (orders : Orders)
    (events : List ParsedEvent) : Orders × ApplyStats :=
  let plan := planEventUpdates events (currentStates read orders events)
  let written := plan.merged.entries.foldl (updateOne w.runId) (orders, 0)
  (written.1, { plan.stats with applied := written.2 })

/-- `apply_events`. -/
def OrderBatchWriter.applyEvents (w : OrderBatchWriter) (strToTime : String → Option ℤ)
    (read : ReadOutcome) (orders : Orders) (rawPayloads : List (Option Payload)) (fallback : ℤ) :
    Orders × ApplyStats :=
  let events := rawPayloads.filterMap (parseEvent strToTime fallback)
  if events.isEmpty then
    (orders, { eventsSeen := rawPayloads.length, unknown := rawPayloads.length })
  else
    let r := w.applyParsed read orders events
    (r.1, { r.2 with
      eventsSeen := rawPayloads.length
      unknown := rawPayloads.length - r.2.parsed })

/-- The optional partition by haulier. -/
def OrderBatchWriter.inScope (w : OrderBatchWriter) (d : OrderDoc) : Bool :=
  w.haulierFilter.isEmpty || d.haulierId.any (· ∈ w.haulierFilter)

/-- `update_many`: write every matching document, counting the modified ones. -/
def updateMany (orders : Orders) (matching : String → OrderDoc → Bool)
    (set : OrderDoc → OrderDoc) : Orders × ℕ :=
  (orders.update ((orders.entries.filter fun p ↦ matching p.1 p.2).map fun p ↦ (p.1, set p.2)),
    (orders.entries.filter fun p ↦ matching p.1 p.2 ∧ set p.2 ≠ p.2).length)

/-- Does the request step of a document satisfy a comparison?  A missing one satisfies none. -/
def OrderDoc.requestStep (d : OrderDoc) (p : ℤ → Bool) : Bool := d.requestTimeStep.any p

/-- `publish_due`. -/
def OrderBatchWriter.publishDue (w : OrderBatchWriter) (orders : Orders) (step simClock : ℤ) :
    Orders × ℕ :=
  updateMany orders
    (fun _ d ↦ w.inScope d ∧ d.runId = w.runId ∧ d.state = .created ∧ d.requestStep (· ≤ step))
    fun d ↦ { d with
      state := .unassigned
      feasibleTransitions := feasibleTransitions .unassigned
      simClock := some simClock
      updated := some simClock
      etag := .publish w.runId step }

/-- `cancel_overdue_unassigned`. -/
def OrderBatchWriter.cancelOverdueUnassigned (w : OrderBatchWriter) (orders : Orders)
    (step maxWaitSteps : ℤ) (openHaulOrderIds : List String) (simClock : ℤ) : Orders × ℕ :=
  updateMany orders
    (fun oid d ↦ w.inScope d ∧ d.runId = w.runId ∧ d.state = .unassigned ∧
      d.requestStep (· < step - maxWaitSteps) ∧ oid ∉ openHaulOrderIds)
    fun d ↦ { d with
      state := .cancelled
      feasibleTransitions := []
      simClock := some simClock
      updated := some simClock
      cancelReason := some sweepCancelReason
      etag := .sweep w.runId step }

end OpenRide.OrderLifecycle
