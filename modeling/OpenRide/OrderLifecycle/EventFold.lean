import OpenRide.OrderLifecycle.BatchWriter

/-!
# Folding a drain, and applying its events one by one

A plan treats the orders of a drain independently: what it holds about one order is the fold of
that order's own events (`planEventUpdates_get?`), and an update touches one document.  So a drain
acts on each document by itself, `OrderDoc.drain`, and two ways of applying events can be compared
document by document.

One event at a time, a document goes through `OrderDoc.receive`.  A drain does the same to every
document but one kind: a *stale* one, which still carries the sweep's marker although it is no
longer cancelled.  There a cancel leaves the marker standing, the fold takes the cancel for final,
and the stored document says that it is not (`drain_eq_foldl_receive`).
-/

namespace OpenRide.OrderLifecycle

open Lib

/-! ## The plan, order by order -/

/-- What a plan holds about one order. -/
structure OrderFold where
  known : Known
  slot : Option Slot
  revived : Bool

/-- One event of the order. -/
def OrderFold.step (f : OrderFold) (ev : ParsedEvent) : OrderFold :=
  if drops f.known ev.targetState then f else
    { known := (some ev.targetState, none)
      slot := some (mergeSlot f.slot ev (resurrectable f.known.1 f.known.2 || f.revived))
      revived := resurrectable f.known.1 f.known.2 || f.revived }

/-- The events of a drain that name an order. -/
def eventsOf (events : List ParsedEvent) (oid : String) : List ParsedEvent :=
  events.filter fun ev ↦ ev.orderId = oid

/-- The fold of an order's events from what was read about it. -/
def foldOrder (known : Known) (es : List ParsedEvent) : OrderFold :=
  es.foldl OrderFold.step { known, slot := none, revived := false }

/-- What a plan state holds about one order. -/
def PlanState.at (current : Dict String Known) (st : PlanState) (oid : String) : OrderFold where
  known := st.knownOf current oid
  slot := st.merged.get? oid
  revived := decide (oid ∈ st.resurrected)

theorem decide_mem_revive (oid x : String) (r : Bool) (l : List String) :
    decide (oid ∈ if r && !decide (x ∈ l) then x :: l else l) =
      (decide (oid ∈ l) || (r && decide (oid = x))) := by
  by_cases hx : x ∈ l
  · have h : oid = x → oid ∈ l := fun he ↦ he ▸ hx
    simp only [hx, decide_true, Bool.not_true, Bool.and_false, Bool.false_eq_true, if_false]
    by_cases ho : oid = x
    · simp [ho, hx]
    · simp [ho]
  · cases r with
    | false => simp
    | true => simp [hx, Bool.or_comm]

theorem planStep_at (current : Dict String Known) (st : PlanState) (ev : ParsedEvent)
    (oid : String) : (planStep current st ev).at current oid =
      if ev.orderId = oid then (st.at current oid).step ev else st.at current oid := by
  rw [planStep]
  split
  · next hd =>
    split
    · next ho =>
      subst ho
      have hd' : drops (st.at current ev.orderId).known ev.targetState = true := hd
      rw [OrderFold.step, if_pos hd']
      rfl
    · rfl
  · next hd =>
    split
    · next ho =>
      subst ho
      have hd' : ¬ drops (st.at current ev.orderId).known ev.targetState = true := hd
      rw [OrderFold.step, if_neg hd']
      simp only [PlanState.at, PlanState.knownOf, Dict.get?_set_self, Option.getD_some,
        Bool.or_comm]
      refine congrArg (OrderFold.mk _ _) ((decide_mem_revive _ _ _ _).trans ?_)
      rw [decide_eq_true rfl, Bool.and_true]
    · next ho =>
      have ho' : oid ≠ ev.orderId := fun h ↦ ho h.symm
      simp only [PlanState.at, PlanState.knownOf, Dict.get?_set_ne _ _ ho']
      refine congrArg (OrderFold.mk _ _) ((decide_mem_revive _ _ _ _).trans ?_)
      rw [decide_eq_false ho', Bool.and_false, Bool.or_false]

theorem foldl_planStep_at (current : Dict String Known) (events : List ParsedEvent)
    (st : PlanState) (oid : String) : (events.foldl (planStep current) st).at current oid =
      (eventsOf events oid).foldl OrderFold.step (st.at current oid) := by
  induction events generalizing st with
  | nil => rfl
  | cons ev events ih =>
    rw [List.foldl_cons, ih, planStep_at, eventsOf, eventsOf, List.filter_cons]
    split
    · next ho => rw [if_pos (decide_eq_true ho), List.foldl_cons]
    · next ho => rw [if_neg (by simpa using ho)]

/-- **The update of an order is the fold of its own events.** -/
theorem planEventUpdates_get? (events : List ParsedEvent) (current : Dict String Known)
    (oid : String) : (planEventUpdates events current).merged.get? oid =
      (foldOrder ((current.get? oid).getD (none, none)) (eventsOf events oid)).slot := by
  have h := foldl_planStep_at current events
    { merged := Dict.empty, effective := Dict.empty, resurrected := [],
      stats := { parsed := events.length } } oid
  exact congrArg OrderFold.slot h

/-! ## Writing, document by document -/

/-- What a fold does to the document of its order. -/
def OrderDoc.applyFold (runId : String) (d : OrderDoc) (f : OrderFold) : OrderDoc :=
  match f.slot with
  | none => d
  | some s => if d.runId = runId ∧ d.writable then d.write s else d

theorem updateOne_get? (runId : String) (st : Orders × ℕ) (op : String × Slot) (oid : String) :
    (updateOne runId st op).1.get? oid = if oid = op.1 then
      (st.1.get? oid).map fun d ↦ if d.runId = runId ∧ d.writable then d.write op.2 else d
      else st.1.get? oid := by
  rw [updateOne]
  split
  · next hn =>
    split
    · next ho => rw [ho, hn]; rfl
    · rfl
  · next d hd =>
    split
    · next hw =>
      rw [Dict.get?_set]
      split
      · next ho => rw [ho, hd, Option.map_some, if_pos hw]
      · rfl
    · next hw =>
      split
      · next ho => rw [ho, hd, Option.map_some, if_neg hw]
      · rfl

variable {runId : String}

variable {oid : String}

theorem foldl_updateOne_of_notMem {ops : List (String × Slot)} (h : oid ∉ ops.map Prod.fst)
    (st : Orders × ℕ) : (ops.foldl (updateOne runId) st).1.get? oid = st.1.get? oid := by
  induction ops generalizing st with
  | nil => rfl
  | cons op ops ih =>
    rw [List.map_cons, List.mem_cons, not_or] at h
    rw [List.foldl_cons, ih h.2, updateOne_get?, if_neg h.1]

theorem foldl_updateOne_of_mem {ops : List (String × Slot)} {s : Slot}
    (hn : (ops.map Prod.fst).Nodup) (h : (oid, s) ∈ ops) (st : Orders × ℕ) :
    (ops.foldl (updateOne runId) st).1.get? oid =
      (st.1.get? oid).map fun d ↦ if d.runId = runId ∧ d.writable then d.write s else d := by
  induction ops generalizing st with
  | nil => exact absurd h List.not_mem_nil
  | cons op ops ih =>
    obtain ⟨hop, hn⟩ := List.nodup_cons.mp hn
    rw [List.foldl_cons]
    rcases List.mem_cons.mp h with rfl | h
    · rw [foldl_updateOne_of_notMem hop, updateOne_get?, if_pos rfl]
    · have hne : oid ≠ op.1 := fun he ↦ hop (he ▸ Dict.fst_mem_of_mem h)
      rw [ih hn h, updateOne_get?, if_neg hne]

/-- **A drain acts on each document by itself.** -/
theorem applyParsed_get? (w : OrderBatchWriter) (read : ReadOutcome) (orders : Orders)
    (events : List ParsedEvent) (oid : String) :
    (w.applyParsed read orders events).1.get? oid = (orders.get? oid).map fun d ↦
      d.applyFold w.runId (foldOrder
        (((currentStates read orders events).get? oid).getD (none, none))
        (eventsOf events oid)) := by
  have hslot := planEventUpdates_get? events (currentStates read orders events) oid
  rw [OrderBatchWriter.applyParsed]
  cases hs : (foldOrder (((currentStates read orders events).get? oid).getD (none, none))
      (eventsOf events oid)).slot with
  | none =>
    rw [hs] at hslot
    rw [foldl_updateOne_of_notMem (Dict.get?_eq_none_iff.mp hslot)]
    simp only [OrderDoc.applyFold, hs, Option.map_id']
  | some s =>
    rw [hs] at hslot
    rw [foldl_updateOne_of_mem (Dict.nodup _) (Dict.mem_entries_iff.mpr hslot)]
    simp only [OrderDoc.applyFold, hs]

/-- What was read about an order: nothing, or its stored state and cancel reason. -/
theorem currentStates_cases (read : ReadOutcome) (orders : Orders) (events : List ParsedEvent)
    (oid : String) : (currentStates read orders events).get? oid = none ∨
      ∃ d, orders.get? oid = some d ∧
        (currentStates read orders events).get? oid = some d.known := by
  cases hc : (currentStates read orders events).get? oid with
  | none => exact Or.inl rfl
  | some k =>
    refine Or.inr ?_
    have hsub : (read.returned (orders.entries.filter fun p ↦
        p.1 ∈ events.map ParsedEvent.orderId)).Sublist orders.entries := by
      cases read with
      | complete => exact List.filter_sublist
      | raisesAfter n => exact (List.take_sublist _ _).trans List.filter_sublist
    have hnd := orders.nodup.sublist (hsub.map Prod.fst)
    rw [currentStates, Dict.get?_ofList (by rw [List.map_map]; exact hnd), List.mem_map] at hc
    obtain ⟨⟨oid', d⟩, hp, he⟩ := hc
    obtain ⟨rfl, rfl⟩ := Prod.mk.inj he
    exact ⟨d, Dict.mem_entries_iff.mp (hsub.subset hp), rfl⟩

variable {events : List ParsedEvent} {d : OrderDoc}

/-- A read that completes returns every order of the drain. -/
theorem currentStates_complete {orders : Orders} (hd : orders.get? oid = some d)
    (he : eventsOf events oid ≠ []) :
    (currentStates .complete orders events).get? oid = some d.known := by
  obtain ⟨ev, hev⟩ := List.exists_mem_of_ne_nil _ he
  obtain ⟨hmem, hoid⟩ := List.mem_filter.mp hev
  have hnd := orders.nodup.sublist ((List.filter_sublist (p := fun p : String × OrderDoc ↦
    decide (p.1 ∈ events.map ParsedEvent.orderId)) (l := orders.entries)).map Prod.fst)
  rw [currentStates, Dict.get?_ofList (by rw [List.map_map]; exact hnd), List.mem_map]
  refine ⟨(oid, d), List.mem_filter.mpr ⟨Dict.mem_entries_iff.mpr hd, ?_⟩, rfl⟩
  exact decide_eq_true (List.mem_map.mpr ⟨ev, hmem, of_decide_eq_true hoid⟩)

/-- What a drain whose read completes does to a document. -/
def OrderDoc.drain (runId : String) (d : OrderDoc) (es : List ParsedEvent) : OrderDoc :=
  d.applyFold runId (foldOrder d.known es)

theorem applyParsed_complete_get? (w : OrderBatchWriter) (orders : Orders)
    (events : List ParsedEvent) (oid : String) :
    (w.applyParsed .complete orders events).1.get? oid =
      (orders.get? oid).map fun d ↦ d.drain w.runId (eventsOf events oid) := by
  rw [applyParsed_get?]
  cases hd : orders.get? oid with
  | none => rfl
  | some d =>
    rw [Option.map_some, Option.map_some, OrderDoc.drain]
    by_cases he : eventsOf events oid = []
    · rw [he]
      rfl
    · rw [currentStates_complete hd he, Option.getD_some]

/-- The events of a batch of payloads. -/
def parsedEvents (strToTime : String → Option ℤ) (fallback : ℤ) (payloads : List (Option Payload)) :
    List ParsedEvent :=
  payloads.filterMap (parseEvent strToTime fallback)

theorem applyEvents_orders (w : OrderBatchWriter) (strToTime : String → Option ℤ)
    (read : ReadOutcome) (orders : Orders) (payloads : List (Option Payload)) (c : ℤ) :
    (w.applyEvents strToTime read orders payloads c).1 =
      (w.applyParsed read orders (parsedEvents strToTime c payloads)).1 := by
  rw [OrderBatchWriter.applyEvents, ← parsedEvents]
  split
  · next he =>
    rw [List.isEmpty_iff.mp he]
    rfl
  · rfl

/-! ## One event -/

/-- A document of the run receives one event. -/
def OrderDoc.receive (d : OrderDoc) (ev : ParsedEvent) : OrderDoc :=
  if drops d.known ev.targetState then d
  else d.write (mergeSlot none ev (resurrectable (some d.state) d.cancelReason))

/-- Cancelled by the sweep. -/
def OrderDoc.advisory (d : OrderDoc) : Bool := resurrectable (some d.state) d.cancelReason

/-- Marked as cancelled by the sweep although it is not terminal. -/
def OrderDoc.stale (d : OrderDoc) : Bool :=
  !d.state.terminal && decide (d.cancelReason = some sweepCancelReason)

theorem advisory_iff : d.advisory = true ↔
    d.state = .cancelled ∧ d.cancelReason = some sweepCancelReason := by
  simp [OrderDoc.advisory, resurrectable]

theorem stale_iff : d.stale = true ↔
    d.state.terminal = false ∧ d.cancelReason = some sweepCancelReason := by
  simp [OrderDoc.stale]

/-- An event is dropped by a document that is hard terminal, and a cancel by an advisory one. -/
theorem drops_known {t : OrderState} : drops d.known t = true ↔
    (d.advisory = true ∧ t = .cancelled) ∨ d.writable = false := by
  cases ha : d.advisory with
  | true =>
    have hr : resurrectable (some d.state) d.cancelReason = true := ha
    have hw : d.writable = true := by rw [OrderDoc.writable, hr, Bool.or_true]
    rw [drops, OrderDoc.known]
    simp [hr, hw]
  | false =>
    have hr : resurrectable (some d.state) d.cancelReason = false := ha
    rw [drops, OrderDoc.known, OrderDoc.writable]
    simp [hr]

variable {ev : ParsedEvent}

theorem receive_of_drops (h : drops d.known ev.targetState = true) : d.receive ev = d := by
  rw [OrderDoc.receive, if_pos h]

theorem drain_singleton (hrun : d.runId = runId) (ev : ParsedEvent) :
    d.drain runId [ev] = d.receive ev := by
  rw [OrderDoc.drain, foldOrder, List.foldl_cons, List.foldl_nil, OrderFold.step,
    OrderDoc.receive]
  by_cases hd : drops d.known ev.targetState = true
  · rw [if_pos hd, if_pos hd]
    rfl
  · have hw : d.writable = true := by
      rw [drops_known, not_or, Bool.not_eq_false] at hd
      exact hd.2
    rw [if_neg hd, if_neg hd]
    simp only [OrderDoc.applyFold, Bool.or_false]
    rw [if_pos ⟨hrun, hw⟩]
    rfl

/-! ## The fold against the documents -/

/-- Two updates in a row are the update of the merged slot, once the marker is accounted for. -/
theorem write_write {s : Slot} {r r' : Bool}
    (h : (if r then none else (d.write s).cancelReason) = if s.clearsReason || r' then none else
      d.cancelReason)
    : (d.write s).write (mergeSlot none ev r) = d.write (mergeSlot (some s) ev r') := by
  have hcancel : ((d.write s).write (mergeSlot none ev r)).cancelReason =
      (d.write (mergeSlot (some s) ev r')).cancelReason := by
    show (if (false || r) = true then none else (d.write s).cancelReason) =
      if (s.clearsReason || r') = true then none else d.cancelReason
    simpa only [Bool.false_or] using h
  have htruck : ((d.write s).write (mergeSlot none ev r)).truck =
      (d.write (mergeSlot (some s) ev r')).truck := by
    show ((mergeSlot none ev r).truck <|> s.truck <|> d.truck) =
      ((mergeSlot (some s) ev r').truck <|> d.truck)
    rw [mergeSlot, mergeSlot]
    split
    · next ht =>
      obtain ⟨t, ht, -⟩ := (Option.any_eq_true _ _).mp ht.2
      rw [ht]
      rfl
    · rfl
  exact OrderDoc.ext rfl rfl rfl rfl hcancel htruck rfl rfl rfl rfl

/-- The fold of an order's events, and the document after the same events one by one. -/
structure Tracks (d : OrderDoc) (f : OrderFold) (e : OrderDoc) : Prop where
  /-- Nothing folded yet: the document as it was read. -/
  fresh : f.slot = none → f = { known := d.known, slot := none, revived := false } ∧ e = d
  /-- Something folded: the document as the slot writes it, the fold knowing its state but not a
  marker that was never cleared. -/
  folded : ∀ s, f.slot = some s → d.writable = true ∧ e = d.write s ∧
    f.known = (some s.state, none) ∧ s.clearsReason = d.advisory ∧ f.revived = d.advisory

theorem Tracks.start (d : OrderDoc) :
    Tracks d { known := d.known, slot := none, revived := false } d where
  fresh _ := ⟨rfl, rfl⟩
  folded _ h := nomatch h

variable {e : OrderDoc} {f : OrderFold}

/-- **One event keeps the fold and the document together**, unless the document has become
resurrectable behind the fold's back. -/
theorem Tracks.step (h : Tracks d f e) (hvis : f.slot ≠ none → e.advisory = false)
    (ev : ParsedEvent) : Tracks d (f.step ev) (e.receive ev) := by
  cases hs : f.slot with
  | none =>
    obtain ⟨rfl, rfl⟩ := h.fresh hs
    rw [OrderFold.step, OrderDoc.receive]
    by_cases hd : drops e.known ev.targetState = true
    · rw [if_pos hd, if_pos hd]
      exact Tracks.start e
    · rw [if_neg hd, if_neg hd]
      rw [drops_known, not_or, Bool.not_eq_false] at hd
      refine ⟨fun hn ↦ (nomatch hn), fun s hs ↦ ?_⟩
      cases hs
      refine ⟨hd.2, ?_, rfl, ?_, ?_⟩
      · simp only [Bool.or_false]
        rfl
      · simp only [mergeSlot, Option.any_none, Bool.false_or, Bool.or_false]
        rfl
      · simp only [Bool.or_false]
        rfl
  | some s =>
    obtain ⟨hw, he, hk, hc, hr⟩ := h.folded s hs
    have hadv := hvis (by rw [hs]; exact Option.some_ne_none s)
    have hrk : resurrectable f.known.1 f.known.2 = false := by
      rw [hk]
      simp [resurrectable]
    have hstate : e.state = s.state := by rw [he]; rfl
    have hdrop : drops f.known ev.targetState = drops e.known ev.targetState := by
      have hre : resurrectable (some e.state) e.cancelReason = false := hadv
      rw [drops, drops, hrk, OrderDoc.known]
      simp only [hre, Bool.false_eq_true, if_false]
      rw [hk, hstate]
    rw [OrderFold.step, OrderDoc.receive, hdrop]
    by_cases hd : drops e.known ev.targetState = true
    · rw [if_pos hd, if_pos hd]
      exact h
    · rw [if_neg hd, if_neg hd]
      refine ⟨fun hn ↦ (nomatch hn), fun s' hs' ↦ ?_⟩
      cases hs'
      have hre : resurrectable (some e.state) e.cancelReason = false := hadv
      refine ⟨hw, ?_, rfl, ?_, ?_⟩
      · rw [hre, he, hs, hrk, Bool.false_or, hr]
        refine write_write ?_
        rw [OrderDoc.write, hc, Bool.or_self]
        rfl
      · rw [hs, hrk, hr]
        simp only [mergeSlot, Option.any_some, hc, Bool.false_or, Bool.or_self]
      · dsimp only
        rw [hrk, hr, Bool.false_or]

theorem Tracks.applyFold (hrun : d.runId = runId) (h : Tracks d f e) : d.applyFold runId f = e := by
  rw [OrderDoc.applyFold]
  split
  · next hs => exact (h.fresh hs).2.symm
  · next s hs =>
    obtain ⟨hw, he, -⟩ := h.folded s hs
    rw [if_pos ⟨hrun, hw⟩, he]

/-- What an update does to the marker. -/
theorem Tracks.cancelReason (h : Tracks d f e) {s : Slot} (hs : f.slot = some s) :
    e.cancelReason = if d.advisory then none else d.cancelReason := by
  obtain ⟨-, he, -, hc, -⟩ := h.folded s hs
  rw [he, OrderDoc.write, hc]

/-- For a document that is not stale, nothing becomes resurrectable behind the fold's back. -/
theorem Tracks.visible (h : Tracks d f e) (hstale : d.stale = false) :
    f.slot ≠ none → e.advisory = false := by
  intro hs
  obtain ⟨s, hs⟩ := Option.ne_none_iff_exists'.mp hs
  have hc := h.cancelReason hs
  obtain ⟨hw, -⟩ := h.folded s hs
  by_contra hadv
  rw [Bool.not_eq_false, advisory_iff] at hadv
  rw [hadv.2] at hc
  split at hc
  · cases hc
  · next hna =>
    have hnt : d.state.terminal = false := by
      have hr : resurrectable (some d.state) d.cancelReason = false :=
        Bool.eq_false_iff.mpr hna
      rw [OrderDoc.writable, hr, Bool.or_false, Bool.not_eq_true'] at hw
      exact hw
    rw [stale_iff.mpr ⟨hnt, hc.symm⟩] at hstale
    exact absurd hstale.symm Bool.false_ne_true

theorem tracks_foldl (hstale : d.stale = false) (es : List ParsedEvent) :
    Tracks d (foldOrder d.known es) (es.foldl OrderDoc.receive d) := by
  have h : ∀ (es : List ParsedEvent) (f : OrderFold) (e : OrderDoc), Tracks d f e →
      Tracks d (es.foldl OrderFold.step f) (es.foldl OrderDoc.receive e) := by
    intro es
    induction es with
    | nil => exact fun f e h ↦ h
    | cons ev es ih => exact fun f e h ↦ ih _ _ (h.step (h.visible hstale) ev)
  exact h es _ d (Tracks.start d)

/-- **A drain is its events one by one, on a document that is not stale.** -/
theorem drain_eq_foldl_receive (hrun : d.runId = runId) (hstale : d.stale = false)
    (es : List ParsedEvent) : d.drain runId es = es.foldl OrderDoc.receive d :=
  (tracks_foldl hstale es).applyFold hrun

/-! ## Jumps -/

/-- The events of an order, received one by one, skip no state of its machine. -/
def Sequential (d : OrderDoc) : List ParsedEvent → Prop
  | [] => True
  | ev :: es =>
    (drops d.known ev.targetState = false → d.advisory = false → ev.targetState ≠ d.state →
      ev.targetState ∈ adjacent d.state) ∧ Sequential (d.receive ev) es

/-- The fold knows the state of the document, and takes it for advisory only if it is. -/
theorem Tracks.known_spec (h : Tracks d f e) (hvis : f.slot ≠ none → e.advisory = false) :
    f.known.1 = some e.state ∧ resurrectable f.known.1 f.known.2 = e.advisory ∧
      ∀ t, drops f.known t = drops e.known t := by
  cases hs : f.slot with
  | none =>
    obtain ⟨rfl, rfl⟩ := h.fresh hs
    exact ⟨rfl, rfl, fun t ↦ rfl⟩
  | some s =>
    obtain ⟨-, he, hk, -⟩ := h.folded s hs
    have hadv := hvis (by rw [hs]; exact Option.some_ne_none s)
    have hre : resurrectable (some e.state) e.cancelReason = false := hadv
    have hstate : e.state = s.state := by rw [he]; rfl
    have hrk : resurrectable f.known.1 f.known.2 = false := by
      rw [hk]
      simp [resurrectable]
    refine ⟨by rw [hk, hstate], hrk.trans hadv.symm, fun t ↦ ?_⟩
    rw [drops, drops, hrk, OrderDoc.known]
    simp only [hre, Bool.false_eq_true, if_false]
    rw [hk, hstate]

theorem planStep_warnedJumps {current : Dict String Known} {st : PlanState}
    (h : drops (st.knownOf current ev.orderId) ev.targetState = false →
      resurrectable (st.knownOf current ev.orderId).1 (st.knownOf current ev.orderId).2 = false →
      jumps (st.knownOf current ev.orderId) ev.targetState = false)
    : (planStep current st ev).stats.warnedJumps = st.stats.warnedJumps := by
  rw [planStep]
  split
  · rfl
  · next hd =>
    cases hr : resurrectable (st.knownOf current ev.orderId).1
        (st.knownOf current ev.orderId).2 with
    | true => rfl
    | false =>
      rw [h (Bool.eq_false_iff.mpr hd) hr]
      rfl

/-- **A drain warns of no jump if the events of each of its orders are sequential.** -/
theorem foldl_planStep_warnedJumps {current : Dict String Known} {st : PlanState}
    (h : ∀ oid, eventsOf events oid ≠ [] → ∃ d e, d.stale = false ∧
      Tracks d (st.at current oid) e ∧ Sequential e (eventsOf events oid))
    : (events.foldl (planStep current) st).stats.warnedJumps = st.stats.warnedJumps := by
  induction events generalizing st with
  | nil => rfl
  | cons ev events ih =>
    have hown : eventsOf (ev :: events) ev.orderId = ev :: eventsOf events ev.orderId :=
      List.filter_cons_of_pos (decide_eq_true rfl)
    obtain ⟨d, e, hstale, htr, hseq⟩ := h ev.orderId (by rw [hown]; exact List.cons_ne_nil _ _)
    rw [hown] at hseq
    obtain ⟨hstate, hadv, hdrop⟩ := htr.known_spec (htr.visible hstale)
    rw [List.foldl_cons, ih, planStep_warnedJumps]
    · intro hd hr
      have hd' : drops e.known ev.targetState = false := (hdrop _).symm.trans hd
      have hs : (st.knownOf current ev.orderId).1 = some e.state := hstate
      rw [jumps, hs]
      refine decide_eq_false fun hj ↦ hj.2 ?_
      exact hseq.1 hd' (hadv.symm.trans hr) hj.1
    · intro oid hne
      rw [planStep_at]
      by_cases ho : ev.orderId = oid
      · subst ho
        rw [if_pos rfl]
        exact ⟨d, e.receive ev, hstale, htr.step (htr.visible hstale) ev, hseq.2⟩
      · have hskip : eventsOf (ev :: events) oid = eventsOf events oid :=
          List.filter_cons_of_neg (by simpa using ho)
        rw [if_neg ho]
        rw [← hskip] at hne ⊢
        exact h oid hne

theorem applyParsed_warnedJumps (w : OrderBatchWriter) {orders : Orders}
    (h : ∀ oid, eventsOf events oid ≠ [] → ∃ d, orders.get? oid = some d ∧ d.stale = false ∧
      Sequential d (eventsOf events oid))
    : (w.applyParsed .complete orders events).2.warnedJumps = 0 := by
  refine foldl_planStep_warnedJumps fun oid hne ↦ ?_
  obtain ⟨d, hd, hstale, hseq⟩ := h oid hne
  refine ⟨d, d, hstale, ?_, hseq⟩
  have hread := currentStates_complete hd hne
  have hknown : PlanState.at (currentStates .complete orders events)
      { merged := Dict.empty, effective := Dict.empty, resurrected := []
        stats := { parsed := events.length } } oid =
      { known := d.known, slot := none, revived := false } := by
    show OrderFold.mk (((currentStates .complete orders events).get? oid).getD (none, none))
      none false = _
    rw [hread, Option.getD_some]
  rw [hknown]
  exact Tracks.start d

end OpenRide.OrderLifecycle
