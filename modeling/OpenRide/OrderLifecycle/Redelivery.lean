import Mathlib.Data.List.TakeWhile
import OpenRide.OrderLifecycle.Drains

/-!
# Delivering a drain twice

`applyEvents_twice_iff` compares delivering a batch of payloads twice with delivering it once.  Two
kinds of document tell them apart: one the sweep cancelled, when the batch starts with a cancel and
then hauls the order without finishing it, and a stale one that the batch both cancels and hauls,
the cancel being its first terminal event.

The two deliveries may fall back to different clocks, so the documents are compared on the state,
the truck and the marker, which never depend on a clock.
-/

namespace OpenRide.OrderLifecycle

open Lib

/-- The state, the truck and the cancel marker of a document. -/
structure OrderCore where
  state : OrderState
  truck : Option String
  cancelReason : Option String
deriving DecidableEq

def OrderDoc.core (d : OrderDoc) : OrderCore where
  state := d.state
  truck := d.truck
  cancelReason := d.cancelReason

/-- The same events, up to their clocks. -/
def SameEvents (es es' : List ParsedEvent) : Prop :=
  List.Forall₂ (fun a b ↦ a.orderId = b.orderId ∧ a.targetState = b.targetState ∧
    a.truckId = b.truckId) es es'

variable {es es' : List ParsedEvent}

theorem SameEvents.eventsOf (h : SameEvents es es') (oid : String) :
    SameEvents (eventsOf es oid) (eventsOf es' oid) := by
  induction h with
  | nil => exact List.Forall₂.nil
  | @cons a b as bs hab hrest ih =>
    rw [OrderLifecycle.eventsOf, OrderLifecycle.eventsOf, List.filter_cons, List.filter_cons,
      hab.1]
    split
    · exact List.Forall₂.cons hab ih
    · exact ih

variable {ev : ParsedEvent}

theorem SameEvents.mem (h : SameEvents es es') (hev : ev ∈ es) :
    ∃ ev' ∈ es', ev'.targetState = ev.targetState := by
  induction h with
  | nil => exact absurd hev List.not_mem_nil
  | @cons a b as bs hab _ ih =>
    rcases List.mem_cons.mp hev with rfl | hev
    · exact ⟨b, List.mem_cons_self, hab.2.1.symm⟩
    · obtain ⟨x, hx, he⟩ := ih hev
      exact ⟨x, List.mem_cons_of_mem _ hx, he⟩

theorem SameEvents.symm (h : SameEvents es es') : SameEvents es' es :=
  List.Forall₂.flip (h.imp fun _ _ h ↦ ⟨h.1.symm, h.2.1.symm, h.2.2.symm⟩)

/-! ## A batch that finishes nothing -/

/-- The state after open events. -/
def lastState (s : OrderState) (es : List ParsedEvent) : OrderState :=
  es.foldl (fun _ ev ↦ ev.targetState) s

/-- The truck after some events. -/
def lastTruck (t : Option String) (es : List ParsedEvent) : Option String :=
  es.foldl (fun t ev ↦ ev.newTruck <|> t) t

variable {d : OrderDoc}

theorem foldl_receive_open (hd : d.state.terminal = false)
    (hes : ∀ ev ∈ es, ev.targetState.terminal = false) :
    (es.foldl OrderDoc.receive d).core =
      { state := lastState d.state es, truck := lastTruck d.truck es
        cancelReason := d.cancelReason } ∧
      (es.foldl OrderDoc.receive d).state.terminal = false := by
  induction es generalizing d with
  | nil => exact ⟨rfl, hd⟩
  | cons ev es ih =>
    obtain ⟨h1, h2, h3⟩ := receive_open hd ev
    obtain ⟨h4, h5⟩ := ih (d := d.receive ev) (h1 ▸ hes ev List.mem_cons_self)
      fun e he ↦ hes e (List.mem_cons_of_mem _ he)
    rw [h1, h2, h3] at h4
    exact ⟨h4, h5⟩

theorem SameEvents.lastState_twice (h : SameEvents es es') (s : OrderState) :
    lastState (lastState s es) es' = lastState s es := by
  have hany : ∀ s s', es ≠ [] → lastState s' es' = lastState s es := by
    induction h with
    | nil => exact fun s s' hne ↦ absurd rfl hne
    | @cons a b as bs hab hrest ih =>
      intro s s' _
      rw [lastState, List.foldl_cons, lastState, List.foldl_cons, hab.2.1]
      by_cases has : as = []
      · subst has
        obtain rfl := List.forall₂_nil_left_iff.mp hrest
        rfl
      · exact ih _ _ has
  by_cases hes : es = []
  · subst hes
    obtain rfl := List.forall₂_nil_left_iff.mp h
    rfl
  · exact hany s _ hes

theorem lastTruck_eq (t : Option String) (es : List ParsedEvent) :
    lastTruck t es = (lastTruck none es <|> t) := by
  induction es generalizing t with
  | nil => rfl
  | cons ev es ih =>
    have h1 : lastTruck t (ev :: es) = lastTruck (ev.newTruck <|> t) es := rfl
    have h2 : lastTruck none (ev :: es) = lastTruck (ev.newTruck <|> none) es := rfl
    rw [h1, h2, ih, ih (ev.newTruck <|> none)]
    cases lastTruck none es <;> cases ev.newTruck <;> rfl

theorem SameEvents.lastTruck_eq (h : SameEvents es es') (t : Option String) :
    lastTruck t es' = lastTruck t es := by
  induction h generalizing t with
  | nil => rfl
  | @cons a b as bs hab _ ih =>
    have hnew : b.newTruck = a.newTruck := by
      rw [ParsedEvent.newTruck, ParsedEvent.newTruck, hab.2.1, hab.2.2]
    rw [lastTruck, List.foldl_cons, lastTruck, List.foldl_cons, hnew]
    exact ih _

/-- **Open events are idempotent** on an open document. -/
theorem foldl_receive_open_twice (hd : d.state.terminal = false) (h : SameEvents es es')
    (hes : ∀ ev ∈ es, ev.targetState.terminal = false) :
    (es'.foldl OrderDoc.receive (es.foldl OrderDoc.receive d)).core =
      (es.foldl OrderDoc.receive d).core := by
  have hes' : ∀ ev ∈ es', ev.targetState.terminal = false := by
    intro ev hev
    obtain ⟨x, hx, he⟩ := h.symm.mem hev
    exact he ▸ hes x hx
  obtain ⟨hc, ho⟩ := foldl_receive_open hd hes
  obtain ⟨hc', -⟩ := foldl_receive_open ho hes'
  obtain ⟨hst, htr, hcr⟩ := OrderCore.mk.inj hc
  rw [hc', hc, OrderCore.mk.injEq, hst, htr, hcr]
  refine ⟨h.lastState_twice _, ?_, rfl⟩
  rw [h.lastTruck_eq, lastTruck_eq (lastTruck d.truck es), lastTruck_eq d.truck]
  cases lastTruck none es <;> rfl

/-- Open events followed by a terminal one leave an unmarked document hard terminal. -/
theorem foldl_receive_terminal (hd : d.state.terminal = false)
    (hm : d.cancelReason ≠ some sweepCancelReason) (hes : ∃ ev ∈ es, ev.targetState.terminal = true)
    : (es.foldl OrderDoc.receive d).writable = false := by
  induction es generalizing d with
  | nil =>
    obtain ⟨ev, hev, -⟩ := hes
    exact absurd hev List.not_mem_nil
  | cons ev es ih =>
    obtain ⟨h1, -, h3⟩ := receive_open hd ev
    rw [List.foldl_cons]
    by_cases ht : ev.targetState.terminal = true
    · have hw := not_writable_of_unmarked (d := d.receive ev) (h1 ▸ ht) (h3 ▸ hm)
      rw [foldl_receive_of_not_writable hw]
      exact hw
    · refine ih (by rw [h1]; exact Bool.eq_false_iff.mpr ht) (h3 ▸ hm) ?_
      obtain ⟨x, hx, hxt⟩ := hes
      rcases List.mem_cons.mp hx with rfl | hx
      · exact absurd hxt ht
      · exact ⟨x, hx, hxt⟩

/-! ## The two ways a second delivery shows -/

/-- The events after the leading cancels. -/
def afterCancels (es : List ParsedEvent) : List ParsedEvent :=
  es.dropWhile fun ev ↦ ev.targetState = .cancelled

/-- The batch starts with a cancel and then hauls the order without finishing it. -/
def cancelThenOpenHaul (es : List ParsedEvent) : Bool :=
  es.head?.any (fun ev ↦ ev.targetState = .cancelled) && !(afterCancels es).isEmpty &&
    (afterCancels es).all fun ev ↦ !ev.targetState.terminal

/-- The first terminal event is a cancel, and the batch also hauls the order. -/
def cancelAndHaul (es : List ParsedEvent) : Bool :=
  (es.find? fun ev ↦ ev.targetState.terminal).any (fun ev ↦ ev.targetState = .cancelled) &&
    es.any fun ev ↦ ev.targetState ≠ .cancelled

/-- A second delivery shows on this document. -/
def showsTwice (d : OrderDoc) (es : List ParsedEvent) : Bool :=
  (d.advisory && cancelThenOpenHaul es) || (d.stale && cancelAndHaul es)

theorem foldl_receive_afterCancels (ha : d.advisory = true) (es : List ParsedEvent) :
    es.foldl OrderDoc.receive d = (afterCancels es).foldl OrderDoc.receive d := by
  induction es with
  | nil => rfl
  | cons ev es ih =>
    rw [afterCancels, List.dropWhile_cons]
    split
    · next hc =>
      rw [List.foldl_cons, receive_cancel_of_advisory ha (of_decide_eq_true hc)]
      exact ih
    · rfl

variable {rest : List ParsedEvent}

theorem afterCancels_head (h : afterCancels es = ev :: rest) : ev.targetState ≠ .cancelled := by
  intro hc
  have hd := List.head?_dropWhile_not (fun ev : ParsedEvent ↦ decide (ev.targetState = .cancelled))
    es
  rw [afterCancels] at h
  rw [h] at hd
  simp [hc] at hd

/-- A batch that revives a sweep-cancelled order and finishes it leaves a hard terminal document. -/
theorem not_writable_of_finished (ha : d.advisory = true) (hne : ev.targetState ≠ .cancelled)
    (hex : ∃ x ∈ ev :: rest, x.targetState.terminal = true) :
    (rest.foldl OrderDoc.receive (d.receive ev)).writable = false := by
  obtain ⟨h1, -, h3⟩ := receive_of_writable (writable_of_advisory ha) fun _ ↦ hne
  rw [ha, if_pos rfl] at h3
  by_cases ht : ev.targetState.terminal = true
  · have hw' : (d.receive ev).writable = false :=
      not_writable_of_unmarked (h1 ▸ ht) (by rw [h3]; simp)
    rw [foldl_receive_of_not_writable hw']
    exact hw'
  · refine foldl_receive_terminal (by rw [h1]; exact Bool.eq_false_iff.mpr ht)
      (by rw [h3]; simp) ?_
    obtain ⟨x, hx, hxt⟩ := hex
    rcases List.mem_cons.mp hx with rfl | hx
    · exact absurd hxt ht
    · exact ⟨x, hx, hxt⟩

/-- A batch that starts with a cancel closes an open order that bears no mark of the sweep. -/
theorem foldl_receive_cancel_ne {u : OrderDoc} (hopen : u.state.terminal = false)
    (hmark : u.cancelReason = none) (hc : ev.targetState = .cancelled) (rest : List ParsedEvent) :
    ((ev :: rest).foldl OrderDoc.receive u).core ≠ u.core := by
  intro heq
  obtain ⟨g1, -, g3⟩ := receive_open hopen ev
  have hhard : (u.receive ev).writable = false :=
    not_writable_of_unmarked (by rw [g1, hc]; rfl) (by rw [g3, hmark]; simp)
  rw [List.foldl_cons, foldl_receive_of_not_writable hhard] at heq
  have hstate : (u.receive ev).state = u.state := congrArg OrderCore.state heq
  rw [← hstate, g1, hc] at hopen
  cases hopen

/-- A batch of open events that revives a sweep-cancelled order leaves nothing for its second
delivery to do. -/
theorem foldl_receive_revive_twice (ha : d.advisory = true) (h : SameEvents (ev :: rest) es')
    (hne : ev.targetState ≠ .cancelled) (hopen : ∀ x ∈ ev :: rest, x.targetState.terminal = false) :
    (es'.foldl OrderDoc.receive (rest.foldl OrderDoc.receive (d.receive ev))).core =
      (rest.foldl OrderDoc.receive (d.receive ev)).core := by
  obtain ⟨h1, h2, h3⟩ := receive_of_writable (writable_of_advisory ha) fun _ ↦ hne
  have hd : (d.receive ev).state.terminal = false := h1 ▸ hopen ev List.mem_cons_self
  obtain ⟨hcore, hfin⟩ := foldl_receive_open hd fun x hx ↦ hopen x (List.mem_cons_of_mem _ hx)
  have hes' : ∀ x ∈ es', x.targetState.terminal = false := by
    intro x hx
    obtain ⟨y, hy, he⟩ := h.symm.mem hx
    exact he ▸ hopen y hy
  obtain ⟨hcore', -⟩ := foldl_receive_open hfin hes'
  obtain ⟨hst, htr, hcr⟩ := OrderCore.mk.inj hcore
  have hlast : lastState d.state (ev :: rest) = lastState (d.receive ev).state rest := by
    rw [h1]
    rfl
  rw [hcore', hcore, OrderCore.mk.injEq, hst, htr, hcr, ← hlast]
  refine ⟨h.lastState_twice _, ?_, rfl⟩
  have htruck : lastTruck (d.receive ev).truck rest = lastTruck d.truck (ev :: rest) := by
    rw [h2]
    rfl
  rw [htruck, h.lastTruck_eq, lastTruck_eq (lastTruck d.truck (ev :: rest)), lastTruck_eq d.truck]
  cases lastTruck none (ev :: rest) <;> rfl

/-- A sweep-cancelled document: the second delivery shows exactly when the batch starts with a
cancel and leaves the order open. -/
theorem twice_advisory (ha : d.advisory = true) (h : SameEvents es es') :
    (es'.foldl OrderDoc.receive (es.foldl OrderDoc.receive d)).core =
      (es.foldl OrderDoc.receive d).core ↔ cancelThenOpenHaul es = false := by
  cases hr : afterCancels es with
  | nil =>
    -- nothing but cancels: nothing happens in either delivery
    have hall : ∀ ev ∈ es, ev.targetState = .cancelled := fun ev hev ↦
      of_decide_eq_true (List.dropWhile_eq_nil_iff.mp hr ev hev)
    have hall' : ∀ ev ∈ es', ev.targetState = .cancelled := by
      intro ev hev
      obtain ⟨x, hx, he⟩ := h.symm.mem hev
      exact he ▸ hall x hx
    rw [foldl_receive_cancels ha hall, foldl_receive_cancels ha hall', cancelThenOpenHaul, hr]
    simp
  | cons ev rest =>
    have hne := afterCancels_head hr
    rw [foldl_receive_afterCancels ha es, hr, List.foldl_cons]
    by_cases hopen : ∀ x ∈ ev :: rest, x.targetState.terminal = false
    · cases es with
      | nil => cases hr
      | cons e es =>
        obtain ⟨e', es₂, rfl⟩ : ∃ e' es₂, es' = e' :: es₂ := by
          cases h with | cons _ _ => exact ⟨_, _, rfl⟩
        have he' : e'.targetState = e.targetState := by
          cases h with | cons hab _ => exact hab.2.1.symm
        by_cases hc : e.targetState = .cancelled
        · -- the second delivery starts by cancelling the order it had left open
          have hbad : cancelThenOpenHaul (e :: es) = true := by
            rw [cancelThenOpenHaul, hr]
            simp only [List.head?_cons, Option.any_some, hc, decide_true, List.isEmpty_cons,
              Bool.not_false, Bool.and_true, Bool.true_and, List.all_eq_true, Bool.not_eq_true']
            exact hopen
          obtain ⟨h1, -, h3⟩ := receive_of_writable (writable_of_advisory ha) fun _ ↦ hne
          rw [ha, if_pos rfl] at h3
          have hd : (d.receive ev).state.terminal = false := h1 ▸ hopen ev List.mem_cons_self
          obtain ⟨-, hfin⟩ := foldl_receive_open hd fun x hx ↦ hopen x (List.mem_cons_of_mem _ hx)
          rw [hbad]
          exact iff_of_false (foldl_receive_cancel_ne hfin (foldl_receive_cancelReason_none h3 rest)
            (he'.trans hc) es₂) (by simp)
        · -- no leading cancel: all the events are open
          have hnone : afterCancels (e :: es) = e :: es := by
            rw [afterCancels, List.dropWhile_cons_of_neg (by simpa using hc)]
          obtain ⟨rfl, rfl⟩ := List.cons.inj (hnone.symm.trans hr)
          have hgood : cancelThenOpenHaul (e :: es) = false := by
            rw [cancelThenOpenHaul]
            simp [hc]
          rw [hgood]
          exact iff_of_true (foldl_receive_revive_twice ha h hne hopen) rfl
    · -- the batch finishes the order: hard terminal from there on
      have hex : ∃ x ∈ ev :: rest, x.targetState.terminal = true := by
        by_contra hno
        exact hopen fun x hx ↦ Bool.eq_false_iff.mpr fun ht ↦ hno ⟨x, hx, ht⟩
      rw [foldl_receive_of_not_writable (not_writable_of_finished ha hne hex)]
      refine iff_of_true rfl ?_
      obtain ⟨x, hx, hxt⟩ := hex
      rw [cancelThenOpenHaul, hr, Bool.and_eq_false_iff]
      refine Or.inr (Bool.eq_false_iff.mpr fun hall ↦ ?_)
      have := List.all_eq_true.mp hall x hx
      rw [hxt] at this
      cases this

/-- An open document without the marker is never told apart. -/
theorem twice_open (hd : d.state.terminal = false) (hm : d.cancelReason ≠ some sweepCancelReason)
    (h : SameEvents es es') :
    (es'.foldl OrderDoc.receive (es.foldl OrderDoc.receive d)).core =
      (es.foldl OrderDoc.receive d).core := by
  by_cases hopen : ∀ x ∈ es, x.targetState.terminal = false
  · exact foldl_receive_open_twice hd h hopen
  · have hex : ∃ x ∈ es, x.targetState.terminal = true := by
      by_contra hno
      exact hopen fun x hx ↦ Bool.eq_false_iff.mpr fun ht ↦ hno ⟨x, hx, ht⟩
    rw [foldl_receive_of_not_writable (foldl_receive_terminal hd hm hex)]

/-- The first terminal event of a batch, and the open ones before it. -/
theorem find?_terminal_cases (es : List ParsedEvent) :
    (∀ x ∈ es, x.targetState.terminal = false) ∨
      ∃ pre ev post, es = pre ++ ev :: post ∧ (∀ x ∈ pre, x.targetState.terminal = false) ∧
        ev.targetState.terminal = true ∧
        es.find? (fun ev ↦ ev.targetState.terminal) = some ev := by
  cases hf : es.find? fun ev ↦ ev.targetState.terminal with
  | none =>
    exact Or.inl fun x hx ↦ Bool.eq_false_iff.mpr (List.find?_eq_none.mp hf x hx)
  | some ev =>
    obtain ⟨ht, pre, post, rfl, hpre⟩ := List.find?_eq_some_iff_append.mp hf
    exact Or.inr ⟨pre, ev, post, rfl, fun x hx ↦ by simpa using hpre x hx, ht, rfl⟩

variable {runId : String}

/-- A drain on a stale document whose first terminal event is a cancel: the fold stops there, and
the document is left cancelled under the marker. -/
theorem drain_stale_cancel (hrun : d.runId = runId) (hs : d.stale = true)
    {pre post : List ParsedEvent} (hpre : ∀ x ∈ pre, x.targetState.terminal = false)
    (hev : ev.targetState = .cancelled) :
    d.drain runId (pre ++ ev :: post) = (pre ++ [ev]).foldl OrderDoc.receive d ∧
      ((pre ++ [ev]).foldl OrderDoc.receive d).advisory = true := by
  obtain ⟨hd, hreason⟩ := stale_iff.mp hs
  have hno : haulAfterCancel (pre ++ [ev]) = false := by
    rw [haulAfterCancel_append_of_open hpre, haulAfterCancel, if_pos hev]
    rfl
  obtain ⟨hcore, hopen⟩ := foldl_receive_open hd hpre
  obtain ⟨h1, -, h3⟩ := receive_open hopen ev
  have hmark : (pre.foldl OrderDoc.receive d).cancelReason = some sweepCancelReason :=
    (OrderCore.mk.inj hcore).2.2.trans hreason
  have hadv : ((pre ++ [ev]).foldl OrderDoc.receive d).advisory = true := by
    rw [List.foldl_append, List.foldl_cons, List.foldl_nil]
    exact advisory_iff.mpr ⟨h1.trans hev, h3.trans hmark⟩
  have htr := (foldl_stale hs (Tracks.start d) hd (pre ++ [ev])).1 hno
  -- the fold knows a terminal state and no marker, so it drops the rest of the batch
  have hk : ((pre ++ [ev]).foldl OrderFold.step
      { known := d.known, slot := none, revived := false }).known = (some .cancelled, none) := by
    cases hslot : ((pre ++ [ev]).foldl OrderFold.step
        { known := d.known, slot := none, revived := false }).slot with
    | none =>
      have heq := (htr.fresh hslot).2
      rw [heq] at hadv
      rw [advisory_of_not_terminal hd] at hadv
      exact absurd hadv Bool.false_ne_true
    | some s =>
      obtain ⟨-, he, hknown, -⟩ := htr.folded s hslot
      have hst : s.state = .cancelled := by
        have := (advisory_iff.mp hadv).1
        rw [he] at this
        exact this
      rw [hknown, hst]
  refine ⟨?_, hadv⟩
  rw [OrderDoc.drain, foldOrder, show pre ++ ev :: post = (pre ++ [ev]) ++ post by simp,
    List.foldl_append, foldl_step_of_terminal hk rfl]
  exact htr.applyFold hrun

/-- A stale document: the second delivery shows exactly when the batch both cancels and hauls the
order, the cancel being its first terminal event. -/
theorem twice_stale (hrun : d.runId = runId) (hs : d.stale = true) (h : SameEvents es es') :
    ((d.drain runId es).drain runId es').core = (d.drain runId es).core ↔
      cancelAndHaul es = false := by
  obtain ⟨hd, hreason⟩ := stale_iff.mp hs
  rcases find?_terminal_cases es with hopen | ⟨pre, ev, post, hes, hpre, ht, hfind⟩
  · have hno : haulAfterCancel es = false := by
      have := haulAfterCancel_append_of_open hopen []
      rwa [List.append_nil] at this
    have hopen' : ∀ x ∈ es', x.targetState.terminal = false := by
      intro x hx
      obtain ⟨y, hy, he⟩ := h.symm.mem hx
      exact he ▸ hopen y hy
    have hno' : haulAfterCancel es' = false := by
      have := haulAfterCancel_append_of_open hopen' []
      rwa [List.append_nil] at this
    have hgood : cancelAndHaul es = false := by
      rw [cancelAndHaul, List.find?_eq_none.mpr fun x hx ↦ by rw [hopen x hx]; simp]
      rfl
    rw [drain_eq hrun fun _ ↦ hno,
      drain_eq ((foldl_receive_runId d es).trans hrun) fun _ ↦ hno', hgood]
    exact iff_of_true (foldl_receive_open_twice hd h hopen) rfl
  · by_cases hc : ev.targetState = .cancelled
    · obtain ⟨honce, hadv⟩ := drain_stale_cancel hrun hs hpre hc
      have hcr : (d.drain runId es).cancelReason = some sweepCancelReason := by
        rw [hes, honce]
        exact (advisory_iff.mp hadv).2
      have hadv' : (d.drain runId es).advisory = true := by rw [hes, honce]; exact hadv
      have hrun' : (d.drain runId es).runId = runId := by
        rw [hes, honce, foldl_receive_runId]
        exact hrun
      have hns : (d.drain runId es).stale = false :=
        Bool.eq_false_iff.mpr fun hst ↦ by
          rw [advisory_of_not_terminal (stale_iff.mp hst).1] at hadv'
          exact absurd hadv' Bool.false_ne_true
      have hcond : cancelAndHaul es = es.any fun ev ↦ ev.targetState ≠ .cancelled := by
        rw [cancelAndHaul, hfind, Option.any_some, hc]
        rfl
      rw [hcond, drain_eq_foldl_receive hrun' hns]
      constructor
      · intro heq
        by_contra hany
        obtain ⟨x, hx, hxne⟩ := List.any_eq_true.mp (Bool.not_eq_false _ ▸ hany)
        obtain ⟨y, hy, he⟩ := h.mem hx
        have hnone := foldl_receive_revived hadv'
          ⟨y, hy, he ▸ of_decide_eq_true hxne⟩
        have hmark := congrArg OrderCore.cancelReason heq
        exact absurd (hnone.symm.trans (hmark.trans hcr)) (by simp)
      · intro hany
        rw [foldl_receive_cancels hadv' fun x hx ↦ ?_]
        obtain ⟨y, hy, he⟩ := h.symm.mem hx
        rw [← he]
        simpa using List.any_eq_false.mp hany y hy
    · have hno : haulAfterCancel es = false := by
        rw [hes, haulAfterCancel_append_of_open hpre, haulAfterCancel, if_neg hc, if_pos ht]
      have hgood : cancelAndHaul es = false := by
        rw [cancelAndHaul, hfind, Option.any_some, decide_eq_false hc]
        rfl
      have hhard : (es.foldl OrderDoc.receive d).writable = false := by
        obtain ⟨-, hopen⟩ := foldl_receive_open hd hpre
        obtain ⟨h1, -, -⟩ := receive_open hopen ev
        have hw : ((pre.foldl OrderDoc.receive d).receive ev).writable = false :=
          not_writable_iff.mpr ⟨h1 ▸ ht, Bool.eq_false_iff.mpr fun ha ↦
            hc (h1 ▸ (advisory_iff.mp ha).1)⟩
        rw [hes, List.foldl_append, List.foldl_cons, foldl_receive_of_not_writable hw]
        exact hw
      have hns : (es.foldl OrderDoc.receive d).stale = false :=
        Bool.eq_false_iff.mpr fun hst ↦ by
          rw [writable_of_not_terminal (stale_iff.mp hst).1] at hhard
          cases hhard
      rw [drain_eq hrun fun _ ↦ hno,
        drain_eq_foldl_receive ((foldl_receive_runId d es).trans hrun) hns,
        foldl_receive_of_not_writable hhard, hgood]
      exact iff_of_true rfl rfl

/-- **A second delivery shows on a document exactly when `showsTwice` says so.** -/
theorem drain_twice_iff (hrun : d.runId = runId) (h : SameEvents es es') :
    ((d.drain runId es).drain runId es').core = (d.drain runId es).core ↔
      showsTwice d es = false := by
  cases hs : d.stale with
  | true =>
    have ha : d.advisory = false := advisory_of_not_terminal (stale_iff.mp hs).1
    rw [twice_stale hrun hs h, showsTwice, ha, hs]
    rfl
  | false =>
    have hns : (es.foldl OrderDoc.receive d).stale = false :=
      Bool.eq_false_iff.mpr fun hst ↦ by
        rw [(stale_of_foldl_receive hst).1] at hs
        cases hs
    rw [drain_eq_foldl_receive hrun hs,
      drain_eq_foldl_receive ((foldl_receive_runId d es).trans hrun) hns, showsTwice, hs,
      Bool.false_and, Bool.or_false]
    cases ha : d.advisory with
    | true =>
      exact twice_advisory ha h
    | false =>
      refine iff_of_true ?_ rfl
      cases hw : d.writable with
      | false => rw [foldl_receive_of_not_writable hw, foldl_receive_of_not_writable hw]
      | true =>
        have hd : d.state.terminal = false := by
          rw [← Bool.not_eq_true]
          intro ht
          rw [not_writable_iff.mpr ⟨ht, ha⟩] at hw
          cases hw
        exact twice_open hd (fun hm ↦ by rw [stale_iff.mpr ⟨hd, hm⟩] at hs; cases hs) h

/-! ## Delivering payloads twice -/

/-- Another fallback clock changes nothing but clocks. -/
theorem parseEvent_fallback (strToTime : String → Option ℤ) (c c' : ℤ) (p : Option Payload) :
    (parseEvent strToTime c p = none ∧ parseEvent strToTime c' p = none) ∨
      ∃ a b, parseEvent strToTime c p = some a ∧ parseEvent strToTime c' p = some b ∧
        a.orderId = b.orderId ∧ a.targetState = b.targetState ∧ a.truckId = b.truckId := by
  cases p with
  | none => exact Or.inl ⟨rfl, rfl⟩
  | some p =>
    simp only [parseEvent, Option.bind_eq_bind, Option.bind_some]
    cases (orElseTruthy p.data.event p.event).filter (· ≠ "") with
    | none => exact Or.inl ⟨rfl, rfl⟩
    | some event =>
      simp only [Option.bind_some]
      cases eventToState event with
      | none => exact Or.inl ⟨rfl, rfl⟩
      | some target =>
        cases (orElseTruthy p.data.orderId p.orderId).filter (· ≠ "") with
        | none => exact Or.inl ⟨rfl, rfl⟩
        | some orderId => exact Or.inr ⟨_, _, rfl, rfl, rfl, rfl, rfl⟩

theorem parsedEvents_sameEvents (strToTime : String → Option ℤ) (c c' : ℤ)
    (payloads : List (Option Payload)) :
    SameEvents (parsedEvents strToTime c payloads) (parsedEvents strToTime c' payloads) := by
  induction payloads with
  | nil => exact List.Forall₂.nil
  | cons p payloads ih =>
    rw [parsedEvents, parsedEvents, List.filterMap_cons, List.filterMap_cons]
    rcases parseEvent_fallback strToTime c c' p with ⟨h, h'⟩ | ⟨a, b, h, h', hab⟩
    · rw [h, h']
      exact ih
    · rw [h, h']
      exact List.Forall₂.cons hab ih

/-- **A batch may be delivered twice exactly when `showsTwice` holds of none of its documents**,
the read completing both times. -/
theorem applyEvents_twice_iff (w : OrderBatchWriter) (strToTime : String → Option ℤ)
    (orders : Orders) (payloads : List (Option Payload)) (c c' : ℤ) :
    (∀ oid, ((w.applyEvents strToTime .complete
          (w.applyEvents strToTime .complete orders payloads c).1 payloads c').1.get? oid).map
        OrderDoc.core =
      ((w.applyEvents strToTime .complete orders payloads c).1.get? oid).map OrderDoc.core) ↔
    ∀ oid d, orders.get? oid = some d → d.runId = w.runId →
      showsTwice d (eventsOf (parsedEvents strToTime c payloads) oid) = false := by
  have hsame := parsedEvents_sameEvents strToTime c c' payloads
  refine forall_congr' fun oid ↦ ?_
  rw [applyEvents_orders, applyEvents_orders, applyParsed_complete_get?,
    applyParsed_complete_get?]
  cases hd : orders.get? oid with
  | none => exact iff_of_true rfl fun d hd ↦ nomatch hd
  | some d =>
    simp only [Option.map_some, Option.some_inj, forall_eq']
    by_cases hrun : d.runId = w.runId
    · rw [drain_twice_iff hrun (hsame.eventsOf oid)]
      exact ⟨fun h _ ↦ h, fun h ↦ h hrun⟩
    · rw [drain_of_other_run hrun, drain_of_other_run hrun]
      exact iff_of_true rfl fun h ↦ absurd h hrun

/-- An order the sweep has cancelled. -/
def sweptOrders : Orders :=
  Dict.ofList [("o1", { runId := "run", state := .cancelled,
                        cancelReason := some sweepCancelReason })]

/-- A cancel and an assignment of the same order. -/
def cancelThenAssign : List (Option Payload) :=
  [some { data := { event := some "order_cancelled", orderId := some "o1" } },
   some { truckId := some "t1"
          data := { event := some "order_assigned_to_truck", orderId := some "o1" } }]

/-- Delivered once the batch revives the order, delivered twice it cancels it for good. -/
theorem twice_ne_once :
    (((OrderBatchWriter.applyEvents { runId := "run" } (fun _ ↦ none) .complete sweptOrders
        cancelThenAssign 0).1.get? "o1").map OrderDoc.core =
      some ⟨.assigned, some "t1", none⟩) ∧
    (((OrderBatchWriter.applyEvents { runId := "run" } (fun _ ↦ none) .complete
        (OrderBatchWriter.applyEvents { runId := "run" } (fun _ ↦ none) .complete sweptOrders
          cancelThenAssign 0).1 cancelThenAssign 0).1.get? "o1").map OrderDoc.core =
      some ⟨.cancelled, some "t1", none⟩) := by
  decide

end OpenRide.OrderLifecycle
