import OpenRide.OrderLifecycle.OrderMachine
import OpenRide.Lib.Machine
import OpenRide.Simulation.SleepingAgent

/-!
# The order agent and its bounded wait

An order that is published waits, `unassigned`, to be matched.  Its agent has nothing to do
meanwhile: it asks for a nap without end and leaves the step broadcast.  Two things bring it back: a
workflow event on its own topic, and the heartbeat, which subscribes it again when nothing has
reached it for half of `ORPHAN_TIMEOUT`.

The wait is bounded by `UNASSIGNED_ORDER_MAX_WAIT_STEPS`.  That it is over is noticed when a
broadcast is heard: the sleep gate lets it through and `exitingMarket` cancels the order
(`settled_of_heard`).  An order that is parked outside the broadcast notices nothing.  So the bound
holds in every run in which no order is parked when the first step after it is broadcast
(`wait_honoured_iff`), and a parked order may sleep on past it (`parked_past_wait`).
-/

namespace OpenRide.Simulation

open Lib OrderLifecycle

/-- What an order agent reads of its behavior and of `orsim_settings`. -/
structure OrderSettings where
  requestTimeStep : ℤ := 0
  stepsPerAction : ℤ := 1
  dormantStepsPerAction : ℤ := 48
  stepOnlyOnEvents : Bool := false
  stepInterval : ℤ := 30
  unassignedOrderMaxWaitSteps : ℤ := 0
  unassignedOrderSleepSteps : ℤ := -1
  simulationLengthInSteps : ℤ := 0
  postHorizonGraceSteps : ℤ := 60

/-- What the server and chance decide while a payload is processed. -/
structure OrderTurn where
  /-- `app.launch` returns. -/
  launches : Bool := true
  publishes : Bool := true
  /-- The response rate lets the agent act. -/
  acts : Bool := true
  /-- The transition a workflow event asks for is accepted. -/
  accepts : String → Bool := fun _ ↦ true
  cancels : Bool := true

/-- An order agent: its half of the sleep protocol, and its order as it knows it. -/
structure OrderAgent where
  agent : Agent
  active : Bool := false
  state : OrderState := .created
  /-- The events of workflow messages that were not handled yet. -/
  messageQueue : List String := []

namespace OrderAgent

variable (c : OrderSettings) (o : OrderAgent) (t : ℕ) (turn : OrderTurn)

/-- `_unassigned_overdue`. -/
def unassignedOverdue : Bool :=
  0 < c.unassignedOrderMaxWaitSteps ∧ c.unassignedOrderMaxWaitSteps < t - c.requestTimeStep ∧
    o.state = .unassigned

/-- `wake_signal_for_step`. -/
def wakeSignalForStep : Bool := !o.messageQueue.isEmpty || o.unassignedOverdue c t

/-- `entering_market`, `none` when launching raises. -/
def enteringMarket : Option OrderAgent :=
  if o.active = false ∧ c.requestTimeStep ≤ t then
    if turn.launches then
      let published := turn.publishes ∧ .unassigned ∈ adjacent o.state
      some { o with active := true, state := if published then .unassigned else o.state }
    else none
  else some o

/-- A workflow event is handled: the transition it asks for, if the server accepts it. -/
def onEvent (state : OrderState) (event : String) : OrderState :=
  match eventToState event with
  | some target => if target ∈ adjacent state ∧ turn.accepts event then target else state
  | none => state

/-- `consume_messages`. -/
def consumeMessages : OrderAgent :=
  { o with state := o.messageQueue.foldl (onEvent turn) o.state, messageQueue := [] }

/-- `step`, with whether the agent acted. -/
def stepApp : OrderAgent × Bool :=
  let stepsPerAction := max 1 c.stepsPerAction
  if t % stepsPerAction = 0 ∧ turn.acts then
    if c.stepOnlyOnEvents ∧ o.messageQueue = [] ∧ 0 < c.stepInterval * stepsPerAction then
      (o, false)
    else (o.consumeMessages turn, true)
  else (o, false)

/-- `exiting_market`, with whether the agent shuts down. -/
def exitingMarket : OrderAgent × Bool :=
  if o.state.terminal then (o, true)
  else if o.unassignedOverdue c t then
    ({ o with state := if turn.cancels then .cancelled else o.state }, true)
  else if c.simulationLengthInSteps ≠ 0 ∧
      (c.simulationLengthInSteps ≤ t ∧ o.state ∈ [OrderState.created, .unassigned] ∨
        c.simulationLengthInSteps + c.postHorizonGraceSteps ≤ t) then
    (o, true)
  else (o, false)

/-- `process_payload` of a step: the agent, whether it acted, and whether it shuts down.  `none`
when it raises. -/
def processPayload : Option (OrderAgent × Bool × Bool) :=
  if o.active = false ∧ t % max 1 c.dormantStepsPerAction ≠ 0 then some (o, false, false)
  else
    (o.enteringMarket c t turn).map fun o ↦
      let r := if o.active then o.stepApp c t turn else (o, false)
      let e := r.1.exitingMarket c t turn
      (e.1, r.2, e.2)

/-- `sleep_steps_hint`. -/
def sleepStepsHint : ℤ :=
  if o.active = false ∨ o.messageQueue ≠ [] ∨ o.state.terminal then 0
  else if o.state ≠ .unassigned ∨ c.unassignedOrderSleepSteps < 0 then -1
  else if c.simulationLengthInSteps ≠ 0 then
    max 0 (min c.unassignedOrderSleepSteps (c.simulationLengthInSteps - t))
  else max 0 c.unassignedOrderSleepSteps

/-- A message of the scheduler that reaches the agent. -/
def receive (m : Message) : OrderAgent :=
  let wakes := o.wakeSignalForStep c m.timeStep
  if m.action = .step ∧ o.agent.isShutdown = false ∧ o.agent.swallows m { wakes } = false then
    match o.processPayload c m.timeStep turn with
    | none => { o with agent := (o.agent.receive m { wakes, outcome := .raised }).1 }
    | some (o', didStep, ends) =>
      { o' with
        agent := (o.agent.receive m
          { wakes, outcome := .processed didStep (o'.sleepStepsHint c m.timeStep), ends }).1 }
  else { o with agent := (o.agent.receive m { wakes }).1 }

/-- A workflow event arrives on the agent's own topic. -/
def receiveEvent (event : String) : OrderAgent :=
  { o with
    messageQueue := o.messageQueue ++ [event]
    agent := if o.agent.sleepUntilStep ≠ none then { o.agent with broadcastSubscribed := true }
      else o.agent }

/-- `handle_heartbeat_failure`: whether nothing was heard for half of `ORPHAN_TIMEOUT`, and for all
of it. -/
def heartbeat (half full : Bool) : OrderAgent :=
  let agent := if o.agent.isShutdown = false ∧ o.agent.sleepUntilStep ≠ none ∧ half then
    { o.agent with broadcastSubscribed := true } else o.agent
  { o with agent := if agent.isShutdown = false ∧ full then { agent with isShutdown := true }
    else agent }

end OrderAgent

/-! ## The sleep gate -/

namespace Agent

variable {g : Agent} {m : Message} {turn : Turn}

/-- A step that is let through is processed by an agent that is awake. -/
theorem receive_step (turn : Turn) (haction : m.action = .step) (hshut : g.isShutdown = false)
    (hgate : g.swallows m turn = false) : ∃ subscribed,
      (g.receive m turn).1 = (step { g with
        broadcastSubscribed := subscribed, sleepUntilStep := none, currentTimeStep := m.timeStep }
        turn).1 ∧ (g.broadcastSubscribed = true ∨ m.direct = true → subscribed = true) := by
  have hhandle : ∀ b, (handleMessage { g with broadcastSubscribed := b } m turn).1 =
      (step { g with
        broadcastSubscribed := b, sleepUntilStep := none, currentTimeStep := m.timeStep }
        turn).1 := by
    intro b
    have hgate' : swallows { g with broadcastSubscribed := b } m turn = false := hgate
    rw [handleMessage, haction]
    rw [if_neg (by simp [hshut]), if_neg (by simp [hgate'])]
  rw [receive]
  split
  · exact ⟨true, hhandle true, fun _ ↦ rfl⟩
  · next hdirect => exact ⟨g.broadcastSubscribed, hhandle _, fun h ↦ h.resolve_right hdirect⟩

theorem isShutdown_step (g : Agent) (turn : Turn) : (g.step turn).1.isShutdown = turn.ends := by
  have hnap : ∀ (g : Agent) hint, (g.nap hint).isShutdown = g.isShutdown := by
    intro g hint
    rw [nap]
    split_ifs <;> rfl
  rw [step]
  split
  · rfl
  · split
    · rfl
    · rw [hnap]

/-- An agent that leaves the broadcast sleeps. -/
theorem asleep_step (h : g.broadcastSubscribed = true) :
    (g.step turn).1.broadcastSubscribed = false → (g.step turn).1.sleepUntilStep ≠ none := by
  rw [step]
  split
  · intro hsub
    exact absurd (h.symm.trans hsub) Bool.noConfusion
  · split
    · intro hsub
      exact absurd (h.symm.trans hsub) Bool.noConfusion
    · rw [nap]
      split
      · intro hsub
        exact absurd (h.symm.trans hsub) Bool.noConfusion
      · split
        · exact fun _ ↦ Option.some_ne_none _
        · intro hsub
          exact absurd (h.symm.trans hsub) Bool.noConfusion

/-- **An agent outside the broadcast sleeps**, whatever it receives. -/
theorem asleep_receive (hheard : g.broadcastSubscribed = true ∨ m.direct = true)
    (hout : (g.receive m turn).1.broadcastSubscribed = false) :
    (g.receive m turn).1.sleepUntilStep ≠ none := by
  have hhandle : ∀ g : Agent, g.broadcastSubscribed = true →
      (g.handleMessage m turn).1.broadcastSubscribed = false →
      (g.handleMessage m turn).1.sleepUntilStep ≠ none := by
    intro g hsub hout
    rw [handleMessage] at hout ⊢
    split at hout
    · split at hout
      · exact absurd (hsub.symm.trans hout) Bool.noConfusion
      · next hshut =>
        rw [if_neg hshut]
        split at hout
        · next hgate =>
          rw [if_pos hgate]
          obtain ⟨-, -, wake, hwake, -⟩ := swallows_iff.mp hgate
          split
          · exact fun h ↦ Option.some_ne_none wake (hwake.symm.trans h)
          · exact fun h ↦ Option.some_ne_none wake (hwake.symm.trans h)
        · next hgate =>
          rw [if_neg hgate]
          exact asleep_step (g := { g with sleepUntilStep := none, currentTimeStep := m.timeStep })
            hsub hout
    · exact absurd (hsub.symm.trans hout) Bool.noConfusion
  rw [receive] at hout ⊢
  split at hout
  · next hdirect =>
    rw [if_pos hdirect]
    exact hhandle _ rfl hout
  · next hdirect =>
    rw [if_neg hdirect]
    exact hhandle g (hheard.resolve_right hdirect) hout

end Agent

/-! ## A broadcast that is heard -/

namespace OrderAgent

variable {c : OrderSettings} {o o' : OrderAgent} {t : ℕ} {turn : OrderTurn} {didStep ends : Bool}

/-- The order does not wait any more: it is not unassigned, or its agent is shut down. -/
def Settled (o : OrderAgent) : Prop := o.agent.isShutdown = true ∨ o.state ≠ .unassigned

/-- What holds of every order agent. -/
structure Sound (o : OrderAgent) : Prop where
  launched : o.active = false → o.state ≠ .unassigned
  asleep : o.agent.broadcastSubscribed = false → o.agent.sleepUntilStep ≠ none

theorem unassignedOverdue_iff : o.unassignedOverdue c t = true ↔
    (0 < c.unassignedOrderMaxWaitSteps ∧ c.unassignedOrderMaxWaitSteps < t - c.requestTimeStep) ∧
      o.state = .unassigned := by
  rw [unassignedOverdue, decide_eq_true_iff, and_assoc]

/-- An agent that was not launched has an order that was not published. -/
theorem launched_enteringMarket (h : o.active = false → o.state ≠ .unassigned)
    (h' : o.enteringMarket c t turn = some o') : o'.active = false → o'.state ≠ .unassigned := by
  rw [enteringMarket] at h'
  split at h'
  · split at h'
    · rw [← Option.some.inj h']
      exact fun hactive ↦ Bool.noConfusion hactive
    · cases h'
  · rw [← Option.some.inj h']
    exact h

theorem active_stepApp : (o.stepApp c t turn).1.active = o.active := by
  rw [stepApp]
  split_ifs <;> rfl

/-- Leaving the market changes nothing, or ends the life of the agent. -/
theorem exitingMarket_cases (c : OrderSettings) (o : OrderAgent) (t : ℕ) (turn : OrderTurn) :
    ((o.exitingMarket c t turn).2 = true ∧ (o.exitingMarket c t turn).1.active = o.active ∧
      ((o.exitingMarket c t turn).1.state = .unassigned → o.state = .unassigned)) ∨
    o.exitingMarket c t turn = (o, false) ∧ o.unassignedOverdue c t = false := by
  rw [exitingMarket]
  split
  · exact Or.inl ⟨rfl, rfl, id⟩
  · split
    · next hover => exact Or.inl ⟨rfl, rfl, fun _ ↦ (unassignedOverdue_iff.mp hover).2⟩
    · next hover =>
      rw [Bool.not_eq_true] at hover
      split
      · exact Or.inl ⟨rfl, rfl, id⟩
      · exact Or.inr ⟨rfl, hover⟩

/-- **What processing a step does**: an agent that was not launched keeps its order unpublished, and
one that lives on has no order that is overdue. -/
theorem processPayload_spec (h : o.active = false → o.state ≠ .unassigned)
    (h' : o.processPayload c t turn = some (o', didStep, ends)) :
    (o'.active = false → o'.state ≠ .unassigned) ∧
      (ends = true ∨ o'.unassignedOverdue c t = false) := by
  rw [processPayload] at h'
  split at h'
  · next hdormant =>
    obtain ⟨rfl, -, -⟩ := Prod.mk.inj (Option.some.inj h')
    refine ⟨h, Or.inr ?_⟩
    rw [← Bool.not_eq_true, unassignedOverdue_iff]
    exact fun hover ↦ h hdormant.1 hover.2
  · obtain ⟨o₁, hentered, h'⟩ := Option.map_eq_some_iff.mp h'
    have hlaunched := launched_enteringMarket h hentered
    set r := if o₁.active then o₁.stepApp c t turn else (o₁, false) with hr
    have hacted : r.1.active = false → r.1.state ≠ .unassigned := by
      rw [hr]
      split
      · next hactive =>
        intro hidle
        rw [active_stepApp, hactive] at hidle
        cases hidle
      · exact hlaunched
    obtain ⟨rfl, hrest⟩ := Prod.mk.inj h'
    obtain ⟨-, rfl⟩ := Prod.mk.inj hrest
    rcases exitingMarket_cases c r.1 t turn with ⟨hends, hactive, hstate⟩ | ⟨hsame, hover⟩
    · exact ⟨fun hidle hwaits ↦ hacted (hactive ▸ hidle) (hstate hwaits), Or.inl hends⟩
    · rw [hsame]
      exact ⟨hacted, Or.inr hover⟩

theorem of_processPayload_eq_none (h : o.processPayload c t turn = none) : o.active = false := by
  rw [processPayload] at h
  split at h
  · cases h
  · rw [Option.map_eq_none_iff, enteringMarket] at h
    split at h
    · next hidle => exact hidle.1
    · cases h

/-- **A broadcast after the wait is over settles the order**, if it is heard. -/
theorem settled_of_heard (h : o.Sound) (hwait : 0 < c.unassignedOrderMaxWaitSteps)
    (hover : c.unassignedOrderMaxWaitSteps < t - c.requestTimeStep) :
    (o.receive c turn ⟨.step, t, false⟩).Settled := by
  rw [receive]
  split
  · next hgate =>
    obtain ⟨-, hshut, hgate⟩ := hgate
    split
    · next hraised => exact Or.inr (h.launched (of_processPayload_eq_none hraised))
    · next o' didStep ends hprocessed =>
      rcases (processPayload_spec h.launched hprocessed).2 with rfl | hnot
      · obtain ⟨subscribed, hagent, -⟩ := Agent.receive_step (g := o.agent)
          (m := ⟨.step, t, false⟩) ⟨o.wakeSignalForStep c t,
            .processed didStep (o'.sleepStepsHint c t), true⟩ rfl hshut hgate
        exact Or.inl ((congrArg Agent.isShutdown hagent).trans (Agent.isShutdown_step _ _))
      · refine Or.inr fun hwaits ↦ ?_
        rw [← Bool.not_eq_true, unassignedOverdue_iff] at hnot
        exact hnot ⟨⟨hwait, hover⟩, hwaits⟩
  · next hgate =>
    by_cases hshut : o.agent.isShutdown = true
    · refine Or.inl ?_
      rw [Agent.receive, if_neg Bool.false_ne_true, Agent.handleMessage]
      rw [if_pos hshut]
      exact hshut
    · refine Or.inr fun hwaits ↦ ?_
      rw [Bool.not_eq_true] at hshut
      have hswallows := Bool.eq_false_or_eq_true (o.agent.swallows ⟨.step, t, false⟩
        { wakes := o.wakeSignalForStep c t })
      rcases hswallows with hswallows | hswallows
      · obtain ⟨-, -, wake, -, -, hsleeps⟩ := Agent.swallows_iff.mp hswallows
        have hwakes : o.wakeSignalForStep c t = true := by
          have hoverdue : o.unassignedOverdue c t = true :=
            unassignedOverdue_iff.mpr ⟨⟨hwait, hover⟩, hwaits⟩
          rw [wakeSignalForStep, hoverdue, Bool.or_true]
        exact absurd (hwakes.symm.trans hsleeps) Bool.noConfusion
      · exact hgate ⟨rfl, hshut, hswallows⟩

/-- What holds of every order agent is kept by the messages that reach it. -/
theorem Sound.receive {m : Message} (h : o.Sound)
    (hheard : o.agent.broadcastSubscribed = true ∨ m.direct = true) :
    (o.receive c turn m).Sound := by
  rw [OrderAgent.receive]
  split
  · split
    · exact ⟨h.launched, Agent.asleep_receive hheard⟩
    · next o' didStep ends hprocessed =>
      exact ⟨(processPayload_spec h.launched hprocessed).1, Agent.asleep_receive hheard⟩
  · exact ⟨h.launched, Agent.asleep_receive hheard⟩

theorem Sound.receiveEvent (h : o.Sound) (event : String) : (o.receiveEvent event).Sound := by
  refine ⟨h.launched, ?_⟩
  rw [OrderAgent.receiveEvent]
  split
  · exact fun hout ↦ Bool.noConfusion hout
  · exact h.asleep

theorem Sound.heartbeat (h : o.Sound) (half full : Bool) : (o.heartbeat half full).Sound := by
  refine ⟨h.launched, ?_⟩
  have hwoken : ∀ agent : Agent, (agent.broadcastSubscribed = false → agent.sleepUntilStep ≠ none) →
      (if agent.isShutdown = false ∧ full then { agent with isShutdown := true }
        else agent).broadcastSubscribed = false →
      (if agent.isShutdown = false ∧ full then { agent with isShutdown := true }
        else agent).sleepUntilStep ≠ none := by
    intro agent hagent
    split
    · exact hagent
    · exact hagent
  refine hwoken _ ?_
  split
  · exact fun hout ↦ Bool.noConfusion hout
  · exact h.asleep

end OrderAgent

/-! ## Runs -/

/-- What happens around an order agent. -/
inductive OrderAgentEvent where
  /-- The next step is broadcast. -/
  | broadcast (turn : OrderTurn)
  | heartbeat (half full : Bool)
  | workflow (event : String)
  /-- The notice of the scheduler to a sleeper on the final step. -/
  | direct

/-- An order agent, and the step that was broadcast last. -/
structure OrderRun where
  order : OrderAgent
  time : ℕ

namespace OrderRun

variable (c : OrderSettings)

/-- The order agent in a run. -/
def machine : Machine OrderRun OrderAgentEvent where
  step s
    | .broadcast turn =>
      let order := if s.order.agent.broadcastSubscribed then
        s.order.receive c turn ⟨.step, s.time + 1, false⟩ else s.order
      some ⟨order, s.time + 1⟩
    | .heartbeat half full => some { s with order := s.order.heartbeat half full }
    | .workflow event => some { s with order := s.order.receiveEvent event }
    | .direct => some { s with order := s.order.receive c {} ⟨.shutdown, s.time, true⟩ }

/-- An agent that has booted. -/
def booted (uniqueId : AgentId) (time : ℕ) : OrderRun where
  order := { agent := { uniqueId := uniqueId, broadcastSubscribed := true } }
  time := time

/-- The order is parked: unassigned, and its agent sleeps outside the broadcast. -/
def Parked (s : OrderRun) : Prop :=
  s.order.agent.isShutdown = false ∧ s.order.state = .unassigned ∧
    s.order.agent.sleepUntilStep ≠ none ∧ s.order.agent.broadcastSubscribed = false

instance (s : OrderRun) : Decidable s.Parked := inferInstanceAs (Decidable (_ ∧ _))

variable {c} {s s' : OrderRun}

/-- The order is not left waiting: since the wait is over, it has been settled. -/
def Honoured (c : OrderSettings) (s : OrderRun) : Prop :=
  c.unassignedOrderMaxWaitSteps < s.time - c.requestTimeStep → s.order.Settled

/-- No order is parked when the first step after its wait is broadcast. -/
def HeardAtExpiry (c : OrderSettings) (s : OrderRun) : OrderAgentEvent → Prop
  | .broadcast _ =>
    (s.time + 1 : ℤ) = c.requestTimeStep + c.unassignedOrderMaxWaitSteps + 1 → ¬s.Parked
  | _ => True

instance (c : OrderSettings) (s : OrderRun) : (e : OrderAgentEvent) →
    Decidable (s.HeardAtExpiry c e)
  | .broadcast _ => inferInstanceAs (Decidable (_ → _))
  | .heartbeat _ _ | .workflow _ | .direct => isTrue trivial

/-- Outside the broadcast an agent that lives has a settled order, or a parked one. -/
theorem settled_or_parked (h : s.order.Sound)
    (hout : s.order.agent.broadcastSubscribed = false) : s.order.Settled ∨ s.Parked := by
  by_cases hshut : s.order.agent.isShutdown = true
  · exact Or.inl (Or.inl hshut)
  · by_cases hstate : s.order.state = .unassigned
    · exact Or.inr ⟨by simpa using hshut, hstate, h.asleep hout, hout⟩
    · exact Or.inl (Or.inr hstate)

theorem not_settled_of_parked (h : s.Parked) : ¬s.order.Settled := by
  rintro (hshut | hstate)
  · exact absurd (h.1.symm.trans hshut) Bool.noConfusion
  · exact hstate h.2.1

theorem sound_step {e : OrderAgentEvent} (h : s.order.Sound)
    (hs : (machine c).step s e = some s') : s'.order.Sound := by
  cases e with
  | broadcast turn =>
    cases hs
    split
    · next hsub => exact h.receive (Or.inl hsub)
    · exact h
  | heartbeat half full =>
    cases hs
    exact h.heartbeat half full
  | workflow event =>
    cases hs
    exact h.receiveEvent event
  | direct =>
    cases hs
    show (s.order.receive c {} ⟨.shutdown, s.time, true⟩).Sound
    exact h.receive (Or.inr rfl)

/-- **A step keeps the bound exactly when** it finds no order parked at the end of its wait. -/
theorem honoured_step_iff {e : OrderAgentEvent} (hwait : 0 < c.unassignedOrderMaxWaitSteps)
    (h : s.order.Sound) (hbound : s.Honoured c) (hs : (machine c).step s e = some s') :
    s'.Honoured c ↔ s.HeardAtExpiry c e := by
  cases e with
  | broadcast turn =>
    cases hs
    constructor
    · intro hkept hexpiry hparked
      refine not_settled_of_parked hparked ?_
      have hover := hkept (by dsimp only; push_cast; omega)
      rwa [if_neg (by rw [hparked.2.2.2]; exact Bool.false_ne_true)] at hover
    · intro hheard hover
      split
      · exact OrderAgent.settled_of_heard h hwait hover
      · next hout =>
        rcases settled_or_parked h (by simpa using hout) with hsettled | hparked
        · exact hsettled
        · by_cases hexpiry : (s.time + 1 : ℤ) =
              c.requestTimeStep + c.unassignedOrderMaxWaitSteps + 1
          · exact absurd hparked (hheard hexpiry)
          · push_cast at hover
            exact hbound (by omega)
  | heartbeat half full =>
    cases hs
    refine iff_of_true (fun hover ↦ ?_) trivial
    rcases hbound hover with hshut | hstate
    · refine Or.inl ?_
      simp [OrderAgent.heartbeat, hshut]
    · exact Or.inr hstate
  | workflow event =>
    cases hs
    refine iff_of_true (fun hover ↦ ?_) trivial
    rcases hbound hover with hshut | hstate
    · refine Or.inl ?_
      dsimp only [OrderAgent.receiveEvent]
      split
      · exact hshut
      · exact hshut
    · exact Or.inr hstate
  | direct =>
    cases hs
    refine iff_of_true (fun _ ↦ Or.inl ?_) trivial
    rfl

end OrderRun

open OrderRun in
/-- **An order is settled once its wait is over**, in every run in which no order is parked when the
first step after its wait is broadcast; and the broadcast that finds it parked leaves it so. -/
theorem wait_honoured_iff (c : OrderSettings) (hwait : 0 < c.unassignedOrderMaxWaitSteps)
    (uniqueId : AgentId) (time : ℕ) {s : OrderRun}
    (h : (OrderRun.machine c).Reach (HeardAtExpiry c) (booted uniqueId time) s) :
    s.Honoured c ∧ ∀ e s', (OrderRun.machine c).step s e = some s' →
      (s'.Honoured c ↔ s.HeardAtExpiry c e) := by
  have hinv : s.order.Sound ∧ s.Honoured c := by
    refine h.invariant (P := fun s ↦ s.order.Sound ∧ s.Honoured c)
      ⟨⟨fun _ ↦ by simp [booted], fun hout ↦ Bool.noConfusion hout⟩,
        fun _ ↦ Or.inr (by simp [booted])⟩ ?_
    rintro a e b ⟨hsound, hbound⟩ hheard hs
    exact ⟨sound_step hsound hs, (honoured_step_iff hwait hsound hbound hs).mpr hheard⟩
  exact ⟨hinv.2, fun e s' hs ↦ honoured_step_iff hwait hinv.1 hinv.2 hs⟩

/-! ## Parked orders -/

/-- An order that may wait for two steps, requested at the start. -/
def impatient : OrderSettings where
  dormantStepsPerAction := 1
  unassignedOrderMaxWaitSteps := 2

/-- No workflow event reaches the agent. -/
def OrderAgentEvent.Uneventful : OrderAgentEvent → Prop
  | workflow _ => False
  | _ => True

/-- The order is requested, published and parked, and the broadcast of step 4 finds it parked,
although its wait ended with step 2. -/
theorem parked_past_wait : ∃ s : OrderRun,
    (OrderRun.machine impatient).Reach (fun _ e ↦ e.Uneventful) (OrderRun.booted "order" 0) s ∧
      impatient.requestTimeStep + impatient.unassignedOrderMaxWaitSteps + 1 < (s.time + 1 : ℕ) ∧
      s.Parked := by
  have hexec : ((OrderRun.machine impatient).exec (OrderRun.booted "order" 0)
      ([{}, {}, {}].map OrderAgentEvent.broadcast)).map
        (fun s ↦ decide (s.time = 3 ∧ s.Parked)) = some true := by decide +kernel
  obtain ⟨s, hs, hread⟩ := Option.map_eq_some_iff.mp hexec
  obtain ⟨htime, hparked⟩ := of_decide_eq_true hread
  refine ⟨s, Machine.reach_of_exec _ hs fun _ e he ↦ ?_, ?_, hparked⟩
  · obtain ⟨turn, -, rfl⟩ := List.mem_map.mp he
    trivial
  · rw [htime]
    decide

/-- A heartbeat after the second step brings the order back, and the third cancels it. -/
theorem wait_honoured_refreshed : ∃ s : OrderRun, s.time = 3 ∧ s.order.state = .cancelled ∧
    s.Honoured impatient := by
  have hexec : ((OrderRun.machine impatient).execWhen (OrderRun.HeardAtExpiry impatient)
      (OrderRun.booted "order" 0) [.broadcast {}, .broadcast {}, .heartbeat true false,
        .broadcast {}]).map (fun s ↦ (s.time, s.order.state)) = some (3, .cancelled) := by
    decide +kernel
  obtain ⟨s, hs, hread⟩ := Option.map_eq_some_iff.mp hexec
  obtain ⟨htime, hstate⟩ := Prod.mk.inj hread
  exact ⟨s, htime, hstate,
    (wait_honoured_iff impatient (by decide) "order" 0 (Machine.reach_of_execWhen hs)).1⟩

end OpenRide.Simulation
