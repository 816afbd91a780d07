import OpenRide.Lib.Machine
import OpenRide.Simulation.SleepingAgent

/-!
# The scheduler and its agents

The joint machine: steps, broadcasts and replies interleave in any order.  The messages to an agent
and the replies of an agent each arrive in the order they were sent, after any delay.
-/

namespace OpenRide.Simulation

open Lib

/-- Where the scheduler is in its step. -/
inductive Phase where
  | idle
  /-- The barrier is set, the broadcast not yet sent. -/
  | begun (isFinal : Bool)
  /-- The broadcast is sent. -/
  | published (isFinal : Bool)
  | over
deriving DecidableEq

def Phase.isBegun : Phase → Bool
  | .begun _ => true
  | _ => false

def Phase.isPublished : Phase → Bool
  | .published _ => true
  | _ => false

/-- Where an agent is in its life. -/
inductive Stage where
  | absent | launched | booted
deriving DecidableEq

/-- The scheduler, the agents, and what is under way between them. -/
structure Sim where
  scheduler : Scheduler := {}
  phase : Phase := .idle
  stage : AgentId → Stage := fun _ ↦ .absent
  agents : AgentId → Agent := fun a ↦ { uniqueId := a }
  /-- Messages an agent has still to handle, oldest first. -/
  inbox : AgentId → List Message := fun _ ↦ []
  /-- Replies of an agent that are still under way, oldest first. -/
  outbox : AgentId → List Reply := fun _ ↦ []
  /-- The agents each step waits for. -/
  expectedAt : ℕ → Finset AgentId := fun _ ↦ ∅
  /-- Who swallowed the broadcast of which step. -/
  swallowed : List (AgentId × ℕ) := []
  /-- Who was removed and stashed as unresponsive in which step. -/
  stashed : List (AgentId × ℕ) := []

/-- What can happen next. -/
inductive SimEvent where
  | addAgent (a : AgentId)
  /-- An agent has started, or failed to, and says so. -/
  | boot (a : AgentId) (appTopic : Option Topic) (ready : Bool)
  /-- An event on its own topic, or the heartbeat, brings a sleeper back to the broadcast. -/
  | resubscribe (a : AgentId)
  /-- An agent that hears nothing shuts itself down. -/
  | orphan (a : AgentId)
  | beginStep (isFinal : Bool)
  | publish
  /-- The oldest reply of an agent under way arrives. -/
  | deliver (a : AgentId)
  /-- An agent handles its oldest message. -/
  | handle (a : AgentId) (turn : Turn)
  /-- The barrier resolves; the order of the sweep. -/
  | endStep (order : List AgentId)
deriving DecidableEq

namespace Sim

/-- The messages an agent gets on the broadcast of a step: on the final one a direct notice for each
wake topic that is its own, and the broadcast if it is subscribed. -/
def messagesTo (s : Sim) (isFinal : Bool) (a : AgentId) : List Message :=
  let notices := if isFinal then
      (s.scheduler.sleepWakeTopics.values.filter fun topic ↦ (s.agents a).appTopic = some topic).map
        fun _ ↦ { action := .shutdown, timeStep := s.scheduler.time, direct := true }
    else []
  let broadcast := if (s.agents a).broadcastSubscribed then
      [{ action := if isFinal then .shutdown else .step, timeStep := s.scheduler.time }]
    else []
  notices ++ broadcast

/-- The first reply of an agent. -/
def bootReply (a : AgentId) (ready : Bool) : Reply where
  agentId := a
  timeStep := some (-1)
  action := if ready then .ready else .error
  didStep := false
  sleepSteps := none
  wakeTopic := none

/-- Can the event happen? -/
def Enabled (s : Sim) : SimEvent → Prop
  | .addAgent a => s.stage a = .absent
  | .boot a _ _ => s.stage a = .launched
  | .resubscribe a => (s.agents a).sleepUntilStep ≠ none
  | .orphan a => s.stage a = .booted
  | .beginStep _ => s.phase = .idle
  | .publish => s.phase.isBegun = true
  | .deliver a => s.outbox a ≠ []
  | .handle a _ => s.stage a = .booted ∧ s.inbox a ≠ []
  | .endStep order => s.phase.isPublished = true ∧ order.Nodup ∧
      order.toFinset = s.scheduler.toReap

instance (s : Sim) : (e : SimEvent) → Decidable (s.Enabled e)
  | .addAgent a => inferInstanceAs (Decidable (s.stage a = _))
  | .boot a _ _ => inferInstanceAs (Decidable (s.stage a = _))
  | .resubscribe a => inferInstanceAs (Decidable ((s.agents a).sleepUntilStep ≠ none))
  | .orphan a => inferInstanceAs (Decidable (s.stage a = _))
  | .beginStep _ => inferInstanceAs (Decidable (s.phase = _))
  | .publish => inferInstanceAs (Decidable (s.phase.isBegun = true))
  | .deliver a => inferInstanceAs (Decidable (s.outbox a ≠ []))
  | .handle a _ => inferInstanceAs (Decidable (s.stage a = _ ∧ s.inbox a ≠ []))
  | .endStep order => inferInstanceAs (Decidable (s.phase.isPublished = true ∧ order.Nodup ∧ _))

/-- The state after an agent has handled a message. -/
def handled (s : Sim) (a : AgentId) (m : Message) (rest : List Message) (turn : Turn) : Sim :=
  let answer := (s.agents a).receive m turn
  { s with
    agents := Function.update s.agents a answer.1
    inbox := Function.update s.inbox a rest
    outbox := Function.update s.outbox a (s.outbox a ++ answer.2.toList)
    swallowed :=
      if (s.agents a).swallows m turn then (a, m.timeStep) :: s.swallowed else s.swallowed }

/-- The state after an event that can happen. -/
def next (s : Sim) : SimEvent → Sim
  | .addAgent a =>
    { s with
      scheduler := s.scheduler.addAgent a
      stage := Function.update s.stage a .launched }
  | .boot a appTopic ready =>
    { s with
      stage := Function.update s.stage a .booted
      agents := Function.update s.agents a
        { uniqueId := a, appTopic := appTopic, broadcastSubscribed := ready }
      outbox := Function.update s.outbox a (s.outbox a ++ [bootReply a ready]) }
  | .resubscribe a =>
    { s with
      agents := Function.update s.agents a { s.agents a with broadcastSubscribed := true } }
  | .orphan a =>
    { s with agents := Function.update s.agents a { s.agents a with isShutdown := true } }
  | .beginStep isFinal =>
    let scheduler := s.scheduler.beginStepBarrier
    { s with
      scheduler := scheduler
      phase := .begun isFinal
      expectedAt := Function.update s.expectedAt s.scheduler.time scheduler.expectedThisStep }
  | .publish =>
    match s.phase with
    | .begun isFinal =>
      { s with
        phase := .published isFinal
        inbox := fun a ↦ s.inbox a ++ s.messagesTo isFinal a }
    | _ => s
  | .deliver a =>
    match s.outbox a with
    | r :: rest =>
      { s with
        scheduler := s.scheduler.handleReply r
        outbox := Function.update s.outbox a rest }
    | [] => s
  | .handle a turn =>
    match s.inbox a with
    | m :: rest => s.handled a m rest turn
    | [] => s
  | .endStep order =>
    match s.phase with
    | .published isFinal =>
      { s with
        scheduler := s.scheduler.resolveStep order isFinal
        phase := if isFinal then .over else .idle
        stashed := s.stashed ++
          (order.filter s.scheduler.stashes).map fun a ↦ (a, s.scheduler.time) }
    | _ => s

/-- The joint machine. -/
def machine : Machine Sim SimEvent where
  step s e := if s.Enabled e then some (s.next e) else none

theorem step_eq {s t : Sim} {e : SimEvent} (h : machine.step s e = some t) :
    s.Enabled e ∧ t = s.next e := by
  simp only [machine, Option.ite_none_right_eq_some, Option.some_inj] at h
  exact ⟨h.1, h.2.symm⟩

/-- The replies the scheduler waits for arrive in time: no step is resolved while the reply of an
agent it waits for is under way, and none is given later. -/
def Timely (s : Sim) : SimEvent → Prop
  | .handle a turn => ∀ m ∈ (s.inbox a).head?, a ∈ s.expectedAt m.timeStep →
      m.timeStep < s.scheduler.time → ((s.agents a).receive m turn).2 = none
  | .endStep _ => ∀ a ∈ s.scheduler.expectedThisStep, ∀ r ∈ s.outbox a,
      r.timeStep ≠ some ↑s.scheduler.time
  | _ => True

end Sim

end OpenRide.Simulation
