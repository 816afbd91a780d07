import OpenRide.Simulation.StepBarrier

/-!
# The agent's half of the sleep protocol

An agent answers every broadcast of the scheduler, except that it swallows step broadcasts while it
sleeps and while it is shut down.  What its own code does in a turn is given from outside: whether
an event woke it, whether its payload was processed, whether it ended its life, and the nap it asks
for.
-/

namespace OpenRide.Simulation

/-- What the scheduler asks for. -/
inductive MessageAction where
  | step | shutdown
deriving DecidableEq

/-- A message of the scheduler: a broadcast, or a notice sent to one agent directly. -/
structure Message where
  action : MessageAction
  timeStep : ℕ
  /-- Sent to the agent's own topic (`ctrl: scheduler_direct`). -/
  direct : Bool := false
deriving DecidableEq

/-- What became of the payload of a step. -/
inductive Outcome where
  /-- It was processed.  The hint is what `sleep_steps_hint` returned, `0` also if it raised. -/
  | processed (didStep : Bool) (hint : ℤ)
  | raised
deriving DecidableEq

/-- What the agent's own code does when a message is handled. -/
structure Turn where
  /-- A queued event justifies waking (`wake_signal_for_step`). -/
  wakes : Bool := false
  outcome : Outcome := .processed true 0
  /-- Processing ended the life of the agent. -/
  ends : Bool := false
deriving DecidableEq

/-- On answering step `t` the agent asks for a nap that reaches past step `T`. -/
def Turn.NapsPast (turn : Turn) (t T : ℕ) : Prop :=
  match turn.outcome with
  | .processed _ hint => hint < 0 ∨ (T : ℤ) < t + hint
  | .raised => False

instance (turn : Turn) (t T : ℕ) : Decidable (turn.NapsPast t T) :=
  match h : turn.outcome with
  | .processed _ hint => decidable_of_iff (hint < 0 ∨ (T : ℤ) < t + hint) (by rw [Turn.NapsPast, h])
  | .raised => decidable_of_iff False (by rw [Turn.NapsPast, h])

/-- An agent. -/
structure Agent where
  uniqueId : AgentId
  currentTimeStep : ℤ := -1
  /-- The step until which it promised not to answer; `none` when awake. -/
  sleepUntilStep : Option WakeStep := none
  broadcastSubscribed : Bool := false
  appTopic : Option Topic := none
  /-- `_shutdown`. -/
  isShutdown : Bool := false

namespace Agent

/-- Is the broadcast swallowed by the sleep gate? -/
def swallows (g : Agent) (m : Message) (turn : Turn) : Bool :=
  m.action = .step && !g.isShutdown &&
    match g.sleepUntilStep with
    | none => false
    | some wake => !decide (wake.OverBy m.timeStep) && !turn.wakes

/-- Fall asleep as the hint says. -/
def nap (g : Agent) (hint : ℤ) : Agent :=
  if hint > 0 then { g with sleepUntilStep := some (.step (g.currentTimeStep + hint)) }
  else if hint < 0 then { g with sleepUntilStep := some .never, broadcastSubscribed := false }
  else g

/-- A reply without a nap. -/
def reply (g : Agent) (action : Action) (didStep : Bool) : Reply where
  agentId := g.uniqueId
  timeStep := some g.currentTimeStep
  action := action
  didStep := didStep
  sleepSteps := none
  wakeTopic := none

/-- The nap announced on a reply. -/
def announce (g : Agent) (hint : ℤ) (r : Reply) : Reply :=
  if hint > 0 then { r with sleepSteps := some hint }
  else if hint < 0 then { r with sleepSteps := some (-1), wakeTopic := g.appTopic }
  else r

/-- A step broadcast that is let through. -/
def step (g : Agent) (turn : Turn) : Agent × Reply :=
  let g := { g with isShutdown := turn.ends }
  match turn.outcome with
  | .raised => (g, g.reply .error false)
  | .processed didStep hint =>
    if g.isShutdown then (g, g.reply .shutdown didStep)
    else (g.nap hint, g.announce hint (g.reply .completed didStep))

/-- `handle_orsim_agent_message`. -/
def handleMessage (g : Agent) (m : Message) (turn : Turn) : Agent × Option Reply :=
  match m.action with
  | .step =>
    if g.isShutdown then (g, none)
    else if g.swallows m turn then
      -- A sleeper without end hears a broadcast only after a liveness refresh.
      (if g.sleepUntilStep = some .never then { g with broadcastSubscribed := false } else g, none)
    else
      let (g, r) := step { g with sleepUntilStep := none, currentTimeStep := m.timeStep } turn
      (g, some r)
  | .shutdown =>
    let g := { g with currentTimeStep := m.timeStep }
    ({ g with isShutdown := true }, some (g.reply .shutdown true))

/-- A message as it comes in: a direct notice brings the agent back to the broadcast first. -/
def receive (g : Agent) (m : Message) (turn : Turn) : Agent × Option Reply :=
  if m.direct then handleMessage { g with broadcastSubscribed := true } m turn
  else g.handleMessage m turn

/-! ## What an agent answers -/

/-- The reply to a message, and the agent after it.  An agent that is not shut down sleeps exactly
until what its reply says, and no longer than it asked for. -/
structure Answers (m : Message) (turn : Turn) (g : Agent) (r : Reply) : Prop where
  agentId : r.agentId = g.uniqueId
  timeStep : r.timeStep = some ↑m.timeStep
  nap : g.isShutdown = false → g.sleepUntilStep = r.napUntil
  bound : g.isShutdown = false → ∀ T, ¬turn.NapsPast m.timeStep T →
    ∀ wake, g.sleepUntilStep = some wake → wake.OverBy T

variable {m : Message} {turn : Turn} {g : Agent}

theorem Answers.stamped {r : Reply} (h : Answers m turn g r) : r.Stamped :=
  fun _ ↦ ⟨m.timeStep, h.timeStep⟩

/-- The nap an agent takes is the nap it announces. -/
theorem nap_announced {r : Reply} (hint : ℤ) (hg : g.sleepUntilStep = none)
    (ht : r.timeStep = some g.currentTimeStep) (hr : r.sleepSteps = none) :
    (g.nap hint).sleepUntilStep = (g.announce hint r).napUntil := by
  rw [nap, announce, Reply.napUntil]
  split
  · next h =>
    dsimp only
    rw [if_neg (by omega), if_neg (by omega), ht, Option.getD_some]
  · split
    · rfl
    · rw [hg, hr]

theorem nap_bound {t T : ℕ} {hint : ℤ} (hg : g.sleepUntilStep = none) (ht : g.currentTimeStep = t)
    (h : ¬(hint < 0 ∨ (T : ℤ) < t + hint)) {wake : WakeStep}
    (hw : (g.nap hint).sleepUntilStep = some wake) : wake.OverBy T := by
  rw [not_or, not_lt, not_lt] at h
  rw [nap] at hw
  split at hw
  · cases hw
    rw [ht]
    exact h.2
  · rw [if_neg (not_lt.mpr h.1), hg] at hw
    cases hw

theorem nap_uniqueId (g : Agent) (hint : ℤ) : (g.nap hint).uniqueId = g.uniqueId := by
  rw [nap]
  split_ifs <;> rfl

theorem announce_rest (g : Agent) (hint : ℤ) (r : Reply) :
    (g.announce hint r).agentId = r.agentId ∧ (g.announce hint r).timeStep = r.timeStep := by
  rw [announce]
  split_ifs <;> exact ⟨rfl, rfl⟩

theorem step_answers (hg : g.sleepUntilStep = none) (ht : g.currentTimeStep = m.timeStep) :
    Answers m turn (g.step turn).1 (g.step turn).2 ∧ (g.step turn).1.uniqueId = g.uniqueId := by
  have hplain : ∀ a d, Answers m turn { g with isShutdown := turn.ends }
      (reply { g with isShutdown := turn.ends } a d) := by
    refine fun a d ↦ ⟨rfl, congrArg some ht, fun _ ↦ hg, fun _ T _ wake hw ↦ ?_⟩
    exact absurd (hg.symm.trans hw) (Option.some_ne_none wake).symm
  rw [step]
  split
  · exact ⟨hplain _ _, rfl⟩
  · next didStep hint houtcome =>
    split
    · exact ⟨hplain _ _, rfl⟩
    · refine ⟨⟨?_, ?_, fun _ ↦ ?_, fun _ T hT wake hw ↦ ?_⟩, nap_uniqueId _ _⟩
      · rw [nap_uniqueId, (announce_rest _ _ _).1]
        rfl
      · rw [(announce_rest _ _ _).2]
        exact congrArg some ht
      · exact nap_announced hint hg rfl rfl
      · rw [Turn.NapsPast, houtcome] at hT
        exact nap_bound (g := { g with isShutdown := turn.ends }) hg ht hT hw

/-- An agent stays silent only when it is shut down or sleeps through a step, and then its nap
stays what it was. -/
theorem handleMessage_cases (g : Agent) (m : Message) (turn : Turn) :
    (∃ r, (g.handleMessage m turn).2 = some r ∧ Answers m turn (g.handleMessage m turn).1 r) ∨
    ((g.handleMessage m turn).2 = none ∧
      (g.handleMessage m turn).1.sleepUntilStep = g.sleepUntilStep ∧
      (g.handleMessage m turn).1.isShutdown = g.isShutdown ∧
      (g.isShutdown = true ∨ g.swallows m turn = true)) := by
  rw [handleMessage]
  split
  · split
    · next hs => exact Or.inr ⟨rfl, rfl, rfl, Or.inl hs⟩
    · split
      · next hsw =>
        refine Or.inr ⟨rfl, ?_, ?_, Or.inr hsw⟩
        · split <;> rfl
        · split <;> rfl
      · refine Or.inl ⟨_, rfl, (step_answers ?_ ?_).1⟩
        · rfl
        · rfl
  · exact Or.inl ⟨_, rfl, rfl, rfl, nofun, nofun⟩

theorem handleMessage_uniqueId (g : Agent) (m : Message) (turn : Turn) :
    (g.handleMessage m turn).1.uniqueId = g.uniqueId := by
  rw [handleMessage]
  split
  · split
    · rfl
    · split
      · split <;> rfl
      · exact (step_answers (m := m) rfl rfl).2
  · rfl

/-- **An agent answers what it does not sleep through**, unless it is shut down, and it sleeps
until what it last announced. -/
theorem receive_cases (g : Agent) (m : Message) (turn : Turn) :
    (∃ r, (g.receive m turn).2 = some r ∧ Answers m turn (g.receive m turn).1 r) ∨
    ((g.receive m turn).2 = none ∧
      (g.receive m turn).1.sleepUntilStep = g.sleepUntilStep ∧
      (g.receive m turn).1.isShutdown = g.isShutdown ∧
      (g.isShutdown = true ∨ g.swallows m turn = true)) := by
  rw [receive]
  split
  · exact handleMessage_cases { g with broadcastSubscribed := true } m turn
  · exact handleMessage_cases g m turn

theorem receive_uniqueId (g : Agent) (m : Message) (turn : Turn) :
    (g.receive m turn).1.uniqueId = g.uniqueId := by
  rw [receive]
  split
  · exact handleMessage_uniqueId { g with broadcastSubscribed := true } m turn
  · exact handleMessage_uniqueId g m turn

theorem swallows_iff : g.swallows m turn = true ↔
    m.action = .step ∧ g.isShutdown = false ∧
      ∃ wake, g.sleepUntilStep = some wake ∧ ¬wake.OverBy m.timeStep ∧ turn.wakes = false := by
  rw [swallows, Bool.and_eq_true, Bool.and_eq_true, decide_eq_true_eq, Bool.not_eq_true', and_assoc]
  refine and_congr_right fun _ ↦ and_congr_right fun _ ↦ ?_
  cases g.sleepUntilStep with
  | none => exact iff_of_false Bool.false_ne_true fun ⟨_, h, _⟩ ↦ nomatch h
  | some wake =>
    rw [Bool.and_eq_true, Bool.not_eq_true', Bool.not_eq_true', decide_eq_false_iff_not]
    refine ⟨fun h ↦ ⟨wake, rfl, h⟩, fun ⟨w, hw, h⟩ ↦ ?_⟩
    cases hw
    exact h

end Agent

end OpenRide.Simulation
