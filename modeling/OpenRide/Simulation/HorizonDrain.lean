import OpenRide.Simulation.BarrierAccounting

/-!
# The drain after the horizon

When the horizon is past, the run goes on until no agent of the agent scheduler is awake.  The count
of awake agents is the difference between the sizes of two tables, `agentCollection` and
`sleepingUntil`, so it is right only as long as every agent that has a nap is registered
(`NapLedger`).

A reply enters its nap into the table whether or not its agent is registered.  After that an awake
agent no longer holds the run open (`drained_awake`).  In every run in which naps are announced by
registered agents only, everyone who is still there at the end sleeps
(`drained_only_asleep`).
-/

namespace OpenRide.Simulation

open Lib

/-! ## The termination condition -/

/-- `HorizonDrainTermination`. -/
structure HorizonDrainTermination where
  horizonSteps : ℕ
  agentSchedulerKey : String := "agent"
  /-- How far past the horizon the run may go on; `none` for no limit. -/
  maxDrainSteps : Option ℕ := none

/-- The number of entries in the sleep table. -/
def Scheduler.sleepingAgentCount (s : Scheduler) : ℕ := s.sleepingUntil.size

namespace HorizonDrainTermination

variable (T : HorizonDrainTermination)

def pastHorizon (step : ℕ) : Bool := step ≥ T.horizonSteps

def drainCapReached (step : ℕ) : Bool :=
  match T.maxDrainSteps with
  | none => false
  | some maxDrainSteps => step ≥ T.horizonSteps + maxDrainSteps

def awakeAgentCount (s : Scheduler) : ℤ := s.agentCollection.size - s.sleepingAgentCount

/-- Without an agent scheduler, every scheduler has to be drained. -/
def agentSchedulerDrained (schedulers : Dict String Scheduler) : Bool :=
  match schedulers.get? T.agentSchedulerKey with
  | none => schedulers.values.all fun s ↦ awakeAgentCount s ≤ 0
  | some s => awakeAgentCount s ≤ 0

def serviceSchedulerDrained (schedulers : Dict String Scheduler) : Bool :=
  match schedulers.get? "service" with
  | none => true
  | some s => s.agentCollection.size = 0

/-- `exhausted` is what the agent source says. -/
def readyForFinalShutdown (step : ℕ) (schedulers : Dict String Scheduler) (exhausted : Bool) :
    Bool :=
  if T.drainCapReached step then true
  else T.pastHorizon step && exhausted && T.agentSchedulerDrained schedulers

def shouldTerminate (step : ℕ) (schedulers : Dict String Scheduler) (exhausted : Bool) : Bool :=
  if T.readyForFinalShutdown step schedulers exhausted then serviceSchedulerDrained schedulers
  else false

def isFinalStep (step : ℕ) (schedulers : Dict String Scheduler) (exhausted : Bool) : Bool :=
  if T.readyForFinalShutdown step schedulers exhausted then !serviceSchedulerDrained schedulers
  else false

variable {T}

/-- The run ends, or makes its last step, only when it is ready for it. -/
theorem ready_of_done {step : ℕ} {schedulers : Dict String Scheduler} {exhausted : Bool}
    (h : T.isFinalStep step schedulers exhausted = true ∨
      T.shouldTerminate step schedulers exhausted = true) :
    T.readyForFinalShutdown step schedulers exhausted = true := by
  by_contra hnot
  rw [isFinalStep, shouldTerminate, if_neg hnot, if_neg hnot] at h
  exact h.elim Bool.noConfusion Bool.noConfusion

/-- Short of the cap, readiness takes a drained agent scheduler. -/
theorem awake_le_of_ready {step : ℕ} {schedulers : Dict String Scheduler} {exhausted : Bool}
    {s : Scheduler} (h : T.readyForFinalShutdown step schedulers exhausted = true)
    (hcap : T.drainCapReached step = false) (hs : schedulers.get? T.agentSchedulerKey = some s) :
    awakeAgentCount s ≤ 0 := by
  rw [readyForFinalShutdown, hcap, if_neg Bool.false_ne_true, Bool.and_eq_true] at h
  have hdrained := h.2
  rw [agentSchedulerDrained, hs] at hdrained
  exact of_decide_eq_true hdrained

end HorizonDrainTermination

/-! ## The sleep table -/

namespace Scheduler

/-- Every agent that has a nap is registered. -/
def NapLedger (s : Scheduler) : Prop := ∀ a, s.sleepingUntil.get? a ≠ none → s.Registered a

theorem start_napLedger : NapLedger {} := fun _ h ↦ absurd rfl h

variable {s : Scheduler}

/-- **Nobody awake is left** when the count says so, as long as naps belong to registered
agents. -/
theorem NapLedger.asleep (h : s.NapLedger) (hcount : HorizonDrainTermination.awakeAgentCount s ≤ 0)
    {a : AgentId} (ha : s.Registered a) : s.sleepingUntil.get? a ≠ none := by
  rw [HorizonDrainTermination.awakeAgentCount, sleepingAgentCount] at hcount
  exact Dict.get?_ne_none_of_size_le h (by omega) ha

theorem addAgent_napLedger (h : s.NapLedger) (a : AgentId) : (s.addAgent a).NapLedger := by
  intro b hb
  rw [Registered, addAgent, Dict.get?_set]
  split
  · exact Option.some_ne_none _
  · exact h b hb

theorem removeAgent_napLedger (h : s.NapLedger) (a : AgentId) : (s.removeAgent a).NapLedger := by
  intro b hb
  rw [removeAgent_sleepingUntil] at hb
  split at hb
  · exact absurd rfl hb
  · next hne => exact registered_removeAgent.mpr ⟨h b hb, hne⟩

theorem reap_napLedger (h : s.NapLedger) (a : AgentId) : (s.reap a).NapLedger := by
  rw [reap]
  split
  · exact h
  · next entry _ =>
    refine removeAgent_napLedger ?_ a
    split
    · obtain ⟨stashed, hstash⟩ := stash_eq s a entry
      rw [hstash]
      exact h
    · exact h

theorem foldl_napLedger {f : Scheduler → AgentId → Scheduler}
    (hf : ∀ s a, NapLedger s → NapLedger (f s a)) (l : List AgentId) (h : s.NapLedger) :
    (l.foldl f s).NapLedger := by
  induction l generalizing s with
  | nil => exact h
  | cons a l ih => exact ih (hf s a h)

theorem sweep_napLedger (h : s.NapLedger) (order : List AgentId) (isFinal : Bool) :
    (s.sweep order isFinal).NapLedger := by
  have hreap := foldl_napLedger (fun _ a h ↦ reap_napLedger h a) order h
  rw [sweep]
  split
  · refine foldl_napLedger (fun t a ht ↦ ?_) _ hreap
    split
    · exact removeAgent_napLedger ht a
    · exact ht
  · exact hreap

theorem beginStepBarrier_napLedger (h : s.NapLedger) : s.beginStepBarrier.NapLedger := by
  intro b hb
  obtain ⟨wake, hwake⟩ := Option.ne_none_iff_exists'.mp hb
  obtain ⟨hwake, -⟩ := Dict.get?_filter.mp hwake
  exact h b (hwake ▸ Option.some_ne_none wake)

theorem handleReply_napLedger (h : s.NapLedger) {r : Reply}
    (hr : s.napOf r ≠ none → s.Registered r.agentId ∨ s.Reinstates r) :
    (s.handleReply r).NapLedger := by
  intro b hb
  rw [registered_handleReply]
  by_cases hself : b = r.agentId
  · subst hself
    rw [handleReply_napOf] at hb
    exact (hr hb).imp_right fun hre ↦ ⟨rfl, hre⟩
  · rw [(handleReply_ne s r hself).1] at hb
    exact Or.inl (h b hb)

end Scheduler

namespace SchedulerRun

/-- **Naps of registered agents**: a reply that announces a nap comes from an agent that is
registered, or that the reply brings back from the stash. -/
def NapsRegistered (s : SchedulerRun) : RunEvent → Prop
  | .reply r => s.scheduler.napOf r ≠ none →
      s.scheduler.Registered r.agentId ∨ s.scheduler.Reinstates r
  | _ => True

theorem reach_napLedger {s : SchedulerRun} (h : machine.Reach NapsRegistered {} s) :
    s.scheduler.NapLedger := by
  refine h.invariant (P := fun s ↦ s.scheduler.NapLedger) Scheduler.start_napLedger ?_
  intro s e t hs hC hstep
  obtain ⟨he, rfl⟩ := step_eq hstep
  cases e with
  | addAgent a => exact Scheduler.addAgent_napLedger hs a
  | reply r => exact Scheduler.handleReply_napLedger hs hC
  | beginStep isFinal => exact Scheduler.beginStepBarrier_napLedger hs
  | sweep order =>
    obtain ⟨⟨isFinal, hp⟩, -⟩ := he
    rw [sweep_eq hp]
    exact Scheduler.sweep_napLedger hs order isFinal
  | tick => exact hs

/-- **The drain ends only when everyone awake is gone**, in every run whose naps are those of
registered agents: short of the cap, the run makes its last step or ends only if every agent that
the agent scheduler still has is in an announced nap. -/
theorem drained_only_asleep {T : HorizonDrainTermination} {s : SchedulerRun}
    (h : machine.Reach NapsRegistered {} s) {schedulers : Dict String Scheduler}
    (hs : schedulers.get? T.agentSchedulerKey = some s.scheduler) {step : ℕ}
    (hcap : T.drainCapReached step = false) {exhausted : Bool}
    (hdone : T.isFinalStep step schedulers exhausted = true ∨
      T.shouldTerminate step schedulers exhausted = true) (a : AgentId)
    (ha : s.scheduler.Registered a) : ∃ wake, s.scheduler.sleepingUntil.get? a = some wake := by
  have hready := HorizonDrainTermination.ready_of_done hdone
  have hcount := HorizonDrainTermination.awake_le_of_ready hready hcap hs
  exact Option.ne_none_iff_exists'.mp ((reach_napLedger h).asleep hcount ha)

/-! ## Two runs -/

instance (s : SchedulerRun) : (e : RunEvent) → Decidable (s.NapsRegistered e)
  | .reply r => inferInstanceAs (Decidable (s.scheduler.napOf r ≠ none → _))
  | .addAgent _ | .beginStep _ | .sweep _ | .tick => inferInstanceAs (Decidable True)

/-- The schedulers of a run whose service agents are still there. -/
def withService (s : Scheduler) : Dict String Scheduler :=
  Dict.ofList [("agent", s), ("service", Scheduler.addAgent {} "analytics")]

/-- An order that has nothing left to do takes a nap without end. -/
def lastOrder : List RunEvent :=
  [.addAgent "order", .reply (answer "order" (-1) .ready none), .beginStep false,
    .reply (answer "order" 0 .completed (some (-1))), .sweep [], .tick]

/-- Past the horizon, only the sleeping order is left, and the final step is due. -/
theorem drained_only_asleep_small : ∃ s, machine.Reach NapsRegistered {} s ∧
    s.scheduler.Registered "order" ∧
    ∃ wake, s.scheduler.sleepingUntil.get? "order" = some wake := by
  have hrun : (machine.execWhen NapsRegistered {} lastOrder).any fun s ↦
      s.scheduler.Registered "order" ∧ HorizonDrainTermination.isFinalStep { horizonSteps := 1 } 1
        (withService s.scheduler) true = true := by
    decide
  obtain ⟨s, hs, h⟩ := (Option.any_eq_true _ _).mp hrun
  obtain ⟨hreg, hfinal⟩ := of_decide_eq_true h
  have hreach := Machine.reach_of_execWhen hs
  have hagent : (withService s.scheduler).get? "agent" = some s.scheduler := rfl
  exact ⟨s, hreach, hreg,
    drained_only_asleep (T := { horizonSteps := 1 }) hreach hagent rfl (Or.inl hfinal) "order" hreg⟩

/-- An order naps and shuts down on step 1; the reply with its nap is delivered once more after
that.  Step 2 is taken for the last one, although the truck is awake. -/
theorem drained_awake : ∃ s, machine.Reach (fun _ _ ↦ True) {} s ∧
    HorizonDrainTermination.isFinalStep { horizonSteps := 2 } 2
      (withService s.scheduler) true = true ∧
    s.scheduler.Registered "truck" ∧ s.scheduler.sleepingUntil.get? "truck" = none := by
  have hrun : (machine.exec {}
      [.addAgent "order", .addAgent "truck", .reply (answer "order" (-1) .ready none),
        .reply (answer "truck" (-1) .ready none), .beginStep false,
        .reply (answer "order" 0 .completed (some (-1))),
        .reply (answer "truck" 0 .completed none), .sweep [], .tick, .beginStep false,
        .reply (answer "truck" 1 .completed none), .reply (answer "order" 1 .shutdown none),
        .sweep ["order"], .tick, .reply (answer "order" 0 .completed (some (-1)))]).any fun s ↦
      HorizonDrainTermination.isFinalStep { horizonSteps := 2 } 2
        (withService s.scheduler) true = true ∧
      s.scheduler.Registered "truck" ∧ s.scheduler.sleepingUntil.get? "truck" = none := by
    decide
  obtain ⟨s, hs, h⟩ := (Option.any_eq_true _ _).mp hrun
  exact ⟨s, Machine.reach_of_exec _ hs fun _ _ _ ↦ trivial, of_decide_eq_true h⟩

end SchedulerRun

end OpenRide.Simulation
