import OpenRide.Simulation.HorizonDrain

/-!
# The loop of the runtime and the drain cap

The runtime asks before each step whether the run is over, adds the agents that are due, decides
whether the step is the final one, and lets every scheduler make its step, in any interleaving of
their events and of the replies.

Past the cap every step is a final one, and the run is over as soon as the service scheduler has no
agents.  A final step removes the agents it waits for in vain, those that ask to shut down and those
that sleep.  It does not remove an agent that is still booting, one that answers anything else than
a shutdown or a nap, and one that a late reply brings back; with such an agent the loop goes on
(`cap_overrun`).  `cap_is_hard` says that nothing else keeps a run going past the cap.
-/

namespace OpenRide.Simulation

open Lib

/-! ## The loop -/

/-- The part of `orsim_settings` that the end of a run depends on. -/
structure OrsimSettings where
  allowPostHorizonDrain : Bool := false
  simulationLengthInSteps : ℤ
deriving DecidableEq

/-- Where the loop of the runtime is. -/
inductive LoopStage where
  /-- Before the check whether the run is over. -/
  | between
  /-- The agents that are due are added. -/
  | spawning
  /-- The schedulers make their step; `pending` have not begun it. -/
  | stepping (isFinal : Bool) (pending : List String)
  | ended
deriving DecidableEq

/-- `_simulation_loop`. -/
structure SimulationLoop where
  step : ℕ := 0
  stage : LoopStage := .between
  runs : Dict String SchedulerRun

/-- What can happen to the loop.  `exhausted` is what the agent source says. -/
inductive LoopEvent where
  /-- A scheduler handles a reply, at any time. -/
  | reply (key : String) (r : Reply)
  /-- `should_terminate` is asked. -/
  | check (exhausted : Bool)
  | addAgent (key : String) (a : AgentId)
  /-- `is_final_step` is asked, and the step begins. -/
  | start (exhausted : Bool)
  | beginStep (key : String)
  | sweep (key : String) (order : List AgentId)
  | tick (key : String)
  /-- Every scheduler has made its step. -/
  | finish
deriving DecidableEq

/-- Without the drain, a scheduler takes the last step of the simulation for the final one. -/
def SchedulerRun.finalStep (s : SchedulerRun) (settings : OrsimSettings) (isFinal : Bool) : Bool :=
  isFinal || (!settings.allowPostHorizonDrain &&
    decide ((s.scheduler.time : ℤ) = settings.simulationLengthInSteps - 1))

namespace SimulationLoop

/-- The schedulers as the termination condition sees them. -/
def schedulers (s : SimulationLoop) : Dict String Scheduler :=
  s.runs.mapValues SchedulerRun.scheduler

/-- Let a scheduler handle an event. -/
def act (s : SimulationLoop) (key : String) (e : RunEvent) : SimulationLoop :=
  match s.runs.get? key with
  | some run => { s with runs := s.runs.set key (run.next e) }
  | none => s

/-- Can a scheduler handle an event? -/
def Allows (s : SimulationLoop) (key : String) (e : RunEvent) : Prop :=
  ∃ run ∈ s.runs.get? key, run.Enabled e

instance (s : SimulationLoop) (key : String) (e : RunEvent) : Decidable (s.Allows key e) :=
  inferInstanceAs (Decidable (∃ run ∈ s.runs.get? key, _))

/-- Is the step under way? -/
def isStepping (s : SimulationLoop) : Bool :=
  match s.stage with
  | .stepping _ _ => true
  | _ => false

/-- The schedulers that have not begun their step. -/
def pending (s : SimulationLoop) : List String :=
  match s.stage with
  | .stepping _ pending => pending
  | _ => []

variable (T : HorizonDrainTermination) (settings : OrsimSettings)

/-- Can the event happen? -/
def Enabled (s : SimulationLoop) : LoopEvent → Prop
  | .reply key r => s.Allows key (.reply r)
  | .check _ => s.stage = .between
  | .addAgent key a => s.stage = .spawning ∧ s.Allows key (.addAgent a)
  | .start _ => s.stage = .spawning
  | .beginStep key => key ∈ s.pending ∧ s.Allows key (.beginStep false)
  | .sweep key order => s.isStepping = true ∧ s.Allows key (.sweep order)
  | .tick key => s.isStepping = true ∧ s.Allows key .tick
  | .finish => s.isStepping = true ∧ s.pending = [] ∧ ∀ run ∈ s.runs.values, run.phase = .idle

instance (s : SimulationLoop) : (e : LoopEvent) → Decidable (s.Enabled e)
  | .reply key r => inferInstanceAs (Decidable (s.Allows key (.reply r)))
  | .check _ => inferInstanceAs (Decidable (s.stage = .between))
  | .addAgent key a =>
    inferInstanceAs (Decidable (s.stage = .spawning ∧ s.Allows key (.addAgent a)))
  | .start _ => inferInstanceAs (Decidable (s.stage = .spawning))
  | .beginStep key =>
    inferInstanceAs (Decidable (key ∈ s.pending ∧ s.Allows key (.beginStep false)))
  | .sweep key order =>
    inferInstanceAs (Decidable (s.isStepping = true ∧ s.Allows key (.sweep order)))
  | .tick key => inferInstanceAs (Decidable (s.isStepping = true ∧ s.Allows key .tick))
  | .finish => inferInstanceAs (Decidable (s.isStepping = true ∧ s.pending = [] ∧
      ∀ run ∈ s.runs.values, run.phase = .idle))

/-- The state after an event that can happen. -/
def next (s : SimulationLoop) : LoopEvent → SimulationLoop
  | .reply key r => s.act key (.reply r)
  | .check exhausted =>
    { s with
      stage := if T.shouldTerminate s.step s.schedulers exhausted then .ended else .spawning }
  | .addAgent key a => s.act key (.addAgent a)
  | .start exhausted =>
    { s with stage := .stepping (T.isFinalStep s.step s.schedulers exhausted) s.runs.keys }
  | .beginStep key =>
    match s.stage, s.runs.get? key with
    | .stepping isFinal pending, some run =>
      { s.act key (.beginStep (run.finalStep settings isFinal)) with
        stage := .stepping isFinal (pending.erase key) }
    | _, _ => s
  | .sweep key order => s.act key (.sweep order)
  | .tick key => s.act key .tick
  | .finish => { s with step := s.step + 1, stage := .between }

/-- The loop as a machine. -/
def machine : Machine SimulationLoop LoopEvent where
  step s e := if s.Enabled e then some (s.next T settings e) else none

variable {T settings}

theorem step_eq {s t : SimulationLoop} {e : LoopEvent}
    (h : (machine T settings).step s e = some t) :
    s.Enabled e ∧ t = s.next T settings e := by
  simp only [machine, Option.ite_none_right_eq_some, Option.some_inj] at h
  exact ⟨h.1, h.2.symm⟩

theorem act_ne {s : SimulationLoop} {key k : String} (e : RunEvent) (h : k ≠ key) :
    (s.act key e).runs.get? k = s.runs.get? k := by
  rw [act]
  split
  · exact Dict.get?_set_ne _ _ h
  · rfl

theorem act_self {s : SimulationLoop} {key : String} {run : SchedulerRun} (e : RunEvent)
    (h : s.runs.get? key = some run) : (s.act key e).runs.get? key = some (run.next e) := by
  rw [act, h]
  exact Dict.get?_set_self _ _ _

theorem act_stage (s : SimulationLoop) (key : String) (e : RunEvent) :
    (s.act key e).stage = s.stage ∧ (s.act key e).step = s.step := by
  rw [act]
  split <;> exact ⟨rfl, rfl⟩

end SimulationLoop

/-! ## Replies that clear the collection -/

namespace Scheduler

/-- The reply leaves its agent where a final sweep removes it, and brings nobody back. -/
def Dismisses (s : Scheduler) (r : Reply) : Prop :=
  ¬s.Reinstates r ∧ (s.Registered r.agentId →
    r.agentId ∈ s.shutdownReplied ∨
    r.action = .shutdown ∧ s.responseTimeStep r = some ↑s.time ∨
    s.napOf r ≠ none ∨
    r.agentId ∈ s.nonResponders ∧ s.responseTimeStep r ≠ some ↑s.time)

instance (s : Scheduler) (r : Reply) : Decidable (s.Dismisses r) :=
  inferInstanceAs (Decidable (_ ∧ _))

/-- A final sweep removes everyone. -/
def Cleared (s : Scheduler) : Prop :=
  ∀ a, s.Registered a → a ∈ s.toReap ∨ s.sleepingUntil.get? a ≠ none

/-- There is no agent. -/
def Deserted (s : Scheduler) : Prop := ∀ a, ¬s.Registered a

variable {s : Scheduler}

theorem deserted_iff : s.Deserted ↔ s.agentCollection.size = 0 := by
  rw [Dict.size, List.length_eq_zero_iff]
  constructor
  · intro h
    refine List.eq_nil_iff_forall_not_mem.mpr fun p hp ↦ h p.1 ?_
    exact registered_of_get? (Dict.mem_entries_iff.mp hp)
  · intro h a ha
    obtain ⟨entry, hentry⟩ := Option.ne_none_iff_exists'.mp ha
    have hmem := Dict.mem_entries_iff.mpr hentry
    rw [h] at hmem
    exact List.not_mem_nil hmem

variable {r : Reply}

theorem handleReply_deserted (h : s.Deserted) (hr : ¬s.Reinstates r) : (s.handleReply r).Deserted :=
  fun a ha ↦ (registered_handleReply.mp ha).elim (h a) fun hc ↦ hr hc.2

theorem toReap_handleReply_ne {a : AgentId} (h : a ≠ r.agentId) (ha : a ∈ s.toReap) :
    a ∈ (s.handleReply r).toReap := by
  obtain ⟨hshut, hresp, -⟩ := handleReply_barrier s r
  refine Finset.mem_union.mpr ((Finset.mem_union.mp ha).imp (fun ha ↦ ?_) fun ha ↦ ?_)
  · rw [hshut]
    split
    · exact Finset.mem_insert_of_mem ha
    · exact ha
  · obtain ⟨hexp, hno⟩ := Finset.mem_sdiff.mp ha
    rw [nonResponders, (handleReply_sameStep s r).expectedThisStep, hresp]
    refine Finset.mem_sdiff.mpr ⟨hexp, ?_⟩
    split
    · exact fun hc ↦ (Finset.mem_insert.mp hc).elim h hno
    · exact hno

theorem toReap_handleReply_self
    (h : r.agentId ∈ s.shutdownReplied ∨ r.action = .shutdown ∧
      s.responseTimeStep r = some ↑s.time ∨ r.agentId ∈ s.nonResponders ∧
      s.responseTimeStep r ≠ some ↑s.time)
    : r.agentId ∈ (s.handleReply r).toReap := by
  obtain ⟨hshut, hresp, -⟩ := handleReply_barrier s r
  rcases h with h | ⟨haction, hnow⟩ | ⟨hsilent, hlate⟩
  · refine Finset.mem_union_left _ ?_
    rw [hshut]
    split
    · exact Finset.mem_insert_self _ _
    · exact h
  · refine Finset.mem_union_left _ ?_
    rw [hshut, if_pos ⟨hnow, haction⟩]
    exact Finset.mem_insert_self _ _
  · refine Finset.mem_union_right _ ?_
    rw [nonResponders, (handleReply_sameStep s r).expectedThisStep, hresp,
      if_neg fun hc ↦ hlate hc.1]
    exact hsilent

theorem handleReply_cleared (h : s.Cleared) (hr : s.Dismisses r) : (s.handleReply r).Cleared := by
  intro a ha
  rcases registered_handleReply.mp ha with ha | ⟨-, hre⟩
  · by_cases hself : a = r.agentId
    · subst hself
      rcases hr.2 ha with h | h | h | h
      · exact Or.inl (toReap_handleReply_self (Or.inl h))
      · exact Or.inl (toReap_handleReply_self (Or.inr (Or.inl h)))
      · exact Or.inr (by rw [handleReply_napOf]; exact h)
      · exact Or.inl (toReap_handleReply_self (Or.inr (Or.inr h)))
    · rw [(handleReply_ne s r hself).1]
      exact (h a ha).imp_left (toReap_handleReply_ne hself)
  · exact absurd hre hr.1

/-- When nobody boots, a step waits for everyone who does not sleep. -/
theorem beginStepBarrier_cleared (h : ∀ entry ∈ s.agentCollection.values, entry.pendingBoot = false)
    : s.beginStepBarrier.Cleared := by
  intro a ha
  obtain ⟨⟨pendingBoot⟩, hentry⟩ := Option.ne_none_iff_exists'.mp ha
  have hbooted : pendingBoot = false := h _ (Dict.mem_values_iff.mpr ⟨a, hentry⟩)
  by_cases hnap : ∀ wake ∈ s.sleepingUntil.get? a, wake.OverBy s.time
  · refine Or.inl (Finset.mem_union_right _ (Finset.mem_sdiff.mpr ⟨?_, Finset.notMem_empty a⟩))
    exact mem_expectedThisStep.mpr ⟨hbooted ▸ hentry, hnap⟩
  · push Not at hnap
    obtain ⟨wake, hwake, hlate⟩ := hnap
    exact Or.inr (beginStepBarrier_sleepingUntil hwake hlate ▸ Option.some_ne_none wake)

theorem sweep_deserted (h : s.Cleared) {order : List AgentId} (horder : order.toFinset = s.toReap) :
    (s.sweep order true).Deserted := by
  intro a ha
  obtain ⟨ha, hnot, hnap⟩ := swept_iff.mp ha
  rcases h a ha with hreap | hsleep
  · exact hnot (List.mem_toFinset.mp (horder ▸ hreap))
  · exact hsleep (hnap rfl)

end Scheduler

namespace SchedulerRun

/-- The reply does not keep the collection from being cleared: by the sweep to come while the step
waits, by the one that has been after that. -/
def Dismisses (s : SchedulerRun) (r : Reply) : Prop :=
  match s.phase with
  | .waiting _ => s.scheduler.Dismisses r
  | _ => ¬s.scheduler.Reinstates r

/-- A final step on its way: what waits is cleared, and what has been swept deserted. -/
structure Clearing (s : SchedulerRun) : Prop where
  waiting : ∀ isFinal, s.phase = .waiting isFinal → isFinal = true ∧ s.scheduler.Cleared
  after : (∀ isFinal, s.phase ≠ .waiting isFinal) → s.scheduler.Deserted

variable {s : SchedulerRun}

theorem Clearing.reply (h : s.Clearing) {r : Reply} (hr : s.Dismisses r) :
    (s.next (.reply r)).Clearing := by
  rw [Dismisses] at hr
  split at hr
  · next f hp =>
    refine ⟨fun isFinal hp' ↦ ?_, fun hnot ↦ absurd hp (hnot f)⟩
    obtain ⟨hfinal, hcleared⟩ := h.waiting isFinal hp'
    exact ⟨hfinal, Scheduler.handleReply_cleared hcleared hr⟩
  · next hno =>
    refine ⟨fun isFinal hp' ↦ absurd hp' (hno isFinal), fun hnot ↦ ?_⟩
    exact Scheduler.handleReply_deserted (h.after hnot) hr

theorem beginStep_clearing
    (h : ∀ entry ∈ s.scheduler.agentCollection.values, entry.pendingBoot = false) :
    (s.next (.beginStep true)).Clearing where
  waiting isFinal hp := by
    obtain rfl := StepPhase.waiting.inj hp
    exact ⟨rfl, Scheduler.beginStepBarrier_cleared h⟩
  after hnot := absurd rfl (hnot true)

theorem Clearing.sweep (h : s.Clearing) {order : List AgentId} (he : s.Enabled (.sweep order)) :
    (s.next (.sweep order)).Clearing := by
  obtain ⟨⟨isFinal, hp⟩, -, horder⟩ := he
  obtain ⟨rfl, hcleared⟩ := h.waiting isFinal hp
  rw [sweep_eq hp]
  exact ⟨fun f hf ↦ StepPhase.noConfusion hf,
    fun _ ↦ Scheduler.sweep_deserted hcleared horder⟩

theorem Clearing.tick (h : s.Clearing) (he : s.Enabled .tick) : (s.next .tick).Clearing := by
  obtain ⟨isFinal, hp⟩ := he
  refine ⟨fun f hf ↦ StepPhase.noConfusion hf, fun _ ↦ h.after fun f hf ↦ ?_⟩
  exact StepPhase.noConfusion (hp.symm.trans hf)

end SchedulerRun

/-! ## Past the cap -/

namespace SimulationLoop

/-- The last step is under way at the service scheduler, or the one before was the last. -/
def inLastStep (T : HorizonDrainTermination) (s : SimulationLoop) : Bool :=
  match s.stage with
  | .stepping _ pending => T.drainCapReached s.step && decide ("service" ∉ pending)
  | .between => decide (0 < s.step) && T.drainCapReached (s.step - 1)
  | _ => false

/-- **The service scheduler clears**: when it begins a step past the cap none of its agents is still
booting, and no reply it handles from then on keeps its collection from being cleared. -/
def Clears (T : HorizonDrainTermination) (s : SimulationLoop) : LoopEvent → Prop
  | .beginStep key => key = "service" → T.drainCapReached s.step = true →
      ∀ run ∈ s.runs.get? "service", ∀ entry ∈ run.scheduler.agentCollection.values,
        entry.pendingBoot = false
  | .reply key r => key = "service" → s.inLastStep T = true →
      ∀ run ∈ s.runs.get? "service", run.Dismisses r
  | _ => True

/-- Where a loop can be with respect to the cap. -/
structure Capped (cap : ℕ) (s : SimulationLoop) : Prop where
  bound : s.step ≤ cap + 1
  between : s.stage = .between → cap < s.step →
    ∀ run ∈ s.runs.get? "service", run.scheduler.Deserted
  spawning : s.stage = .spawning → s.step ≤ cap ∧ (s.step = cap →
    ∃ run ∈ s.runs.get? "service", ¬run.scheduler.Deserted)
  stepping : ∀ isFinal pending, s.stage = .stepping isFinal pending → s.step ≤ cap ∧
    (s.step = cap → isFinal = true ∧ ("service" ∉ pending →
      ∀ run ∈ s.runs.get? "service", run.Clearing))

variable {T : HorizonDrainTermination} {settings : OrsimSettings}

variable {m : ℕ}

theorem drainCapReached_iff (hm : T.maxDrainSteps = some m) (step : ℕ) :
    T.drainCapReached step = true ↔ T.horizonSteps + m ≤ step := by
  rw [HorizonDrainTermination.drainCapReached, hm]
  exact decide_eq_true_iff

variable {s : SimulationLoop}

/-- The service scheduler is drained exactly if it has no agents. -/
theorem serviceSchedulerDrained_iff :
    HorizonDrainTermination.serviceSchedulerDrained s.schedulers = true ↔
      ∀ run ∈ s.runs.get? "service", run.scheduler.Deserted := by
  rw [HorizonDrainTermination.serviceSchedulerDrained, schedulers, Dict.get?_mapValues]
  cases s.runs.get? "service" with
  | none => exact iff_of_true rfl fun _ h ↦ absurd h (Option.not_mem_none _)
  | some run =>
    rw [Option.map_some]
    rw [decide_eq_true_iff, ← Scheduler.deserted_iff]
    exact ⟨fun h _ hr ↦ Option.some_inj.mp hr ▸ h, fun h ↦ h run rfl⟩

theorem shouldTerminate_of_cap (hm : T.maxDrainSteps = some m) (hcap : T.horizonSteps + m ≤ s.step)
    (exhausted : Bool) :
    T.shouldTerminate s.step s.schedulers exhausted =
        HorizonDrainTermination.serviceSchedulerDrained s.schedulers ∧
      T.isFinalStep s.step s.schedulers exhausted =
        !HorizonDrainTermination.serviceSchedulerDrained s.schedulers := by
  have hready : T.readyForFinalShutdown s.step s.schedulers exhausted = true := by
    rw [HorizonDrainTermination.readyForFinalShutdown,
      if_pos ((drainCapReached_iff hm s.step).mpr hcap)]
  exact ⟨if_pos hready, if_pos hready⟩

variable {key : String}

variable {cap : ℕ}

theorem Capped.act_ne (h : Capped cap s) (hkey : key ≠ "service") (e : RunEvent) :
    Capped cap (s.act key e) := by
  obtain ⟨hstage, hstep⟩ := act_stage s key e
  have hrun := SimulationLoop.act_ne (s := s) e hkey.symm
  refine ⟨hstep ▸ h.bound, fun hb ↦ ?_, fun hsp ↦ ?_, fun f p hp ↦ ?_⟩
  · rw [hstep, hrun]
    exact h.between (hstage ▸ hb)
  · rw [hstep, hrun]
    exact h.spawning (hstage ▸ hsp)
  · rw [hstep, hrun]
    exact h.stepping f p (hstage ▸ hp)

/-- What the service scheduler does matters as far as the stage of the loop says. -/
theorem Capped.act_service (h : Capped cap s) {run : SchedulerRun}
    (hrun : s.runs.get? "service" = some run) {e : RunEvent}
    (hbetween : s.stage = .between → cap < s.step → run.scheduler.Deserted →
      (run.next e).scheduler.Deserted)
    (hspawning : s.stage = .spawning → (run.next e).scheduler.Deserted → run.scheduler.Deserted)
    (hstepping : ∀ isFinal pending, s.stage = .stepping isFinal pending → s.step = cap →
      "service" ∉ pending → run.Clearing → (run.next e).Clearing)
    : Capped cap (s.act "service" e) := by
  obtain ⟨hstage, hstep⟩ := act_stage s "service" e
  have hnext := act_self e hrun
  have hmem : ∀ run', run' ∈ (s.act "service" e).runs.get? "service" → run' = run.next e :=
    fun run' h ↦ (Option.some_inj.mp (hnext.symm.trans h)).symm
  refine ⟨hstep ▸ h.bound, fun hb hlt run' hrun' ↦ ?_, fun hsp ↦ ?_, fun f p hp ↦ ?_⟩
  · rw [hstage] at hb
    rw [hstep] at hlt
    exact hmem run' hrun' ▸ hbetween hb hlt (h.between hb hlt run hrun)
  · rw [hstage] at hsp
    rw [hstep]
    obtain ⟨hle, hsome⟩ := h.spawning hsp
    refine ⟨hle, fun heq ↦ ⟨_, hnext, fun hdes ↦ ?_⟩⟩
    obtain ⟨run', hrun', hno⟩ := hsome heq
    obtain rfl := Option.some_inj.mp (hrun.symm.trans hrun')
    exact hno (hspawning hsp hdes)
  · rw [hstage] at hp
    rw [hstep]
    obtain ⟨hle, hfinal⟩ := h.stepping f p hp
    refine ⟨hle, fun heq ↦ ⟨(hfinal heq).1, fun hnot run' hrun' ↦ ?_⟩⟩
    exact hmem run' hrun' ▸ hstepping f p hp heq hnot ((hfinal heq).2 hnot run hrun)

theorem reply_capped (hm : T.maxDrainSteps = some m) (h : Capped (T.horizonSteps + m) s) {r : Reply}
    (hC : s.Clears T (.reply key r)) : Capped (T.horizonSteps + m) (s.act key (.reply r)) := by
  by_cases hkey : key = "service"
  · subst hkey
    cases hrun : s.runs.get? "service" with
    | none =>
      have hsame : s.act "service" (.reply r) = s := by rw [act, hrun]
      rwa [hsame]
    | some run =>
      refine h.act_service hrun (fun hb hlt hdes ↦ ?_) (fun _ hdes a ha ↦ ?_)
        fun f p hp heq hnot hclear ↦ ?_
      · have hlast : s.inLastStep T = true := by
          rw [inLastStep, hb]
          refine Bool.and_eq_true_iff.mpr ⟨decide_eq_true (by omega), ?_⟩
          exact (drainCapReached_iff hm _).mpr (by omega)
        have hdismiss := hC rfl hlast run hrun
        refine Scheduler.handleReply_deserted hdes ?_
        rw [SchedulerRun.Dismisses] at hdismiss
        split at hdismiss
        · exact hdismiss.1
        · exact hdismiss
      · exact hdes a (Scheduler.registered_handleReply.mpr (Or.inl ha))
      · have hlast : s.inLastStep T = true := by
          rw [inLastStep, hp]
          exact Bool.and_eq_true_iff.mpr
            ⟨(drainCapReached_iff hm _).mpr heq.ge, decide_eq_true hnot⟩
        exact hclear.reply (hC rfl hlast run hrun)
  · exact h.act_ne hkey _

theorem addAgent_capped (h : Capped cap s) {a : AgentId} (hstage : s.stage = .spawning)
    (he : s.Allows key (.addAgent a)) : Capped cap (s.act key (.addAgent a)) := by
  by_cases hkey : key = "service"
  · subst hkey
    obtain ⟨run, hrun, -⟩ := he
    refine h.act_service hrun (fun hb ↦ ?_) (fun _ hdes ↦ ?_) fun f p hp ↦ ?_
    · exact LoopStage.noConfusion (hstage.symm.trans hb)
    · have hreg : (run.scheduler.addAgent a).Registered a :=
        Scheduler.registered_of_get? (Dict.get?_set_self _ _ _)
      exact absurd hreg (hdes a)
    · exact LoopStage.noConfusion (hstage.symm.trans hp)
  · exact h.act_ne hkey _

/-- While the loop is stepping, the service scheduler may sweep and move its clock. -/
theorem stepping_capped (h : Capped cap s) {e : RunEvent} (hstage : s.isStepping = true)
    (he : s.Allows key e)
    (hclear : ∀ run : SchedulerRun, run.Enabled e → run.Clearing → (run.next e).Clearing) :
    Capped cap (s.act key e) := by
  by_cases hkey : key = "service"
  · subst hkey
    obtain ⟨run, hrun, henabled⟩ := he
    refine h.act_service hrun (fun hb ↦ ?_) (fun hsp ↦ ?_) fun _ _ _ _ _ ↦ hclear run henabled
    · rw [isStepping, hb] at hstage
      exact absurd hstage Bool.false_ne_true
    · rw [isStepping, hsp] at hstage
      exact absurd hstage Bool.false_ne_true
  · exact h.act_ne hkey _

theorem beginStep_capped (hm : T.maxDrainSteps = some m) (h : Capped (T.horizonSteps + m) s)
    (hC : s.Clears T (.beginStep key)) :
    Capped (T.horizonSteps + m) (s.next T settings (.beginStep key)) := by
  rw [next]
  split
  · next isFinal pending run hstage hrun =>
    obtain ⟨hle, hlast⟩ := h.stepping isFinal pending hstage
    obtain ⟨-, hstep⟩ := act_stage s key (.beginStep (run.finalStep settings isFinal))
    refine ⟨hstep ▸ h.bound, fun hb ↦ LoopStage.noConfusion hb,
      fun hsp ↦ LoopStage.noConfusion hsp, fun f p hp ↦ ?_⟩
    obtain ⟨rfl, rfl⟩ := LoopStage.stepping.inj hp
    refine ⟨hstep ▸ hle, fun heq ↦ ?_⟩
    have heq' : s.step = T.horizonSteps + m := hstep ▸ heq
    obtain ⟨rfl, hclear⟩ := hlast heq'
    refine ⟨rfl, fun hnot run' hrun' ↦ ?_⟩
    by_cases hkey : key = "service"
    · subst hkey
      have hnext := act_self (.beginStep (run.finalStep settings true)) hrun
      obtain rfl := Option.some_inj.mp (hnext.symm.trans hrun')
      exact SchedulerRun.beginStep_clearing
        (hC rfl ((drainCapReached_iff hm _).mpr heq'.ge) run hrun)
    · have hsame : run' ∈ s.runs.get? "service" :=
        (SimulationLoop.act_ne _ (Ne.symm hkey)).symm.trans hrun'
      refine hclear (fun hmem ↦ hnot ?_) run' hsame
      exact (List.mem_erase_of_ne (Ne.symm hkey)).mpr hmem
  · exact h

theorem step_capped (hm : T.maxDrainSteps = some m) {e : LoopEvent}
    (h : Capped (T.horizonSteps + m) s) (he : s.Enabled e) (hC : s.Clears T e) :
    Capped (T.horizonSteps + m) (s.next T settings e) := by
  cases e with
  | reply key r => exact reply_capped hm h hC
  | check exhausted =>
    have hbetween : s.stage = .between := he
    rw [next]
    split
    · exact ⟨h.bound, fun hb ↦ LoopStage.noConfusion hb, fun hsp ↦ LoopStage.noConfusion hsp,
        fun f p hp ↦ LoopStage.noConfusion hp⟩
    · next hgo =>
      -- Past the cap the service scheduler is drained, and the loop ends.
      have hnot : ¬T.horizonSteps + m < s.step := by
        intro hlt
        refine hgo ((shouldTerminate_of_cap hm hlt.le exhausted).1.trans ?_)
        exact serviceSchedulerDrained_iff.mpr (h.between hbetween hlt)
      refine ⟨h.bound, fun hb ↦ LoopStage.noConfusion hb, fun _ ↦ ⟨not_lt.mp hnot, fun heq ↦ ?_⟩,
        fun f p hp ↦ LoopStage.noConfusion hp⟩
      have hcap : T.horizonSteps + m ≤ s.step := heq.ge
      rw [(shouldTerminate_of_cap hm hcap exhausted).1, serviceSchedulerDrained_iff] at hgo
      push Not at hgo
      exact hgo
  | addAgent key a => exact addAgent_capped h he.1 he.2
  | start exhausted =>
    obtain ⟨hle, hsome⟩ := h.spawning he
    refine ⟨h.bound, fun hb ↦ LoopStage.noConfusion hb, fun hsp ↦ LoopStage.noConfusion hsp,
      fun f p hp ↦ ?_⟩
    obtain ⟨rfl, rfl⟩ := LoopStage.stepping.inj hp
    refine ⟨hle, fun heq ↦ ?_⟩
    have heq' : s.step = T.horizonSteps + m := heq
    obtain ⟨run, hrun, hno⟩ := hsome heq'
    refine ⟨?_, fun hnot ↦ absurd (Dict.mem_keys_iff.mpr ⟨run, hrun⟩) hnot⟩
    rw [(shouldTerminate_of_cap hm heq'.ge exhausted).2, Bool.not_eq_true', Bool.eq_false_iff]
    exact fun hdrained ↦ hno (serviceSchedulerDrained_iff.mp hdrained run hrun)
  | beginStep key => exact beginStep_capped hm h hC
  | sweep key order => exact stepping_capped h he.1 he.2 fun _ he hc ↦ hc.sweep he
  | tick key => exact stepping_capped h he.1 he.2 fun _ he hc ↦ hc.tick he
  | finish =>
    obtain ⟨hstage, hpending, hidle⟩ := he
    rw [isStepping] at hstage
    split at hstage
    · next f p hp =>
      obtain ⟨hle, hlast⟩ := h.stepping f p hp
      rw [pending, hp] at hpending
      refine ⟨Nat.succ_le_succ hle, fun _ hlt run hrun ↦ ?_,
        fun hsp ↦ LoopStage.noConfusion hsp, fun f p hp ↦ LoopStage.noConfusion hp⟩
      have heq : s.step = T.horizonSteps + m := le_antisymm hle (Nat.lt_succ_iff.mp hlt)
      have hnone : "service" ∉ p := by
        rw [show p = [] from hpending]
        exact List.not_mem_nil
      have hphase : run.phase = .idle := hidle run (Dict.mem_values_iff.mpr ⟨"service", hrun⟩)
      refine ((hlast heq).2 hnone run hrun).after fun f hf ↦ ?_
      exact StepPhase.noConfusion (hphase.symm.trans hf)
    · exact absurd hstage Bool.false_ne_true

/-- **The cap is a hard stop**, in every run whose service scheduler clears: no step past the cap
begins after one has been made, and once one has been made the run is over at the next check. -/
theorem cap_is_hard {m : ℕ} (hm : T.maxDrainSteps = some m) {runs : Dict String SchedulerRun}
    {s : SimulationLoop}
    (h : (machine T settings).Reach (Clears T) { runs := runs } s) :
    s.step ≤ T.horizonSteps + m + 1 ∧
    (s.isStepping = true → s.step ≤ T.horizonSteps + m) ∧
    (s.stage = .between → T.horizonSteps + m < s.step → ∀ exhausted,
      T.shouldTerminate s.step s.schedulers exhausted = true) := by
  have hcapped : Capped (T.horizonSteps + m) s := by
    refine h.invariant ⟨Nat.zero_le _, fun _ hlt ↦ absurd hlt (Nat.not_lt_zero _),
      fun hsp ↦ LoopStage.noConfusion hsp, fun f p hp ↦ LoopStage.noConfusion hp⟩ ?_
    intro s e t hs hC hstep
    obtain ⟨he, rfl⟩ := step_eq hstep
    exact step_capped hm hs he hC
  refine ⟨hcapped.bound, fun hstage ↦ ?_, fun hb hlt exhausted ↦ ?_⟩
  · rw [isStepping] at hstage
    split at hstage
    · next f p hp => exact (hcapped.stepping f p hp).1
    · exact absurd hstage Bool.false_ne_true
  · refine (shouldTerminate_of_cap hm hlt.le exhausted).1.trans ?_
    exact serviceSchedulerDrained_iff.mpr (hcapped.between hb hlt)

/-! ## Two runs -/

instance (s : SchedulerRun) (r : Reply) : Decidable (s.Dismisses r) :=
  match s with
  | { phase := .waiting _, scheduler, .. } => inferInstanceAs (Decidable (scheduler.Dismisses r))
  | { phase := .idle, scheduler, .. } | { phase := .swept _, scheduler, .. } =>
    inferInstanceAs (Decidable (¬scheduler.Reinstates r))

instance (T : HorizonDrainTermination) (s : SimulationLoop) :
    (e : LoopEvent) → Decidable (s.Clears T e)
  | .beginStep key =>
    inferInstanceAs (Decidable (key = "service" → T.drainCapReached s.step = true →
      ∀ run ∈ s.runs.get? "service", ∀ entry ∈ run.scheduler.agentCollection.values,
        entry.pendingBoot = false))
  | .reply key r => inferInstanceAs (Decidable (key = "service" → s.inLastStep T = true →
      ∀ run ∈ s.runs.get? "service", run.Dismisses r))
  | .check _ | .addAgent _ _ | .start _ | .sweep _ _ | .tick _ | .finish =>
    inferInstanceAs (Decidable True)

/-- The settings of a run that drains. -/
def drainSettings : OrsimSettings where
  allowPostHorizonDrain := true
  simulationLengthInSteps := 1

/-- Horizon 1, and no step past it. -/
def tightDrain : HorizonDrainTermination where
  horizonSteps := 1
  maxDrainSteps := some 0

/-- A service scheduler whose only agent has been launched. -/
def launchedService : Dict String SchedulerRun :=
  Dict.ofList [("service",
    { scheduler := Scheduler.addAgent {} "analytics", launched := {"analytics"} })]

/-- The events of one step that only the service scheduler makes. -/
def serviceStep (replies : List Reply) (order : List AgentId) : List LoopEvent :=
  [.check true, .start true, .beginStep "service"] ++ replies.map (.reply "service") ++
    [.sweep "service" order, .tick "service", .finish]

/-- The agent boots, makes step 0 and leaves on step 1, the final one. -/
theorem cap_is_hard_small : ∃ s, (machine tightDrain drainSettings).Reach (Clears tightDrain)
      { runs := launchedService } s ∧ s.step = 2 ∧
    ∀ exhausted, tightDrain.shouldTerminate s.step s.schedulers exhausted = true := by
  have hrun : ((machine tightDrain drainSettings).execWhen (Clears tightDrain)
      { runs := launchedService }
      ([.reply "service" (SchedulerRun.answer "analytics" (-1) .ready none)] ++
        serviceStep [SchedulerRun.answer "analytics" 0 .completed none] [] ++
        serviceStep [SchedulerRun.answer "analytics" 1 .shutdown none] ["analytics"])).any fun s ↦
      s.step = 2 ∧ s.stage = .between := by
    decide
  obtain ⟨s, hs, h⟩ := (Option.any_eq_true _ _).mp hrun
  obtain ⟨hstep, hstage⟩ := of_decide_eq_true h
  have hreach := Machine.reach_of_execWhen hs
  have hlt : tightDrain.horizonSteps + 0 < s.step := by
    rw [hstep]
    decide
  exact ⟨s, hreach, hstep, (cap_is_hard (m := 0) rfl hreach).2.2 hstage hlt⟩

/-- The agent never boots: steps 1 and 2 are final ones, and the run is still not over. -/
theorem cap_overrun : ∃ s, (machine tightDrain drainSettings).Reach (fun _ _ ↦ True)
      { runs := launchedService } s ∧ s.step = 3 ∧ s.stage = .between ∧
    tightDrain.shouldTerminate s.step s.schedulers true = false := by
  have hrun : ((machine tightDrain drainSettings).exec { runs := launchedService }
      (serviceStep [] [] ++ serviceStep [] [] ++ serviceStep [] [])).any fun s ↦
      s.step = 3 ∧ s.stage = .between ∧
        tightDrain.shouldTerminate s.step s.schedulers true = false := by
    decide
  obtain ⟨s, hs, h⟩ := (Option.any_eq_true _ _).mp hrun
  exact ⟨s, Machine.reach_of_exec _ hs fun _ _ _ ↦ trivial, of_decide_eq_true h⟩

end SimulationLoop

end OpenRide.Simulation
