import OpenRide.Simulation.SchedulerRun

/-!
# The accounts of the barrier

While a step runs, the scheduler counts replies instead of looking at its agents.  `Accounts` says
what the counts stand for: who of the awaited agents has sent a reply about the step, how many have
not, by which reactions, and whether the step was woken.  That much holds in every run.

The agents that are pruned at the end of the step are the silent ones.  A silent agent has booted,
but it may sleep: a late reply about an earlier step can announce a nap past a step that already
waits for the agent (`pruned_asleep`).  In every run in which no reply does that, no agent is pruned
in its sleep (`barrier_exact`).
-/

namespace OpenRide.Simulation

open Lib

/-! ## What the step publishes -/

/-- An entry of `agent_stat`. -/
structure AgentStat where
  completed : ℕ
  ready : ℕ
  error : ℕ
  shutdown : ℕ
  waiting : ℤ
  booting : ℕ
  sleeping : ℕ
  steppingAgents : ℕ
  totalAgents : ℕ
deriving DecidableEq

namespace Scheduler

/-- How many agents have replied with an action. -/
def reactions (s : Scheduler) (action : Action) : ℕ := (s.reactionCounts.get? action).getD 0

/-- `_update_agent_stat`. -/
def updateAgentStat (s : Scheduler) : AgentStat where
  completed := s.reactions .completed
  ready := s.reactions .ready
  error := s.reactions .error
  shutdown := s.reactions .shutdown
  waiting := if s.outstanding > 0 then s.outstanding else 0
  booting := s.bootingCountThisStep
  sleeping := s.sleepingCountThisStep
  steppingAgents := s.didStepCount
  totalAgents := s.agentCollection.size

/-- The sum of the counters. -/
def reactionSum (s : Scheduler) : ℕ :=
  s.reactions .completed + s.reactions .ready + s.reactions .error + s.reactions .shutdown

theorem reactions_set (s t : Scheduler) (action : Action)
    (h : t.reactionCounts = s.reactionCounts.set action (s.reactions action + 1)) (b : Action) :
    t.reactions b = s.reactions b + if b = action then 1 else 0 := by
  rw [reactions, h, Dict.get?_set]
  split
  · next hb => rw [hb, Option.getD_some]
  · rfl

/-- One more reaction is one more in the sum. -/
theorem reactionSum_set {s t : Scheduler} {action : Action}
    (h : t.reactionCounts = s.reactionCounts.set action (s.reactions action + 1)) :
    t.reactionSum = s.reactionSum + 1 := by
  simp only [reactionSum, reactions_set s t action h]
  cases action <;> simp <;> omega

/-- The nap a reply enters into the table. -/
def napOf (s : Scheduler) (r : Reply) : Option WakeStep :=
  match r.sleepSteps with
  | none => none
  | some n =>
    if n = 0 then none else if n < 0 then some .never
    else some (.step ((s.responseTimeStep r).getD s.time + n))

theorem napOf_eq {s t : Scheduler} (h : t.time = s.time) (r : Reply) : t.napOf r = s.napOf r := by
  rw [napOf, napOf, responseTimeStep, responseTimeStep, h]

theorem noteSleep_napOf (s : Scheduler) (r : Reply) :
    (s.noteSleep r).sleepingUntil.get? r.agentId = s.napOf r := by
  cases hs : r.sleepSteps with
  | none =>
    rw [noteSleep, napOf, hs]
    exact endNap_self s _
  | some n =>
    rw [noteSleep, napOf, hs]
    dsimp only
    split
    · exact endNap_self s _
    · split <;> exact Dict.get?_set_self _ _ _

theorem handleReply_napOf (s : Scheduler) (r : Reply) :
    (s.handleReply r).sleepingUntil.get? r.agentId = s.napOf r := by
  rw [handleReply, (tally_ledgers _ r).1, noteSleep_napOf,
    napOf_eq (acknowledge_sameStep s r).time]

/-- The reply lets its agent sleep through the current step. -/
def NapsPast (s : Scheduler) (r : Reply) : Prop := ∃ wake ∈ s.napOf r, ¬wake.OverBy s.time

theorem sleeps_handleReply_self {s : Scheduler} {r : Reply} :
    (s.handleReply r).Sleeps r.agentId ↔ s.NapsPast r := by
  rw [Sleeps, NapsPast, handleReply_napOf, (handleReply_sameStep s r).time]

theorem sleeps_handleReply_ne {s : Scheduler} {r : Reply} {a : AgentId} (h : a ≠ r.agentId) :
    (s.handleReply r).Sleeps a ↔ s.Sleeps a := by
  rw [Sleeps, Sleeps, (handleReply_ne s r h).1, (handleReply_sameStep s r).time]

end Scheduler

namespace SchedulerRun

/-- A step runs, and its clock has not yet moved. -/
def InStep (s : SchedulerRun) : Prop := s.phase ≠ .idle

/-- The agent has sent a reply about the step. -/
def Answered (s : SchedulerRun) (a : AgentId) : Prop :=
  ∃ r ∈ s.heard, r.agentId = a ∧ s.scheduler.responseTimeStep r = some ↑s.scheduler.time

instance (s : SchedulerRun) (a : AgentId) : Decidable (s.Answered a) :=
  inferInstanceAs (Decidable (∃ r ∈ s.heard, _))

/-- The agents that are waited for and have sent no reply about the step. -/
def silent (s : SchedulerRun) : Finset AgentId :=
  s.scheduler.expectedThisStep.filter fun a ↦ ¬s.Answered a

/-- What the counts stand for. -/
structure Accounts (s : SchedulerRun) : Prop where
  responded : s.scheduler.respondedThisStep =
    s.scheduler.expectedThisStep.filter fun a ↦ s.Answered a
  outstanding : s.scheduler.outstanding = s.silent.card
  reactions : s.scheduler.reactionSum = s.scheduler.respondedThisStep.card
  signals : s.signals =
    if s.scheduler.expectedThisStep ≠ ∅ ∧ s.scheduler.outstanding = 0 then 1 else 0
  shutdown : ∀ a ∈ s.scheduler.shutdownReplied, s.Answered a

/-! ## One reply -/

variable {s : SchedulerRun}

variable {r : Reply} {a : AgentId}

theorem answered_reply :
    (s.next (.reply r)).Answered a ↔ s.Answered a ∨
      a = r.agentId ∧ s.scheduler.responseTimeStep r = some ↑s.scheduler.time := by
  have htime : (s.scheduler.handleReply r).time = s.scheduler.time :=
    (Scheduler.handleReply_sameStep _ r).time
  have hstamp : ∀ r', (s.scheduler.handleReply r).responseTimeStep r' =
      s.scheduler.responseTimeStep r' := by
    intro r'
    rw [Scheduler.responseTimeStep, Scheduler.responseTimeStep, htime]
  rw [Answered, Answered, next]
  simp only [List.mem_cons, hstamp, htime]
  constructor
  · rintro ⟨r', rfl | hr', ha, hnow⟩
    · exact Or.inr ⟨ha.symm, hnow⟩
    · exact Or.inl ⟨r', hr', ha, hnow⟩
  · rintro (⟨r', hr', h⟩ | ⟨rfl, hnow⟩)
    · exact ⟨r', Or.inr hr', h⟩
    · exact ⟨r, Or.inl rfl, rfl, hnow⟩

/-- A reply that counts takes its agent from the silent ones. -/
theorem silent_reply (h : s.Accounts) (r : Reply) :
    (s.next (.reply r)).silent =
      if s.scheduler.Counts r then s.silent.erase r.agentId else s.silent := by
  have hexp : (s.scheduler.handleReply r).expectedThisStep = s.scheduler.expectedThisStep :=
    (Scheduler.handleReply_sameStep _ r).expectedThisStep
  have hmem : ∀ a, a ∈ (s.next (.reply r)).silent ↔ a ∈ s.silent ∧
      ¬(a = r.agentId ∧ s.scheduler.responseTimeStep r = some ↑s.scheduler.time) := by
    intro a
    rw [silent, silent, Finset.mem_filter, Finset.mem_filter, answered_reply, not_or, and_assoc]
    exact and_congr_left fun _ ↦ by rw [← hexp]; rfl
  ext a
  rw [hmem]
  split
  · next hcounts =>
    rw [Finset.mem_erase, and_comm]
    exact and_congr_left fun _ ↦ not_congr (and_iff_left hcounts.1)
  · next hno =>
    refine and_iff_left_of_imp ?_
    rintro ha ⟨rfl, hnow⟩
    obtain ⟨ha, hans⟩ := Finset.mem_filter.mp ha
    refine hno ⟨hnow, ha, ?_⟩
    rw [h.responded, Finset.mem_filter]
    exact fun hc ↦ hans hc.2

theorem mem_silent_iff (h : s.Accounts) :
    a ∈ s.silent ↔ a ∈ s.scheduler.expectedThisStep ∧ a ∉ s.scheduler.respondedThisStep := by
  rw [silent, h.responded, Finset.mem_filter, Finset.mem_filter]
  exact and_congr_right fun ha ↦ not_congr (and_iff_right ha).symm

theorem expected_reply (s : SchedulerRun) (r : Reply) :
    (s.next (.reply r)).scheduler.expectedThisStep = s.scheduler.expectedThisStep :=
  (Scheduler.handleReply_sameStep s.scheduler r).expectedThisStep

theorem responded_reply (h : s.Accounts) (r : Reply) :
    (s.next (.reply r)).scheduler.respondedThisStep =
      (s.next (.reply r)).scheduler.expectedThisStep.filter fun a ↦
        (s.next (.reply r)).Answered a := by
  have hresp : (s.next (.reply r)).scheduler.respondedThisStep =
      if s.scheduler.Counts r then insert r.agentId s.scheduler.respondedThisStep
      else s.scheduler.respondedThisStep := (Scheduler.handleReply_barrier s.scheduler r).2.1
  ext a
  rw [hresp, Finset.mem_filter, expected_reply, answered_reply]
  split
  · next hcounts =>
    rw [Finset.mem_insert, h.responded, Finset.mem_filter]
    constructor
    · rintro (rfl | ⟨ha, hans⟩)
      · exact ⟨hcounts.2.1, Or.inr ⟨rfl, hcounts.1⟩⟩
      · exact ⟨ha, Or.inl hans⟩
    · rintro ⟨ha, hans | ⟨rfl, -⟩⟩
      · exact Or.inr ⟨ha, hans⟩
      · exact Or.inl rfl
  · next hno =>
    rw [h.responded, Finset.mem_filter]
    refine and_congr_right fun ha ↦ (or_iff_left_of_imp ?_).symm
    rintro ⟨rfl, hnow⟩
    by_contra hans
    refine hno ⟨hnow, ha, ?_⟩
    rw [h.responded, Finset.mem_filter]
    exact fun hc ↦ hans hc.2

/-- A reply that counts finds its agent silent, and the step not yet woken. -/
theorem Accounts.of_counts (h : s.Accounts) (hc : s.scheduler.Counts r) :
    r.agentId ∈ s.silent ∧ 0 < s.scheduler.outstanding ∧ s.signals = 0 := by
  have hmem : r.agentId ∈ s.silent := (mem_silent_iff h).mpr hc.2
  have hpos : 0 < s.scheduler.outstanding := by
    rw [h.outstanding]
    exact_mod_cast Finset.card_pos.mpr ⟨_, hmem⟩
  refine ⟨hmem, hpos, ?_⟩
  rw [h.signals, if_neg fun hz ↦ hpos.ne' hz.2]

/-- The step is woken by the reply that leaves no agent outstanding. -/
theorem signalsBarrierDone_iff (h : s.Accounts) :
    s.scheduler.signalsBarrierDone r = true ↔
      0 < s.scheduler.outstanding ∧ (s.next (.reply r)).scheduler.outstanding = 0 := by
  have hout : (s.next (.reply r)).scheduler.outstanding =
      if s.scheduler.Counts r then s.scheduler.outstanding - 1 else s.scheduler.outstanding :=
    (Scheduler.handleReply_barrier s.scheduler r).2.2.1
  rw [Scheduler.signalsBarrierDone, decide_eq_true_eq]
  change s.scheduler.Counts r ∧ (s.next (.reply r)).scheduler.outstanding ≤ 0 ↔ _
  rw [hout]
  split
  · next hc =>
    obtain ⟨-, hpos, -⟩ := h.of_counts hc
    exact ⟨fun hz ↦ ⟨hpos, by omega⟩, fun hz ↦ ⟨hc, by omega⟩⟩
  · next hno => exact ⟨fun hz ↦ absurd hz.1 hno, fun hz ↦ absurd hz.2 hz.1.ne'⟩

theorem reply_accounts (h : s.Accounts) (r : Reply) : (s.next (.reply r)).Accounts := by
  obtain ⟨hshut, hresp, hout, hreact⟩ := Scheduler.handleReply_barrier s.scheduler r
  have hsignals : (s.next (.reply r)).signals =
      if s.scheduler.signalsBarrierDone r then s.signals + 1 else s.signals := rfl
  refine ⟨responded_reply h r, ?_, ?_, ?_, ?_⟩
  · change (s.scheduler.handleReply r).outstanding = _
    rw [hout, silent_reply h]
    split
    · next hc =>
      obtain ⟨hmem, -⟩ := h.of_counts hc
      have hcard := Finset.card_erase_add_one hmem
      rw [h.outstanding]
      omega
    · exact h.outstanding
  · change (s.scheduler.handleReply r).reactionSum =
      (s.scheduler.handleReply r).respondedThisStep.card
    rw [hresp]
    by_cases hc : s.scheduler.Counts r
    · rw [if_pos hc] at hreact ⊢
      rw [Scheduler.reactionSum_set hreact, Finset.card_insert_of_notMem hc.2.2, h.reactions]
    · rw [if_neg hc] at hreact ⊢
      rw [← h.reactions]
      simp only [Scheduler.reactionSum, Scheduler.reactions, hreact]
  · rw [hsignals, expected_reply]
    by_cases hdone : s.scheduler.signalsBarrierDone r = true
    · have hc : s.scheduler.Counts r := (of_decide_eq_true hdone).1
      obtain ⟨-, -, hnone⟩ := h.of_counts hc
      rw [if_pos hdone,
        if_pos ⟨Finset.ne_empty_of_mem hc.2.1, ((signalsBarrierDone_iff h).mp hdone).2⟩,
        hnone]
    · rw [if_neg hdone, h.signals]
      by_cases hz : s.scheduler.outstanding = 0
      · have hno : ¬s.scheduler.Counts r := fun hc ↦ (h.of_counts hc).2.1.ne' hz
        have hsame : (s.next (.reply r)).scheduler.outstanding = s.scheduler.outstanding := by
          change (s.scheduler.handleReply r).outstanding = _
          rw [hout, if_neg hno]
        rw [hsame]
      · have hpos : 0 < s.scheduler.outstanding :=
          lt_of_le_of_ne (h.outstanding ▸ Int.natCast_nonneg _) (Ne.symm hz)
        rw [if_neg fun hc ↦ hz hc.2, if_neg fun hc ↦
          hdone ((signalsBarrierDone_iff h).mpr ⟨hpos, hc.2⟩)]
  · intro a ha
    change a ∈ (s.scheduler.handleReply r).shutdownReplied at ha
    rw [hshut] at ha
    refine answered_reply.mpr ?_
    split at ha
    · next hnow =>
      rcases Finset.mem_insert.mp ha with rfl | ha
      · exact Or.inr ⟨rfl, hnow.1⟩
      · exact Or.inl (h.shutdown a ha)
    · exact Or.inl (h.shutdown a ha)

/-! ## A whole step -/

theorem beginStep_accounts (s : SchedulerRun) (isFinal : Bool) :
    (s.next (.beginStep isFinal)).Accounts := by
  have hnone : ∀ a, ¬(s.next (.beginStep isFinal)).Answered a := by
    rintro a ⟨r, hr, -⟩
    exact List.not_mem_nil hr
  have hsilent : (s.next (.beginStep isFinal)).silent =
      (s.next (.beginStep isFinal)).scheduler.expectedThisStep :=
    Finset.filter_true_of_mem fun a _ ↦ hnone a
  refine ⟨?_, ?_, rfl, ?_, fun a ha ↦ absurd ha (Finset.notMem_empty a)⟩
  · exact (Finset.filter_false_of_mem fun a _ ↦ hnone a).symm
  · rw [hsilent]
    rfl
  · refine (if_neg fun hz ↦ hz.1 (Finset.card_eq_zero.mp ?_)).symm
    exact Int.natCast_eq_zero.mp hz.2

/-- A sweep leaves the accounts of its step. -/
theorem sweep_accounts (h : s.Accounts) {order : List AgentId} {isFinal : Bool}
    (hp : s.phase = .waiting isFinal) : (s.next (.sweep order)).Accounts := by
  obtain ⟨htime, hexp, hresp, hshut, hout, hreact⟩ :=
    Scheduler.sweep_sameBarrier s.scheduler order isFinal
  rw [sweep_eq hp]
  have hans : ∀ a, Answered { s with
      scheduler := s.scheduler.sweep order isFinal, phase := .swept isFinal } a ↔ s.Answered a := by
    intro a
    simp only [Answered, Scheduler.responseTimeStep, htime]
  refine ⟨?_, ?_, ?_, ?_, fun a ha ↦ (hans a).mpr (h.shutdown a (hshut ▸ ha))⟩
  · simp only [hans, hexp, hresp]
    exact h.responded
  · simp only [silent, hans, hexp, hout]
    exact h.outstanding
  · simp only [Scheduler.reactionSum, Scheduler.reactions, hreact, hresp]
    exact h.reactions
  · simp only [hexp, hout]
    exact h.signals

/-- **The accounts are right** while a step runs. -/
theorem reach_accounts {C : SchedulerRun → RunEvent → Prop} (h : machine.Reach C {} s) :
    s.InStep → s.Accounts := by
  refine h.invariant (P := fun s ↦ s.InStep → s.Accounts) (fun hidle ↦ absurd rfl hidle) ?_
  intro s e t hs _ hstep hin
  obtain ⟨he, rfl⟩ := step_eq hstep
  cases e with
  | addAgent a => exact absurd he.1 hin
  | reply r => exact reply_accounts (hs hin) r
  | beginStep isFinal => exact beginStep_accounts s isFinal
  | sweep order =>
    obtain ⟨⟨isFinal, hp⟩, -⟩ := he
    refine sweep_accounts (hs ?_) hp
    rw [InStep, hp]
    exact StepPhase.noConfusion
  | tick => exact absurd rfl hin

/-! ## Who is pruned -/

/-- The agents that a sweep prunes are the silent ones. -/
theorem mem_pruned_iff (hl : Ledgers s) (ha : s.Accounts) {order : List AgentId}
    (he : s.Enabled (.sweep order)) : a ∈ s.scheduler.pruned order ↔ a ∈ s.silent := by
  obtain ⟨hp, -, horder⟩ := he
  rw [Scheduler.mem_pruned, Scheduler.stashes_iff, mem_silent_iff ha]
  constructor
  · rintro ⟨-, -, hexp, hresp, -⟩
    exact ⟨hexp, hresp⟩
  · rintro ⟨hexp, hresp⟩
    refine ⟨?_, ?_, hexp, hresp, fun hshut ↦ ?_⟩
    · rw [← List.mem_toFinset, horder]
      exact Finset.mem_union_right _ (Finset.mem_sdiff.mpr ⟨hexp, hresp⟩)
    · exact Scheduler.registered_of_get? (hl.expected hp a hexp)
    · refine hresp ?_
      rw [ha.responded, Finset.mem_filter]
      exact ⟨hexp, ha.shutdown a hshut⟩

/-- **Announced in time**: while a step waits, no awaited agent that has not answered it announces,
on a reply about another step, a nap past it. -/
def AnnouncedInTime (s : SchedulerRun) : RunEvent → Prop
  | .reply r => s.InStep → r.agentId ∈ s.silent → s.scheduler.NapsPast r →
      s.scheduler.responseTimeStep r = some ↑s.scheduler.time
  | _ => True

/-- No silent agent sleeps while a step waits for it. -/
def Awake (s : SchedulerRun) : Prop :=
  (∃ isFinal, s.phase = .waiting isFinal) → ∀ a ∈ s.silent, ¬s.scheduler.Sleeps a

theorem beginStep_awake (s : SchedulerRun) (isFinal : Bool) :
    (s.next (.beginStep isFinal)).Awake := by
  rintro - a ha ⟨wake, hwake, hlate⟩
  have hawaits := Scheduler.mem_expectedThisStep.mp (Finset.mem_filter.mp ha).1
  exact hlate (hawaits.2 wake (Dict.get?_filter.mp hwake).1)

theorem reply_awake (h : s.Awake) (hC : s.AnnouncedInTime (.reply r)) :
    (s.next (.reply r)).Awake := by
  intro hp a hsilent hsleeps
  obtain ⟨isFinal, hp⟩ := hp
  have hp' : s.phase = .waiting isFinal := hp
  have hin : s.InStep := by
    rw [InStep, hp']
    exact StepPhase.noConfusion
  obtain ⟨hexp, hans⟩ := Finset.mem_filter.mp hsilent
  rw [answered_reply, not_or] at hans
  have hbefore : a ∈ s.silent := Finset.mem_filter.mpr ⟨expected_reply s r ▸ hexp, hans.1⟩
  by_cases hself : a = r.agentId
  · subst hself
    exact hans.2 ⟨rfl, hC hin hbefore (Scheduler.sleeps_handleReply_self.mp hsleeps)⟩
  · exact h ⟨isFinal, hp'⟩ a hbefore ((Scheduler.sleeps_handleReply_ne hself).mp hsleeps)

theorem reach_awake (h : machine.Reach AnnouncedInTime {} s) : s.Awake := by
  refine h.invariant (P := Awake) (fun ⟨_, hp⟩ ↦ StepPhase.noConfusion hp) ?_
  intro s e t hs hC hstep
  obtain ⟨he, rfl⟩ := step_eq hstep
  cases e with
  | addAgent a =>
    rintro ⟨isFinal, hp⟩
    exact absurd (he.1.symm.trans hp) StepPhase.noConfusion
  | reply r => exact reply_awake hs hC
  | beginStep isFinal => exact beginStep_awake s isFinal
  | sweep order =>
    obtain ⟨⟨isFinal, hp⟩, -⟩ := he
    rw [sweep_eq hp]
    exact fun ⟨_, hp⟩ ↦ StepPhase.noConfusion hp
  | tick => exact fun ⟨_, hp⟩ ↦ StepPhase.noConfusion hp

/-- **The barrier is exact**, in every run whose naps are announced in time: while a step runs,
`outstanding` counts the silent agents, the step is woken once, by the reply that leaves none, the
counters add up to the agents that have replied, and those pruned at the end are the silent ones,
which have booted and do not sleep. -/
theorem barrier_exact {s : SchedulerRun} (h : machine.Reach AnnouncedInTime {} s)
    (hin : s.InStep) :
    s.scheduler.outstanding = s.silent.card ∧
    s.signals = (if s.scheduler.expectedThisStep ≠ ∅ ∧ s.scheduler.outstanding = 0 then 1 else 0) ∧
    (∀ r, s.scheduler.signalsBarrierDone r = true ↔
      0 < s.scheduler.outstanding ∧ (s.next (.reply r)).scheduler.outstanding = 0) ∧
    s.scheduler.updateAgentStat.completed + s.scheduler.updateAgentStat.ready +
      s.scheduler.updateAgentStat.error + s.scheduler.updateAgentStat.shutdown =
        s.scheduler.respondedThisStep.card ∧
    (∀ a, a ∈ s.scheduler.respondedThisStep ↔
      a ∈ s.scheduler.expectedThisStep ∧ s.Answered a) ∧
    ∀ order, s.Enabled (.sweep order) → ∀ a,
      (a ∈ s.scheduler.pruned order ↔ a ∈ s.silent) ∧
      (a ∈ s.scheduler.pruned order →
        s.scheduler.agentCollection.get? a = some { pendingBoot := false } ∧
          ¬s.scheduler.Sleeps a) := by
  have hledgers := reach_ledgers h
  have haccounts := reach_accounts h hin
  refine ⟨haccounts.outstanding, haccounts.signals, fun r ↦ signalsBarrierDone_iff haccounts,
    haccounts.reactions, fun a ↦ ?_, fun order he a ↦ ⟨mem_pruned_iff hledgers haccounts he, ?_⟩⟩
  · rw [haccounts.responded, Finset.mem_filter]
  · intro ha
    have hsilent := (mem_pruned_iff hledgers haccounts he).mp ha
    exact ⟨hledgers.expected he.1 a (Finset.mem_filter.mp hsilent).1, reach_awake h he.1 a hsilent⟩

/-! ## Two runs -/

instance (s : Scheduler) (a : AgentId) : Decidable (s.Sleeps a) :=
  inferInstanceAs (Decidable (∃ wake ∈ s.sleepingUntil.get? a, _))

instance (s : Scheduler) (r : Reply) : Decidable (s.NapsPast r) :=
  inferInstanceAs (Decidable (∃ wake ∈ s.napOf r, _))

instance (s : SchedulerRun) : Decidable s.InStep := inferInstanceAs (Decidable (_ ≠ _))

instance (s : SchedulerRun) : (e : RunEvent) → Decidable (s.AnnouncedInTime e)
  | .reply r => inferInstanceAs (Decidable (s.InStep → r.agentId ∈ s.silent →
      s.scheduler.NapsPast r → s.scheduler.responseTimeStep r = some ↑s.scheduler.time))
  | .addAgent _ | .beginStep _ | .sweep _ | .tick => inferInstanceAs (Decidable True)

/-- A truck naps until step 2, and wakes on step 1, whose end comes before its reply. -/
def earlyWake : List RunEvent :=
  [.addAgent "truck", .reply (answer "truck" (-1) .ready none), .beginStep false,
    .reply (answer "truck" 0 .completed (some 2)), .sweep [], .tick,
    .beginStep false, .sweep [], .tick]

/-- The truck answers step 2, which announces a nap. -/
theorem barrier_exact_small : ∃ s, machine.Reach AnnouncedInTime {} s ∧ s.signals = 1 ∧
    s.scheduler.outstanding = s.silent.card := by
  have hrun : (machine.execWhen AnnouncedInTime {} (earlyWake ++
      [.beginStep false, .reply (answer "truck" 2 .completed (some 5))])).any fun s ↦
        s.InStep ∧ s.signals = 1 := by
    decide
  obtain ⟨s, hs, h⟩ := (Option.any_eq_true _ _).mp hrun
  obtain ⟨hin, hsignals⟩ := of_decide_eq_true h
  have hreach := Machine.reach_of_execWhen hs
  exact ⟨s, hreach, hsignals, (barrier_exact hreach hin).1⟩

/-- The reply about step 1 comes in step 2, which waits for the truck: it announces a nap until
step 6, and the truck is pruned in its sleep. -/
theorem pruned_asleep : ∃ s, machine.Reach (fun _ _ ↦ True) {} s ∧ s.InStep ∧
    s.Enabled (.sweep ["truck"]) ∧ "truck" ∈ s.scheduler.pruned ["truck"] ∧
    s.scheduler.Sleeps "truck" := by
  have hrun : (machine.exec {} (earlyWake ++
      [.beginStep false, .reply (answer "truck" 1 .completed (some 5))])).any fun s ↦
        s.InStep ∧ s.Enabled (.sweep ["truck"]) ∧ "truck" ∈ s.scheduler.pruned ["truck"] ∧
          s.scheduler.Sleeps "truck" := by
    decide
  obtain ⟨s, hs, h⟩ := (Option.any_eq_true _ _).mp hrun
  exact ⟨s, Machine.reach_of_exec _ hs fun _ _ _ ↦ trivial, of_decide_eq_true h⟩

end SchedulerRun

end OpenRide.Simulation
