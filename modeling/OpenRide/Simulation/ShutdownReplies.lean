import OpenRide.Simulation.SchedulerRun
import Mathlib.Data.Fintype.Basic

/-!
# Replies that ask to shut down

A shutdown reply is remembered in `shutdownReplied`, which every step starts anew, and only if the
reply is about the current step.  So it takes effect exactly if the reply is handled while a step
waits, and is about that step (`shutdown_kept_iff`).  Before the barrier is set and after the sweep
it is forgotten, as is a late one while a step waits.  This is what happens to an agent that wakes
up to shut down, as no step waits for its reply (`shutdown_lost`).

That a recorded reply is kept is an invariant with two phases: the agent is `Asked` to leave until
the sweep, and `Gone` from then on.
-/

namespace OpenRide.Simulation

open Lib

namespace SchedulerRun

/-- How many sweeps have ended. -/
def sweeps (s : SchedulerRun) : ℕ :=
  s.scheduler.time + match s.phase with
    | .swept _ => 1
    | _ => 0

/-- How many barriers have been set. -/
def begun (s : SchedulerRun) : ℕ :=
  s.scheduler.time + match s.phase with
    | .idle => 0
    | _ => 1

/-- From `t` to `u`, the agent is gone once a sweep has ended, and waited for in no new step. -/
def Kept (t : SchedulerRun) (a : AgentId) (u : SchedulerRun) : Prop :=
  (t.sweeps < u.sweeps → ¬u.scheduler.Registered a) ∧
    (t.begun < u.begun → a ∉ u.scheduler.expectedThisStep)

/-- The reply is handled while a step waits, and is about this step; or one that was has come
before. -/
def Recorded (s : SchedulerRun) (r : Reply) : Prop :=
  (∃ isFinal, s.phase = .waiting isFinal) ∧
    (s.scheduler.responseTimeStep r = some ↑s.scheduler.time ∨
      r.agentId ∈ s.scheduler.shutdownReplied)

instance (s : SchedulerRun) (r : Reply) : Decidable (s.Recorded r) :=
  inferInstanceAs (Decidable (_ ∧ _))

/-! ## A recorded reply is kept -/

/-- The agent is registered for removal in the step that waits. -/
structure Asked (s : SchedulerRun) (a : AgentId) : Prop where
  waiting : ∃ isFinal, s.phase = .waiting isFinal
  replied : a ∈ s.scheduler.shutdownReplied
  unstashed : s.scheduler.prunedStash.get? a = none
  launched : a ∈ s.launched

/-- The agent is gone, and nothing can bring it back. -/
structure Gone (s : SchedulerRun) (a : AgentId) : Prop where
  removed : ¬s.scheduler.Registered a
  unstashed : s.scheduler.prunedStash.get? a = none
  launched : a ∈ s.launched

variable {a : AgentId}

/-- No reply puts an agent into the stash. -/
theorem handleReply_unstashed {s : Scheduler} {r : Reply} (h : s.prunedStash.get? a = none) :
    (s.handleReply r).prunedStash.get? a = none := by
  rw [Scheduler.handleReply_prunedStash]
  split
  · rw [Dict.get?_erase, h, ite_self]
  · exact h

theorem shutdownReplied_subset (s : Scheduler) (r : Reply) :
    s.shutdownReplied ⊆ (s.handleReply r).shutdownReplied := by
  rw [(Scheduler.handleReply_barrier s r).1]
  split
  · exact Finset.subset_insert _ _
  · exact Finset.Subset.refl _

variable {s : SchedulerRun}

theorem Asked.reply (h : s.Asked a) (r : Reply) :
    (s.next (.reply r)).Asked a where
  waiting := h.waiting
  replied := shutdownReplied_subset _ r h.replied
  unstashed := handleReply_unstashed h.unstashed
  launched := h.launched

theorem Asked.sweep (h : s.Asked a) {order : List AgentId} (he : s.Enabled (.sweep order)) :
    (s.next (.sweep order)).Gone a := by
  obtain ⟨⟨isFinal, hp⟩, -, horder⟩ := he
  have hmem : a ∈ order := by
    rw [← List.mem_toFinset, horder]
    exact Finset.mem_union_left _ h.replied
  rw [sweep_eq hp]
  refine ⟨fun hr ↦ (Scheduler.swept_iff.mp hr).2.1 hmem, ?_, h.launched⟩
  by_contra hstash
  rcases Scheduler.sweep_prunedStash hstash with hs | hs
  · exact hs h.unstashed
  · exact (Scheduler.stashes_iff.mp (Scheduler.mem_pruned.mp hs).2).2.2.2 h.replied

theorem Gone.next (h : s.Gone a) {e : RunEvent} (he : s.Enabled e) : (s.next e).Gone a := by
  cases e with
  | addAgent b =>
    have hne : a ≠ b := fun hab ↦ he.2 (hab ▸ h.launched)
    refine ⟨fun hr ↦ h.removed ?_, h.unstashed, Finset.mem_insert_of_mem h.launched⟩
    exact fun hnone ↦ hr ((Dict.get?_set_ne _ _ hne).trans hnone)
  | reply r =>
    refine ⟨fun hr ↦ ?_, handleReply_unstashed h.unstashed, h.launched⟩
    rcases Scheduler.registered_handleReply.mp hr with hr | ⟨rfl, hre⟩
    · exact h.removed hr
    · exact hre.2.2 h.unstashed
  | beginStep isFinal => exact ⟨h.removed, h.unstashed, h.launched⟩
  | sweep order =>
    obtain ⟨⟨isFinal, hp⟩, -⟩ := he
    rw [sweep_eq hp]
    refine ⟨fun hr ↦ h.removed (Scheduler.swept_iff.mp hr).1, ?_, h.launched⟩
    by_contra hstash
    rcases Scheduler.sweep_prunedStash hstash with hs | hs
    · exact hs h.unstashed
    · exact h.removed (Scheduler.stashes_iff.mp (Scheduler.mem_pruned.mp hs).2).1
  | tick => exact ⟨h.removed, h.unstashed, h.launched⟩

/-- The two phases of a recorded reply. -/
def Held (t : SchedulerRun) (a : AgentId) (u : SchedulerRun) : Prop :=
  u.Asked a ∧ u.sweeps = t.sweeps ∧ u.begun = t.begun ∨
    u.Gone a ∧ (t.begun < u.begun → a ∉ u.scheduler.expectedThisStep)

variable {t u : SchedulerRun}

theorem Held.kept (h : t.Held a u) : t.Kept a u := by
  rcases h with ⟨-, hsweeps, hbegun⟩ | ⟨hgone, hexp⟩
  · exact ⟨fun hlt ↦ absurd hsweeps hlt.ne', fun hlt ↦ absurd hbegun hlt.ne'⟩
  · exact ⟨fun _ ↦ hgone.removed, hexp⟩

/-- A reply does not move the step. -/
theorem reply_counts (s : SchedulerRun) (r : Reply) :
    (s.next (.reply r)).sweeps = s.sweeps ∧ (s.next (.reply r)).begun = s.begun := by
  have htime : (s.scheduler.handleReply r).time = s.scheduler.time :=
    (Scheduler.handleReply_sameStep _ r).time
  rw [sweeps, sweeps, begun, begun, next, htime]
  exact ⟨rfl, rfl⟩

variable {isFinal : Bool}

/-- A sweep ends one sweep, and begins no step. -/
theorem sweep_counts {order : List AgentId} (hp : s.phase = .waiting isFinal) :
    (s.next (.sweep order)).sweeps = s.sweeps + 1 ∧ (s.next (.sweep order)).begun = s.begun := by
  have htime : (s.scheduler.sweep order isFinal).time = s.scheduler.time :=
    (Scheduler.sweep_sameBarrier _ order isFinal).time
  rw [sweep_eq hp, sweeps, sweeps, begun, begun, hp]
  rw [htime]
  exact ⟨rfl, rfl⟩

/-- The clock moves between two steps. -/
theorem tick_counts (hp : s.phase = .swept isFinal) :
    (s.next .tick).sweeps = s.sweeps ∧ (s.next .tick).begun = s.begun := by
  rw [sweeps, sweeps, begun, begun, hp]
  exact ⟨rfl, rfl⟩

theorem beginStep_counts (isFinal : Bool) (hp : s.phase = .idle) :
    (s.next (.beginStep isFinal)).sweeps = s.sweeps ∧
      (s.next (.beginStep isFinal)).begun = s.begun + 1 := by
  rw [sweeps, sweeps, begun, begun, hp]
  exact ⟨rfl, rfl⟩

theorem step_held {e : RunEvent} (h : t.Held a u) (he : u.Enabled e) : t.Held a (u.next e) := by
  rcases h with ⟨hasked, hsweeps, hbegun⟩ | ⟨hgone, hexp⟩
  · obtain ⟨isFinal, hp⟩ := hasked.waiting
    cases e with
    | reply r =>
      obtain ⟨hs, hb⟩ := reply_counts u r
      exact Or.inl ⟨hasked.reply r, hs.trans hsweeps, hb.trans hbegun⟩
    | sweep order =>
      have hb : (u.next (.sweep order)).begun = t.begun := (sweep_counts hp).2.trans hbegun
      exact Or.inr ⟨hasked.sweep he, fun hlt ↦ absurd hb hlt.ne'⟩
    | addAgent b => exact absurd (hp.symm.trans he.1) (by simp)
    | beginStep f => exact absurd (hp.symm.trans he) (by simp)
    | tick =>
      obtain ⟨f, hf⟩ := he
      exact absurd (hp.symm.trans hf) (by simp)
  · refine Or.inr ⟨hgone.next he, ?_⟩
    cases e with
    | addAgent b => exact hexp
    | reply r =>
      have hsame := (Scheduler.handleReply_sameStep u.scheduler r).expectedThisStep
      rw [(reply_counts u r).2]
      exact fun hlt hmem ↦ hexp hlt (hsame ▸ hmem)
    | beginStep f =>
      intro _ hmem
      exact hgone.removed (Scheduler.registered_of_get? (Scheduler.mem_expectedThisStep.mp hmem).1)
    | sweep order =>
      obtain ⟨⟨isFinal, hp⟩, -⟩ := he
      have hsame := (Scheduler.sweep_sameBarrier u.scheduler order isFinal).expectedThisStep
      rw [(sweep_counts hp).2, sweep_eq hp]
      exact fun hlt hmem ↦ hexp hlt (hsame ▸ hmem)
    | tick =>
      obtain ⟨isFinal, hp⟩ := he
      rw [(tick_counts hp).2]
      exact hexp

variable {C : SchedulerRun → RunEvent → Prop}

theorem kept_of_recorded {r : Reply} (hs : Ledgers s) (hr : r.action = .shutdown)
    (hreg : s.scheduler.Registered r.agentId) (hrec : s.Recorded r)
    (hu : machine.Reach C (s.next (.reply r)) u) : Kept (s.next (.reply r)) r.agentId u := by
  have hasked : (s.next (.reply r)).Asked r.agentId := by
    refine ⟨hrec.1, ?_, handleReply_unstashed ?_, hs.launched _ (Or.inl hreg)⟩
    · rcases hrec.2 with hstamp | hmem
      · change r.agentId ∈ (s.scheduler.handleReply r).shutdownReplied
        rw [(Scheduler.handleReply_barrier _ r).1, if_pos ⟨hstamp, hr⟩]
        exact Finset.mem_insert_self _ _
      · exact shutdownReplied_subset _ r hmem
    · exact not_not.mp fun hstash ↦ hs.stashed _ hstash hreg
  refine Held.kept (hu.invariant (P := (s.next (.reply r)).Held r.agentId)
    (Or.inl ⟨hasked, rfl, rfl⟩) fun u e v hv _ hstep ↦ ?_)
  obtain ⟨he, rfl⟩ := step_eq hstep
  exact step_held hv he

/-! ## A reply that is not recorded is lost -/

/-- The sweep can always take place, in any order that ends with a given agent. -/
theorem exists_order (s : Scheduler) (a : AgentId) : ∃ order : List AgentId,
    order.Nodup ∧ order.toFinset = s.toReap ∧ (a ∈ s.toReap → ∃ l, order = l ++ [a]) := by
  by_cases ha : a ∈ s.toReap
  · refine ⟨(s.toReap.erase a).toList ++ [a], ?_, ?_, fun _ ↦ ⟨_, rfl⟩⟩
    · refine List.nodup_append.mpr ⟨Finset.nodup_toList _, List.nodup_singleton a, ?_⟩
      rintro b hb c hc rfl
      rw [List.mem_singleton] at hc
      exact Finset.ne_of_mem_erase (Finset.mem_toList.mp hb) hc
    · ext b
      by_cases hb : b = a
      · simp [hb, ha]
      · simp [hb]
  · exact ⟨s.toReap.toList, Finset.nodup_toList _, Finset.toList_toFinset _,
      fun h ↦ absurd h ha⟩

/-- An agent that is not to be reaped and does not sleep survives the sweep. -/
theorem survives_sweep (hC : ∀ s e, C s e) (hp : u.phase = .waiting isFinal)
    (hreg : u.scheduler.Registered a) (hnot : a ∉ u.scheduler.toReap)
    (hnap : isFinal = true → u.scheduler.sleepingUntil.get? a = none) (hcount : u.sweeps = t.sweeps)
    : ∃ v, machine.Reach C u v ∧ ¬t.Kept a v := by
  obtain ⟨order, hnodup, hset, -⟩ := exists_order u.scheduler a
  have he : u.Enabled (.sweep order) := ⟨⟨isFinal, hp⟩, hnodup, hset⟩
  refine ⟨_, (Machine.Reach.refl u).tail (hC _ _) (step_of_enabled he), fun hkept ↦ ?_⟩
  have hlt : t.sweeps < (u.next (.sweep order)).sweeps := by
    rw [(sweep_counts hp).1, hcount]
    exact Nat.lt_succ_self _
  refine hkept.1 hlt ?_
  rw [sweep_eq hp]
  refine Scheduler.swept_iff.mpr ⟨hreg, fun hmem ↦ hnot ?_, hnap⟩
  rw [← hset]
  exact List.mem_toFinset.mpr hmem

/-- Between two steps nothing is remembered: the next step waits for the agent, or passes it by. -/
theorem lost_of_idle (hC : ∀ s e, C s e) (hp : u.phase = .idle) (hreg : u.scheduler.Registered a)
    (hsweeps : u.sweeps = t.sweeps) (hbegun : u.begun = t.begun) :
    ∃ v, machine.Reach C u v ∧ ¬t.Kept a v := by
  have he : u.Enabled (.beginStep false) := hp
  have hstep := (Machine.Reach.refl u).tail (hC u _) (step_of_enabled he)
  by_cases hmem : a ∈ (u.next (.beginStep false)).scheduler.expectedThisStep
  · refine ⟨_, hstep, fun hkept ↦ hkept.2 ?_ hmem⟩
    rw [(beginStep_counts false hp).2, hbegun]
    exact Nat.lt_succ_self _
  · have hnot : a ∉ (u.next (.beginStep false)).scheduler.toReap := by
      refine fun ha ↦ (Finset.mem_union.mp ha).elim (Finset.notMem_empty a) fun ha ↦ hmem ?_
      exact (Finset.mem_sdiff.mp ha).1
    have hwaiting : (u.next (.beginStep false)).phase = .waiting false := rfl
    obtain ⟨v, hv, hlost⟩ := survives_sweep hC hwaiting hreg hnot Bool.noConfusion
      ((beginStep_counts false hp).1.trans hsweeps)
    exact ⟨v, hstep.trans hv, hlost⟩

/-- An agent that the sweep comes to last, and stashes, is in the stash after it. -/
theorem stashed_of_last {s : Scheduler} {l : List AgentId} (hl : a ∉ l) (hs : s.stashes a = true)
    (hnone : s.prunedStash.get? a = none) :
    (s.sweep (l ++ [a]) isFinal).prunedStash.get? a ≠ none := by
  have hsweep : (s.sweep (l ++ [a]) isFinal).prunedStash =
      ((l.foldl Scheduler.reap s).reap a).prunedStash := by
    rw [Scheduler.sweep, List.foldl_append, List.foldl_cons, List.foldl_nil]
    split
    · exact Scheduler.removeSleepers_prunedStash _
    · rfl
  have hsame := Scheduler.SameBarrier.foldl Scheduler.reap_sameBarrier l s
  obtain ⟨hreg, hexp, hresp, hshut⟩ := Scheduler.stashes_iff.mp hs
  have hreg' : (l.foldl Scheduler.reap s).Registered a :=
    Scheduler.registered_foldl_reap.mpr ⟨hreg, hl⟩
  have hs' : (l.foldl Scheduler.reap s).stashes a = true := by
    rw [Scheduler.stashes_iff, hsame.expectedThisStep, hsame.respondedThisStep,
      hsame.shutdownReplied]
    exact ⟨hreg', hexp, hresp, hshut⟩
  have hnone' : (l.foldl Scheduler.reap s).prunedStash.get? a = none := by
    by_contra h
    rcases Scheduler.foldl_reap_prunedStash h with h | h
    · exact h hnone
    · exact hl (Scheduler.mem_pruned.mp h).1
  obtain ⟨entry, hentry⟩ := Option.ne_none_iff_exists'.mp hreg'
  rw [hsweep, Scheduler.reap, hentry]
  dsimp only
  rw [if_pos hs', Scheduler.removeAgent_prunedStash]
  have hsize : ∀ m, 0 < m →
      ((l.foldl Scheduler.reap s).prunedStash.set a entry).size - m ≤
        (l.foldl Scheduler.reap s).prunedStash.size := by
    intro m hm
    rw [Dict.size, Dict.entries_set entry hnone', List.length_append, Dict.size]
    exact Nat.sub_le_of_le_add (Nat.add_le_add_left hm _)
  exact (Dict.get?_dropOldest_set hnone' (hsize Scheduler.prunedStashMax (by decide))) ▸
    Option.some_ne_none entry

/-- A reply about no step at all, without a nap. -/
def straggler (a : AgentId) (action : Action) : Reply where
  agentId := a
  timeStep := none
  action := action
  didStep := false
  sleepSteps := none
  wakeTopic := none

theorem straggler_stamp (s : Scheduler) (a : AgentId) (action : Action) :
    s.responseTimeStep (straggler a action) ≠ some ↑s.time := by
  have hnone : s.responseTimeStep (straggler a action) = none := rfl
  exact (Option.some_ne_none _).symm

/-- An agent that the sweep stashes comes back with its next reply. -/
theorem returns_after_sweep (hC : ∀ s e, C s e) (hu : Ledgers u) (hp : u.phase = .waiting isFinal)
    (hreg : u.scheduler.Registered a) (hreap : a ∈ u.scheduler.toReap)
    (hshut : a ∉ u.scheduler.shutdownReplied) (hcount : u.sweeps = t.sweeps) :
    ∃ v, machine.Reach C u v ∧ ¬t.Kept a v := by
  obtain ⟨order, hnodup, hset, hlast⟩ := exists_order u.scheduler a
  obtain ⟨l, rfl⟩ := hlast hreap
  have hl : a ∉ l := fun hmem ↦
    (List.nodup_append.mp hnodup).2.2 a hmem a (List.mem_singleton_self a) rfl
  have he : u.Enabled (.sweep (l ++ [a])) := ⟨⟨isFinal, hp⟩, hnodup, hset⟩
  have hsilent := Finset.mem_sdiff.mp ((Finset.mem_union.mp hreap).resolve_left hshut)
  have hstashes : u.scheduler.stashes a = true :=
    Scheduler.stashes_iff.mpr ⟨hreg, hsilent.1, hsilent.2, hshut⟩
  have hnone : u.scheduler.prunedStash.get? a = none :=
    not_not.mp fun hstash ↦ hu.stashed a hstash hreg
  have hswept : u.next (.sweep (l ++ [a])) =
      { u with
        scheduler := u.scheduler.sweep (l ++ [a]) isFinal
        phase := .swept isFinal } := sweep_eq hp
  have hgone : ¬(u.next (.sweep (l ++ [a]))).scheduler.Registered a := by
    rw [hswept]
    exact fun hr ↦ (Scheduler.swept_iff.mp hr).2.1
      (List.mem_append_right _ (List.mem_singleton_self a))
  have hre : (u.next (.sweep (l ++ [a]))).scheduler.Reinstates (straggler a .completed) := by
    refine ⟨hgone, Or.inl rfl, ?_⟩
    rw [hswept]
    exact stashed_of_last hl hstashes hnone
  have hrun := ((Machine.Reach.refl u).tail (hC u _) (step_of_enabled he)).tail
    (hC _ (.reply (straggler a .completed))) (step_of_enabled trivial)
  refine ⟨_, hrun, fun hkept ↦
    hkept.1 ?_ (Scheduler.registered_handleReply.mpr (Or.inr ⟨rfl, hre⟩))⟩
  rw [(reply_counts _ _).1, (sweep_counts hp).1, hcount]
  exact Nat.lt_succ_self _

/-- A step that waits forgets what is not about it: the agent survives the sweep, or is taken for a
silent one and comes back. -/
theorem lost_of_late (hC : ∀ s e, C s e) (ht : Ledgers t) (hp : t.phase = .waiting isFinal)
    (hreg : t.scheduler.Registered a) (hshut : a ∉ t.scheduler.shutdownReplied) :
    ∃ v, machine.Reach C t v ∧ ¬t.Kept a v := by
  have hstep := (Machine.Reach.refl t).tail (hC t (.reply (straggler a .error)))
    (step_of_enabled trivial)
  have hcount := (reply_counts t (straggler a .error)).1
  have hp' : (t.next (.reply (straggler a .error))).phase = .waiting isFinal := hp
  have hreg' : (t.next (.reply (straggler a .error))).scheduler.Registered a :=
    Scheduler.registered_handleReply.mpr (Or.inl hreg)
  have hshut' : a ∉ (t.next (.reply (straggler a .error))).scheduler.shutdownReplied := by
    change a ∉ (t.scheduler.handleReply (straggler a .error)).shutdownReplied
    rw [(Scheduler.handleReply_barrier _ _).1, if_neg fun h ↦ straggler_stamp _ a .error h.1]
    exact hshut
  by_cases hreap : a ∈ (t.next (.reply (straggler a .error))).scheduler.toReap
  · obtain ⟨v, hv, hlost⟩ :=
      returns_after_sweep hC (reply_ledgers ht) hp' hreg' hreap hshut' hcount
    exact ⟨v, hstep.trans hv, hlost⟩
  · obtain ⟨v, hv, hlost⟩ := survives_sweep hC hp' hreg' hreap
      (fun _ ↦ Scheduler.handleReply_self t.scheduler fun h ↦ absurd rfl h) hcount
    exact ⟨v, hstep.trans hv, hlost⟩

theorem lost_of_not_recorded (hC : ∀ s e, C s e) {r : Reply} (hs : Ledgers s)
    (hreg : s.scheduler.Registered r.agentId) (hrec : ¬s.Recorded r) :
    ∃ v, machine.Reach C (s.next (.reply r)) v ∧ ¬Kept (s.next (.reply r)) r.agentId v := by
  have hreg' : (s.next (.reply r)).scheduler.Registered r.agentId :=
    Scheduler.registered_handleReply.mpr (Or.inl hreg)
  cases hp : s.phase with
  | idle => exact lost_of_idle hC hp hreg' rfl rfl
  | waiting isFinal =>
    have hlate : ¬(s.scheduler.responseTimeStep r = some ↑s.scheduler.time ∨
        r.agentId ∈ s.scheduler.shutdownReplied) := fun h ↦ hrec ⟨⟨isFinal, hp⟩, h⟩
    refine lost_of_late hC (reply_ledgers hs) hp hreg' ?_
    change r.agentId ∉ (s.scheduler.handleReply r).shutdownReplied
    rw [(Scheduler.handleReply_barrier _ _).1, if_neg fun h ↦ hlate (Or.inl h.1)]
    exact fun hmem ↦ hlate (Or.inr hmem)
  | swept isFinal =>
    have hp' : (s.next (.reply r)).phase = .swept isFinal := hp
    have hstep := (Machine.Reach.refl (s.next (.reply r))).tail (hC _ .tick)
      (step_of_enabled ⟨isFinal, hp'⟩)
    have hidle : ((s.next (.reply r)).next .tick).phase = .idle := rfl
    have hreg'' : ((s.next (.reply r)).next .tick).scheduler.Registered r.agentId := hreg'
    obtain ⟨v, hv, hlost⟩ := lost_of_idle hC hidle hreg'' (tick_counts hp').1 (tick_counts hp').2
    exact ⟨v, hstep.trans hv, hlost⟩

/-- **When a shutdown reply is not lost**: in whatever follows a shutdown reply of a registered
agent, the agent is gone from the next sweep on and no new step waits for it, exactly if the reply
is handled while a step waits and is about that step, or one that was has come before. -/
theorem shutdown_kept_iff {s : SchedulerRun} {r : Reply}
    (hs : machine.Reach (fun _ _ ↦ True) {} s) (hr : r.action = .shutdown)
    (hreg : s.scheduler.Registered r.agentId) :
    (∀ u, machine.Reach (fun _ _ ↦ True) (s.next (.reply r)) u →
      Kept (s.next (.reply r)) r.agentId u) ↔ s.Recorded r := by
  have hledgers := reach_ledgers hs
  refine ⟨fun hall ↦ ?_, fun hrec u hu ↦ kept_of_recorded hledgers hr hreg hrec hu⟩
  by_contra hrec
  obtain ⟨v, hv, hlost⟩ := lost_of_not_recorded (fun _ _ ↦ trivial) hledgers hreg hrec
  exact hlost (hall v hv)

/-! ## Two runs -/

/-- An agent boots, and announces on step 0 a nap until step 5. -/
def napping : List RunEvent :=
  [.addAgent "order", .reply (answer "order" (-1) .ready none), .beginStep false,
    .reply (answer "order" 0 .completed (some 5)), .sweep [], .tick]

/-- It wakes on step 1 to shut down, and the reply is handled while step 1 waits. -/
theorem shutdown_kept_iff_small : ∃ s, machine.Reach (fun _ _ ↦ True) {} s ∧
    ∀ u, machine.Reach (fun _ _ ↦ True)
        (s.next (.reply (answer "order" 1 .shutdown none))) u →
      Kept (s.next (.reply (answer "order" 1 .shutdown none))) "order" u := by
  have hrun : (machine.exec {} (napping ++ [.beginStep false])).any fun s ↦
      s.scheduler.Registered "order" ∧ s.Recorded (answer "order" 1 .shutdown none) := by
    decide
  obtain ⟨s, hs, h⟩ := (Option.any_eq_true _ _).mp hrun
  obtain ⟨hreg, hrec⟩ := of_decide_eq_true h
  have hreach := Machine.reach_of_exec _ hs fun _ _ _ ↦ trivial
  exact ⟨s, hreach, (shutdown_kept_iff hreach rfl hreg).mpr hrec⟩

/-- The agent wakes on step 1 to shut down, but step 1 does not wait for the reply, which is handled
after it: step 2 waits for the agent. -/
theorem shutdown_lost : ∃ s, machine.Reach (fun _ _ ↦ True) {} s ∧
    s.scheduler.Registered "order" ∧
    ∃ u, machine.Reach (fun _ _ ↦ True)
        (s.next (.reply (answer "order" 1 .shutdown none))) u ∧
      (s.next (.reply (answer "order" 1 .shutdown none))).begun < u.begun ∧
      "order" ∈ u.scheduler.expectedThisStep := by
  have hrun : (machine.exec {} (napping ++ [.beginStep false, .sweep [], .tick])).any fun s ↦
      s.scheduler.Registered "order" ∧
      (machine.exec (s.next (.reply (answer "order" 1 .shutdown none))) [.beginStep false]).any
        fun u ↦ (s.next (.reply (answer "order" 1 .shutdown none))).begun < u.begun ∧
          "order" ∈ u.scheduler.expectedThisStep := by
    decide
  obtain ⟨s, hs, h⟩ := (Option.any_eq_true _ _).mp hrun
  obtain ⟨hreg, h⟩ := of_decide_eq_true h
  obtain ⟨u, hu, h⟩ := (Option.any_eq_true _ _).mp h
  exact ⟨s, Machine.reach_of_exec _ hs fun _ _ _ ↦ trivial, hreg, u,
    Machine.reach_of_exec _ hu fun _ _ _ ↦ trivial, of_decide_eq_true h⟩

end SchedulerRun

end OpenRide.Simulation
