import OpenRide.Lib.Machine
import OpenRide.Simulation.StepBarrier

/-!
# One scheduler under any replies

The machine of a single scheduler: agents are added between two steps, and a reply may be handled
at any time.  A step is three events, as the replies can fall between them: the barrier is set
(`beginStep`), the agents that asked to shut down or stayed silent are removed (`sweep`), and the
clock moves (`tick`).  Nothing is assumed about the replies; they need not come from an agent that
was ever added, nor be about a step that was ever run.

`swept_iff` says what a sweep leaves: it removes the agents of `toReap`, and on the final step the
sleepers.  `Ledgers` is what holds in every run: an agent is not both registered and stashed, and
while a step waits, the agents it waits for are registered and have booted.
-/

namespace OpenRide.Simulation

open Lib

namespace Scheduler

/-! ## The end of a step, in two parts -/

/-- The sweep of a step; on the final one the sleepers go too. -/
def sweep (s : Scheduler) (order : List AgentId) (isFinal : Bool) : Scheduler :=
  let s := order.foldl reap s
  if isFinal then s.removeSleepers else s

/-- The clock moves on. -/
def tick (s : Scheduler) : Scheduler := { s with time := s.time + 1 }

/-- The agents a sweep stashes on its way. -/
def pruned (s : Scheduler) : List AgentId → List AgentId
  | [] => []
  | a :: order => (if s.stashes a then [a] else []) ++ (s.reap a).pruned order

/-- The agent sleeps through the current step. -/
def Sleeps (s : Scheduler) (a : AgentId) : Prop :=
  ∃ wake ∈ s.sleepingUntil.get? a, ¬wake.OverBy s.time

/-! ## What a sweep does -/

/-- What a sweep does not change: the step and who has replied in it. -/
structure SameBarrier (s t : Scheduler) : Prop where
  time : t.time = s.time
  expectedThisStep : t.expectedThisStep = s.expectedThisStep
  respondedThisStep : t.respondedThisStep = s.respondedThisStep
  shutdownReplied : t.shutdownReplied = s.shutdownReplied
  outstanding : t.outstanding = s.outstanding
  reactionCounts : t.reactionCounts = s.reactionCounts

theorem SameBarrier.refl (s : Scheduler) : SameBarrier s s := ⟨rfl, rfl, rfl, rfl, rfl, rfl⟩

variable {s : Scheduler}

theorem SameBarrier.trans {t u : Scheduler} (h : SameBarrier s t) (h' : SameBarrier t u) :
    SameBarrier s u :=
  ⟨h'.1.trans h.1, h'.2.trans h.2, h'.3.trans h.3, h'.4.trans h.4, h'.5.trans h.5, h'.6.trans h.6⟩

theorem SameBarrier.foldl {f : Scheduler → AgentId → Scheduler} (hf : ∀ s a, SameBarrier s (f s a))
    (l : List AgentId) (s : Scheduler) : SameBarrier s (l.foldl f s) := by
  induction l generalizing s with
  | nil => exact SameBarrier.refl s
  | cons a l ih => exact (hf s a).trans (ih (f s a))

theorem removeAgent_sameBarrier (s : Scheduler) (a : AgentId) :
    SameBarrier s (s.removeAgent a) := by
  rw [removeAgent]
  split <;> exact ⟨rfl, rfl, rfl, rfl, rfl, rfl⟩

@[simp] theorem removeAgent_agentCollection (s : Scheduler) (a : AgentId) :
    (s.removeAgent a).agentCollection = s.agentCollection.erase a := by
  rw [removeAgent]
  split <;> rfl

/-- Stashing an agent changes nothing but the stash. -/
theorem stash_eq (s : Scheduler) (a : AgentId) (entry : AgentEntry) :
    ∃ stashed, s.stash a entry = { s with prunedStash := stashed } :=
  ⟨_, rfl⟩

@[simp] theorem removeAgent_prunedStash (s : Scheduler) (a : AgentId) :
    (s.removeAgent a).prunedStash = s.prunedStash := by
  rw [removeAgent]
  split <;> rfl

/-- An agent that is removed leaves the sleep table, too. -/
theorem removeAgent_sleepingUntil (s : Scheduler) (a b : AgentId) :
    (s.removeAgent a).sleepingUntil.get? b = if b = a then none else s.sleepingUntil.get? b := by
  rw [removeAgent]
  split
  · exact Dict.get?_erase _ _ _
  · next h =>
    split
    · next hb =>
      rw [not_or, Dict.contains_iff, not_exists] at h
      subst hb
      exact Option.eq_none_iff_forall_ne_some.mpr h.1
    · rfl

variable {a b : AgentId}

theorem registered_removeAgent : (s.removeAgent a).Registered b ↔ s.Registered b ∧ b ≠ a := by
  rw [Registered, Registered, removeAgent_agentCollection, Dict.get?_erase]
  split
  · next h => exact iff_of_false (fun hn ↦ hn rfl) fun hb ↦ hb.2 h
  · next h => rw [and_iff_left h]

theorem reap_sameBarrier (s : Scheduler) (a : AgentId) : SameBarrier s (s.reap a) := by
  rw [reap]
  split
  · exact SameBarrier.refl s
  · next entry _ =>
    refine SameBarrier.trans ?_ (removeAgent_sameBarrier _ a)
    split
    · obtain ⟨stashed, hstash⟩ := stash_eq s a entry
      rw [hstash]
      exact ⟨rfl, rfl, rfl, rfl, rfl, rfl⟩
    · exact SameBarrier.refl s

theorem reap_of_not_registered (h : ¬s.Registered a) : s.reap a = s := by
  have hnone : s.agentCollection.get? a = none := not_not.mp h
  rw [reap, hnone]

theorem registered_reap : (s.reap a).Registered b ↔ s.Registered b ∧ b ≠ a := by
  by_cases h : s.Registered a
  · obtain ⟨entry, hentry⟩ := Option.ne_none_iff_exists'.mp h
    rw [reap, hentry]
    rw [registered_removeAgent]
    split
    · obtain ⟨stashed, hstash⟩ := stash_eq s a entry
      rw [hstash]
      rfl
    · rfl
  · rw [reap_of_not_registered h, and_iff_left_of_imp]
    rintro hb rfl
    exact h hb

variable {order : List AgentId}

theorem registered_foldl_reap : (order.foldl reap s).Registered b ↔ s.Registered b ∧ b ∉ order := by
  induction order generalizing s with
  | nil => exact (and_iff_left List.not_mem_nil).symm
  | cons a order ih => rw [List.foldl_cons, ih, registered_reap, List.mem_cons, not_or, and_assoc]

theorem foldl_reap_sleepingUntil (h : s.Registered b ∧ b ∉ order) :
    (order.foldl reap s).sleepingUntil.get? b = s.sleepingUntil.get? b :=
  ((Swept.foldl swept_reap order s).kept b (registered_foldl_reap.mpr h)).2

theorem registered_removeAll {l : List AgentId} :
    (l.foldl (fun s a ↦ if s.agentCollection.contains a then s.removeAgent a else s) s).Registered
      b ↔ s.Registered b ∧ b ∉ l := by
  induction l generalizing s with
  | nil => exact (and_iff_left List.not_mem_nil).symm
  | cons a l ih =>
    rw [List.foldl_cons, ih, List.mem_cons, not_or, ← and_assoc]
    refine and_congr_left fun _ ↦ ?_
    split
    · exact registered_removeAgent
    · next h =>
      refine (and_iff_left_of_imp fun hb hba ↦ h (Dict.contains_iff.mpr ?_)).symm
      exact Option.ne_none_iff_exists'.mp (hba ▸ hb)

/-- **Who is left after a sweep**: the agents that neither asked to shut down nor stayed silent, and
after the final one of these only those that do not sleep. -/
theorem swept_iff {isFinal : Bool} :
    (s.sweep order isFinal).Registered b ↔
      s.Registered b ∧ b ∉ order ∧ (isFinal = true → s.sleepingUntil.get? b = none) := by
  have hreap : (order.foldl reap s).Registered b ↔ s.Registered b ∧ b ∉ order :=
    registered_foldl_reap
  rw [sweep]
  split
  · next hfinal =>
    rw [removeSleepers, registered_removeAll, hreap, and_assoc]
    refine and_congr_right fun hb ↦ and_congr_right fun hnot ↦ ?_
    rw [← Dict.get?_eq_none_iff, foldl_reap_sleepingUntil ⟨hb, hnot⟩]
    exact ⟨fun h _ ↦ h, fun h ↦ h hfinal⟩
  · next hfinal =>
    rw [hreap]
    exact ⟨fun h ↦ ⟨h.1, h.2, fun h ↦ absurd h hfinal⟩, fun h ↦ ⟨h.1, h.2.1⟩⟩

theorem removeSleepers_sameBarrier (s : Scheduler) : SameBarrier s s.removeSleepers := by
  refine SameBarrier.foldl (fun t a ↦ ?_) _ s
  split
  · exact removeAgent_sameBarrier t a
  · exact SameBarrier.refl t

theorem sweep_sameBarrier (s : Scheduler) (order : List AgentId) (isFinal : Bool) :
    SameBarrier s (s.sweep order isFinal) := by
  have hreap := SameBarrier.foldl reap_sameBarrier order s
  rw [sweep]
  split
  · exact hreap.trans (removeSleepers_sameBarrier _)
  · exact hreap

/-- The sweep at an agent stashes no other. -/
theorem reap_prunedStash (h : (s.reap a).prunedStash.get? b ≠ none) :
    s.prunedStash.get? b ≠ none ∨ b = a ∧ s.stashes a = true := by
  rw [reap] at h
  split at h
  · exact Or.inl h
  · next entry _ =>
    rw [removeAgent_prunedStash] at h
    split at h
    · next hs =>
      by_cases hba : b = a
      · exact Or.inr ⟨hba, hs⟩
      · obtain ⟨v, hv⟩ := Option.ne_none_iff_exists'.mp h
        have hset := Dict.get?_of_get?_dropOldest hv
        rw [Dict.get?_set_ne _ _ hba] at hset
        exact Or.inl (hset ▸ Option.some_ne_none v)
    · exact Or.inl h

theorem stashes_iff : s.stashes a = true ↔
    s.Registered a ∧ a ∈ s.expectedThisStep ∧ a ∉ s.respondedThisStep ∧ a ∉ s.shutdownReplied := by
  rw [stashes, Bool.and_eq_true, Bool.and_eq_true, decide_eq_true_eq, decide_eq_true_eq,
    Dict.contains_iff, nonResponders, Finset.mem_sdiff, and_assoc, Registered,
    Option.ne_none_iff_exists']

theorem stashes_reap (h : b ≠ a) : (s.reap a).stashes b = s.stashes b := by
  have hsame := reap_sameBarrier s a
  rw [Bool.eq_iff_iff, stashes_iff, stashes_iff, hsame.expectedThisStep, hsame.respondedThisStep,
    hsame.shutdownReplied, registered_reap, and_iff_left h]

theorem not_stashes_reap_self (s : Scheduler) (a : AgentId) : (s.reap a).stashes a ≠ true :=
  fun h ↦ (registered_reap.mp (stashes_iff.mp h).1).2 rfl

/-- **The agents a sweep stashes** are those that were waited for in vain. -/
theorem mem_pruned : b ∈ s.pruned order ↔ b ∈ order ∧ s.stashes b = true := by
  induction order generalizing s with
  | nil => exact iff_of_false List.not_mem_nil fun h ↦ List.not_mem_nil h.1
  | cons a order ih =>
    rw [pruned, List.mem_append, ih, List.mem_cons]
    by_cases hba : b = a
    · subst hba
      have hnot := not_stashes_reap_self s b
      split <;> simp_all
    · rw [stashes_reap hba]
      split <;> simp [hba]

theorem foldl_reap_prunedStash (h : (order.foldl reap s).prunedStash.get? b ≠ none) :
    s.prunedStash.get? b ≠ none ∨ b ∈ s.pruned order := by
  induction order generalizing s with
  | nil => exact Or.inl h
  | cons a order ih =>
    rw [pruned, List.mem_append]
    rcases ih h with h | h
    · rcases reap_prunedStash h with h | ⟨rfl, h⟩
      · exact Or.inl h
      · exact Or.inr (Or.inl (by rw [if_pos h]; exact List.mem_singleton_self b))
    · exact Or.inr (Or.inr h)

theorem removeSleepers_prunedStash (s : Scheduler) :
    s.removeSleepers.prunedStash = s.prunedStash := by
  have hall : ∀ (l : List AgentId) (t : Scheduler),
      (l.foldl (fun s a ↦ if s.agentCollection.contains a then s.removeAgent a else s)
        t).prunedStash = t.prunedStash := by
    intro l
    induction l with
    | nil => exact fun t ↦ rfl
    | cons a l ih =>
      intro t
      rw [List.foldl_cons, ih]
      split
      · exact removeAgent_prunedStash t a
      · rfl
  exact hall _ s

/-- The stash after a sweep. -/
theorem sweep_prunedStash {isFinal : Bool} (h : (s.sweep order isFinal).prunedStash.get? b ≠ none) :
    s.prunedStash.get? b ≠ none ∨ b ∈ s.pruned order := by
  refine foldl_reap_prunedStash ?_
  rw [sweep] at h
  split at h
  · rwa [removeSleepers_prunedStash] at h
  · exact h

/-! ## What a reply does -/

/-- The reply brings a removed agent back. -/
def Reinstates (s : Scheduler) (r : Reply) : Prop :=
  ¬s.Registered r.agentId ∧ (r.action = .completed ∨ r.action = .ready) ∧
    s.prunedStash.get? r.agentId ≠ none

instance (s : Scheduler) (r : Reply) : Decidable (s.Reinstates r) :=
  inferInstanceAs (Decidable (_ ∧ _))

theorem registered_of_get? {entry : AgentEntry} (h : s.agentCollection.get? a = some entry) :
    s.Registered a :=
  Option.ne_none_iff_exists'.mpr ⟨entry, h⟩

/-- Everything the acknowledgement of a reply can do. -/
theorem acknowledge_cases (s : Scheduler) (r : Reply) :
    (s.Registered r.agentId ∧ s.acknowledge r =
      { s with agentCollection := s.agentCollection.set r.agentId { pendingBoot := false } }) ∨
    (s.Reinstates r ∧ s.acknowledge r =
      { s with
        prunedStash := s.prunedStash.erase r.agentId
        agentCollection := s.agentCollection.set r.agentId { pendingBoot := false } }) ∨
    (¬s.Registered r.agentId ∧ ¬s.Reinstates r ∧ s.acknowledge r = s) := by
  rw [acknowledge]
  cases hget : s.agentCollection.get? r.agentId with
  | some entry => exact Or.inl ⟨registered_of_get? hget, rfl⟩
  | none =>
    have hnot : ¬s.Registered r.agentId := not_not.mpr hget
    refine Or.inr ?_
    dsimp only
    split
    · next haction =>
      cases hstash : s.prunedStash.get? r.agentId with
      | some stashed =>
        exact Or.inl ⟨⟨hnot, haction, hstash ▸ Option.some_ne_none stashed⟩, rfl⟩
      | none => exact Or.inr ⟨hnot, fun h ↦ h.2.2 hstash, rfl⟩
    · next haction => exact Or.inr ⟨hnot, fun h ↦ haction h.2.1, rfl⟩

theorem acknowledge_sameBarrier (s : Scheduler) (r : Reply) : SameBarrier s (s.acknowledge r) := by
  rcases acknowledge_cases s r with ⟨-, h⟩ | ⟨-, h⟩ | ⟨-, -, h⟩ <;> rw [h] <;>
    exact ⟨rfl, rfl, rfl, rfl, rfl, rfl⟩

theorem endNap_sameBarrier (s : Scheduler) (a : AgentId) :
    SameBarrier s (s.endNap a) ∧ (s.endNap a).prunedStash = s.prunedStash := by
  rw [endNap]
  split <;> exact ⟨⟨rfl, rfl, rfl, rfl, rfl, rfl⟩, rfl⟩

theorem noteSleep_sameBarrier (s : Scheduler) (r : Reply) :
    SameBarrier s (s.noteSleep r) ∧ (s.noteSleep r).prunedStash = s.prunedStash := by
  rw [noteSleep]
  split
  · exact endNap_sameBarrier s _
  · split
    · exact endNap_sameBarrier s _
    · split <;> exact ⟨⟨rfl, rfl, rfl, rfl, rfl, rfl⟩, rfl⟩

theorem tally_prunedStash (s : Scheduler) (r : Reply) :
    (s.tally r).prunedStash = s.prunedStash := by
  rw [tally]
  split
  · dsimp only
    split_ifs <;> rfl
  · rfl

theorem registered_handleReply {r : Reply} :
    (s.handleReply r).Registered b ↔ s.Registered b ∨ b = r.agentId ∧ s.Reinstates r := by
  have hcollection : (s.handleReply r).agentCollection = (s.acknowledge r).agentCollection := by
    rw [handleReply, (tally_ledgers _ r).2.1, noteSleep_agentCollection]
  rw [Registered, hcollection]
  rcases acknowledge_cases s r with ⟨hreg, h⟩ | ⟨hre, h⟩ | ⟨-, hno, h⟩
  · rw [h, Dict.get?_set]
    split
    · next hb => exact iff_of_true (Option.some_ne_none _) (Or.inl (hb ▸ hreg))
    · next hb => exact (or_iff_left fun hc ↦ hb hc.1).symm
  · rw [h, Dict.get?_set]
    split
    · next hb => exact iff_of_true (Option.some_ne_none _) (Or.inr ⟨hb, hre⟩)
    · next hb => exact (or_iff_left fun hc ↦ hb hc.1).symm
  · rw [h]
    exact (or_iff_left fun hc ↦ hno hc.2).symm

theorem handleReply_prunedStash (s : Scheduler) (r : Reply) : (s.handleReply r).prunedStash =
    if s.Reinstates r then s.prunedStash.erase r.agentId else s.prunedStash := by
  rw [handleReply, tally_prunedStash, (noteSleep_sameBarrier _ r).2]
  rcases acknowledge_cases s r with ⟨hreg, h⟩ | ⟨hre, h⟩ | ⟨-, hno, h⟩
  · rw [h, if_neg fun hre ↦ hre.1 hreg]
  · rw [h, if_pos hre]
  · rw [h, if_neg hno]

/-- A registered agent that has booted stays so. -/
theorem handleReply_booted {r : Reply}
    (h : s.agentCollection.get? b = some { pendingBoot := false }) :
    (s.handleReply r).agentCollection.get? b = some { pendingBoot := false } := by
  by_cases hb : b = r.agentId
  · have hreg : s.Registered r.agentId := hb ▸ registered_of_get? h
    rw [handleReply, (tally_ledgers _ r).2.1, noteSleep_agentCollection]
    rcases acknowledge_cases s r with ⟨-, hack⟩ | ⟨hre, -⟩ | ⟨hnot, -⟩
    · rw [hack, hb]
      exact Dict.get?_set_self _ _ _
    · exact absurd hreg hre.1
    · exact absurd hreg hnot
  · exact (handleReply_ne s r hb).2.trans h

/-- The reply is the first one about the current step of an agent that is waited for. -/
def Counts (s : Scheduler) (r : Reply) : Prop :=
  s.responseTimeStep r = some ↑s.time ∧ r.agentId ∈ s.expectedThisStep ∧
    r.agentId ∉ s.respondedThisStep

instance (s : Scheduler) (r : Reply) : Decidable (s.Counts r) :=
  inferInstanceAs (Decidable (_ ∧ _))

/-- Does the reply wake the waiting step (`_signal_barrier_done`)? -/
def signalsBarrierDone (s : Scheduler) (r : Reply) : Bool :=
  decide (s.Counts r ∧ (s.handleReply r).outstanding ≤ 0)

/-- The part of a reply that concerns the barrier, read before its other effects. -/
theorem tally_eq {t : Scheduler} (h : SameBarrier s t) (r : Reply) :
    (t.tally r).shutdownReplied =
        (if s.responseTimeStep r = some ↑s.time ∧ r.action = .shutdown then
          insert r.agentId s.shutdownReplied else s.shutdownReplied) ∧
      (t.tally r).respondedThisStep =
        (if s.Counts r then insert r.agentId s.respondedThisStep else s.respondedThisStep) ∧
      (t.tally r).outstanding = (if s.Counts r then s.outstanding - 1 else s.outstanding) ∧
      (t.tally r).reactionCounts =
        (if s.Counts r then
          s.reactionCounts.set r.action ((s.reactionCounts.get? r.action).getD 0 + 1)
        else s.reactionCounts) := by
  have hstamp : t.responseTimeStep r = s.responseTimeStep r := by
    rw [responseTimeStep, responseTimeStep, h.time]
  rw [tally, hstamp, h.time]
  split
  · next hnow =>
    have hcounts : s.Counts r ↔ r.agentId ∈ t.expectedThisStep ∧
      r.agentId ∉ t.respondedThisStep := by
      rw [Counts, h.expectedThisStep, h.respondedThisStep]
      exact and_iff_right hnow
    simp only [hcounts, hnow, true_and]
    split_ifs <;> simp_all [h.shutdownReplied, h.respondedThisStep, h.outstanding, h.reactionCounts]
  · next hnow =>
    have hcounts : ¬s.Counts r := fun hc ↦ hnow hc.1
    rw [if_neg hcounts, if_neg hcounts, if_neg hcounts, if_neg fun hc ↦ hnow hc.1]
    exact ⟨h.shutdownReplied, h.respondedThisStep, h.outstanding, h.reactionCounts⟩

theorem handleReply_barrier (s : Scheduler) (r : Reply) :
    (s.handleReply r).shutdownReplied =
        (if s.responseTimeStep r = some ↑s.time ∧ r.action = .shutdown then
          insert r.agentId s.shutdownReplied else s.shutdownReplied) ∧
      (s.handleReply r).respondedThisStep =
        (if s.Counts r then insert r.agentId s.respondedThisStep else s.respondedThisStep) ∧
      (s.handleReply r).outstanding =
        (if s.Counts r then s.outstanding - 1 else s.outstanding) ∧
      (s.handleReply r).reactionCounts =
        (if s.Counts r then
          s.reactionCounts.set r.action ((s.reactionCounts.get? r.action).getD 0 + 1)
        else s.reactionCounts) :=
  tally_eq ((acknowledge_sameBarrier s r).trans (noteSleep_sameBarrier _ r).1) r

end Scheduler

/-! ## The machine -/

/-- Where `step` is. -/
inductive StepPhase where
  /-- Between two steps. -/
  | idle
  /-- The barrier is set; replies are waited for. -/
  | waiting (isFinal : Bool)
  /-- The sweep is done, the clock not yet moved. -/
  | swept (isFinal : Bool)
deriving DecidableEq

/-- A scheduler and where it is in its step. -/
structure SchedulerRun where
  scheduler : Scheduler := {}
  phase : StepPhase := .idle
  /-- Every agent that was ever added. -/
  launched : Finset AgentId := ∅
  /-- The replies handled since the barrier was set, latest first. -/
  heard : List Reply := []
  /-- How often the waiting step was woken since the barrier was set. -/
  signals : ℕ := 0

/-- What can happen to a scheduler. -/
inductive RunEvent where
  | addAgent (a : AgentId)
  | reply (r : Reply)
  | beginStep (isFinal : Bool)
  /-- The barrier resolves; the order of the sweep. -/
  | sweep (order : List AgentId)
  | tick
deriving DecidableEq

namespace SchedulerRun

/-- Can the event happen?  Every agent is added once, under an identifier of its own. -/
def Enabled (s : SchedulerRun) : RunEvent → Prop
  | .addAgent a => s.phase = .idle ∧ a ∉ s.launched
  | .reply _ => True
  | .beginStep _ => s.phase = .idle
  | .sweep order => (∃ isFinal, s.phase = .waiting isFinal) ∧ order.Nodup ∧
      order.toFinset = s.scheduler.toReap
  | .tick => ∃ isFinal, s.phase = .swept isFinal

instance (s : SchedulerRun) : (e : RunEvent) → Decidable (s.Enabled e)
  | .addAgent a => inferInstanceAs (Decidable (s.phase = .idle ∧ a ∉ s.launched))
  | .reply _ => inferInstanceAs (Decidable True)
  | .beginStep _ => inferInstanceAs (Decidable (s.phase = .idle))
  | .sweep order => inferInstanceAs (Decidable ((∃ isFinal, s.phase = .waiting isFinal) ∧
      order.Nodup ∧ order.toFinset = s.scheduler.toReap))
  | .tick => inferInstanceAs (Decidable (∃ isFinal, s.phase = .swept isFinal))

/-- The state after an event that can happen. -/
def next (s : SchedulerRun) : RunEvent → SchedulerRun
  | .addAgent a =>
    { s with scheduler := s.scheduler.addAgent a, launched := insert a s.launched }
  | .reply r =>
    { s with
      scheduler := s.scheduler.handleReply r
      heard := r :: s.heard
      signals := if s.scheduler.signalsBarrierDone r then s.signals + 1 else s.signals }
  | .beginStep isFinal =>
    { s with
      scheduler := s.scheduler.beginStepBarrier
      phase := .waiting isFinal
      heard := []
      signals := 0 }
  | .sweep order =>
    match s.phase with
    | .waiting isFinal =>
      { s with scheduler := s.scheduler.sweep order isFinal, phase := .swept isFinal }
    | _ => s
  | .tick => { s with scheduler := s.scheduler.tick, phase := .idle }

/-- The machine of a scheduler. -/
def machine : Machine SchedulerRun RunEvent where
  step s e := if s.Enabled e then some (s.next e) else none

variable {s : SchedulerRun}

theorem step_eq {t : SchedulerRun} {e : RunEvent} (h : machine.step s e = some t) :
    s.Enabled e ∧ t = s.next e := by
  simp only [machine, Option.ite_none_right_eq_some, Option.some_inj] at h
  exact ⟨h.1, h.2.symm⟩

theorem step_of_enabled {e : RunEvent} (h : s.Enabled e) : machine.step s e = some (s.next e) :=
  if_pos h

theorem sweep_eq {order : List AgentId} {isFinal : Bool} (h : s.phase = .waiting isFinal) :
    s.next (.sweep order) =
      { s with scheduler := s.scheduler.sweep order isFinal, phase := .swept isFinal } := by
  rw [next, h]

/-! ## What holds in every run -/

/-- Registered and stashed agents are apart, all were added at some time, and a waiting step waits
for registered agents that have booted. -/
structure Ledgers (s : SchedulerRun) : Prop where
  stashed : ∀ a, s.scheduler.prunedStash.get? a ≠ none → ¬s.scheduler.Registered a
  launched : ∀ a, s.scheduler.Registered a ∨ s.scheduler.prunedStash.get? a ≠ none →
    a ∈ s.launched
  expected : (∃ isFinal, s.phase = .waiting isFinal) → ∀ a ∈ s.scheduler.expectedThisStep,
    s.scheduler.agentCollection.get? a = some { pendingBoot := false }

theorem start_ledgers : Ledgers {} where
  stashed _ h := absurd rfl h
  launched _ h := absurd rfl (h.elim id id)
  expected _ _ h := absurd h (Finset.notMem_empty _)

theorem addAgent_ledgers {a : AgentId} (h : Ledgers s) (he : s.Enabled (.addAgent a)) :
    Ledgers (s.next (.addAgent a)) := by
  obtain ⟨hidle, hnew⟩ := he
  have hreg : ∀ b, (s.scheduler.addAgent a).Registered b → b = a ∨ s.scheduler.Registered b := by
    intro b hb
    rw [Scheduler.Registered, Scheduler.addAgent, Dict.get?_set] at hb
    split at hb
    · next hba => exact Or.inl hba
    · exact Or.inr hb
  refine ⟨fun b hb hr ↦ ?_, fun b hb ↦ ?_, fun hp ↦ ?_⟩
  · rcases hreg b hr with rfl | hr
    · exact hnew (h.launched b (Or.inr hb))
    · exact h.stashed b hb hr
  · rcases hb with hb | hb
    · rcases hreg b hb with rfl | hb
      · exact Finset.mem_insert_self _ _
      · exact Finset.mem_insert_of_mem (h.launched b (Or.inl hb))
    · exact Finset.mem_insert_of_mem (h.launched b (Or.inr hb))
  · obtain ⟨isFinal, hp⟩ := hp
    exact absurd (hidle.symm.trans hp) (by simp)

theorem reply_ledgers {r : Reply} (h : Ledgers s) : Ledgers (s.next (.reply r)) := by
  have hstash : ∀ b, (s.scheduler.handleReply r).prunedStash.get? b ≠ none →
      s.scheduler.prunedStash.get? b ≠ none ∧ ¬(b = r.agentId ∧ s.scheduler.Reinstates r) := by
    intro b hb
    rw [Scheduler.handleReply_prunedStash] at hb
    split at hb
    · rw [Dict.get?_erase] at hb
      split at hb
      · exact absurd rfl hb
      · next hne => exact ⟨hb, fun hc ↦ hne hc.1⟩
    · next hno => exact ⟨hb, fun hc ↦ hno hc.2⟩
  refine ⟨fun b hb hr ↦ ?_, fun b hb ↦ ?_, fun hp b hb ↦ ?_⟩
  · obtain ⟨hb, hno⟩ := hstash b hb
    exact (Scheduler.registered_handleReply.mp hr).elim (h.stashed b hb) hno
  · refine h.launched b ?_
    rcases hb with hb | hb
    · rcases Scheduler.registered_handleReply.mp hb with hb | ⟨rfl, hre⟩
      · exact Or.inl hb
      · exact Or.inr hre.2.2
    · exact Or.inr (hstash b hb).1
  · have hexp : (s.scheduler.handleReply r).expectedThisStep = s.scheduler.expectedThisStep :=
      (Scheduler.handleReply_sameStep _ r).expectedThisStep
    exact Scheduler.handleReply_booted (h.expected hp b (hexp ▸ hb))

theorem beginStep_ledgers {isFinal : Bool} (h : Ledgers s) :
    Ledgers (s.next (.beginStep isFinal)) where
  stashed := h.stashed
  launched := h.launched
  expected _ _ ha := (Scheduler.mem_expectedThisStep.mp ha).1

theorem sweep_ledgers {order : List AgentId} (h : Ledgers s) (he : s.Enabled (.sweep order)) :
    Ledgers (s.next (.sweep order)) := by
  obtain ⟨⟨isFinal, hp⟩, -⟩ := he
  rw [sweep_eq hp]
  have hstash : ∀ b, (s.scheduler.sweep order isFinal).prunedStash.get? b ≠ none →
      s.scheduler.prunedStash.get? b ≠ none ∨ b ∈ order ∧ s.scheduler.Registered b := by
    intro b hb
    refine (Scheduler.sweep_prunedStash hb).imp_right fun hmem ↦ ?_
    obtain ⟨hmem, hs⟩ := Scheduler.mem_pruned.mp hmem
    exact ⟨hmem, (Scheduler.stashes_iff.mp hs).1⟩
  refine ⟨fun b hb hr ↦ ?_, fun b hb ↦ ?_, fun ⟨_, hp⟩ ↦ nomatch hp⟩
  · obtain ⟨hr, hnot, -⟩ := Scheduler.swept_iff.mp hr
    exact (hstash b hb).elim (fun hb ↦ h.stashed b hb hr) fun hb ↦ hnot hb.1
  · refine h.launched b ?_
    rcases hb with hb | hb
    · exact Or.inl (Scheduler.swept_iff.mp hb).1
    · exact (hstash b hb).symm.imp_left And.right

theorem step_ledgers {e : RunEvent} (h : Ledgers s) (he : s.Enabled e) : Ledgers (s.next e) := by
  cases e with
  | addAgent a => exact addAgent_ledgers h he
  | reply r => exact reply_ledgers h
  | beginStep isFinal => exact beginStep_ledgers h
  | sweep order => exact sweep_ledgers h he
  | tick => exact ⟨h.stashed, h.launched, fun ⟨_, hp⟩ ↦ nomatch hp⟩

/-- **Every run keeps its ledgers.** -/
theorem reach_ledgers {C : SchedulerRun → RunEvent → Prop} (h : machine.Reach C {} s) :
    Ledgers s := by
  refine h.invariant start_ledgers fun s e t hs _ hstep ↦ ?_
  obtain ⟨he, rfl⟩ := step_eq hstep
  exact step_ledgers hs he

/-- A reply about a step. -/
def answer (a : AgentId) (timeStep : ℤ) (action : Action) (sleepSteps : Option ℤ) : Reply where
  agentId := a
  timeStep := some timeStep
  action := action
  didStep := true
  sleepSteps := sleepSteps
  wakeTopic := none

end SchedulerRun

end OpenRide.Simulation
