import OpenRide.Lib.Dict
import Mathlib.Data.Finset.Card
import Mathlib.Data.Finset.Dedup
import Mathlib.Data.Finset.SDiff

/-!
# The scheduler's step barrier

A step of the scheduler fixes the set of agents whose reply it waits for, broadcasts the step, and
removes the agents that asked to shut down or did not reply.  Agents may announce a nap on a reply;
the scheduler keeps the step each of them wakes at, and does not wait for an agent that sleeps.

The code's two threads meet in three places, each of them one operation here: `handleReply` for a
reply, `beginStepBarrier` at the start of a step, and `resolveStep` for the sweep at its end.  When
the barrier resolves, whether because every reply is in, within the tolerance, or on a timeout, is
not modelled: a step may be resolved at any time.
-/

namespace OpenRide.Simulation

open Lib

abbrev AgentId := String

abbrev Topic := String

/-- The step a nap ends at. -/
inductive WakeStep where
  | step (n : ℤ)
  /-- A nap without end (`float('inf')`). -/
  | never
deriving DecidableEq

/-- The nap is over by a step. -/
def WakeStep.OverBy : WakeStep → ℤ → Prop
  | .step n, t => n ≤ t
  | .never, _ => False

instance : (wake : WakeStep) → (t : ℤ) → Decidable (wake.OverBy t)
  | .step n, t => inferInstanceAs (Decidable (n ≤ t))
  | .never, _ => inferInstanceAs (Decidable False)

theorem WakeStep.OverBy.mono {wake : WakeStep} {t t' : ℤ} (h : wake.OverBy t) (htt' : t ≤ t') :
    wake.OverBy t' := by
  cases wake with
  | step n => exact le_trans h htt'
  | never => exact h

/-- What an agent reports about a step. -/
inductive Action where
  | completed | ready | shutdown | error
deriving DecidableEq

/-- A reply of an agent. -/
structure Reply where
  agentId : AgentId
  /-- The step the reply is about: `-1` stands for the scheduler's own, `none` is not a number. -/
  timeStep : Option ℤ
  action : Action
  didStep : Bool
  /-- The announced nap, negative for one without end. -/
  sleepSteps : Option ℤ
  /-- Where a napping agent can be reached; `none` also for the empty topic. -/
  wakeTopic : Option Topic
deriving DecidableEq

/-- The step until which a reply lets its agent sleep. -/
def Reply.napUntil (r : Reply) : Option WakeStep :=
  match r.sleepSteps with
  | none => none
  | some n =>
    if n = 0 then none else if n < 0 then some .never
    else some (.step (r.timeStep.getD 0 + n))

/-- A nap is announced on a reply about a step with a number. -/
def Reply.Stamped (r : Reply) : Prop := r.sleepSteps ≠ none → ∃ n : ℕ, r.timeStep = some ↑n

/-- An agent of the collection: whether its first reply is still outstanding. -/
structure AgentEntry where
  pendingBoot : Bool
deriving DecidableEq

/-- The scheduler. -/
structure Scheduler where
  time : ℕ := 0
  agentCollection : Dict AgentId AgentEntry := Dict.empty
  expectedThisStep : Finset AgentId := ∅
  respondedThisStep : Finset AgentId := ∅
  outstanding : ℤ := 0
  reactionCounts : Dict Action ℕ := Dict.empty
  didStepCount : ℕ := 0
  shutdownReplied : Finset AgentId := ∅
  errorReplied : Finset AgentId := ∅
  bootingCountThisStep : ℕ := 0
  sleepingCountThisStep : ℕ := 0
  sleepingUntil : Dict AgentId WakeStep := Dict.empty
  sleepWakeTopics : Dict AgentId Topic := Dict.empty
  /-- Agents removed without having replied, oldest first. -/
  prunedStash : Dict AgentId AgentEntry := Dict.empty

namespace Scheduler

/-- `_PRUNED_STASH_MAX`. -/
def prunedStashMax : ℕ := 4096

/-- A new agent is not waited for until its first reply. -/
def addAgent (s : Scheduler) (a : AgentId) : Scheduler :=
  { s with agentCollection := s.agentCollection.set a { pendingBoot := true } }

/-- Forget an agent and its nap. -/
def removeAgent (s : Scheduler) (a : AgentId) : Scheduler :=
  let s := { s with agentCollection := s.agentCollection.erase a }
  if s.sleepingUntil.contains a ∨ s.sleepWakeTopics.contains a then
    { s with
      sleepingUntil := s.sleepingUntil.erase a
      sleepWakeTopics := s.sleepWakeTopics.erase a }
  else s

/-! ## Replies -/

/-- The step a reply is about. -/
def responseTimeStep (s : Scheduler) (r : Reply) : Option ℤ :=
  if r.timeStep = some (-1) then some s.time else r.timeStep

/-- A reply ends the boot of its agent; a late one brings a removed agent back. -/
def acknowledge (s : Scheduler) (r : Reply) : Scheduler :=
  match s.agentCollection.get? r.agentId with
  | some entry =>
    { s with
      agentCollection := s.agentCollection.set r.agentId { entry with pendingBoot := false } }
  | none =>
    if r.action = .completed ∨ r.action = .ready then
      match s.prunedStash.get? r.agentId with
      | some stashed =>
        { s with
          prunedStash := s.prunedStash.erase r.agentId
          agentCollection :=
            s.agentCollection.set r.agentId { stashed with pendingBoot := false } }
      | none => s
    else s

/-- The agent is awake. -/
def endNap (s : Scheduler) (a : AgentId) : Scheduler :=
  if s.sleepingUntil.contains a then
    { s with
      sleepingUntil := s.sleepingUntil.erase a
      sleepWakeTopics := s.sleepWakeTopics.erase a }
  else s

/-- Record the nap a reply announces.  A reply without one ends the nap of its agent. -/
def noteSleep (s : Scheduler) (r : Reply) : Scheduler :=
  match r.sleepSteps with
  | none => s.endNap r.agentId
  | some sleepSteps =>
    if sleepSteps = 0 then s.endNap r.agentId
    else if sleepSteps < 0 then
      { s with
        sleepingUntil := s.sleepingUntil.set r.agentId .never
        sleepWakeTopics := match r.wakeTopic with
          | some topic => s.sleepWakeTopics.set r.agentId topic
          | none => s.sleepWakeTopics }
    else
      let base := (s.responseTimeStep r).getD s.time
      { s with sleepingUntil := s.sleepingUntil.set r.agentId (.step (base + sleepSteps)) }

/-- Note which agents report a shutdown or an error about the current step, and count the first
reply of an agent that is waited for. -/
def tally (s : Scheduler) (r : Reply) : Scheduler :=
  if s.responseTimeStep r = some ↑s.time then
    let s := if r.action = .shutdown then
        { s with shutdownReplied := insert r.agentId s.shutdownReplied } else s
    let s := if r.action = .error then
        { s with errorReplied := insert r.agentId s.errorReplied } else s
    if r.agentId ∈ s.expectedThisStep ∧ r.agentId ∉ s.respondedThisStep then
      { s with
        respondedThisStep := insert r.agentId s.respondedThisStep
        didStepCount := if r.didStep then s.didStepCount + 1 else s.didStepCount
        reactionCounts :=
          s.reactionCounts.set r.action ((s.reactionCounts.get? r.action).getD 0 + 1)
        outstanding := s.outstanding - 1 }
    else s
  else s

/-- `_handle_reply`. -/
def handleReply (s : Scheduler) (r : Reply) : Scheduler :=
  ((s.acknowledge r).noteSleep r).tally r

/-! ## The barrier -/

/-- Naps that are over are dropped, and every agent that has booted and does not sleep is waited
for. -/
def beginStepBarrier (s : Scheduler) : Scheduler :=
  let expired := s.sleepingUntil.filter fun _ wake ↦ wake.OverBy s.time
  let sleepingNow := s.sleepingUntil.filter fun _ wake ↦ ¬wake.OverBy s.time
  let booting := s.agentCollection.filter fun _ item ↦ item.pendingBoot
  let awake := s.agentCollection.filter fun a item ↦
    !item.pendingBoot && !sleepingNow.contains a
  { s with
    sleepingUntil := sleepingNow
    sleepWakeTopics := s.sleepWakeTopics.filter fun a _ ↦ !expired.contains a
    bootingCountThisStep := booting.size
    sleepingCountThisStep := sleepingNow.size
    respondedThisStep := ∅
    reactionCounts := Dict.empty
    didStepCount := 0
    shutdownReplied := ∅
    errorReplied := ∅
    expectedThisStep := awake.keys.toFinset
    outstanding := awake.keys.toFinset.card }

/-- The agents that were waited for in vain. -/
def nonResponders (s : Scheduler) : Finset AgentId := s.expectedThisStep \ s.respondedThisStep

/-- Keep a removed agent for a late reply, forgetting the oldest beyond the limit. -/
def stash (s : Scheduler) (a : AgentId) (entry : AgentEntry) : Scheduler :=
  let stashed := s.prunedStash.set a entry
  { s with prunedStash := stashed.dropOldest (stashed.size - prunedStashMax) }

/-- Does the sweep stash the agent? -/
def stashes (s : Scheduler) (a : AgentId) : Bool :=
  s.agentCollection.contains a && (a ∈ s.nonResponders && a ∉ s.shutdownReplied)

/-- The sweep at one agent. -/
def reap (s : Scheduler) (a : AgentId) : Scheduler :=
  match s.agentCollection.get? a with
  | none => s
  | some entry => (if s.stashes a then s.stash a entry else s).removeAgent a

/-- On the final step the agents that still sleep are removed as well. -/
def removeSleepers (s : Scheduler) : Scheduler :=
  s.sleepingUntil.keys.foldl
    (fun s a ↦ if s.agentCollection.contains a then s.removeAgent a else s) s

/-- The agents the sweep goes through. -/
def toReap (s : Scheduler) : Finset AgentId := s.shutdownReplied ∪ s.nonResponders

/-- The end of a step.  `order` is the order in which the sweep goes through the set `toReap`, which
the language leaves open. -/
def resolveStep (s : Scheduler) (order : List AgentId) (isFinal : Bool) : Scheduler :=
  let s := order.foldl reap s
  let s := if isFinal then s.removeSleepers else s
  { s with time := s.time + 1 }

/-! ## What the operations do to the two ledgers -/

/-- The agent is in the collection. -/
def Registered (s : Scheduler) (a : AgentId) : Prop := s.agentCollection.get? a ≠ none

instance (s : Scheduler) (a : AgentId) : Decidable (s.Registered a) :=
  inferInstanceAs (Decidable (_ ≠ _))

/-- The agent has booted, and no nap of it reaches past the current step. -/
def Awaits (s : Scheduler) (a : AgentId) : Prop :=
  s.agentCollection.get? a = some { pendingBoot := false } ∧
    ∀ wake ∈ s.sleepingUntil.get? a, wake.OverBy s.time

instance (s : Scheduler) (a : AgentId) : Decidable (s.Awaits a) :=
  inferInstanceAs (Decidable (_ ∧ _))

variable (s : Scheduler)

theorem endNap_self (a : AgentId) : (s.endNap a).sleepingUntil.get? a = none := by
  rw [endNap]
  split
  · exact Dict.get?_erase_self _ _
  · next h =>
    rw [Dict.contains_iff] at h
    exact Option.eq_none_iff_forall_ne_some.mpr fun w hw ↦ h ⟨w, hw⟩

variable {a b : AgentId}

theorem endNap_ne (h : b ≠ a) : (s.endNap a).sleepingUntil.get? b = s.sleepingUntil.get? b := by
  rw [endNap]
  split
  · exact Dict.get?_erase_ne _ h
  · rfl

@[simp] theorem endNap_agentCollection (a : AgentId) :
    (s.endNap a).agentCollection = s.agentCollection := by
  rw [endNap]
  split <;> rfl

/-- What no reply changes. -/
structure SameStep (s t : Scheduler) : Prop where
  time : t.time = s.time
  expectedThisStep : t.expectedThisStep = s.expectedThisStep

theorem acknowledge_sleepingUntil (r : Reply) :
    (s.acknowledge r).sleepingUntil = s.sleepingUntil := by
  rw [acknowledge]
  split
  · rfl
  · split
    · split <;> rfl
    · rfl

theorem acknowledge_sameStep (r : Reply) : SameStep s (s.acknowledge r) := by
  rw [acknowledge]
  split
  · exact ⟨rfl, rfl⟩
  · split
    · split <;> exact ⟨rfl, rfl⟩
    · exact ⟨rfl, rfl⟩

theorem acknowledge_ne (r : Reply) (h : b ≠ r.agentId) :
    (s.acknowledge r).agentCollection.get? b = s.agentCollection.get? b := by
  rw [acknowledge]
  split
  · exact Dict.get?_set_ne _ _ h
  · split
    · split
      · exact Dict.get?_set_ne _ _ h
      · rfl
    · rfl

theorem noteSleep_sameStep (r : Reply) : SameStep s (s.noteSleep r) := by
  have hend : SameStep s (s.endNap r.agentId) := by
    rw [endNap]
    split <;> exact ⟨rfl, rfl⟩
  rw [noteSleep]
  split
  · exact hend
  · split
    · exact hend
    · split <;> exact ⟨rfl, rfl⟩

theorem noteSleep_agentCollection (r : Reply) :
    (s.noteSleep r).agentCollection = s.agentCollection := by
  rw [noteSleep]
  split
  · exact endNap_agentCollection s _
  · split
    · exact endNap_agentCollection s _
    · split <;> rfl

theorem noteSleep_ne (r : Reply) (h : b ≠ r.agentId) :
    (s.noteSleep r).sleepingUntil.get? b = s.sleepingUntil.get? b := by
  rw [noteSleep]
  split
  · exact endNap_ne s h
  · split
    · exact endNap_ne s h
    · split <;> exact Dict.get?_set_ne _ _ h

/-- A reply leaves its agent with the nap it announces, in the table as on the reply. -/
theorem noteSleep_self {r : Reply} (h : r.Stamped) :
    (s.noteSleep r).sleepingUntil.get? r.agentId = r.napUntil := by
  rw [noteSleep, Reply.napUntil]
  split
  · exact endNap_self s _
  · next n hn =>
    obtain ⟨k, hk⟩ := h (hn ▸ Option.some_ne_none n)
    have hbase : s.responseTimeStep r = some ↑k := by
      rw [responseTimeStep, hk, if_neg]
      rw [Option.some_inj]
      omega
    split
    · exact endNap_self s _
    · split
      · exact Dict.get?_set_self _ _ _
      · rw [hbase, hk]
        exact Dict.get?_set_self _ _ _

theorem tally_ledgers (r : Reply) :
    (s.tally r).sleepingUntil = s.sleepingUntil ∧
      (s.tally r).agentCollection = s.agentCollection ∧ SameStep s (s.tally r) := by
  rw [tally]
  split
  · dsimp only
    split_ifs <;> exact ⟨rfl, rfl, rfl, rfl⟩
  · exact ⟨rfl, rfl, rfl, rfl⟩

theorem handleReply_sameStep (r : Reply) : SameStep s (s.handleReply r) := by
  obtain ⟨h1, h2⟩ := acknowledge_sameStep s r
  obtain ⟨h3, h4⟩ := noteSleep_sameStep (s.acknowledge r) r
  obtain ⟨-, -, h5, h6⟩ := tally_ledgers ((s.acknowledge r).noteSleep r) r
  exact ⟨h5.trans (h3.trans h1), h6.trans (h4.trans h2)⟩

/-- A reply touches the ledgers of its agent only. -/
theorem handleReply_ne (r : Reply) (h : b ≠ r.agentId) :
    (s.handleReply r).sleepingUntil.get? b = s.sleepingUntil.get? b ∧
      (s.handleReply r).agentCollection.get? b = s.agentCollection.get? b := by
  obtain ⟨h1, h2, -⟩ := tally_ledgers ((s.acknowledge r).noteSleep r) r
  refine ⟨?_, ?_⟩
  · rw [handleReply, h1, noteSleep_ne _ r h, acknowledge_sleepingUntil]
  · rw [handleReply, h2, noteSleep_agentCollection, acknowledge_ne s r h]

theorem handleReply_self {r : Reply} (h : r.Stamped) :
    (s.handleReply r).sleepingUntil.get? r.agentId = r.napUntil := by
  rw [handleReply, (tally_ledgers _ r).1, noteSleep_self _ h]

theorem mem_expectedThisStep {s : Scheduler} :
    a ∈ s.beginStepBarrier.expectedThisStep ↔ s.Awaits a := by
  rw [beginStepBarrier, List.mem_toFinset, Dict.mem_keys_iff, Awaits]
  simp only [Dict.get?_filter, Bool.and_eq_true, Bool.not_eq_true']
  constructor
  · rintro ⟨⟨b⟩, hb, hp, hs⟩
    refine ⟨hb.trans (congrArg (fun b ↦ some (AgentEntry.mk b)) hp), fun w hw ↦ ?_⟩
    by_contra hlt
    refine Bool.eq_false_iff.mp hs (Dict.contains_iff.mpr ⟨w, Dict.get?_filter.mpr ⟨hw, ?_⟩⟩)
    exact decide_eq_true hlt
  · rintro ⟨ha, hw⟩
    refine ⟨_, ha, rfl, Bool.eq_false_iff.mpr fun hs ↦ ?_⟩
    obtain ⟨w, hf⟩ := Dict.contains_iff.mp hs
    obtain ⟨hget, hnot⟩ := Dict.get?_filter.mp hf
    exact of_decide_eq_true hnot (hw w hget)

/-- A nap that reaches past the current step outlives the start of the step. -/
theorem beginStepBarrier_sleepingUntil {s : Scheduler} {wake : WakeStep}
    (h : s.sleepingUntil.get? a = some wake) (hlt : ¬wake.OverBy s.time) :
    s.beginStepBarrier.sleepingUntil.get? a = some wake :=
  Dict.get?_filter.mpr ⟨h, decide_eq_true hlt⟩

/-- Agents may have been removed, and nothing else has happened to the ledgers. -/
structure Swept (s t : Scheduler) : Prop where
  time : t.time = s.time
  kept : ∀ a, t.Registered a → s.Registered a ∧ t.sleepingUntil.get? a = s.sleepingUntil.get? a

theorem Swept.refl : Swept s s := ⟨rfl, fun _ h ↦ ⟨h, rfl⟩⟩

theorem Swept.trans {s t u : Scheduler} (h : Swept s t) (h' : Swept t u) : Swept s u := by
  refine ⟨h'.time.trans h.time, fun a ha ↦ ?_⟩
  obtain ⟨ht, he⟩ := h'.kept a ha
  obtain ⟨hs, he'⟩ := h.kept a ht
  exact ⟨hs, he.trans he'⟩

/-- What each member of a list sweeps, the list sweeps. -/
theorem Swept.foldl {f : Scheduler → AgentId → Scheduler} (hf : ∀ s a, Swept s (f s a))
    (l : List AgentId) (s : Scheduler) : Swept s (l.foldl f s) := by
  induction l generalizing s with
  | nil => exact Swept.refl s
  | cons a l ih => exact (hf s a).trans (ih (f s a))

theorem swept_removeAgent (a : AgentId) : Swept s (s.removeAgent a) := by
  have hcollection : (s.removeAgent a).agentCollection = s.agentCollection.erase a := by
    rw [removeAgent]
    split <;> rfl
  refine ⟨?_, fun b hb ↦ ?_⟩
  · rw [removeAgent]
    split <;> rfl
  · rw [Registered, hcollection, Dict.get?_erase] at hb
    split at hb
    · exact absurd rfl hb
    · next hne =>
      refine ⟨hb, ?_⟩
      rw [removeAgent]
      split
      · exact Dict.get?_erase_ne _ hne
      · rfl

theorem swept_stash (a : AgentId) (entry : AgentEntry) : Swept s (s.stash a entry) := by
  have hall : ∀ stashed, Swept s { s with prunedStash := stashed } :=
    fun _ ↦ ⟨rfl, fun _ hb ↦ ⟨hb, rfl⟩⟩
  exact hall _

theorem swept_reap (a : AgentId) : Swept s (s.reap a) := by
  rw [reap]
  split
  · exact Swept.refl s
  · next entry _ =>
    refine Swept.trans ?_ (swept_removeAgent _ a)
    split
    · exact swept_stash s a entry
    · exact Swept.refl s

theorem swept_removeSleepers : Swept s s.removeSleepers := by
  refine Swept.foldl (fun t a ↦ ?_) _ s
  split
  · exact swept_removeAgent t a
  · exact Swept.refl t

/-- The end of a step removes agents and moves the time on. -/
theorem resolveStep_swept (order : List AgentId) (isFinal : Bool) :
    ∃ t, Swept s t ∧ s.resolveStep order isFinal = { t with time := s.time + 1 } := by
  have hreap : Swept s (order.foldl reap s) := Swept.foldl swept_reap order s
  rw [resolveStep]
  split
  · have hall := hreap.trans (swept_removeSleepers _)
    exact ⟨_, hall, by rw [hall.time]⟩
  · exact ⟨_, hreap, by rw [hreap.time]⟩

/-- Only agents that were waited for are stashed. -/
theorem mem_expected_of_stashes {s : Scheduler} (h : s.stashes a = true) :
    a ∈ s.expectedThisStep := by
  rw [stashes, Bool.and_eq_true, Bool.and_eq_true, decide_eq_true_eq, nonResponders,
    Finset.mem_sdiff] at h
  exact h.2.1.1

end Scheduler

end OpenRide.Simulation
