import OpenRide.Simulation.Interleaving

/-!
# Naps across the barrier

Each side has its own record of a nap: `sleepUntilStep` of the agent and `sleepingUntil` of the
scheduler.  They can disagree only while a reply is under way (`InSync`).  That is enough for a step
to wait for an agent that sleeps (`awaited_asleep`): the reply that ends an early nap arrives, and
the one that announces the next nap is still under way.

`sleepers_not_awaited` says that nothing else has this effect.  In every run in which no step waits
for an agent with such a reply under way, and no agent asks for a nap past a step that already waits
for it, whoever swallows the broadcast of a step is not waited for in it.
-/

namespace OpenRide.Simulation

open Lib

namespace Sim

/-- **Announced in time**: a step waits for no agent whose last reply, still under way, lets it
sleep past the step; and an agent that answers an earlier step asks for no nap past a step that
waits for it. -/
def AnnouncedInTime (s : Sim) : SimEvent → Prop
  | .beginStep _ => ∀ a ∈ s.scheduler.agentCollection.keys, s.scheduler.Awaits a →
      (s.agents a).isShutdown = false → ∀ r ∈ (s.outbox a).getLast?, ∀ wake ∈ r.napUntil,
        wake.OverBy s.scheduler.time
  | .handle a turn => ∀ m ∈ (s.inbox a).head?, ∀ T ≤ s.scheduler.time, m.timeStep < T →
      a ∈ s.expectedAt T → ¬turn.NapsPast m.timeStep T
  | _ => True

/-! ## What is under way -/

/-- The broadcast of the step has been sent. -/
def Sent (s : Sim) (T : ℕ) : Prop :=
  T < s.scheduler.time ∨ T = s.scheduler.time ∧ s.phase.isPublished = true

/-- The order of what is under way, and the history of the steps. -/
structure Ordered (s : Sim) : Prop where
  past : ∀ a, ∀ m ∈ s.inbox a, s.Sent m.timeStep
  sorted : ∀ a, (s.inbox a).Pairwise fun m m' ↦ m'.action = .step → m.timeStep < m'.timeStep
  swallowed : ∀ p ∈ s.swallowed, s.Sent p.2
  expected : s.phase.isPublished = true ∨ s.phase.isBegun = true →
    s.expectedAt s.scheduler.time = s.scheduler.expectedThisStep
  stashed : ∀ p ∈ s.stashed, p.2 < s.scheduler.time ∧ p.1 ∈ s.expectedAt p.2

theorem start_ordered : Ordered {} where
  past _ _ hm := nomatch hm
  sorted _ := List.Pairwise.nil
  swallowed _ hp := nomatch hp
  expected _ := rfl
  stashed _ hp := nomatch hp

/-- The parts of the state that `Ordered` is about are the same. -/
structure SameOrder (s t : Sim) : Prop where
  time : t.scheduler.time = s.scheduler.time
  phase : t.phase = s.phase
  expectedThisStep : t.scheduler.expectedThisStep = s.scheduler.expectedThisStep
  expectedAt : t.expectedAt = s.expectedAt
  inbox : t.inbox = s.inbox
  swallowed : t.swallowed = s.swallowed
  stashed : t.stashed = s.stashed

variable {s : Sim}

variable {t : Sim}

theorem Ordered.sameOrder (h : Ordered s) (hst : SameOrder s t) : Ordered t := by
  obtain ⟨htime, hphase, hexp, hat, hin, hsw, hstash⟩ := hst
  have hsent : ∀ T, s.Sent T → t.Sent T := by
    intro T hT
    rw [Sent, htime, hphase]
    exact hT
  refine ⟨fun a m hm ↦ ?_, fun a ↦ ?_, fun p hp ↦ ?_, fun hp ↦ ?_, fun p hp ↦ ?_⟩
  · exact hsent _ (h.past a m (hin ▸ hm))
  · exact hin ▸ h.sorted a
  · exact hsent _ (h.swallowed p (hsw ▸ hp))
  · rw [hphase] at hp
    rw [hat, htime, hexp]
    exact h.expected hp
  · rw [hstash] at hp
    rw [htime, hat]
    exact h.stashed p hp

variable {a : AgentId}

theorem deliver_eq {r : Reply} {rest : List Reply} (h : s.outbox a = r :: rest) :
    s.next (.deliver a) =
      { s with
        scheduler := s.scheduler.handleReply r
        outbox := Function.update s.outbox a rest } := by
  rw [next, h]

variable {turn : Turn}

variable {m : Message}

theorem handle_eq {rest : List Message} (h : s.inbox a = m :: rest) :
    s.next (.handle a turn) = s.handled a m rest turn := by
  rw [next, h]

variable {isFinal : Bool}

theorem publish_eq (h : s.phase = .begun isFinal) :
    s.next .publish =
      { s with
        phase := .published isFinal
        inbox := fun a ↦ s.inbox a ++ s.messagesTo isFinal a } := by
  rw [next, h]

variable {order : List AgentId}

theorem endStep_eq (h : s.phase = .published isFinal) : s.next (.endStep order) =
      { s with
        scheduler := s.scheduler.resolveStep order isFinal
        phase := if isFinal then .over else .idle
        stashed := s.stashed ++
          (order.filter s.scheduler.stashes).map fun a ↦ (a, s.scheduler.time) } := by
  rw [next, h]

theorem exists_begun {p : Phase} (h : p.isBegun = true) : ∃ isFinal, p = .begun isFinal := by
  cases p with
  | begun isFinal => exact ⟨isFinal, rfl⟩
  | _ => cases h

theorem exists_published {p : Phase} (h : p.isPublished = true) :
    ∃ isFinal, p = .published isFinal := by
  cases p with
  | published isFinal => exact ⟨isFinal, rfl⟩
  | _ => cases h

theorem mem_messagesTo (h : m ∈ s.messagesTo isFinal a) : m.timeStep = s.scheduler.time := by
  rw [messagesTo, List.mem_append] at h
  rcases h with h | h
  · split at h
    · obtain ⟨_, -, rfl⟩ := List.mem_map.mp h
      rfl
    · cases h
  · split at h
    · obtain rfl := List.mem_singleton.mp h
      rfl
    · cases h

theorem messagesTo_sorted (s : Sim) (isFinal : Bool) (a : AgentId) :
    (s.messagesTo isFinal a).Pairwise fun m m' ↦ m'.action = .step → m.timeStep < m'.timeStep := by
  cases isFinal with
  | true =>
    refine List.pairwise_of_forall_mem_list fun m _ m' hm' hstep ↦ ?_
    have hno : m'.action = .shutdown := by
      rw [messagesTo, List.mem_append] at hm'
      rcases hm' with h | h
      · obtain ⟨_, -, rfl⟩ := List.mem_map.mp h
        rfl
      · split at h
        · obtain rfl := List.mem_singleton.mp h
          rfl
        · cases h
    rw [hno] at hstep
    cases hstep
  | false =>
    rw [messagesTo, if_neg Bool.false_ne_true, List.nil_append]
    split
    · exact List.pairwise_singleton _ _
    · exact List.Pairwise.nil

theorem lt_of_sent (h : s.phase.isPublished = false) {T : ℕ} (hT : s.Sent T) :
    T < s.scheduler.time := by
  rcases hT with hT | ⟨-, hp⟩
  · exact hT
  · rw [h] at hp
    cases hp

theorem beginStep_ordered (h : Ordered s) (he : s.Enabled (.beginStep isFinal)) :
    Ordered (s.next (.beginStep isFinal)) := by
  have hidle : s.phase = .idle := he
  have hpast : ∀ T, s.Sent T → T < s.scheduler.time := fun T ↦ lt_of_sent (hidle ▸ rfl)
  refine ⟨fun a m hm ↦ Or.inl (hpast _ (h.past a m hm)), h.sorted,
    fun p hp ↦ Or.inl (hpast _ (h.swallowed p hp)), fun _ ↦ Function.update_self _ _ _,
    fun p hp ↦ ?_⟩
  obtain ⟨hlt, hat⟩ := h.stashed p hp
  refine ⟨hlt, ?_⟩
  dsimp only [next]
  rw [Function.update_of_ne hlt.ne]
  exact hat

theorem publish_ordered (h : Ordered s) (he : s.Enabled .publish) : Ordered (s.next .publish) := by
  obtain ⟨isFinal, hbegun⟩ := exists_begun he
  have hpast : ∀ T, s.Sent T → T < s.scheduler.time := fun T ↦ lt_of_sent (hbegun ▸ rfl)
  rw [publish_eq hbegun]
  refine ⟨fun a m hm ↦ ?_, fun a ↦ ?_, fun p hp ↦ Or.inl (hpast _ (h.swallowed p hp)),
    fun _ ↦ h.expected (Or.inr he), h.stashed⟩
  · rcases List.mem_append.mp hm with hm | hm
    · exact Or.inl (hpast _ (h.past a m hm))
    · exact Or.inr ⟨mem_messagesTo hm, rfl⟩
  · refine List.pairwise_append.mpr ⟨h.sorted a, messagesTo_sorted s isFinal a, ?_⟩
    intro m hm m' hm' _
    rw [mem_messagesTo hm']
    exact hpast _ (h.past a m hm)

theorem handle_ordered (h : Ordered s) (he : s.Enabled (.handle a turn)) :
    Ordered (s.next (.handle a turn)) := by
  obtain ⟨m, rest, hin⟩ := List.exists_cons_of_ne_nil he.2
  rw [handle_eq hin]
  have hsub : ∀ b, ((s.handled a m rest turn).inbox b).Sublist (s.inbox b) := by
    intro b
    dsimp only [handled]
    rw [Function.update_apply]
    split
    · next hb =>
      rw [hb, hin]
      exact List.sublist_cons_self m rest
    · exact List.Sublist.refl _
  refine ⟨fun b m' hm' ↦ h.past b m' ((hsub b).subset hm'), fun b ↦ (h.sorted b).sublist (hsub b),
    fun p hp ↦ ?_, h.expected, h.stashed⟩
  dsimp only [handled] at hp
  split at hp
  · rcases List.mem_cons.mp hp with rfl | hp
    · exact h.past a m (hin ▸ List.mem_cons_self)
    · exact h.swallowed p hp
  · exact h.swallowed p hp

theorem endStep_ordered (h : Ordered s) (he : s.Enabled (.endStep order)) :
    Ordered (s.next (.endStep order)) := by
  obtain ⟨isFinal, hpub⟩ := exists_published he.1
  obtain ⟨sch, -, hsch⟩ := Scheduler.resolveStep_swept s.scheduler order isFinal
  have htime : (s.scheduler.resolveStep order isFinal).time = s.scheduler.time + 1 := by
    rw [hsch]
  have hsent : ∀ T, s.Sent T → T < (s.scheduler.resolveStep order isFinal).time := by
    intro T hT
    rcases hT with hT | ⟨hT, -⟩ <;> omega
  rw [endStep_eq hpub]
  refine ⟨fun a m hm ↦ Or.inl (hsent _ (h.past a m hm)), h.sorted,
    fun p hp ↦ Or.inl (hsent _ (h.swallowed p hp)), fun hp ↦ ?_, fun p hp ↦ ?_⟩
  · dsimp only at hp
    rcases hp with hp | hp <;> split at hp <;> cases hp
  · dsimp only at hp ⊢
    rw [htime]
    rcases List.mem_append.mp hp with hp | hp
    · obtain ⟨hlt, hat⟩ := h.stashed p hp
      exact ⟨Nat.lt_succ_of_lt hlt, hat⟩
    · obtain ⟨a, ha, rfl⟩ := List.mem_map.mp hp
      refine ⟨Nat.lt_succ_self _, ?_⟩
      rw [h.expected (Or.inl he.1)]
      exact Scheduler.mem_expected_of_stashes (List.mem_filter.mp ha).2

variable {e : SimEvent}

theorem step_ordered (h : Ordered s) (he : s.Enabled e) : Ordered (s.next e) := by
  cases e with
  | addAgent a => exact h.sameOrder ⟨rfl, rfl, rfl, rfl, rfl, rfl, rfl⟩
  | boot a appTopic ready => exact h.sameOrder ⟨rfl, rfl, rfl, rfl, rfl, rfl, rfl⟩
  | resubscribe a => exact h.sameOrder ⟨rfl, rfl, rfl, rfl, rfl, rfl, rfl⟩
  | orphan a => exact h.sameOrder ⟨rfl, rfl, rfl, rfl, rfl, rfl, rfl⟩
  | deliver a =>
    obtain ⟨r, rest, hout⟩ := List.exists_cons_of_ne_nil he
    obtain ⟨htime, hexp⟩ := Scheduler.handleReply_sameStep s.scheduler r
    rw [deliver_eq hout]
    exact h.sameOrder ⟨htime, rfl, hexp, rfl, rfl, rfl, rfl⟩
  | beginStep isFinal => exact beginStep_ordered h he
  | publish => exact publish_ordered h he
  | handle a turn => exact handle_ordered h he
  | endStep order => exact endStep_ordered h he

/-! ## The two records of a nap -/

/-- **The two sides agree on the nap of an agent, up to what is under way**: while replies of the
agent are under way it sleeps as the last of them says, and when none is, the scheduler knows of its
nap or the nap is over. -/
structure InSync (s : Sim) (a : AgentId) : Prop where
  id : (s.agents a).uniqueId = a
  fresh : s.stage a ≠ .booted → (s.agents a).sleepUntilStep = none
  owned : ∀ r ∈ s.outbox a, r.agentId = a ∧ r.Stamped
  announced : (s.agents a).isShutdown = false → ∀ r, (s.outbox a).getLast? = some r →
    (s.agents a).sleepUntilStep = r.napUntil
  table : (s.agents a).isShutdown = false → s.scheduler.Registered a → s.outbox a = [] →
    ∀ wake, (s.agents a).sleepUntilStep = some wake →
      s.scheduler.sleepingUntil.get? a = some wake ∨ wake.OverBy s.scheduler.time

theorem start_inSync (a : AgentId) : InSync {} a where
  id := rfl
  fresh _ := rfl
  owned _ hr := nomatch hr
  announced _ _ hr := nomatch hr
  table _ _ _ _ hw := nomatch hw

/-- The agent and what it has under way are the same, and the scheduler forgets no nap of it that is
not over. -/
theorem InSync.mono (h : InSync s a) (hstage : t.stage a = s.stage a)
    (hagent : t.agents a = s.agents a) (hout : t.outbox a = s.outbox a)
    (htime : s.scheduler.time ≤ t.scheduler.time)
    (hkept : t.scheduler.Registered a → s.scheduler.Registered a ∧
      ∀ wake, s.scheduler.sleepingUntil.get? a = some wake →
      t.scheduler.sleepingUntil.get? a = some wake ∨ wake.OverBy t.scheduler.time)
    : InSync t a := by
  refine ⟨hagent ▸ h.id, hagent ▸ hstage ▸ h.fresh, hout ▸ h.owned, hagent ▸ hout ▸ h.announced,
    fun hs hr ho wake hw ↦ ?_⟩
  obtain ⟨hreg, hkeep⟩ := hkept hr
  rw [hagent] at hs hw
  rcases h.table hs hreg (hout ▸ ho) wake hw with htable | hle
  · exact hkeep wake htable
  · exact Or.inr (hle.mono (Int.ofNat_le.mpr htime))

theorem InSync.same (h : InSync s a) (hsch : t.scheduler = s.scheduler)
    (hstage : t.stage a = s.stage a) (hagent : t.agents a = s.agents a)
    (hout : t.outbox a = s.outbox a) : InSync t a :=
  h.mono hstage hagent hout (hsch ▸ le_refl _) fun hr ↦
    ⟨hsch ▸ hr, fun _ hw ↦ Or.inl (hsch ▸ hw)⟩

theorem addAgent_inSync (h : ∀ b, InSync s b) (he : s.Enabled (.addAgent a)) (b : AgentId) :
    InSync (s.next (.addAgent a)) b := by
  have habsent : s.stage a = .absent := he
  by_cases hb : b = a
  · subst hb
    have hnone : (s.agents b).sleepUntilStep = none := (h b).fresh (by rw [habsent]; nofun)
    exact ⟨(h b).id, fun _ ↦ hnone, (h b).owned, (h b).announced,
      fun _ _ _ wake hw ↦ absurd (hnone.symm.trans hw) (Option.some_ne_none wake).symm⟩
  · refine (h b).mono (Function.update_of_ne hb _ _) rfl rfl (le_refl _) fun hr ↦ ?_
    refine ⟨?_, fun _ ↦ Or.inl⟩
    have hget := Dict.get?_set_ne s.scheduler.agentCollection { pendingBoot := true } hb
    exact fun hno ↦ hr (hget.trans hno)

theorem boot_inSync {appTopic : Option Topic} {ready : Bool} (h : ∀ b, InSync s b) (b : AgentId) :
    InSync (s.next (.boot a appTopic ready)) b := by
  by_cases hb : b = a
  · subst hb
    have hagent : (s.next (.boot b appTopic ready)).agents b = _ := Function.update_self _ _ _
    have hout : (s.next (.boot b appTopic ready)).outbox b = _ := Function.update_self _ _ _
    refine ⟨?_, fun _ ↦ ?_, fun r hr ↦ ?_, fun _ r hr ↦ ?_, fun _ _ ho ↦ ?_⟩
    · rw [hagent]
    · rw [hagent]
    · rw [hout] at hr
      rcases List.mem_append.mp hr with hr | hr
      · exact (h b).owned r hr
      · obtain rfl := List.mem_singleton.mp hr
        exact ⟨rfl, fun hno ↦ absurd rfl hno⟩
    · rw [hout, List.getLast?_append_cons, List.getLast?_singleton] at hr
      cases hr
      rw [hagent]
      rfl
    · rw [hout] at ho
      exact absurd ho (List.append_ne_nil_of_right_ne_nil _ (List.cons_ne_nil _ _))
  · exact (h b).same rfl (Function.update_of_ne hb _ _) (Function.update_of_ne hb _ _)
      (Function.update_of_ne hb _ _)

theorem InSync.quiet (h : InSync s a) (hsch : t.scheduler = s.scheduler)
    (hstage : t.stage a = s.stage a) (hout : t.outbox a = s.outbox a)
    (hid : (t.agents a).uniqueId = (s.agents a).uniqueId)
    (hsleep : (t.agents a).sleepUntilStep = (s.agents a).sleepUntilStep)
    (hshut : (t.agents a).isShutdown = false → (s.agents a).isShutdown = false) : InSync t a := by
  refine ⟨hid.trans h.id, fun hs ↦ ?_, hout ▸ h.owned, fun hs ↦ ?_, fun hs ↦ ?_⟩
  · rw [hsleep]
    exact h.fresh (hstage ▸ hs)
  · rw [hsleep, hout]
    exact h.announced (hshut hs)
  · rw [hsleep, hout, hsch]
    exact h.table (hshut hs)

/-- An agent is brought back to the broadcast, or shuts itself down. -/
theorem agent_inSync {g : Agent} (h : ∀ b, InSync s b) (hid : g.uniqueId = (s.agents a).uniqueId)
    (hsleep : g.sleepUntilStep = (s.agents a).sleepUntilStep)
    (hshut : g.isShutdown = false → (s.agents a).isShutdown = false) (b : AgentId) :
    InSync { s with agents := Function.update s.agents a g } b := by
  by_cases hb : b = a
  · subst hb
    have hself : (Function.update s.agents b g) b = g := Function.update_self _ _ _
    refine (h b).quiet rfl rfl rfl ?_ ?_ ?_
    · exact (congrArg Agent.uniqueId hself).trans hid
    · exact (congrArg Agent.sleepUntilStep hself).trans hsleep
    · exact fun hs ↦ hshut ((congrArg Agent.isShutdown hself).symm.trans hs)
  · exact (h b).same rfl rfl (Function.update_of_ne hb _ _) rfl

theorem beginStep_inSync (h : ∀ b, InSync s b) (b : AgentId) :
    InSync (s.next (.beginStep isFinal)) b := by
  refine (h b).mono rfl rfl rfl (le_refl _) fun hr ↦ ⟨hr, fun wake hw ↦ ?_⟩
  by_cases hle : wake.OverBy s.scheduler.time
  · exact Or.inr hle
  · exact Or.inl (Scheduler.beginStepBarrier_sleepingUntil hw hle)

theorem endStep_inSync (h : ∀ b, InSync s b) (he : s.Enabled (.endStep order)) (b : AgentId) :
    InSync (s.next (.endStep order)) b := by
  obtain ⟨isFinal, hpub⟩ := exists_published he.1
  obtain ⟨sch, hswept, hsch⟩ := Scheduler.resolveStep_swept s.scheduler order isFinal
  rw [endStep_eq hpub, hsch]
  refine (h b).mono rfl rfl rfl (Nat.le_succ _) fun hr ↦ ?_
  obtain ⟨hreg, htable⟩ := hswept.kept b hr
  exact ⟨hreg, fun wake hw ↦ Or.inl (htable.trans hw)⟩

theorem deliver_inSync (h : ∀ b, InSync s b) (he : s.Enabled (.deliver a)) (b : AgentId) :
    InSync (s.next (.deliver a)) b := by
  obtain ⟨r, rest, hout⟩ := List.exists_cons_of_ne_nil he
  obtain ⟨hr, hstamped⟩ := (h a).owned r (hout ▸ List.mem_cons_self)
  have htime := (Scheduler.handleReply_sameStep s.scheduler r).time
  rw [deliver_eq hout]
  by_cases hb : b = a
  · subst hb
    have hself : (Function.update s.outbox b rest) b = rest := Function.update_self _ _ _
    refine ⟨(h b).id, (h b).fresh, fun r' hr' ↦ ?_, fun hs r' hr' ↦ ?_, fun hs _ ho wake hw ↦ ?_⟩
    · exact (h b).owned r' (hout ▸ List.mem_cons_of_mem _ (hself ▸ hr'))
    · refine (h b).announced hs r' ?_
      rw [hout, List.getLast?_cons, (congrArg List.getLast? hself).symm.trans hr', Option.getD_some]
    · -- The last reply has arrived, and the scheduler has the nap it announces.
      have ho : rest = [] := hself.symm.trans ho
      have hlast := (h b).announced hs r (by rw [hout, ho]; rfl)
      have htable := Scheduler.handleReply_self s.scheduler hstamped
      rw [hr] at htable
      exact Or.inl (htable.trans (hlast.symm.trans hw))
  · obtain ⟨htable, hcollection⟩ := Scheduler.handleReply_ne s.scheduler r (hr.symm ▸ hb)
    refine (h b).mono rfl rfl (Function.update_of_ne hb _ _) htime.ge fun hreg ↦ ?_
    exact ⟨fun hno ↦ hreg (hcollection.trans hno), fun wake hw ↦ Or.inl (htable.trans hw)⟩

theorem handle_inSync (h : ∀ b, InSync s b) (he : s.Enabled (.handle a turn)) (b : AgentId) :
    InSync (s.next (.handle a turn)) b := by
  obtain ⟨m, rest, hin⟩ := List.exists_cons_of_ne_nil he.2
  rw [handle_eq hin]
  by_cases hb : b = a
  · subst hb
    have hagent : (s.handled b m rest turn).agents b = ((s.agents b).receive m turn).1 :=
      Function.update_self _ _ _
    have hout : (s.handled b m rest turn).outbox b =
        s.outbox b ++ ((s.agents b).receive m turn).2.toList := Function.update_self _ _ _
    have hid := Agent.receive_uniqueId (s.agents b) m turn
    rcases Agent.receive_cases (s.agents b) m turn with ⟨r, hr, ha⟩ | ⟨hnone, hsleep, hshut, -⟩
    · rw [hr, Option.toList_some] at hout
      refine ⟨?_, fun hs ↦ absurd he.1 hs, fun r' hr' ↦ ?_, fun hs r' hr' ↦ ?_, fun _ _ ho ↦ ?_⟩
      · rw [hagent, hid]
        exact (h b).id
      · rw [hout, List.mem_append, List.mem_singleton] at hr'
        rcases hr' with hr' | rfl
        · exact (h b).owned r' hr'
        · exact ⟨ha.agentId.trans (hid.trans (h b).id), ha.stamped⟩
      · rw [hout, List.getLast?_append_cons, List.getLast?_singleton] at hr'
        cases hr'
        rw [hagent] at hs ⊢
        exact ha.nap hs
      · rw [hout] at ho
        exact absurd ho (List.append_ne_nil_of_right_ne_nil _ (List.cons_ne_nil _ _))
    · rw [hnone, Option.toList_none, List.append_nil] at hout
      refine (h b).quiet rfl rfl hout ?_ ?_ ?_
      · rw [hagent, hid]
      · rw [hagent, hsleep]
      · rw [hagent, hshut]
        exact fun hs ↦ hs
  · exact (h b).same rfl rfl (Function.update_of_ne hb _ _) (Function.update_of_ne hb _ _)

theorem step_inSync (h : ∀ b, InSync s b) (he : s.Enabled e) (b : AgentId) :
    InSync (s.next e) b := by
  cases e with
  | addAgent a => exact addAgent_inSync h he b
  | boot a appTopic ready => exact boot_inSync h b
  | resubscribe a =>
    exact agent_inSync (g := { s.agents a with broadcastSubscribed := true }) h rfl rfl
      (fun hs ↦ hs) b
  | orphan a =>
    exact agent_inSync (g := { s.agents a with isShutdown := true }) h rfl rfl
      (fun hs ↦ nomatch hs) b
  | beginStep isFinal => exact beginStep_inSync h b
  | publish =>
    obtain ⟨isFinal, hbegun⟩ := exists_begun he
    rw [publish_eq hbegun]
    exact (h b).same rfl rfl rfl rfl
  | deliver a => exact deliver_inSync h he b
  | handle a turn => exact handle_inSync h he b
  | endStep order => exact endStep_inSync h he b

/-! ## Who is waited for -/

/-- The agent has still to handle the broadcast of the step. -/
def Pending (s : Sim) (a : AgentId) (T : ℕ) : Prop :=
  (∃ m ∈ s.inbox a, m.action = .step ∧ m.timeStep = T) ∨
    T = s.scheduler.time ∧ s.phase.isBegun = true

/-- **No step waits for an agent that sleeps past it**, and no agent has slept through a step that
waits for it. -/
structure Awake (s : Sim) : Prop where
  awake : ∀ a T, a ∈ s.expectedAt T → s.Pending a T → (s.agents a).isShutdown = false →
    ∀ wake, (s.agents a).sleepUntilStep = some wake → wake.OverBy T
  spared : ∀ p ∈ s.swallowed, p.1 ∉ s.expectedAt p.2

theorem start_awake : Awake {} where
  awake _ _ ha := nomatch ha
  spared _ hp := nomatch hp

/-- An agent sleeps no longer than before, and has nothing new to handle. -/
theorem Awake.quiet (h : Awake s) (hat : t.expectedAt = s.expectedAt)
    (hsw : t.swallowed = s.swallowed) (hpending : ∀ a T, t.Pending a T → s.Pending a T)
    (hagent : ∀ a, (t.agents a).isShutdown = false →
      ∀ wake, (t.agents a).sleepUntilStep = some wake → (s.agents a).isShutdown = false ∧
      (s.agents a).sleepUntilStep = some wake)
    : Awake t := by
  refine ⟨fun a T ha hp hs wake hw ↦ ?_, fun p hp ↦ ?_⟩
  · obtain ⟨hs', hwake⟩ := hagent a hs wake hw
    exact h.awake a T (hat ▸ ha) (hpending a T hp) hs' wake hwake
  · rw [hat]
    exact h.spared p (hsw ▸ hp)

/-- Only one agent changes, and it sleeps no longer than before. -/
theorem Awake.agent {g : Agent} (h : Awake s) (hat : t.expectedAt = s.expectedAt)
    (hsw : t.swallowed = s.swallowed) (hpending : ∀ a T, t.Pending a T → s.Pending a T)
    (hagents : t.agents = Function.update s.agents a g)
    (hg : g.isShutdown = false → ∀ wake, g.sleepUntilStep = some wake →
      (s.agents a).isShutdown = false ∧ (s.agents a).sleepUntilStep = some wake)
    : Awake t := by
  refine h.quiet hat hsw hpending fun b ↦ ?_
  rw [hagents]
  by_cases hb : b = a
  · subst hb
    rw [Function.update_self]
    exact hg
  · rw [Function.update_of_ne hb]
    exact fun hs _ hw ↦ ⟨hs, hw⟩

theorem beginStep_awake (h : Awake s) (ho : Ordered s) (hsync : ∀ b, InSync s b)
    (he : s.Enabled (.beginStep isFinal)) (hC : s.AnnouncedInTime (.beginStep isFinal)) :
    Awake (s.next (.beginStep isFinal)) := by
  have hidle : s.phase = .idle := he
  have hat : (s.next (.beginStep isFinal)).expectedAt = Function.update s.expectedAt
    s.scheduler.time s.scheduler.beginStepBarrier.expectedThisStep := rfl
  refine ⟨fun a T ha hp hs wake hw ↦ ?_, fun p hp ↦ ?_⟩
  · by_cases hT : T = s.scheduler.time
    · subst hT
      rw [hat, Function.update_self] at ha
      have hawaits := Scheduler.mem_expectedThisStep.mp ha
      have hreg : s.scheduler.agentCollection.get? a ≠ none :=
        hawaits.1 ▸ Option.some_ne_none _
      cases hlast : (s.outbox a).getLast? with
      | none =>
        -- Nothing is under way, so the scheduler knows of the nap.
        rcases (hsync a).table hs hreg (List.getLast?_eq_none_iff.mp hlast) wake hw with ht | hle
        · exact hawaits.2 wake ht
        · exact hle
      | some r =>
        have hmem := Dict.mem_keys_iff.mpr (Option.ne_none_iff_exists'.mp hreg)
        refine hC a hmem hawaits hs r hlast wake ?_
        exact ((hsync a).announced hs r hlast).symm.trans hw
    · rw [hat, Function.update_of_ne hT] at ha
      rcases hp with hp | ⟨hp, -⟩
      · exact h.awake a T ha (Or.inl hp) hs wake hw
      · exact absurd hp hT
  · have hlt : p.2 < s.scheduler.time := lt_of_sent (hidle ▸ rfl) (ho.swallowed p hp)
    rw [hat, Function.update_of_ne hlt.ne]
    exact h.spared p hp

theorem publish_awake (h : Awake s) (he : s.Enabled .publish) : Awake (s.next .publish) := by
  obtain ⟨isFinal, hbegun⟩ := exists_begun he
  rw [publish_eq hbegun]
  refine h.quiet rfl rfl (fun a T hp ↦ ?_) fun _ hs _ hw ↦ ⟨hs, hw⟩
  rcases hp with ⟨m, hm, hstep, hT⟩ | ⟨-, hp⟩
  · rcases List.mem_append.mp hm with hm | hm
    · exact Or.inl ⟨m, hm, hstep, hT⟩
    · exact Or.inr ⟨hT ▸ mem_messagesTo hm, he⟩
  · cases hp

theorem endStep_awake (h : Awake s) (he : s.Enabled (.endStep order)) :
    Awake (s.next (.endStep order)) := by
  obtain ⟨isFinal, hpub⟩ := exists_published he.1
  rw [endStep_eq hpub]
  refine h.quiet rfl rfl (fun a T hp ↦ ?_) fun _ hs _ hw ↦ ⟨hs, hw⟩
  rcases hp with hp | ⟨-, hp⟩
  · exact Or.inl hp
  · dsimp only at hp
    split at hp <;> cases hp

/-- What an agent has still to handle after a message, it had before, about a later step. -/
theorem pending_of_handled {rest : List Message} (ho : Ordered s) (hin : s.inbox a = m :: rest)
    {T : ℕ} (hp : (s.handled a m rest turn).Pending a T) :
    s.Pending a T ∧ m.timeStep < T ∧ T ≤ s.scheduler.time := by
  have hinbox : (s.handled a m rest turn).inbox a = rest := Function.update_self _ _ _
  rcases hp with ⟨m', hm', hstep, rfl⟩ | ⟨rfl, hbegun⟩
  · rw [hinbox] at hm'
    have hmem : m' ∈ s.inbox a := hin ▸ List.mem_cons_of_mem _ hm'
    have hsorted := ho.sorted a
    rw [hin] at hsorted
    refine ⟨Or.inl ⟨m', hmem, hstep, rfl⟩, (List.pairwise_cons.mp hsorted).1 m' hm' hstep, ?_⟩
    rcases ho.past a m' hmem with hlt | ⟨heq, -⟩
    · exact hlt.le
    · exact heq.le
  · refine ⟨Or.inr ⟨rfl, hbegun⟩, ?_, le_refl _⟩
    obtain ⟨isFinal, hphase⟩ := exists_begun (p := s.phase) hbegun
    exact lt_of_sent (hphase ▸ rfl) (ho.past a m (hin ▸ List.mem_cons_self))

theorem handle_awake (h : Awake s) (ho : Ordered s) (he : s.Enabled (.handle a turn))
    (hC : s.AnnouncedInTime (.handle a turn)) : Awake (s.next (.handle a turn)) := by
  obtain ⟨m, rest, hin⟩ := List.exists_cons_of_ne_nil he.2
  have hC := hC m (by rw [hin]; rfl)
  rw [handle_eq hin]
  refine ⟨fun b T hb hp hs wake hw ↦ ?_, fun p hp hat ↦ ?_⟩
  · by_cases hba : b = a
    · subst hba
      have hagent : (s.handled b m rest turn).agents b = ((s.agents b).receive m turn).1 :=
        Function.update_self _ _ _
      obtain ⟨hp', hlt, hle⟩ := pending_of_handled ho hin hp
      rw [hagent] at hs hw
      rcases Agent.receive_cases (s.agents b) m turn with ⟨r, -, ha⟩ | ⟨-, hsleep, hshut, -⟩
      · exact ha.bound hs T (hC T hle hlt hb) wake hw
      · exact h.awake b T hb hp' (hshut ▸ hs) wake (hsleep ▸ hw)
    · have hagent : (s.handled a m rest turn).agents b = s.agents b := Function.update_of_ne hba _ _
      have hinbox : (s.handled a m rest turn).inbox b = s.inbox b := Function.update_of_ne hba _ _
      rw [hagent] at hs hw
      refine h.awake b T hb ?_ hs wake hw
      rcases hp with ⟨m', hm', hp⟩ | hp
      · exact Or.inl ⟨m', hinbox ▸ hm', hp⟩
      · exact Or.inr hp
  · dsimp only [handled] at hp hat
    split at hp
    · next hsw =>
      rcases List.mem_cons.mp hp with rfl | hp
      · obtain ⟨hstep, hs, wake, hwake, hlt, -⟩ := Agent.swallows_iff.mp hsw
        have hpending : s.Pending a m.timeStep :=
          Or.inl ⟨m, hin ▸ List.mem_cons_self, hstep, rfl⟩
        exact absurd (h.awake a _ hat hpending hs wake hwake) hlt
      · exact h.spared p hp hat
    · exact h.spared p hp hat

theorem step_awake (h : Awake s) (ho : Ordered s) (hsync : ∀ b, InSync s b) (he : s.Enabled e)
    (hC : s.AnnouncedInTime e) : Awake (s.next e) := by
  cases e with
  | addAgent a => exact h.quiet rfl rfl (fun _ _ hp ↦ hp) fun _ hs _ hw ↦ ⟨hs, hw⟩
  | boot a appTopic ready =>
    exact h.agent (g := { uniqueId := a, appTopic := appTopic, broadcastSubscribed := ready })
      rfl rfl (fun _ _ hp ↦ hp) rfl fun _ _ hw ↦ nomatch hw
  | resubscribe a =>
    exact h.agent (g := { s.agents a with broadcastSubscribed := true }) rfl rfl
      (fun _ _ hp ↦ hp) rfl fun hs _ hw ↦ ⟨hs, hw⟩
  | orphan a =>
    exact h.agent (g := { s.agents a with isShutdown := true }) rfl rfl
      (fun _ _ hp ↦ hp) rfl fun hs ↦ nomatch hs
  | beginStep isFinal => exact beginStep_awake h ho hsync he hC
  | publish => exact publish_awake h he
  | deliver a =>
    obtain ⟨r, rest, hout⟩ := List.exists_cons_of_ne_nil he
    have htime := (Scheduler.handleReply_sameStep s.scheduler r).time
    rw [deliver_eq hout]
    refine h.quiet rfl rfl (fun b T hp ↦ ?_) fun _ hs _ hw ↦ ⟨hs, hw⟩
    rcases hp with hp | ⟨hT, hp⟩
    · exact Or.inl hp
    · exact Or.inr ⟨hT.trans htime, hp⟩
  | handle a turn => exact handle_awake h ho he hC
  | endStep order => exact endStep_awake h he

/-- **A sleeper is not waited for**, in every run whose naps are announced in time: who swallows the
broadcast of a step is not among the agents the step waits for, and is not stashed as unresponsive
in it. -/
theorem sleepers_not_awaited (s : Sim) (h : machine.Reach AnnouncedInTime {} s) (a : AgentId)
    (T : ℕ) (hsw : (a, T) ∈ s.swallowed) : a ∉ s.expectedAt T ∧ (a, T) ∉ s.stashed := by
  have hall : Ordered s ∧ (∀ b, InSync s b) ∧ Awake s := by
    refine h.invariant (P := fun s ↦ Ordered s ∧ (∀ b, InSync s b) ∧ Awake s)
      ⟨start_ordered, start_inSync, start_awake⟩ fun s e t hs hC hstep ↦ ?_
    obtain ⟨he, rfl⟩ := step_eq hstep
    obtain ⟨hord, hsync, hawake⟩ := hs
    exact ⟨step_ordered hord he, step_inSync hsync he, step_awake hawake hord hsync he hC⟩
  obtain ⟨hord, -, hawake⟩ := hall
  exact ⟨hawake.spared (a, T) hsw, fun hst ↦ hawake.spared (a, T) hsw (hord.stashed (a, T) hst).2⟩

/-! ## Two runs -/

instance (s : Sim) : (e : SimEvent) → Decidable (s.AnnouncedInTime e)
  | .beginStep _ => inferInstanceAs (Decidable (∀ a ∈ s.scheduler.agentCollection.keys, _))
  | .handle a _ => inferInstanceAs (Decidable (∀ m ∈ (s.inbox a).head?, _))
  | .addAgent _ | .boot _ _ _ | .resubscribe _ | .orphan _ | .publish | .deliver _ | .endStep _ =>
    inferInstanceAs (Decidable True)

instance (s : Sim) : (e : SimEvent) → Decidable (s.Timely e)
  | .handle a _ => inferInstanceAs (Decidable (∀ m ∈ (s.inbox a).head?, _))
  | .endStep _ => inferInstanceAs (Decidable (∀ a ∈ s.scheduler.expectedThisStep, _))
  | .addAgent _ | .boot _ _ _ | .resubscribe _ | .orphan _ | .publish | .deliver _ | .beginStep _ =>
    inferInstanceAs (Decidable True)

/-- An agent starts, and announces a nap until step 5 on its first step. -/
def firstNap : List SimEvent :=
  [.addAgent "order", .boot "order" none true, .deliver "order", .beginStep false, .publish,
    .handle "order" { outcome := .processed true 5 }, .deliver "order", .endStep []]

/-- The next step finds the agent asleep. -/
theorem sleepers_not_awaited_small : ∃ s, machine.Reach AnnouncedInTime {} s ∧
    ("order", 1) ∈ s.swallowed ∧ "order" ∉ s.expectedAt 1 := by
  have hrun : (machine.execWhen AnnouncedInTime {}
      (firstNap ++ [.beginStep false, .publish, .handle "order" {}])).any
        fun s ↦ ("order", 1) ∈ s.swallowed := by
    decide
  obtain ⟨s, hs, hsw⟩ := (Option.any_eq_true _ _).mp hrun
  have hreach := Machine.reach_of_execWhen hs
  have hsw := of_decide_eq_true hsw
  exact ⟨s, hreach, hsw, (sleepers_not_awaited s hreach "order" 1 hsw).1⟩

/-- An early nap is ended on step 1 and the next one begun on step 2, and only the first of these
two replies arrives: step 3 waits for the agent, which sleeps. -/
def earlyWake : List SimEvent :=
  firstNap ++
    [.beginStep false, .publish, .handle "order" { wakes := true }, .endStep [],
      .beginStep false, .publish, .handle "order" { outcome := .processed true 3 }, .endStep [],
      .deliver "order", .beginStep false, .publish, .handle "order" {}, .endStep ["order"]]

theorem awaited_asleep : ∃ s, machine.Reach Timely {} s ∧ ("order", 3) ∈ s.swallowed ∧
    "order" ∈ s.expectedAt 3 ∧ ("order", 3) ∈ s.stashed ∧ ¬s.scheduler.Registered "order" := by
  have hrun : (machine.execWhen Timely {} earlyWake).any fun s ↦
      ("order", 3) ∈ s.swallowed ∧ "order" ∈ s.expectedAt 3 ∧ ("order", 3) ∈ s.stashed ∧
        ¬s.scheduler.Registered "order" := by
    decide
  obtain ⟨s, hs, hresult⟩ := (Option.any_eq_true _ _).mp hrun
  exact ⟨s, Machine.reach_of_execWhen hs, of_decide_eq_true hresult⟩

end Sim

end OpenRide.Simulation
