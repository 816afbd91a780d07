import OpenRide.Haulage.GateService

/-!
# Facilities that run empty

A facility stays in a run until it has no pending gate work, so a gate that is never freed keeps it
there.  Where services take time, each busy gate has an end that lies ahead, every tick late enough
tells somebody something, and nobody is told more than twice; so a facility that gets no more
messages runs empty (`InOrder.quietly_empty`), before the calendar ends.

With a service time of zero a gate that is given away gets no end, and stays busy for good; so does
one whose service would end outside of the calendar (`gates_end_iff`).
-/

namespace OpenRide.Haulage

open Lib

variable {T : Type}

/-! ## Running empty -/

namespace FacilityApp

variable (a : FacilityApp T)

/-- `has_pending_gate_work`. -/
def hasPendingGateWork : Bool :=
  !a.messageQueue.isEmpty || !a.queueController.queue.isEmpty || !a.atGates.isEmpty ||
    !a.gateServiceEnds.entries.isEmpty

variable {a} {gateCount serviceTime : ℕ}

/-- A list of events without a delivery. -/
def Quiet (es : List (FacilityEvent T)) : Prop := ∀ m, .deliver m ∉ es

theorem Quiet.append {es es' : List (FacilityEvent T)} (h : Quiet es) (h' : Quiet es') :
    Quiet (es ++ es') :=
  fun m hm ↦ (List.mem_append.mp hm).elim (h m) (h' m)

/-- A quiet run from a state to a state, in which whatever is given a gate to gets an end. -/
def Quietly (serviceTime : ℕ) (a b : FacilityApp T) : Prop :=
  ∃ es, Quiet es ∧ (machine serviceTime).exec a es = some b ∧
    (machine serviceTime).Along (Schedules serviceTime) a es

theorem Quietly.refl (a : FacilityApp T) : Quietly serviceTime a a :=
  ⟨[], by simp [Quiet], rfl, trivial⟩

theorem Quietly.head {b c : FacilityApp T} {e : FacilityEvent T} (he : Quiet [e])
    (hends : Schedules serviceTime a e b) (h : (machine serviceTime).step a e = some b)
    (hbc : Quietly serviceTime b c) : Quietly serviceTime a c := by
  obtain ⟨es, hes, h', hes'⟩ := hbc
  refine ⟨e :: es, he.append hes, ?_, fun t ht ↦ ?_⟩
  · rw [Machine.exec, h]
    exact h'
  · obtain rfl := Option.some.inj (h.symm.trans ht)
    exact ⟨hends, hes'⟩

theorem Quietly.trans {b c : FacilityApp T} (hab : Quietly serviceTime a b)
    (hbc : Quietly serviceTime b c) : Quietly serviceTime a c := by
  obtain ⟨es, hes, h, hends⟩ := hab
  obtain ⟨es', hes', h', hends'⟩ := hbc
  refine ⟨es ++ es', hes.append hes', ?_, Machine.along_append.mpr ⟨hends, fun t ht ↦ ?_⟩⟩
  · rw [Machine.exec_append, h]
    exact h'
  · obtain rfl := Option.some.inj (h.symm.trans ht)
    exact hends'

theorem quiet_consume : Quiet [(.consume : FacilityEvent T)] := by simp [Quiet]
theorem quiet_act : Quiet [(.act : FacilityEvent T)] := by simp [Quiet]
theorem quiet_step (now : ℤ) : Quiet [(.step now : FacilityEvent T)] := by simp [Quiet]

theorem schedules_consume {b : FacilityApp T} : Schedules serviceTime a .consume b :=
  fun he ↦ nomatch he

theorem schedules_step {now : ℤ} {b : FacilityApp T} : Schedules serviceTime a (.step now) b :=
  fun he ↦ nomatch he

theorem quietly_consumeAll (h : a.phase = .consuming ∨ a.phase = .consumingAgain) :
    ∃ b, Quietly serviceTime a b ∧ b.messageQueue = [] ∧ b.phase = a.phase ∧
      b.currentTime = a.currentTime := by
  generalize hqueue : a.messageQueue = messages
  induction messages generalizing a with
  | nil => exact ⟨a, .refl a, hqueue, rfl, rfl⟩
  | cons m rest ih =>
    have hsame : ∀ c : FacilityApp T, (c.onMessage m).phase = c.phase ∧
        (c.onMessage m).messageQueue = c.messageQueue ∧
        (c.onMessage m).currentTime = c.currentTime := by
      intro c
      cases m <;> exact ⟨rfl, rfl, rfl⟩
    obtain ⟨hphase, hrest, htime⟩ := hsame { a with messageQueue := rest }
    obtain ⟨b, hb, hempty, hbphase, hbtime⟩ :=
      ih (a := ({ a with messageQueue := rest } : FacilityApp T).onMessage m)
        (h.imp hphase.trans hphase.trans) hrest
    have hstep : (machine serviceTime).step a .consume =
        some (({ a with messageQueue := rest } : FacilityApp T).onMessage m) := by
      simp only [machine, hqueue]
      rcases h with h | h <;> rw [h]
    exact ⟨b, hb.head quiet_consume schedules_consume hstep, hempty,
      hbphase.trans hphase, hbtime.trans htime⟩

variable {arrived : List (QueueEntry T)}

/-- A facility in order stays so in a quiet run. -/
theorem InOrder.quietly {b : FacilityApp T} (ha : a.InOrder gateCount serviceTime arrived)
    (h : Quietly serviceTime a b) : b.InOrder gateCount serviceTime arrived := by
  obtain ⟨es, hes, h, hends⟩ := h
  have hnone : ∀ es : List (FacilityEvent T), Quiet es → arrivals es = [] := by
    refine fun es hes ↦ List.filterMap_eq_nil_iff.mpr fun e he ↦ ?_
    cases e with
    | deliver m => exact absurd he (hes m)
    | step now => rfl
    | consume => rfl
    | act => rfl
  have hrun := Machine.exec_induction
    (Q := fun es a ↦ a.InOrder gateCount serviceTime (arrived ++ arrivals es)) h hends
    ((List.append_nil arrived).symm ▸ ha) fun es e _ _ ha hends hstep ↦ by
      rw [arrivals_append, ← List.append_assoc]
      exact ha.step hends hstep
  rw [hnone es hes, List.append_nil] at hrun
  exact hrun

/-- **A step can always be finished**, and the messages handled, where a service that begins now
ends. -/
theorem InOrder.quietly_idle (ha : a.InOrder gateCount serviceTime arrived)
    (hends : a.Ends serviceTime) :
    ∃ b, Quietly serviceTime a b ∧ b.messageQueue = [] ∧ b.phase = .idle ∧
      b.currentTime = a.currentTime := by
  have hagain : ∀ a : FacilityApp T, a.phase = .consumingAgain →
      ∃ b, Quietly serviceTime a b ∧ b.messageQueue = [] ∧ b.phase = .idle ∧
        b.currentTime = a.currentTime := by
    intro a h
    obtain ⟨b, hb, hempty, hphase, htime⟩ := quietly_consumeAll (Or.inr h)
    have hstep : (machine serviceTime).step b .consume = some { b with phase := .idle } := by
      simp only [machine, hempty, hphase.trans h]
    exact ⟨_, hb.trans ((Quietly.refl _).head quiet_consume schedules_consume hstep),
      hempty, rfl, htime⟩
  have hacting : ∀ a : FacilityApp T, a.InOrder gateCount serviceTime arrived →
      a.Ends serviceTime → a.phase = .acting →
      ∃ b, Quietly serviceTime a b ∧ b.messageQueue = [] ∧ b.phase = .idle ∧
        b.currentTime = a.currentTime := by
    intro a ha hends h
    obtain ⟨c, hc, -, htime, -⟩ := ha.performWorkflowActions fun _ ↦ hends
    have hstep : (machine serviceTime).step a .act =
        some { c.allocateGates serviceTime with phase := .consumingAgain } := by
      simp only [machine, h, if_true, hc, Bool.false_eq_true, if_false]
    obtain ⟨b, hb, hempty, hidle, hbtime⟩ :=
      hagain { c.allocateGates serviceTime with phase := .consumingAgain } rfl
    exact ⟨b, hb.head quiet_act (fun _ _ ↦ hends) hstep, hempty, hidle, hbtime.trans htime⟩
  have hconsuming : ∀ a : FacilityApp T, a.InOrder gateCount serviceTime arrived →
      a.Ends serviceTime → a.phase = .consuming →
      ∃ b, Quietly serviceTime a b ∧ b.messageQueue = [] ∧ b.phase = .idle ∧
        b.currentTime = a.currentTime := by
    intro a ha hends h
    obtain ⟨b, hb, hempty, hphase, htime⟩ := quietly_consumeAll (Or.inl h)
    have hstep : (machine serviceTime).step b .consume = some { b with phase := .acting } := by
      simp only [machine, hempty, hphase.trans h]
    have hbends : FacilityApp.Ends serviceTime { b with phase := .acting } := by
      rw [Ends, htime]
      exact hends
    obtain ⟨c, hc, hcempty, hidle, hctime⟩ := hacting { b with phase := .acting }
      ((ha.quietly hb).of_same rfl rfl rfl rfl rfl (le_refl _)) hbends rfl
    exact ⟨c, hb.trans (hc.head quiet_consume schedules_consume hstep), hcempty, hidle,
      hctime.trans htime⟩
  cases hphase : a.phase with
  | consuming => exact hconsuming a ha hends hphase
  | acting => exact hacting a ha hends hphase
  | consumingAgain => exact hagain a hphase
  | idle =>
    have hstep : (machine serviceTime).step a (.step a.currentTime) =
        some { a with phase := .consuming } := by
      simp only [machine, hphase, le_refl, and_self, if_true]
    obtain ⟨b, hb, hrest⟩ := hconsuming { a with phase := .consuming }
      (ha.of_same rfl rfl rfl rfl rfl (le_refl _)) hends rfl
    exact ⟨b, hb.head (quiet_step _) schedules_step hstep, hrest⟩

theorem length_le_filter_add {α : Type} (p q : α → Prop) [DecidablePred p] [DecidablePred q]
    {l : List α} (h : ∀ x ∈ l, p x ∨ q x) :
    l.length ≤ (l.filter (p ·)).length + (l.filter (q ·)).length := by
  induction l with
  | nil => exact Nat.zero_le _
  | cons x l ih =>
    rw [List.filter_cons, List.filter_cons]
    split <;> split <;> simp_all <;> omega

/-- Nobody is told more than twice. -/
theorem Accounts.published_le (h : a.Accounts arrived) :
    a.published.length ≤ 2 * arrived.length := by
  have htold := length_le_filter_add (GateNotice.Tells true) (GateNotice.Tells false) h.told
  have horder := congrArg List.length h.order
  have hplaces := h.places.length_eq
  have hassigned : a.assigned.length = (a.published.filter (·.Tells true)).length :=
    List.length_map _
  have hcompleted : a.completed.length = (a.published.filter (·.Tells false)).length :=
    List.length_map _
  simp only [List.length_append] at horder hplaces
  omega

/-- **With a truck in the queue or at a gate, a tick late enough tells somebody something.** -/
theorem InOrder.published_lt (h : a.InOrder gateCount serviceTime arrived) (hg : 1 ≤ gateCount)
    (hmessages : a.messageQueue = []) (hpending : a.hasPendingGateWork = true)
    {b : FacilityApp T}
    (hb : b = { a with currentTime := a.currentTime + serviceTime, phase := .acting })
    (hends : b.Ends serviceTime) :
    a.published.length < (b.allocateGates serviceTime).published.length +
      (b.allocateGates serviceTime).dueGateIndices.length := by
  have hbo : b.InOrder gateCount serviceTime arrived := by
    rw [hb]
    exact h.of_same rfl rfl rfl rfl rfl (by dsimp only; omega)
  have hbc := hbo.coherent
  have hpublished := allocateGates_published hbc.isOpen
    (allocationRaises_of_ends hbc (Or.inr hends))
  have hbpub : b.published = a.published := by rw [hb]
  by_contra hle
  rw [hpublished, hbpub, List.length_append, List.length_map] at hle
  have hgiven : b.given = [] := List.length_eq_zero_iff.mp (by omega)
  have hdue : (b.allocateGates serviceTime).dueGateIndices = [] :=
    List.length_eq_zero_iff.mp (by omega)
  -- no gate serves a truck, for its service would be due
  have hvacant : ∀ i < gateCount, b.Vacant i := by
    intro i hi
    rcases @Coherent.gateView_allocateGates _ b gateCount serviceTime hbc i hi with
      ⟨-, hsame⟩ | ⟨hv, -⟩
    · rcases hbc.gate i hi with hv | ⟨entry, ends, hserves, -⟩ | ⟨entry, hstuck⟩
      · exact hv
      · have hserved : a.Serves i entry ends := by
          rw [hb] at hserves
          exact hserves
        have hmem : i ∈ (b.allocateGates serviceTime).dueGateIndices := by
          refine mem_dueGateIndices.mpr ⟨ends, ?_, ?_⟩
          · exact (congrArg (fun v ↦ v.2.2) hsame).trans hserves.ends
          · show ends ≤ b.currentTime
            rw [hb]
            exact h.coherent.ends_le hserved.ends
        rw [hdue] at hmem
        cases hmem
      · exact absurd hstuck (hbo.free i entry)
    · exact hv
  have hgates : b.atGates = [] := by
    refine List.filterMap_eq_nil_iff.mpr fun g hg ↦ ?_
    obtain ⟨i, hi⟩ := List.mem_iff_getElem?.mp hg
    have hlt : i < gateCount := hbc.length ▸ (List.getElem?_eq_some_iff.mp hi).1
    rw [Option.some.inj (hi.symm.trans (hvacant i hlt).gate)]
  have hnone : b.gateServiceEnds.entries = [] := by
    refine List.eq_nil_iff_forall_not_mem.mpr fun p hp ↦ ?_
    have he := Dict.mem_entries_iff.mp hp
    rw [(hvacant p.1 (hbc.scheduled _ _ he)).ends] at he
    cases he
  -- so somebody is queued, but then the first gate would have been given away
  have hqueue : b.queueController.queue ≠ [] := by
    intro hnil
    have hatGates : a.atGates = [] := by rw [hb] at hgates; exact hgates
    have hsame : a.gateServiceEnds.entries = [] := by rw [hb] at hnone; exact hnone
    have hempty : a.queueController.queue = [] := by rw [hb] at hnil; exact hnil
    rw [hasPendingGateWork, hmessages, hempty, hatGates, hsame] at hpending
    exact absurd hpending Bool.false_ne_true
  exact given_eq_nil_iff.mp hgiven hqueue _ (List.mem_of_getElem? (hvacant 0 hg).gate) rfl

theorem messageQueue_performWorkflowActions :
    (a.performWorkflowActions serviceTime).1.messageQueue = a.messageQueue := by
  have hall : ∀ (due : List ℕ) (b : FacilityApp T),
      (due.foldl (fun b i ↦ b.completeGateService serviceTime i) b).messageQueue =
        b.messageQueue := by
    intro due
    induction due with
    | nil => exact fun b ↦ rfl
    | cons i due ih => exact fun b ↦ ih _
  simp only [FacilityApp.performWorkflowActions]
  split
  · rfl
  · split
    · rfl
    · exact hall _ _

/-- One tick of an idle facility, a service time later. -/
theorem InOrder.quietly_tick (ha : a.InOrder gateCount serviceTime arrived)
    (hg : 1 ≤ gateCount) (hs : 0 < serviceTime)
    (hroom : a.currentTime + 2 * serviceTime < calendarSeconds) (hidle : a.phase = .idle)
    (hmessages : a.messageQueue = []) (hpending : a.hasPendingGateWork = true) :
    ∃ c, Quietly serviceTime a c ∧ c.InOrder gateCount serviceTime arrived ∧ c.phase = .idle ∧
      c.messageQueue = [] ∧ c.currentTime = a.currentTime + serviceTime ∧
      a.published.length < c.published.length := by
  obtain ⟨b, hb⟩ : ∃ b : FacilityApp T,
      b = { a with currentTime := a.currentTime + serviceTime, phase := .acting } := ⟨_, rfl⟩
  have hbo : b.InOrder gateCount serviceTime arrived := by
    rw [hb]
    exact ha.of_same rfl rfl rfl rfl rfl (by dsimp only; omega)
  have hbtime : b.currentTime = a.currentTime + serviceTime := by rw [hb]
  have hends : b.Ends serviceTime := ⟨hs, by omega⟩
  have hlt := ha.published_lt hg hmessages hpending hb hends
  obtain ⟨c, hcb, hco, hctime, hfits, -, hpublished⟩ :=
    hbo.performWorkflowActions fun _ ↦ hends
  have hcmessages : (c.allocateGates serviceTime).messageQueue = [] := by
    have hsame : (b.performWorkflowActions serviceTime).1.messageQueue = b.messageQueue :=
      messageQueue_performWorkflowActions
    rw [hcb, hb] at hsame
    exact hsame.trans hmessages
  have hstep : (machine serviceTime).step a (.step (a.currentTime + serviceTime)) =
      some { a with currentTime := a.currentTime + serviceTime, phase := .consuming } := by
    have hle : a.currentTime ≤ a.currentTime + serviceTime := by omega
    simp only [machine, hidle, hle, and_self, if_true]
  have hconsume : (machine serviceTime).step
      { a with currentTime := a.currentTime + serviceTime, phase := .consuming } .consume =
      some b := by
    simp only [machine, hmessages, hb]
  have hact : (machine serviceTime).step b .act =
      some { c.allocateGates serviceTime with phase := .consumingAgain } := by
    have hphase : b.phase = .acting := by rw [hb]
    simp only [machine, hphase, if_true, hcb, Bool.false_eq_true, if_false]
  have hend : (machine serviceTime).step
      { c.allocateGates serviceTime with phase := .consumingAgain } .consume =
      some { c.allocateGates serviceTime with phase := .idle } := by
    simp only [machine, hcmessages]
  refine ⟨{ c.allocateGates serviceTime with phase := .idle }, ?_,
    (hco.allocateGates hfits).of_same rfl rfl rfl rfl rfl (le_refl _), rfl, hcmessages,
    hctime.trans hbtime, ?_⟩
  · exact ((((Quietly.refl _).head quiet_consume schedules_consume hend).head quiet_act
      (fun _ _ ↦ hends) hact).head quiet_consume schedules_consume hconsume).head
        (quiet_step _) schedules_step hstep
  · exact hlt.trans_le hpublished

/-- **A facility that gets no more messages runs empty**, if there is time enough. -/
theorem InOrder.quietly_empty (ha : a.InOrder gateCount serviceTime arrived)
    (hg : 1 ≤ gateCount) (hs : 0 < serviceTime)
    (hroom : a.currentTime + (2 * arrived.length - a.published.length + 2 : ℕ) * serviceTime <
      calendarSeconds) (hidle : a.phase = .idle) (hmessages : a.messageQueue = []) :
    ∃ b, Quietly serviceTime a b ∧ b.hasPendingGateWork = false := by
  induction hn : 2 * arrived.length - a.published.length using Nat.strong_induction_on
    generalizing a with
  | _ n ih =>
    cases hpending : a.hasPendingGateWork with
    | false => exact ⟨a, .refl a, hpending⟩
    | true =>
      rw [hn] at hroom
      have hat : ∀ k : ℕ, k ≤ n → (k + 2 : ℤ) * serviceTime ≤ (n + 2 : ℕ) * serviceTime := by
        intro k hk
        push_cast
        exact mul_le_mul_of_nonneg_right (by omega) (by omega)
      obtain ⟨c, hc, hco, hcidle, hcmessages, htime, htold⟩ :=
        ha.quietly_tick hg hs (by have := hat 0 n.zero_le; omega) hidle hmessages hpending
      have hmore := hco.accounts.published_le
      have hless : 2 * arrived.length - c.published.length < n := by omega
      have hroom' : c.currentTime +
          (2 * arrived.length - c.published.length + 2 : ℕ) * serviceTime < calendarSeconds := by
        have hle := hat _ hless
        push_cast at hle hroom ⊢
        linarith
      obtain ⟨d, hd, hdone⟩ := ih _ hless hco hroom' hcidle hcmessages rfl
      exact ⟨d, hc.trans hd, hdone⟩

/-! ## Every service ends -/

variable (a) in
/-- Every busy gate has an end, which lies ahead. -/
def EndsEveryService : Prop :=
  ∀ i g, a.queueController.gates[i]? = some g → g.state = .busy →
    ∃ ends, a.gateServiceEnds.get? i = some ends ∧ a.currentTime < ends

end FacilityApp

/-- **No gate is ever occupied without an end** just when every service that begins takes time and
ends in the calendar.  In a run in which that is so, a further tick leaves every busy gate an end
that lies ahead just when it is so there as well; and where services take time and the calendar has
room, the facility runs empty, and each gate it gives away meanwhile gets an end as well. -/
theorem gates_end_iff {gateCount serviceTime : ℕ} {clock : ℤ} {es : List (FacilityEvent T)}
    {a : FacilityApp T}
    (h : (FacilityApp.machine serviceTime).exec (FacilityApp.launched gateCount clock) es = some a)
    (hes : (FacilityApp.machine serviceTime).Along (FacilityApp.Schedules serviceTime)
      (FacilityApp.launched gateCount clock) es) :
    (∀ b, (FacilityApp.machine serviceTime).step a .act = some b →
        (b.EndsEveryService ↔ FacilityApp.Schedules serviceTime a .act b)) ∧
      (1 ≤ gateCount → 0 < serviceTime →
        a.currentTime + (2 * (arrivals es).length + 2) * serviceTime < calendarSeconds →
        ∃ b, FacilityApp.Quietly serviceTime a b ∧ b.hasPendingGateWork = false) := by
  have ha := FacilityApp.inOrder_of_exec h hes
  refine ⟨fun b hb ↦ ⟨fun hall _ ↦ ?_, fun hends i g hi hbusy ↦ ?_⟩, fun hg hs hroom ↦ ?_⟩
  · by_contra hnot
    obtain ⟨i, entry, hgate, hnone⟩ := ha.exists_busy_of_not_ends hnot hb
    obtain ⟨ends, he, -⟩ := hall i _ hgate rfl
    rw [hnone] at he
    cases he
  · obtain ⟨-, hafter⟩ := ha.afterTick (hends rfl) hb
    obtain ⟨ends, he, hlt, -⟩ := hafter.ends i g hi hbusy
    exact ⟨ends, he, hlt⟩
  · have hnow : a.Ends serviceTime := by
      have hle : (1 : ℤ) * serviceTime ≤ (2 * (arrivals es).length + 2) * serviceTime :=
        mul_le_mul_of_nonneg_right (by omega) (by omega)
      exact ⟨hs, by omega⟩
    obtain ⟨b, hb, hmessages, hidle, htime⟩ := ha.quietly_idle hnow
    have hrest : ((2 * (arrivals es).length - b.published.length + 2 : ℕ) : ℤ) * serviceTime ≤
        (2 * (arrivals es).length + 2) * serviceTime :=
      mul_le_mul_of_nonneg_right (by omega) (by omega)
    obtain ⟨c, hc, hdone⟩ := (ha.quietly hb).quietly_empty hg hs (by omega) hidle hmessages
    exact ⟨c, hb.trans hc, hdone⟩

/-- With a minute of service the first truck leaves its gate, and the second is served. -/
theorem gates_end_minute : ∃ a b : FacilityApp ℕ,
    (FacilityApp.machine 60).exec (FacilityApp.launched 1 0) twoTrucks = some a ∧
      FacilityApp.Quietly 60 a b ∧ b.hasPendingGateWork = false := by
  obtain ⟨a, ha⟩ := Option.isSome_iff_exists.mp (show ((FacilityApp.machine 60).exec
    (FacilityApp.launched 1 0) twoTrucks).isSome = true by decide +kernel)
  have htime : a.currentTime = 90 := by
    have h : ((FacilityApp.machine 60).exec (FacilityApp.launched 1 0) twoTrucks).map
      FacilityApp.currentTime = some 90 := by decide +kernel
    rw [ha] at h
    exact Option.some.inj h
  obtain ⟨b, hb⟩ := (gates_end_iff ha (by decide +kernel)).2 (by decide) (by decide)
    (htime ▸ by decide)
  exact ⟨a, b, ha, hb⟩

/-- A truck arrives, the facility steps, and the gate is busy without an end that lies ahead. -/
def StuckAtFirst (serviceTime : ℕ) : Prop := ∃ a b : FacilityApp ℕ,
  (FacilityApp.machine serviceTime).exec (FacilityApp.launched 1 0)
      [.deliver (.truckArrived 7 .pickup), .step 30, .consume, .consume] = some a ∧
    (FacilityApp.machine serviceTime).step a .act = some b ∧ ¬ b.EndsEveryService

/-- With a service time of zero, and with one of a million million seconds, the gate is busy without
an end. -/
theorem gate_stuck_zero : StuckAtFirst 0 ∧ StuckAtFirst (10 ^ 12) := by
  have hstuck (serviceTime : ℕ) (h : (((FacilityApp.machine serviceTime).exec
      (FacilityApp.launched 1 0) [.deliver (.truckArrived 7 .pickup), .step 30, .consume,
        .consume]).bind fun a ↦ (FacilityApp.machine serviceTime).step a .act).map
          (fun b : FacilityApp ℕ ↦ (b.queueController.gates[0]?, b.gateServiceEnds.get? 0)) =
      some (some ⟨.busy, some ⟨7, .pickup⟩⟩, none)) : StuckAtFirst serviceTime := by
    obtain ⟨b, hb, hview⟩ := Option.map_eq_some_iff.mp h
    obtain ⟨a, ha, hstep⟩ := Option.bind_eq_some_iff.mp hb
    refine ⟨a, b, ha, hstep, fun hall ↦ ?_⟩
    have hnone : b.gateServiceEnds.get? 0 = none := congrArg Prod.snd hview
    obtain ⟨ends, he, -⟩ := hall 0 _ (congrArg Prod.fst hview) rfl
    rw [hnone] at he
    cases he
  exact ⟨hstuck 0 (by decide +kernel), hstuck (10 ^ 12) (by decide +kernel)⟩

end OpenRide.Haulage
