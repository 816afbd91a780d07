import OpenRide.Haulage.FacilityApp

/-!
# The service of a facility

A facility serves every truck once and in the order of arrival.  The state this rests on is spread
over the queue, the gates, the table of assignments of the manager and the table of service ends of
the app; `Coherent` says that they agree gate by gate: a gate is vacant in all of them, or has the
same truck in all of them, until a scheduled end or stuck without one.  `Accounts` says where the
arrivals are, in terms of what was told: whoever was assigned a gate is at one or was told that its
service is over.

A truck gets stuck when its service would end outside of the calendar, or takes no time.  A facility
without such a truck is `InOrder`; a tick keeps it so just when whatever it gives a gate to gets an
end (`Schedules`), and all of it together is `queue_serves_everybody_once_iff`.
-/

namespace OpenRide.Haulage

open Lib

variable {T : Type}

/-! ## Giving gates away -/

/-- A queue is given away from its front. -/
theorem assignGates_queue (gates : List (Gate T)) (queue : List (QueueEntry T)) (i : ℕ) :
    queue = (assignGates gates queue i).2.2.map Prod.snd ++ (assignGates gates queue i).2.1 := by
  fun_induction assignGates gates queue i with
  | case1 queue i => rfl
  | case2 gates i => rfl
  | case3 gate gates entry queue i _ r ih => exact congrArg (entry :: ·) ih
  | case4 gate gates entry queue i _ r ih => exact ih

/-- A gate given away was available, is busy with who got it, and is given away once; the others
are as before. -/
theorem assignGates_gates (gates : List (Gate T)) (queue : List (QueueEntry T)) (i : ℕ) :
    (assignGates gates queue i).1.length = gates.length ∧
      ((assignGates gates queue i).2.2.map Prod.fst).Nodup ∧
      (∀ p ∈ (assignGates gates queue i).2.2, i ≤ p.1 ∧ p.1 < i + gates.length) ∧
      ∀ j g, gates[j]? = some g →
        (g.state = .available ∧ ∃ entry, (i + j, entry) ∈ (assignGates gates queue i).2.2 ∧
          (assignGates gates queue i).1[j]? = some ⟨.busy, some entry⟩) ∨
        i + j ∉ (assignGates gates queue i).2.2.map Prod.fst ∧
          (assignGates gates queue i).1[j]? = some g := by
  fun_induction assignGates gates queue i with
  | case1 queue i => exact ⟨rfl, List.nodup_nil, by simp, by simp⟩
  | case2 gates i => exact ⟨rfl, List.nodup_nil, by simp, fun j g h ↦ Or.inr ⟨by simp, h⟩⟩
  | case3 gate gates entry queue i havailable r ih =>
    obtain ⟨hlength, hnodup, hrange, hgates⟩ := ih
    have hlater : i ∉ r.2.2.map Prod.fst := by
      intro hmem
      obtain ⟨p, hp, he⟩ := List.mem_map.mp hmem
      have := (hrange p hp).1
      omega
    refine ⟨congrArg (· + 1) hlength, List.nodup_cons.mpr ⟨hlater, hnodup⟩, fun p hp ↦ ?_,
      fun j g hg ↦ ?_⟩
    · rw [List.length_cons]
      rcases List.mem_cons.mp hp with rfl | hp
      · exact ⟨le_refl _, by dsimp only; omega⟩
      · have := hrange p hp
        omega
    · cases j with
      | zero =>
        cases hg
        exact Or.inl ⟨havailable, entry, List.mem_cons_self, rfl⟩
      | succ j =>
        have hshift : i + (j + 1) = i + 1 + j := by omega
        rw [hshift]
        rcases hgates j g hg with ⟨hstate, e, he, hr⟩ | ⟨hnot, hr⟩
        · exact Or.inl ⟨hstate, e, List.mem_cons_of_mem _ he, hr⟩
        · refine Or.inr ⟨fun hmem ↦ ?_, hr⟩
          rcases List.mem_cons.mp hmem with heq | hmem
          · dsimp only at heq
            omega
          · exact hnot hmem
  | case4 gate gates entry queue i hbusy r ih =>
    obtain ⟨hlength, hnodup, hrange, hgates⟩ := ih
    refine ⟨congrArg (· + 1) hlength, hnodup, fun p hp ↦ ?_, fun j g hg ↦ ?_⟩
    · have := hrange p hp
      rw [List.length_cons]
      omega
    · cases j with
      | zero =>
        refine Or.inr ⟨fun hmem ↦ ?_, hg⟩
        obtain ⟨p, hp, he⟩ := List.mem_map.mp hmem
        have := (hrange p hp).1
        omega
      | succ j =>
        have hshift : i + (j + 1) = i + 1 + j := by omega
        rw [hshift]
        exact hgates j g hg

/-- **Nobody waits at an available gate.** -/
theorem assignGates_exhausts (gates : List (Gate T)) (queue : List (QueueEntry T)) (i : ℕ)
    (hwait : (assignGates gates queue i).2.1 ≠ []) :
    ∀ g ∈ (assignGates gates queue i).1, g.state ≠ .available := by
  fun_induction assignGates gates queue i with
  | case1 queue i => simp
  | case2 gates i => exact absurd rfl hwait
  | case3 gate gates entry queue i _ r ih =>
    intro g hg
    rcases List.mem_cons.mp hg with rfl | hg
    · simp
    · exact ih hwait g hg
  | case4 gate gates entry queue i hbusy r ih =>
    exact List.forall_mem_cons.mpr ⟨hbusy, ih hwait⟩

/-- Gates are given away just when somebody is queued and one is available. -/
theorem assignGates_eq_nil_iff (gates : List (Gate T)) (queue : List (QueueEntry T)) (i : ℕ) :
    (assignGates gates queue i).2.2 = [] ↔
      (queue ≠ [] → ∀ g ∈ gates, g.state ≠ .available) := by
  fun_induction assignGates gates queue i with
  | case1 queue i => simp
  | case2 gates i => simp
  | case3 gate gates entry queue i havailable r ih => simp [havailable]
  | case4 gate gates entry queue i hbusy r ih => simpa [hbusy] using ih

theorem assignGates_perm (gates : List (Gate T)) (queue : List (QueueEntry T)) (i : ℕ)
    (hfree : ∀ g ∈ gates, g.state = .available → g.assignment = none) :
    ((assignGates gates queue i).1.filterMap Gate.assignment).Perm
      ((assignGates gates queue i).2.2.map Prod.snd ++ gates.filterMap Gate.assignment) := by
  fun_induction assignGates gates queue i with
  | case1 queue i => exact List.Perm.refl _
  | case2 gates i => exact List.Perm.refl _
  | case3 gate gates entry queue i havailable r ih =>
    have hnone := hfree gate List.mem_cons_self havailable
    rw [List.filterMap_cons_none hnone]
    exact (ih fun g hg ↦ hfree g (List.mem_cons_of_mem _ hg)).cons entry
  | case4 gate gates entry queue i hbusy r ih =>
    have hrest := ih fun g hg ↦ hfree g (List.mem_cons_of_mem _ hg)
    cases hassigned : gate.assignment with
    | none =>
      rw [List.filterMap_cons_none hassigned, List.filterMap_cons_none hassigned]
      exact hrest
    | some e =>
      rw [List.filterMap_cons_some hassigned, List.filterMap_cons_some hassigned]
      exact (hrest.cons e).trans List.perm_middle.symm

/-! ## Where the trucks are -/

/-- The visit a notice is about. -/
def GateNotice.entry (n : GateNotice T) : QueueEntry T := ⟨n.truckId, n.visitType⟩

/-- The notice tells of a gate for its visit, or else of the end of the service. -/
def GateNotice.Tells (assigned : Bool) (n : GateNotice T) : Prop :=
  n.event = gateEventForVisit n.visitType assigned

instance (assigned : Bool) : DecidablePred (GateNotice.Tells (T := T) assigned) :=
  fun n ↦ inferInstanceAs (Decidable (n.event = gateEventForVisit n.visitType assigned))

/-- The arrival a message to a facility tells of. -/
def FacilityMessage.arrival : FacilityMessage T → Option (QueueEntry T)
  | .truckArrived truckId visitType => some ⟨truckId, visitType⟩
  | .unhandled => none

/-- The arrivals among some events. -/
def arrivals (es : List (FacilityEvent T)) : List (QueueEntry T) :=
  es.filterMap fun
    | .deliver m => m.arrival
    | _ => none

namespace FacilityApp

variable (a : FacilityApp T)

/-- The trucks that were told of a gate, in that order. -/
def assigned : List (QueueEntry T) := (a.published.filter (·.Tells true)).map GateNotice.entry

/-- The trucks that were told that their service is over. -/
def completed : List (QueueEntry T) := (a.published.filter (·.Tells false)).map GateNotice.entry

/-- The trucks at a gate. -/
def atGates : List (QueueEntry T) := a.queueController.gates.filterMap Gate.assignment

/-- The arrivals the facility has not looked at yet. -/
def waiting : List (QueueEntry T) := a.messageQueue.filterMap FacilityMessage.arrival

/-- What the three tables say of a gate. -/
def gateView (i : ℕ) : Option (Gate T) × Option (QueueEntry T) × Option ℤ :=
  (a.queueController.gates[i]?, a.gateAssignments.get? i, a.gateServiceEnds.get? i)

/-- A gate without a truck. -/
def Vacant (i : ℕ) : Prop := a.gateView i = (some ⟨.available, none⟩, none, none)

/-- A gate that serves a truck until some time. -/
def Serves (i : ℕ) (entry : QueueEntry T) (ends : ℤ) : Prop :=
  a.gateView i = (some ⟨.busy, some entry⟩, some entry, some ends)

/-- A gate that has a truck without an end. -/
def Stuck (i : ℕ) (entry : QueueEntry T) : Prop :=
  a.gateView i = (some ⟨.busy, some entry⟩, some entry, none)

/-- The tables of a facility with so many gates agree, and no end is later than it can be. -/
structure Coherent (gateCount serviceTime : ℕ) : Prop where
  isOpen : a.queueController.isOpen = true
  length : a.queueController.gates.length = gateCount
  gate : ∀ i < gateCount, a.Vacant i ∨
    (∃ entry ends, a.Serves i entry ends ∧ ends ≤ a.currentTime + serviceTime) ∨
    ∃ entry, a.Stuck i entry
  scheduled : ∀ i ends, a.gateServiceEnds.get? i = some ends → i < gateCount

/-- The trucks that arrived, in terms of what they were told. -/
structure Accounts (arrived : List (QueueEntry T)) : Prop where
  order : arrived = a.assigned ++ a.queueController.queue ++ a.waiting
  places : a.assigned.Perm (a.atGates ++ a.completed)
  told : ∀ n ∈ a.published, n.Tells true ∨ n.Tells false

variable {a} {gateCount serviceTime : ℕ}

theorem gateEventForVisit_ne (v w : FacilityVisitType) :
    gateEventForVisit v true ≠ gateEventForVisit w false := by
  cases v <;> cases w <;> decide

theorem gateNotice_tells (serviceTime i : ℕ) (entry : QueueEntry T) (assigned : Bool) :
    (gateNotice serviceTime i entry assigned).Tells assigned ∧
      ¬ (gateNotice serviceTime i entry assigned).Tells (!assigned) ∧
      (gateNotice serviceTime i entry assigned).entry = entry := by
  refine ⟨rfl, ?_, rfl⟩
  cases assigned with
  | true => exact gateEventForVisit_ne _ _
  | false => exact fun h ↦ gateEventForVisit_ne _ _ h.symm

/-- The notices of some gates are all of their kind, and name their trucks. -/
theorem filter_gateNotice (serviceTime : ℕ) (assigned : Bool) (l : List (ℕ × QueueEntry T)) :
    ((l.map fun p ↦ gateNotice serviceTime p.1 p.2 assigned).filter (·.Tells assigned)).map
        GateNotice.entry = l.map Prod.snd ∧
      (l.map fun p ↦ gateNotice serviceTime p.1 p.2 assigned).filter (·.Tells (!assigned)) =
        [] := by
  induction l with
  | nil => exact ⟨rfl, rfl⟩
  | cons p l ih =>
    obtain ⟨htells, hother, hentry⟩ := gateNotice_tells serviceTime p.1 p.2 assigned
    constructor
    · simp [htells, hentry, ih.1]
    · simp only [List.map_cons, List.filter_cons, hother, decide_false, ih.2]
      rfl

/-! ## Giving gates away keeps the tables together -/

section

variable (a) (serviceTime)

/-- The gates given away. -/
def given : List (ℕ × QueueEntry T) :=
  (assignGates a.queueController.gates a.queueController.queue 0).2.2

variable {a} {serviceTime}

theorem assignAvailableGates_eq (h : a.queueController.isOpen = true) :
    a.queueController.assignAvailableGates =
      ({ a.queueController with
          gates := (assignGates a.queueController.gates a.queueController.queue 0).1
          queue := (assignGates a.queueController.gates a.queueController.queue 0).2.1 },
        a.given) := by
  rw [FacilityQueueController.assignAvailableGates, if_pos h]
  rfl

theorem Vacant.gate {i : ℕ} (h : a.Vacant i) :
    a.queueController.gates[i]? = some ⟨.available, none⟩ := congrArg Prod.fst h

theorem Serves.gate {i : ℕ} {entry : QueueEntry T} {ends : ℤ} (h : a.Serves i entry ends) :
    a.queueController.gates[i]? = some ⟨.busy, some entry⟩ := congrArg Prod.fst h

theorem Serves.ends {i : ℕ} {entry : QueueEntry T} {ends : ℤ} (h : a.Serves i entry ends) :
    a.gateServiceEnds.get? i = some ends := congrArg (fun v ↦ v.2.2) h

theorem Stuck.gate {i : ℕ} {entry : QueueEntry T} (h : a.Stuck i entry) :
    a.queueController.gates[i]? = some ⟨.busy, some entry⟩ := congrArg Prod.fst h

theorem Stuck.ends {i : ℕ} {entry : QueueEntry T} (h : a.Stuck i entry) :
    a.gateServiceEnds.get? i = none := congrArg (fun v ↦ v.2.2) h

theorem Vacant.ends {i : ℕ} (h : a.Vacant i) : a.gateServiceEnds.get? i = none :=
  congrArg (fun v ↦ v.2.2) h

theorem Coherent.vacant_of_available (h : a.Coherent gateCount serviceTime) {i : ℕ} {g : Gate T}
    (hi : i < gateCount) (hg : a.queueController.gates[i]? = some g)
    (hstate : g.state = .available) :
    a.Vacant i := by
  rcases h.gate i hi with hv | ⟨entry, ends, hserves, -⟩ | ⟨entry, hstuck⟩
  · exact hv
  · obtain rfl := Option.some.inj (hserves.gate.symm.trans hg)
    cases hstate
  · obtain rfl := Option.some.inj (hstuck.gate.symm.trans hg)
    cases hstate

theorem Coherent.unassigned_of_available (h : a.Coherent gateCount serviceTime) {g : Gate T}
    (hg : g ∈ a.queueController.gates) (hstate : g.state = .available) : g.assignment = none := by
  obtain ⟨i, hi⟩ := List.mem_iff_getElem?.mp hg
  have hlt : i < gateCount := h.length ▸ (List.getElem?_eq_some_iff.mp hi).1
  have hvacant := (h.vacant_of_available hlt hi hstate).gate
  rw [Option.some.inj (hi.symm.trans hvacant)]

variable (a) (serviceTime) in
/-- The end of the services that begin now, if they get one. -/
def newEnd : Option ℤ :=
  if 0 < serviceTime ∧ a.allocationRaises serviceTime = false then
    some (a.currentTime + serviceTime)
  else none

/-- **A gate is left as it is, or was vacant and now has a truck.** -/
theorem Coherent.gateView_allocateGates (h : a.Coherent gateCount serviceTime) {i : ℕ}
    (hi : i < gateCount) :
    i ∉ a.given.map Prod.fst ∧ (a.allocateGates serviceTime).gateView i = a.gateView i ∨
      a.Vacant i ∧ ∃ entry, (i, entry) ∈ a.given ∧ (a.allocateGates serviceTime).gateView i =
        (some ⟨.busy, some entry⟩, some entry, a.newEnd serviceTime) := by
  obtain ⟨-, hnodup, -, hgates⟩ :=
    assignGates_gates a.queueController.gates a.queueController.queue 0
  have hgiven : (assignGates a.queueController.gates a.queueController.queue 0).2.2 = a.given := rfl
  rw [hgiven] at hnodup hgates
  obtain ⟨g, hg⟩ : ∃ g, a.queueController.gates[i]? = some g :=
    ⟨_, List.getElem?_eq_getElem (h.length.symm ▸ hi)⟩
  have hends : (a.given.map fun p ↦ (p.1, a.currentTime + (serviceTime : ℤ))).map Prod.fst =
      a.given.map Prod.fst := by
    rw [List.map_map]
    rfl
  have hview : (a.allocateGates serviceTime).gateView i =
      ((assignGates a.queueController.gates a.queueController.queue 0).1[i]?,
        (a.gateAssignments.update a.given).get? i,
        (if 0 < serviceTime ∧ a.allocationRaises serviceTime = false then
          a.gateServiceEnds.update (a.given.map fun p ↦ (p.1, a.currentTime + (serviceTime : ℤ)))
        else a.gateServiceEnds).get? i) := by
    rw [gateView, allocateGates, assignAvailableGates_eq h.isOpen]
  rcases hgates i g hg with ⟨hstate, entry, hentry, hr⟩ | ⟨hnot, hr⟩
  · have hvacant := h.vacant_of_available hi hg hstate
    rw [Nat.zero_add] at hentry
    refine Or.inr ⟨hvacant, entry, hentry, ?_⟩
    have hend : (i, a.currentTime + (serviceTime : ℤ)) ∈
        a.given.map fun p ↦ (p.1, a.currentTime + (serviceTime : ℤ)) :=
      List.mem_map.mpr ⟨(i, entry), hentry, rfl⟩
    rw [hview, hr, Dict.get?_update_of_mem hnodup hentry, newEnd]
    split
    · rw [Dict.get?_update_of_mem (hends ▸ hnodup) hend]
    · rw [hvacant.ends]
  · rw [Nat.zero_add] at hnot
    refine Or.inl ⟨hnot, ?_⟩
    rw [hview, hr, Dict.get?_update_of_notMem hnot, gateView, hg]
    split
    · rw [Dict.get?_update_of_notMem (hends ▸ hnot)]
    · rfl

theorem allocateGates_gates (serviceTime : ℕ) (h : a.queueController.isOpen = true) :
    (a.allocateGates serviceTime).queueController.gates =
      (assignGates a.queueController.gates a.queueController.queue 0).1 := by
  rw [allocateGates, assignAvailableGates_eq h]

theorem allocateGates_queue (serviceTime : ℕ) (h : a.queueController.isOpen = true) :
    (a.allocateGates serviceTime).queueController.queue =
      (assignGates a.queueController.gates a.queueController.queue 0).2.1 := by
  rw [allocateGates, assignAvailableGates_eq h]

theorem allocateGates_published (h : a.queueController.isOpen = true)
    (hfits : a.allocationRaises serviceTime = false) : (a.allocateGates serviceTime).published =
      a.published ++ a.given.map fun p ↦ gateNotice serviceTime p.1 p.2 true := by
  rw [allocateGates, assignAvailableGates_eq h, hfits]
  rfl

theorem Coherent.allocateGates (h : a.Coherent gateCount serviceTime) :
    (a.allocateGates serviceTime).Coherent gateCount serviceTime := by
  obtain ⟨hlength, -, hrange, -⟩ :=
    assignGates_gates a.queueController.gates a.queueController.queue 0
  refine ⟨?_, ?_, fun i hi ↦ ?_, fun i ends he ↦ ?_⟩
  · rw [FacilityApp.allocateGates, assignAvailableGates_eq h.isOpen]
    exact h.isOpen
  · rw [allocateGates_gates serviceTime h.isOpen, hlength, h.length]
  · rcases h.gateView_allocateGates hi with ⟨-, hsame⟩ | ⟨-, entry, -, hview⟩
    · simp only [Vacant, Serves, Stuck, hsame]
      exact h.gate i hi
    · rw [newEnd] at hview
      split at hview
      · exact Or.inr (Or.inl ⟨entry, _, hview, le_refl _⟩)
      · exact Or.inr (Or.inr ⟨entry, hview⟩)
  · have hscheduled : a.gateServiceEnds.get? i = some ends ∨ i ∈ a.given.map Prod.fst := by
      rw [FacilityApp.allocateGates, assignAvailableGates_eq h.isOpen] at he
      dsimp only at he
      split at he
      · rcases Dict.mem_of_get?_update he with hm | hm
        · obtain ⟨p, hp, heq⟩ := List.mem_map.mp hm
          exact Or.inr ((Prod.mk.inj heq).1 ▸ List.mem_map_of_mem hp)
        · exact Or.inl hm
      · exact Or.inl he
    rcases hscheduled with hm | hm
    · exact h.scheduled i ends hm
    · obtain ⟨p, hp, rfl⟩ := List.mem_map.mp hm
      have := (hrange p hp).2
      rw [h.length] at this
      omega

/-- Giving gates away moves trucks from the front of the queue to the gates. -/
theorem Accounts.allocateGates {arrived : List (QueueEntry T)} (h : a.Accounts arrived)
    (hc : a.Coherent gateCount serviceTime) (hfits : a.allocationRaises serviceTime = false) :
    (a.allocateGates serviceTime).Accounts arrived ∧
      (a.allocateGates serviceTime).assigned = a.assigned ++ a.given.map Prod.snd := by
  obtain ⟨htold, hother⟩ := filter_gateNotice serviceTime true a.given
  have hassigned : (a.allocateGates serviceTime).assigned = a.assigned ++ a.given.map Prod.snd := by
    rw [assigned, allocateGates_published hc.isOpen hfits, List.filter_append,
      List.map_append, htold]
    rfl
  have hcompleted : (a.allocateGates serviceTime).completed = a.completed := by
    rw [completed, allocateGates_published hc.isOpen hfits, List.filter_append,
      ← Bool.not_true, hother,
      List.append_nil]
    rfl
  refine ⟨⟨?_, ?_, fun n hn ↦ ?_⟩, hassigned⟩
  · have hqueue := assignGates_queue a.queueController.gates a.queueController.queue 0
    have hwaiting : (a.allocateGates serviceTime).waiting = a.waiting := rfl
    rw [hassigned, allocateGates_queue serviceTime hc.isOpen, hwaiting,
      List.append_assoc a.assigned]
    exact h.order.trans (congrArg (a.assigned ++ · ++ a.waiting) hqueue)
  · have hgates : (a.allocateGates serviceTime).atGates.Perm
        (a.given.map Prod.snd ++ a.atGates) := by
      rw [atGates, allocateGates_gates serviceTime hc.isOpen]
      exact assignGates_perm a.queueController.gates a.queueController.queue 0
        fun _ ↦ hc.unassigned_of_available
    rw [hassigned, hcompleted]
    calc (a.assigned ++ a.given.map Prod.snd).Perm
          ((a.atGates ++ a.completed) ++ a.given.map Prod.snd) := h.places.append_right _
      _ |>.Perm (a.given.map Prod.snd ++ (a.atGates ++ a.completed)) := List.perm_append_comm
      _ |>.Perm (a.given.map Prod.snd ++ a.atGates ++ a.completed) := by rw [List.append_assoc]
      _ |>.Perm ((a.allocateGates serviceTime).atGates ++ a.completed) :=
          (hgates.append_right _).symm
  · rw [allocateGates_published hc.isOpen hfits] at hn
    rcases List.mem_append.mp hn with hn | hn
    · exact h.told n hn
    · obtain ⟨p, -, rfl⟩ := List.mem_map.mp hn
      exact Or.inl (gateNotice_tells serviceTime p.1 p.2 true).1

/-! ## The end of a service -/

/-- Taking one truck from its gate. -/
theorem perm_filterMap_modify {α β : Type} {f : α → Option β} {h : α → α} {l : List α} {i : ℕ}
    {g : α} {b : β} (hg : l[i]? = some g) (hf : f g = some b) (hh : f (h g) = none) :
    (l.filterMap f).Perm (b :: (l.modify i h).filterMap f) := by
  induction l generalizing i with
  | nil => cases hg
  | cons x l ih =>
    cases i with
    | zero =>
      cases hg
      rw [List.modify_zero_cons, List.filterMap_cons_some hf, List.filterMap_cons_none hh]
    | succ i =>
      rw [List.modify_succ_cons]
      have hrest := ih hg
      cases hx : f x with
      | none =>
        rw [List.filterMap_cons_none hx, List.filterMap_cons_none hx]
        exact hrest
      | some y =>
        rw [List.filterMap_cons_some hx, List.filterMap_cons_some hx]
        exact (hrest.cons y).trans (List.Perm.swap b y _)

theorem gateView_completeGateService (i j : ℕ) :
    (a.completeGateService serviceTime i).gateView j =
      ((a.queueController.gates.modify i fun g ↦
          ⟨if g.state = .busy then .available else g.state, none⟩)[j]?,
        (a.gateAssignments.erase i).get? j, (a.gateServiceEnds.erase i).get? j) := rfl

theorem gateView_completeGateService_ne {i j : ℕ} (h : j ≠ i) :
    (a.completeGateService serviceTime i).gateView j = a.gateView j := by
  rw [gateView_completeGateService, List.getElem?_modify_ne _ _ (Ne.symm h), Dict.get?_erase_ne _ h,
    Dict.get?_erase_ne _ h, gateView]

theorem Serves.vacant_completeGateService {i : ℕ} {entry : QueueEntry T} {ends : ℤ}
    (h : a.Serves i entry ends) : (a.completeGateService serviceTime i).Vacant i := by
  rw [Vacant, gateView_completeGateService, List.getElem?_modify_eq, h.gate, Dict.get?_erase_self,
    Dict.get?_erase_self]
  rfl

theorem Serves.published_completeGateService {i : ℕ} {entry : QueueEntry T} {ends : ℤ}
    (h : a.Serves i entry ends) : (a.completeGateService serviceTime i).published =
      a.published ++ [gateNotice serviceTime i entry false] := by
  have hreleased : (a.queueController.releaseGate i).2 = some entry := by
    rw [FacilityQueueController.releaseGate, h.gate]
    rfl
  rw [completeGateService, hreleased]
  rfl

theorem Coherent.completeGateService (h : a.Coherent gateCount serviceTime) {i : ℕ}
    {entry : QueueEntry T} {ends : ℤ} (hserves : a.Serves i entry ends) :
    (a.completeGateService serviceTime i).Coherent gateCount serviceTime := by
  refine ⟨h.isOpen, ?_, fun j hj ↦ ?_, fun j e he ↦ ?_⟩
  · rw [FacilityApp.completeGateService, FacilityQueueController.releaseGate, List.length_modify,
      h.length]
  · by_cases hji : j = i
    · subst hji
      exact Or.inl hserves.vacant_completeGateService
    · have hsame : (a.completeGateService serviceTime i).gateView j = a.gateView j :=
        gateView_completeGateService_ne hji
      simp only [Vacant, Serves, Stuck, hsame]
      exact h.gate j hj
  · rw [FacilityApp.completeGateService, Dict.get?_erase] at he
    split at he
    · cases he
    · exact h.scheduled j e he

/-- The truck leaves its gate and is told so. -/
theorem Accounts.completeGateService {arrived : List (QueueEntry T)} (h : a.Accounts arrived)
    {i : ℕ} {entry : QueueEntry T} {ends : ℤ} (hserves : a.Serves i entry ends) :
    (a.completeGateService serviceTime i).Accounts arrived := by
  obtain ⟨htold, hother⟩ := filter_gateNotice serviceTime false [(i, entry)]
  have hassigned : (a.completeGateService serviceTime i).assigned = a.assigned := by
    rw [assigned, hserves.published_completeGateService, List.filter_append, List.map_append]
    exact (congrArg _ (congrArg _ hother)).trans (List.append_nil _)
  have hcompleted : (a.completeGateService serviceTime i).completed = a.completed ++ [entry] := by
    rw [completed, hserves.published_completeGateService, List.filter_append, List.map_append]
    exact congrArg (a.completed ++ ·) htold
  have hgates : a.atGates.Perm (entry :: (a.completeGateService serviceTime i).atGates) :=
    perm_filterMap_modify hserves.gate rfl rfl
  refine ⟨hassigned ▸ h.order, ?_, fun n hn ↦ ?_⟩
  · rw [hassigned, hcompleted]
    calc a.assigned.Perm (a.atGates ++ a.completed) := h.places
      _ |>.Perm ((entry :: (a.completeGateService serviceTime i).atGates) ++ a.completed) :=
          hgates.append_right _
      _ |>.Perm ((a.completeGateService serviceTime i).atGates ++ (entry :: a.completed)) :=
          List.perm_middle.symm
      _ |>.Perm ((a.completeGateService serviceTime i).atGates ++ (a.completed ++ [entry])) :=
          (List.perm_append_singleton _ _).symm.append_left _
  · rw [hserves.published_completeGateService] at hn
    rcases List.mem_append.mp hn with hn | hn
    · exact h.told n hn
    · rw [List.mem_singleton.mp hn]
      exact Or.inr (gateNotice_tells serviceTime i entry false).1

/-- **The services that are due end one after the other**, and nothing else happens. -/
theorem completeAll_spec {arrived : List (QueueEntry T)} {due : List ℕ} (hdue : due.Nodup)
    (h : a.Coherent gateCount serviceTime) (ha : a.Accounts arrived)
    (hserves : ∀ i ∈ due, ∃ entry ends, a.Serves i entry ends) :
    ∃ b, b = due.foldl (fun a i ↦ a.completeGateService serviceTime i) a ∧
      b.Coherent gateCount serviceTime ∧ b.Accounts arrived ∧ b.currentTime = a.currentTime ∧
      b.queueController.queue = a.queueController.queue ∧
      b.published.length = a.published.length + due.length ∧
      (∀ i ∈ due, b.Vacant i) ∧ ∀ i, i ∉ due → b.gateView i = a.gateView i := by
  induction due generalizing a with
  | nil => exact ⟨a, rfl, h, ha, rfl, rfl, rfl, by simp, fun i _ ↦ rfl⟩
  | cons i due ih =>
    obtain ⟨hnot, hdue⟩ := List.nodup_cons.mp hdue
    obtain ⟨entry, ends, hi⟩ := hserves i List.mem_cons_self
    have hrest : ∀ j ∈ due, ∃ entry ends,
        (a.completeGateService serviceTime i).Serves j entry ends := by
      intro j hj
      obtain ⟨entry, ends, hserves⟩ := hserves j (List.mem_cons_of_mem _ hj)
      have hne : j ≠ i := fun he ↦ hnot (he ▸ hj)
      exact ⟨entry, ends, (gateView_completeGateService_ne hne).trans hserves⟩
    obtain ⟨b, hb, hc, hacc, htime, hqueue, hpub, hvacant, hsame⟩ :=
      ih hdue (h.completeGateService hi) (ha.completeGateService hi) hrest
    refine ⟨b, hb, hc, hacc, htime, hqueue, ?_, fun j hj ↦ ?_, fun j hj ↦ ?_⟩
    · rw [hpub, hi.published_completeGateService, List.length_append, List.length_singleton,
        List.length_cons]
      omega
    · rcases List.mem_cons.mp hj with rfl | hj
      · rw [Vacant, hsame j hnot]
        exact hi.vacant_completeGateService
      · exact hvacant j hj
    · rw [List.mem_cons, not_or] at hj
      rw [hsame j hj.2, gateView_completeGateService_ne hj.1]

/-! ## A tick -/

/-- Every end lies ahead. -/
def EndsAhead (a : FacilityApp T) : Prop :=
  ∀ i ends, a.gateServiceEnds.get? i = some ends → a.currentTime < ends

theorem Coherent.serves_of_scheduled (h : a.Coherent gateCount serviceTime) {i : ℕ} {ends : ℤ}
    (he : a.gateServiceEnds.get? i = some ends) : ∃ entry, a.Serves i entry ends := by
  rcases h.gate i (h.scheduled i ends he) with hv | ⟨entry, ends', hserves, -⟩ | ⟨entry, hstuck⟩
  · cases hv.ends.symm.trans he
  · obtain rfl := Option.some.inj (hserves.ends.symm.trans he)
    exact ⟨entry, hserves⟩
  · cases hstuck.ends.symm.trans he

theorem Coherent.ends_le (h : a.Coherent gateCount serviceTime) {i : ℕ} {ends : ℤ}
    (he : a.gateServiceEnds.get? i = some ends) : ends ≤ a.currentTime + serviceTime := by
  rcases h.gate i (h.scheduled i ends he) with hv | ⟨entry, ends', hserves, hle⟩ | ⟨entry, hstuck⟩
  · cases hv.ends.symm.trans he
  · obtain rfl := Option.some.inj (hserves.ends.symm.trans he)
    exact hle
  · cases hstuck.ends.symm.trans he

theorem mem_dueGateIndices {i : ℕ} :
    i ∈ a.dueGateIndices ↔ ∃ ends, a.gateServiceEnds.get? i = some ends ∧ ends ≤ a.currentTime := by
  rw [dueGateIndices, List.mem_map]
  constructor
  · rintro ⟨p, hp, rfl⟩
    obtain ⟨hmem, hle⟩ := List.mem_filter.mp hp
    exact ⟨p.2, Dict.mem_entries_iff.mp hmem, of_decide_eq_true hle⟩
  · rintro ⟨ends, he, hle⟩
    exact ⟨(i, ends), List.mem_filter.mpr ⟨Dict.mem_entries_iff.mpr he, decide_eq_true hle⟩, rfl⟩

theorem nodup_dueGateIndices : a.dueGateIndices.Nodup :=
  a.gateServiceEnds.nodup.sublist (List.filter_sublist.map _)

theorem EndsAhead.allocateGates (h : a.EndsAhead) (hc : a.Coherent gateCount serviceTime) :
    (a.allocateGates serviceTime).EndsAhead := by
  intro i ends he
  have htime : (a.allocateGates serviceTime).currentTime = a.currentTime := rfl
  rcases hc.gateView_allocateGates (hc.allocateGates.scheduled i ends he) with
    ⟨-, hsame⟩ | ⟨-, entry, -, hview⟩
  · exact h i ends ((congrArg (fun v ↦ v.2.2) hsame).symm.trans he)
  · have hend : a.newEnd serviceTime = some ends := (congrArg (fun v ↦ v.2.2) hview).symm.trans he
    rw [newEnd] at hend
    split at hend
    · next hnew =>
      obtain rfl := Option.some.inj hend
      omega
    · cases hend

/-- Every truck at a gate has an end. -/
def NoneStuck (a : FacilityApp T) : Prop := ∀ i entry, ¬ a.Stuck i entry

/-- A service that begins now takes time and ends in the calendar. -/
def Ends (serviceTime : ℕ) (a : FacilityApp T) : Prop :=
  0 < serviceTime ∧ a.currentTime + serviceTime < calendarSeconds

instance : Decidable (a.Ends serviceTime) :=
  inferInstanceAs (Decidable (_ ∧ _))

/-- A tick gives a gate away: somebody is queued, and a gate is available or its service over. -/
def GivesAway (a : FacilityApp T) : Prop :=
  a.queueController.queue ≠ [] ∧
    ((∃ g ∈ a.queueController.gates, g.state = .available) ∨ a.dueGateIndices ≠ [])

instance : Decidable a.GivesAway :=
  inferInstanceAs (Decidable (_ ∧ _))

theorem given_eq_nil_iff : a.given = [] ↔ (a.queueController.queue ≠ [] →
    ∀ g ∈ a.queueController.gates, g.state ≠ .available) := assignGates_eq_nil_iff _ _ 0

theorem GivesAway.of_given (h : a.given ≠ []) : a.GivesAway := by
  rw [Ne, given_eq_nil_iff, Classical.not_imp] at h
  push Not at h
  exact ⟨h.1, Or.inl h.2⟩

theorem allocationRaises_of_ends (hc : a.Coherent gateCount serviceTime)
    (h : a.given = [] ∨ a.Ends serviceTime) : a.allocationRaises serviceTime = false := by
  rw [allocationRaises, assignAvailableGates_eq hc.isOpen]
  rcases h with h | h
  · simp [h]
  · simp [h.2]

theorem newEnd_of_not_ends (hc : a.Coherent gateCount serviceTime) (hgiven : a.given ≠ [])
    (h : ¬ a.Ends serviceTime) : a.newEnd serviceTime = none := by
  rw [newEnd, if_neg]
  rintro ⟨hs, hraises⟩
  rw [allocationRaises, assignAvailableGates_eq hc.isOpen] at hraises
  simp only [Bool.and_eq_false_iff, Bool.not_eq_false', List.isEmpty_iff, hgiven, false_or,
    decide_eq_false_iff_not] at hraises
  exact h ⟨hs, not_le.mp fun hle ↦ hraises ⟨hs, hle⟩⟩

/-- Nobody gets stuck where services end. -/
theorem NoneStuck.allocateGates (h : a.NoneStuck) (hc : a.Coherent gateCount serviceTime)
    (hends : a.given = [] ∨ a.Ends serviceTime) : (a.allocateGates serviceTime).NoneStuck := by
  intro i entry hstuck
  have hi : i < gateCount :=
    hc.allocateGates.length ▸ (List.getElem?_eq_some_iff.mp hstuck.gate).1
  rcases hc.gateView_allocateGates hi with ⟨-, hsame⟩ | ⟨-, other, hmem, hview⟩
  · exact h i entry (hsame.symm.trans hstuck)
  · have hend : a.newEnd serviceTime = none :=
      (congrArg (fun v ↦ v.2.2) hview).symm.trans hstuck.ends
    rw [newEnd, if_pos ⟨(hends.resolve_left (List.ne_nil_of_mem hmem)).1,
      allocationRaises_of_ends hc hends⟩] at hend
    cases hend

/-- Who is given a gate where services do not end is stuck there. -/
theorem exists_stuck_allocateGates (hc : a.Coherent gateCount serviceTime) (hgiven : a.given ≠ [])
    (h : ¬ a.Ends serviceTime) : ∃ i entry, (a.allocateGates serviceTime).Stuck i entry := by
  obtain ⟨⟨i, entry⟩, hmem⟩ := List.exists_mem_of_ne_nil _ hgiven
  have hi : i < gateCount := by
    have := (assignGates_gates a.queueController.gates a.queueController.queue 0).2.2.1 _ hmem
    rw [hc.length] at this
    omega
  rcases hc.gateView_allocateGates hi with ⟨hnot, -⟩ | ⟨-, other, -, hview⟩
  · exact absurd (List.mem_map_of_mem hmem) hnot
  · rw [newEnd_of_not_ends hc hgiven h] at hview
    exact ⟨i, other, hview⟩

theorem Stuck.allocateGates {i : ℕ} {entry : QueueEntry T} (h : a.Stuck i entry)
    (hc : a.Coherent gateCount serviceTime) : (a.allocateGates serviceTime).Stuck i entry := by
  have hi : i < gateCount := hc.length ▸ (List.getElem?_eq_some_iff.mp h.gate).1
  rcases hc.gateView_allocateGates hi with ⟨-, hsame⟩ | ⟨hvacant, -⟩
  · exact hsame.trans h
  · cases Option.some.inj (h.gate.symm.trans hvacant.gate)

/-- **What a tick completes**: the services that are due, and nothing else changes. -/
theorem Accounts.completeDue {arrived : List (QueueEntry T)} (ha : a.Accounts arrived)
    (hc : a.Coherent gateCount serviceTime) :
    (a.completeDue serviceTime).Coherent gateCount serviceTime ∧
      (a.completeDue serviceTime).Accounts arrived ∧
      (a.completeDue serviceTime).currentTime = a.currentTime ∧
      (a.completeDue serviceTime).queueController.queue = a.queueController.queue ∧
      (a.completeDue serviceTime).published.length =
        a.published.length + a.dueGateIndices.length ∧
      (∀ i ∈ a.dueGateIndices, (a.completeDue serviceTime).Vacant i) ∧
      ∀ i, i ∉ a.dueGateIndices → (a.completeDue serviceTime).gateView i = a.gateView i := by
  have hserves : ∀ i ∈ a.dueGateIndices, ∃ entry ends, a.Serves i entry ends := by
    intro i hi
    obtain ⟨ends, he, -⟩ := mem_dueGateIndices.mp hi
    obtain ⟨entry, hserves⟩ := hc.serves_of_scheduled he
    exact ⟨entry, ends, hserves⟩
  obtain ⟨b, rfl, hb⟩ := completeAll_spec nodup_dueGateIndices hc ha hserves
  exact hb

theorem endsAhead_completeDue {arrived : List (QueueEntry T)} (ha : a.Accounts arrived)
    (hc : a.Coherent gateCount serviceTime) : (a.completeDue serviceTime).EndsAhead := by
  obtain ⟨-, -, htime, -, -, hvacant, hsame⟩ := ha.completeDue hc
  intro i ends he
  rw [htime]
  by_contra hle
  by_cases hi : i ∈ a.dueGateIndices
  · cases (hvacant i hi).ends.symm.trans he
  · exact hi (mem_dueGateIndices.mpr
      ⟨ends, (congrArg (fun v ↦ v.2.2) (hsame i hi)).symm.trans he, not_lt.mp hle⟩)

/-- A facility in order: its tables agree, no truck is stuck, and everybody is accounted for. -/
structure InOrder (gateCount serviceTime : ℕ) (arrived : List (QueueEntry T))
    (a : FacilityApp T) : Prop where
  coherent : a.Coherent gateCount serviceTime
  free : a.NoneStuck
  accounts : a.Accounts arrived

variable {arrived : List (QueueEntry T)}

theorem InOrder.allocateGates (h : a.InOrder gateCount serviceTime arrived)
    (hends : a.given = [] ∨ a.Ends serviceTime) :
    (a.allocateGates serviceTime).InOrder gateCount serviceTime arrived :=
  ⟨h.coherent.allocateGates, h.free.allocateGates h.coherent hends,
    (h.accounts.allocateGates h.coherent (allocationRaises_of_ends h.coherent hends)).1⟩

theorem InOrder.completeDue (h : a.InOrder gateCount serviceTime arrived) :
    (a.completeDue serviceTime).InOrder gateCount serviceTime arrived := by
  obtain ⟨hc, ha, -, -, -, hvacant, hsame⟩ := h.accounts.completeDue h.coherent
  refine ⟨hc, fun i entry hstuck ↦ ?_, ha⟩
  by_cases hi : i ∈ a.dueGateIndices
  · cases Option.some.inj (hstuck.gate.symm.trans (hvacant i hi).gate)
  · exact h.free i entry ((hsame i hi).symm.trans hstuck)

/-- A service found over after gates were given away was over before, or a gate was available. -/
theorem Coherent.givesAway_of_due (hc : a.Coherent gateCount serviceTime)
    (hqueue : (a.allocateGates serviceTime).queueController.queue ≠ [])
    (hdue : (a.allocateGates serviceTime).dueGateIndices ≠ []) : a.GivesAway := by
  obtain ⟨i, hi⟩ := List.exists_mem_of_ne_nil _ hdue
  obtain ⟨ends, he, hle⟩ := mem_dueGateIndices.mp hi
  rcases hc.gateView_allocateGates (hc.allocateGates.scheduled i ends he) with
    ⟨-, hsame⟩ | ⟨-, entry, hmem, -⟩
  · refine ⟨fun hnil ↦ hqueue ?_, Or.inr (List.ne_nil_of_mem (mem_dueGateIndices.mpr
      ⟨ends, (congrArg (fun v ↦ v.2.2) hsame).symm.trans he, hle⟩))⟩
    have hsplit := assignGates_queue a.queueController.gates a.queueController.queue 0
    rw [allocateGates_queue serviceTime hc.isOpen]
    exact (List.append_eq_nil_iff.mp (hsplit.symm.trans hnil)).2
  · exact .of_given (List.ne_nil_of_mem hmem)

/-- **What a tick does where services end**: it ends on giving gates away, and leaves no service
that is due. -/
theorem InOrder.performWorkflowActions (h : a.InOrder gateCount serviceTime arrived)
    (hends : a.GivesAway → a.Ends serviceTime) :
    ∃ b : FacilityApp T, a.performWorkflowActions serviceTime =
      (b.allocateGates serviceTime, false) ∧
      b.InOrder gateCount serviceTime arrived ∧ b.currentTime = a.currentTime ∧
      (b.given = [] ∨ b.Ends serviceTime) ∧ (b.allocateGates serviceTime).EndsAhead ∧
      (a.allocateGates serviceTime).published.length +
        (a.allocateGates serviceTime).dueGateIndices.length ≤
          (b.allocateGates serviceTime).published.length := by
  have hfirst : a.given = [] ∨ a.Ends serviceTime :=
    or_iff_not_imp_left.mpr fun hgiven ↦ hends (.of_given hgiven)
  have hafter := h.allocateGates hfirst
  have hraises := allocationRaises_of_ends h.coherent hfirst
  by_cases hdue : (a.allocateGates serviceTime).dueGateIndices = []
  · refine ⟨a, ?_, h, rfl, hfirst, fun i ends he ↦ ?_, ?_⟩
    · simp only [FacilityApp.performWorkflowActions, hraises, hdue, if_true, Bool.false_eq_true,
        if_false]
    · by_contra hle
      have hmem : i ∈ (a.allocateGates serviceTime).dueGateIndices :=
        mem_dueGateIndices.mpr ⟨ends, he, not_lt.mp hle⟩
      rw [hdue] at hmem
      cases hmem
    · rw [hdue]
      exact le_refl _
  · obtain ⟨hc, -, htime, hqueue, hpub, -⟩ := hafter.accounts.completeDue hafter.coherent
    have hahead := endsAhead_completeDue hafter.accounts hafter.coherent
    have hsecond : ((a.allocateGates serviceTime).completeDue serviceTime).given = [] ∨
        ((a.allocateGates serviceTime).completeDue serviceTime).Ends serviceTime := by
      refine or_iff_not_imp_left.mpr fun hgiven ↦ ?_
      rw [Ends, htime]
      exact hends (h.coherent.givesAway_of_due (hqueue ▸ (GivesAway.of_given hgiven).1) hdue)
    refine ⟨(a.allocateGates serviceTime).completeDue serviceTime, ?_, hafter.completeDue, htime,
      hsecond, hahead.allocateGates hc, ?_⟩
    · simp only [FacilityApp.performWorkflowActions, hraises, hdue, if_false, Bool.false_eq_true,
        allocationRaises_of_ends hc hsecond]
    · rw [← hpub, allocateGates_published hc.isOpen (allocationRaises_of_ends hc hsecond),
        List.length_append]
      omega

/-- **Where services do not end a tick that gives a gate away leaves a truck stuck.** -/
theorem InOrder.exists_stuck (h : a.InOrder gateCount serviceTime arrived) (hgives : a.GivesAway)
    (hends : ¬ a.Ends serviceTime) :
    ∃ i entry, (a.performWorkflowActions serviceTime).1.Stuck i entry := by
  by_cases hgiven : a.given = []
  · -- no gate is available, so a service is over and its gate is given away after that
    have hraises := allocationRaises_of_ends h.coherent (Or.inl hgiven)
    have hafter := h.allocateGates (Or.inl hgiven)
    have hview : ∀ i < gateCount, (a.allocateGates serviceTime).gateView i = a.gateView i := by
      intro i hi
      rcases h.coherent.gateView_allocateGates hi with ⟨-, hsame⟩ | ⟨-, entry, hmem, -⟩
      · exact hsame
      · rw [hgiven] at hmem
        cases hmem
    have hdue : a.dueGateIndices ≠ [] := hgives.2.resolve_left fun ⟨g, hg, hstate⟩ ↦
      given_eq_nil_iff.mp hgiven hgives.1 g hg hstate
    obtain ⟨i, hi⟩ := List.exists_mem_of_ne_nil _ hdue
    obtain ⟨ends, he, hle⟩ := mem_dueGateIndices.mp hi
    have hdue' : i ∈ (a.allocateGates serviceTime).dueGateIndices := mem_dueGateIndices.mpr
      ⟨ends, (congrArg (fun v ↦ v.2.2) (hview i (h.coherent.scheduled i ends he))).trans he, hle⟩
    obtain ⟨hc, -, htime, hqueue, -, hvacant, -⟩ := hafter.accounts.completeDue hafter.coherent
    have hqueue' : (a.allocateGates serviceTime).queueController.queue =
        a.queueController.queue := by
      have hsplit := assignGates_queue a.queueController.gates a.queueController.queue 0
      have hnone : (assignGates a.queueController.gates a.queueController.queue 0).2.2 = [] :=
        hgiven
      rw [allocateGates_queue serviceTime h.coherent.isOpen]
      rw [hnone] at hsplit
      exact hsplit.symm
    have hsecond : ((a.allocateGates serviceTime).completeDue serviceTime).given ≠ [] := by
      rw [Ne, given_eq_nil_iff, Classical.not_imp]
      exact ⟨hqueue ▸ hqueue' ▸ hgives.1, fun hnone ↦
        hnone _ (List.mem_of_getElem? (hvacant i hdue').gate) rfl⟩
    have hnot : ¬ ((a.allocateGates serviceTime).completeDue serviceTime).Ends serviceTime := by
      rw [Ends, htime]
      exact hends
    simp only [FacilityApp.performWorkflowActions, hraises, Bool.false_eq_true, if_false,
      if_neg (List.ne_nil_of_mem hdue')]
    exact exists_stuck_allocateGates hc hsecond hnot
  · obtain ⟨i, entry, hstuck⟩ := exists_stuck_allocateGates h.coherent hgiven hends
    refine ⟨i, entry, ?_⟩
    simp only [FacilityApp.performWorkflowActions]
    split
    · exact hstuck
    · next hraises =>
      split
      · exact hstuck
      · have hacc := (h.accounts.allocateGates h.coherent (Bool.eq_false_iff.mpr hraises)).1
        obtain ⟨hc, -, -, -, -, -, hsame⟩ := hacc.completeDue h.coherent.allocateGates
        refine Stuck.allocateGates ((hsame i fun hi ↦ ?_).trans hstuck) hc
        obtain ⟨ends, he, -⟩ := mem_dueGateIndices.mp hi
        cases hstuck.ends.symm.trans he

/-! ## Runs -/

theorem gateView_of_same {b : FacilityApp T}
    (hgates : b.queueController.gates = a.queueController.gates)
    (hassigned : b.gateAssignments = a.gateAssignments)
    (hends : b.gateServiceEnds = a.gateServiceEnds) (i : ℕ) : b.gateView i = a.gateView i := by
  rw [gateView, hgates, hassigned, hends, gateView]

/-- The tables do not depend on the queue, the messages or the phase, and time may pass. -/
theorem Coherent.of_same {b : FacilityApp T} (h : a.Coherent gateCount serviceTime)
    (hopen : b.queueController.isOpen = a.queueController.isOpen)
    (hgates : b.queueController.gates = a.queueController.gates)
    (hassigned : b.gateAssignments = a.gateAssignments)
    (hends : b.gateServiceEnds = a.gateServiceEnds) (htime : a.currentTime ≤ b.currentTime) :
    b.Coherent gateCount serviceTime := by
  have hview := gateView_of_same hgates hassigned hends
  refine ⟨hopen.trans h.isOpen, hgates ▸ h.length, fun i hi ↦ ?_, fun i ends he ↦ ?_⟩
  · rcases h.gate i hi with hv | ⟨entry, ends, hserves, hle⟩ | ⟨entry, hstuck⟩
    · exact Or.inl ((hview i).trans hv)
    · exact Or.inr (Or.inl ⟨entry, ends, (hview i).trans hserves, by omega⟩)
    · exact Or.inr (Or.inr ⟨entry, (hview i).trans hstuck⟩)
  · exact h.scheduled i ends (hends ▸ he)

/-- What is known of the arrivals does not depend on the clock or the phase. -/
theorem Accounts.of_same {b : FacilityApp T} {arrived : List (QueueEntry T)}
    (h : a.Accounts arrived) (hcontroller : b.queueController = a.queueController)
    (hmessages : b.messageQueue = a.messageQueue) (hpublished : b.published = a.published) :
    b.Accounts arrived := by
  have hassigned : b.assigned = a.assigned := by rw [assigned, hpublished, assigned]
  have hcompleted : b.completed = a.completed := by rw [completed, hpublished, completed]
  have hgates : b.atGates = a.atGates := by rw [atGates, hcontroller, atGates]
  have hwaiting : b.waiting = a.waiting := by rw [waiting, hmessages, waiting]
  refine ⟨?_, ?_, hpublished ▸ h.told⟩
  · rw [hassigned, hcontroller, hwaiting]
    exact h.order
  · rw [hassigned, hcompleted, hgates]
    exact h.places

theorem Accounts.onMessage {arrived : List (QueueEntry T)} {m : FacilityMessage T}
    {rest : List (FacilityMessage T)} (h : a.Accounts arrived)
    (hqueue : a.messageQueue = m :: rest) :
    (({ a with messageQueue := rest } : FacilityApp T).onMessage m).Accounts arrived := by
  have hwaiting : a.waiting = m.arrival.toList ++ rest.filterMap FacilityMessage.arrival := by
    rw [waiting, hqueue]
    cases m <;> rfl
  have horder := h.order
  rw [hwaiting] at horder
  cases m with
  | unhandled => exact ⟨horder, h.places, h.told⟩
  | truckArrived truckId visitType =>
    refine ⟨?_, h.places, h.told⟩
    refine horder.trans ?_
    show _ = a.assigned ++ (a.queueController.queue ++ [⟨truckId, visitType⟩]) ++ _
    simp only [List.append_assoc]
    rfl

/-- Whether a facility is in order does not depend on the phase, and time may pass. -/
theorem InOrder.of_same {b : FacilityApp T} (h : a.InOrder gateCount serviceTime arrived)
    (hcontroller : b.queueController = a.queueController)
    (hassigned : b.gateAssignments = a.gateAssignments)
    (hends : b.gateServiceEnds = a.gateServiceEnds) (hmessages : b.messageQueue = a.messageQueue)
    (hpublished : b.published = a.published) (htime : a.currentTime ≤ b.currentTime) :
    b.InOrder gateCount serviceTime arrived := by
  have hgates : b.queueController.gates = a.queueController.gates := by rw [hcontroller]
  have hview := gateView_of_same hgates hassigned hends
  exact ⟨h.coherent.of_same (by rw [hcontroller]) hgates hassigned hends htime,
    fun i entry hstuck ↦ h.free i entry ((hview i).symm.trans hstuck),
    h.accounts.of_same hcontroller hmessages hpublished⟩

theorem InOrder.onMessage {m : FacilityMessage T} {rest : List (FacilityMessage T)}
    (h : a.InOrder gateCount serviceTime arrived) (hqueue : a.messageQueue = m :: rest) :
    (({ a with messageQueue := rest } : FacilityApp T).onMessage m).InOrder gateCount serviceTime
      arrived := by
  have haccounts := h.accounts.onMessage hqueue
  cases m with
  | unhandled =>
    exact ⟨h.coherent.of_same rfl rfl rfl rfl (le_refl _), h.free, haccounts⟩
  | truckArrived truckId visitType =>
    exact ⟨h.coherent.of_same rfl rfl rfl rfl (le_refl _), h.free, haccounts⟩

theorem InOrder.deliver {m : FacilityMessage T} (h : a.InOrder gateCount serviceTime arrived) :
    ({ a with messageQueue := a.messageQueue ++ [m] } : FacilityApp T).InOrder gateCount serviceTime
      (arrived ++ arrivals [.deliver m]) := by
  have hwaiting : ({ a with messageQueue := a.messageQueue ++ [m] } : FacilityApp T).waiting =
      a.waiting ++ arrivals [.deliver m] := List.filterMap_append
  refine ⟨h.coherent.of_same rfl rfl rfl rfl (le_refl _), h.free, ?_, h.accounts.places,
    h.accounts.told⟩
  rw [hwaiting, ← List.append_assoc]
  exact congrArg (· ++ _) h.accounts.order

/-- Whatever the facility gives a gate to in this step gets an end. -/
def Schedules (serviceTime : ℕ) (a : FacilityApp T) (e : FacilityEvent T) (_ : FacilityApp T) :
    Prop :=
  e = .act → a.GivesAway → a.Ends serviceTime

instance [DecidableEq T] {e : FacilityEvent T} {b : FacilityApp T} :
    Decidable (Schedules serviceTime a e b) :=
  inferInstanceAs (Decidable (_ → _))

/-- **A step keeps the facility in order**, as long as what it gives a gate to gets an end. -/
theorem InOrder.step {e : FacilityEvent T} {b : FacilityApp T}
    (ha : a.InOrder gateCount serviceTime arrived) (hends : Schedules serviceTime a e b)
    (h : (machine serviceTime).step a e = some b) :
    b.InOrder gateCount serviceTime (arrived ++ arrivals [e]) := by
  cases e with
  | deliver m =>
    cases h
    exact ha.deliver
  | step now =>
    rw [show arrivals [(.step now : FacilityEvent T)] = [] from rfl, List.append_nil]
    simp only [machine] at h
    split at h
    · next hnow =>
      cases h
      exact ha.of_same rfl rfl rfl rfl rfl hnow.2
    · cases h
  | consume =>
    rw [show arrivals [(.consume : FacilityEvent T)] = [] from rfl, List.append_nil]
    simp only [machine] at h
    split at h
    · cases h
      exact ha.of_same rfl rfl rfl rfl rfl (le_refl _)
    · cases h
      exact ha.of_same rfl rfl rfl rfl rfl (le_refl _)
    · next hqueue =>
      cases h
      exact ha.onMessage hqueue
    · next hqueue =>
      cases h
      exact ha.onMessage hqueue
    · cases h
  | act =>
    rw [show arrivals [(.act : FacilityEvent T)] = [] from rfl, List.append_nil]
    simp only [machine] at h
    split at h
    · cases h
      obtain ⟨b, hb, hb', -, hfits, -⟩ := ha.performWorkflowActions (hends rfl)
      rw [hb]
      exact (hb'.allocateGates hfits).of_same rfl rfl rfl rfl rfl (le_refl _)
    · cases h

theorem coherent_launched (clock : ℤ) :
    (launched gateCount clock : FacilityApp T).Coherent gateCount serviceTime := by
  have hgates : (launched gateCount clock : FacilityApp T).queueController.gates =
      List.replicate gateCount ⟨.available, none⟩ := List.map_replicate
  refine ⟨rfl, ?_, fun i hi ↦ Or.inl ?_, fun i ends he ↦ ?_⟩
  · rw [hgates, List.length_replicate]
  · rw [Vacant, gateView, hgates, List.getElem?_replicate_of_lt hi]
    rfl
  · cases he

theorem atGates_launched (clock : ℤ) :
    (launched gateCount clock : FacilityApp T).atGates = [] := by
  refine List.filterMap_eq_nil_iff.mpr fun g hg ↦ ?_
  obtain ⟨g', hg', rfl⟩ := List.mem_map.mp hg
  obtain rfl := List.eq_of_mem_replicate hg'
  rfl

theorem accounts_launched (clock : ℤ) :
    (launched gateCount clock : FacilityApp T).Accounts [] := by
  refine ⟨rfl, ?_, fun n hn ↦ ?_⟩
  · rw [atGates_launched]
    exact List.Perm.refl _
  · cases hn

theorem arrivals_append (es : List (FacilityEvent T)) (e : FacilityEvent T) :
    arrivals (es ++ [e]) = arrivals es ++ arrivals [e] := List.filterMap_append

theorem noneStuck_launched (clock : ℤ) : (launched gateCount clock : FacilityApp T).NoneStuck := by
  intro i entry hstuck
  have hg := List.mem_of_getElem? hstuck.gate
  obtain ⟨g', hg', heq⟩ := List.mem_map.mp hg
  obtain rfl := List.eq_of_mem_replicate hg'
  cases heq

theorem inOrder_of_exec {clock : ℤ} {es : List (FacilityEvent T)}
    (h : (machine serviceTime).exec (launched gateCount clock) es = some a)
    (hes : (machine serviceTime).Along (Schedules serviceTime) (launched gateCount clock) es) :
    a.InOrder gateCount serviceTime (arrivals es) :=
  Machine.exec_induction (Q := fun es a ↦ a.InOrder gateCount serviceTime (arrivals es)) h hes
    ⟨coherent_launched clock, noneStuck_launched clock, accounts_launched clock⟩
    fun es e _ _ ha hends hstep ↦ (arrivals_append es e).symm ▸ ha.step hends hstep

/-- Everybody who arrived is served once and in order. -/
structure ServedOnce (gateCount : ℕ) (arrived : List (QueueEntry T))
    (a : FacilityApp T) : Prop where
  /-- Gates are given away in the order of arrival. -/
  order : arrived = a.assigned ++ a.queueController.queue ++ a.waiting
  /-- Every arrival is waiting, queued, at a gate or completed. -/
  everybody : arrived.Perm (a.waiting ++ a.queueController.queue ++ a.atGates ++ a.completed)
  /-- Who was given a gate is at one, or was told once, of the own visit, that it is over. -/
  once : a.assigned.Perm (a.atGates ++ a.completed)
  told : ∀ n ∈ a.published, n.Tells true ∨ n.Tells false
  inService : a.atGates.length ≤ gateCount
  busy : ∀ i g, a.queueController.gates[i]? = some g →
    (g.state = .busy ↔ g.assignment.isSome ∧ (a.gateServiceEnds.get? i).isSome)

/-- A gate is vacant, or serves a truck. -/
theorem InOrder.gate (h : a.InOrder gateCount serviceTime arrived) {i : ℕ} {g : Gate T}
    (hg : a.queueController.gates[i]? = some g) :
    g = ⟨.available, none⟩ ∨ ∃ entry ends, g = ⟨.busy, some entry⟩ ∧ a.Serves i entry ends := by
  have hi : i < gateCount := h.coherent.length ▸ (List.getElem?_eq_some_iff.mp hg).1
  rcases h.coherent.gate i hi with hv | ⟨entry, ends, hserves, -⟩ | ⟨entry, hstuck⟩
  · exact Or.inl (Option.some.inj (hg.symm.trans hv.gate))
  · exact Or.inr ⟨entry, ends, Option.some.inj (hg.symm.trans hserves.gate), hserves⟩
  · exact absurd hstuck (h.free i entry)

theorem InOrder.servedOnce (h : a.InOrder gateCount serviceTime arrived) :
    ServedOnce gateCount arrived a := by
  refine ⟨h.accounts.order, ?_, h.accounts.places, h.accounts.told, ?_, fun i g hg ↦ ?_⟩
  · rw [h.accounts.order]
    calc (a.assigned ++ a.queueController.queue ++ a.waiting).Perm
          (a.waiting ++ (a.assigned ++ a.queueController.queue)) := List.perm_append_comm
      _ |>.Perm (a.waiting ++ (a.queueController.queue ++ a.assigned)) :=
          List.perm_append_comm.append_left _
      _ |>.Perm (a.waiting ++ (a.queueController.queue ++ (a.atGates ++ a.completed))) :=
          (h.accounts.places.append_left _).append_left _
      _ |>.Perm (a.waiting ++ a.queueController.queue ++ a.atGates ++ a.completed) := by
          simp only [List.append_assoc, List.Perm.refl]
  · rw [← h.coherent.length]
    exact List.length_filterMap_le _ _
  · rcases h.gate hg with rfl | ⟨entry, ends, rfl, hserves⟩
    · simp
    · rw [hserves.ends]
      simp

/-- What a tick should leave behind: nobody waits at a gate that is not busy, and every busy gate
has an end, which lies ahead but not later than the service takes. -/
structure AfterTick (serviceTime : ℕ) (b : FacilityApp T) : Prop where
  full : b.queueController.queue ≠ [] → ∀ g ∈ b.queueController.gates, g.state = .busy
  ends : ∀ i g, b.queueController.gates[i]? = some g → g.state = .busy →
    ∃ ends, b.gateServiceEnds.get? i = some ends ∧ b.currentTime < ends ∧
      ends ≤ b.currentTime + serviceTime

/-- **A tick leaves behind what it should**, if what it gives a gate to gets an end. -/
theorem InOrder.afterTick {b : FacilityApp T} (ha : a.InOrder gateCount serviceTime arrived)
    (hends : a.GivesAway → a.Ends serviceTime)
    (h : (machine serviceTime).step a .act = some b) :
    b.InOrder gateCount serviceTime arrived ∧ b.AfterTick serviceTime := by
  simp only [machine] at h
  split at h
  · cases h
    obtain ⟨c, hb, hc, -, hfits, hahead, -⟩ := ha.performWorkflowActions hends
    have hafter := hc.allocateGates hfits
    rw [hb]
    refine ⟨hafter.of_same rfl rfl rfl rfl rfl (le_refl _), fun hwait g hg ↦ ?_,
      fun i g hi hbusy ↦ ?_⟩
    · have hgates : g ∈ (c.allocateGates serviceTime).queueController.gates := hg
      obtain ⟨i, hi⟩ := List.mem_iff_getElem?.mp hgates
      rcases hafter.gate hi with rfl | ⟨entry, ends, rfl, -⟩
      · rw [allocateGates_gates serviceTime hc.coherent.isOpen] at hgates
        refine absurd rfl (assignGates_exhausts _ _ 0 ?_ _ hgates)
        rw [← allocateGates_queue serviceTime hc.coherent.isOpen]
        exact hwait
      · rfl
    · rcases hafter.gate hi with rfl | ⟨entry, ends, -, hserves⟩
      · cases hbusy
      · refine ⟨ends, hserves.ends, hahead i ends hserves.ends, ?_⟩
        exact hafter.coherent.ends_le hserves.ends
  · cases h

/-- A tick that gives a gate away without an end leaves a busy gate without one. -/
theorem InOrder.exists_busy_of_not_ends {b : FacilityApp T}
    (ha : a.InOrder gateCount serviceTime arrived) (hnot : ¬ (a.GivesAway → a.Ends serviceTime))
    (h : (machine serviceTime).step a .act = some b) :
    ∃ i entry, b.queueController.gates[i]? = some ⟨.busy, some entry⟩ ∧
      b.gateServiceEnds.get? i = none := by
  simp only [machine] at h
  split at h
  · cases h
    obtain ⟨hgives, hends⟩ := Classical.not_imp.mp hnot
    obtain ⟨i, entry, hstuck⟩ := ha.exists_stuck hgives hends
    exact ⟨i, entry, hstuck.gate, hstuck.ends⟩
  · cases h

end

end FacilityApp

/-- **The queue of a facility serves everybody exactly once, in order**, as long as the services end
in the calendar.  In every run in which that is so each arrival has its place, gates are given away
in the order of arrival and each with one notice of its end, and the tables agree on which gates are
busy; and a further tick keeps that, and lets nobody wait at a gate that is not busy, just when what
it gives a gate to gets an end. -/
theorem queue_serves_everybody_once_iff {gateCount serviceTime : ℕ} (hs : 1 ≤ serviceTime)
    {clock : ℤ} {es : List (FacilityEvent T)} {a : FacilityApp T}
    (h : (FacilityApp.machine serviceTime).exec (FacilityApp.launched gateCount clock) es = some a)
    (hes : (FacilityApp.machine serviceTime).Along
      (fun a e _ ↦ e = .act → a.GivesAway → a.currentTime + serviceTime < calendarSeconds)
      (FacilityApp.launched gateCount clock) es) :
    FacilityApp.ServedOnce gateCount (arrivals es) a ∧
      ∀ b, (FacilityApp.machine serviceTime).step a .act = some b →
        ((FacilityApp.ServedOnce gateCount (arrivals es) b ∧
          (b.queueController.queue ≠ [] → ∀ g ∈ b.queueController.gates, g.state = .busy)) ↔
        (a.GivesAway → a.currentTime + serviceTime < calendarSeconds)) := by
  have hends (a : FacilityApp T) :
      (a.GivesAway → a.currentTime + serviceTime < calendarSeconds) ↔
        (a.GivesAway → a.Ends serviceTime) :=
    imp_congr_right fun _ ↦ ⟨fun h ↦ ⟨hs, h⟩, And.right⟩
  simp only [hends] at hes ⊢
  have ha := FacilityApp.inOrder_of_exec h hes
  refine ⟨ha.servedOnce, fun b hb ↦ ⟨fun ⟨hserved, _⟩ ↦ ?_, fun hfits ↦ ?_⟩⟩
  · by_contra hnot
    obtain ⟨i, entry, hgate, hnone⟩ := ha.exists_busy_of_not_ends hnot hb
    have hbusy := (hserved.busy i _ hgate).mp rfl
    rw [hnone] at hbusy
    cases hbusy.2
  · obtain ⟨hb', hafter⟩ := ha.afterTick hfits hb
    exact ⟨hb'.servedOnce, hafter.full⟩

/-- Two trucks at one gate, the second given it when the service of the first is over. -/
def twoTrucks : List (FacilityEvent ℕ) :=
  [.deliver (.truckArrived 7 .pickup), .deliver (.truckArrived 8 .dropoff), .step 30, .consume,
    .consume, .consume, .act, .consume, .step 90, .consume]

/-- A minute of service ends in the calendar. -/
theorem queue_serves_everybody_once_minute : ∃ a b : FacilityApp ℕ,
    (FacilityApp.machine 60).exec (FacilityApp.launched 1 0) twoTrucks = some a ∧
      (FacilityApp.machine 60).step a .act = some b ∧
      FacilityApp.ServedOnce 1 [⟨7, .pickup⟩, ⟨8, .dropoff⟩] b := by
  obtain ⟨a, ha⟩ := Option.isSome_iff_exists.mp (show ((FacilityApp.machine 60).exec
    (FacilityApp.launched 1 0) twoTrucks).isSome = true by decide +kernel)
  obtain ⟨b, hb⟩ := Option.isSome_iff_exists.mp (show (((FacilityApp.machine 60).exec
    (FacilityApp.launched 1 0) twoTrucks).bind ((FacilityApp.machine 60).step · .act)).isSome = true
      by decide +kernel)
  rw [ha] at hb
  have htime : a.currentTime = 90 := by
    have h : ((FacilityApp.machine 60).exec (FacilityApp.launched 1 0) twoTrucks).map
      FacilityApp.currentTime = some 90 := by decide +kernel
    rw [ha] at h
    exact Option.some.inj h
  refine ⟨a, b, ha, hb, (((queue_serves_everybody_once_iff (by decide) ha
    (by decide +kernel)).2 b hb).mpr fun _ ↦ ?_).1⟩
  rw [htime]
  decide

/-- A service of a million million seconds does not: the gate is busy without an end, and the truck
is not told. -/
theorem service_ends_outside_calendar : ∃ a b : FacilityApp ℕ,
    (FacilityApp.machine (10 ^ 12)).exec (FacilityApp.launched 1 0)
        [.deliver (.truckArrived 7 .pickup), .step 30, .consume, .consume] = some a ∧
      (FacilityApp.machine (10 ^ 12)).step a .act = some b ∧
      ¬ FacilityApp.ServedOnce 1 [⟨7, .pickup⟩] b := by
  have h : (((FacilityApp.machine (10 ^ 12)).exec (FacilityApp.launched 1 0)
      [.deliver (.truckArrived 7 .pickup), .step 30, .consume, .consume]).bind fun a ↦
        (FacilityApp.machine (10 ^ 12)).step a .act).map (fun b : FacilityApp ℕ ↦
          (b.queueController.gates[0]?, b.gateServiceEnds.get? 0)) =
      some (some ⟨.busy, some ⟨7, .pickup⟩⟩, none) := by decide +kernel
  obtain ⟨b, hb, hview⟩ := Option.map_eq_some_iff.mp h
  obtain ⟨a, ha, hstep⟩ := Option.bind_eq_some_iff.mp hb
  refine ⟨a, b, ha, hstep, fun hserved ↦ ?_⟩
  have hbusy := (hserved.busy 0 _ (congrArg Prod.fst hview)).mp rfl
  have hnone : b.gateServiceEnds.get? 0 = none := congrArg Prod.snd hview
  rw [hnone] at hbusy
  cases hbusy.2

end OpenRide.Haulage
