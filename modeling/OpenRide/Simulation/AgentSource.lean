import Mathlib.Algebra.Order.Ring.Int
import OpenRide.Lib.Buckets
import OpenRide.Lib.Dict

/-!
# Spawning agents step by step

The source of agents files everybody under a first step and hands out, step after step, who is due.
Orders are handed out at most so many a step; those beyond wait in a backlog and go first in the
next step.

Over any number of steps the orders launched so far, followed by the backlog, are the orders due so
far in the order of their first steps (`launchedOrders_backlog`), and everybody else goes out when
due.  So nobody is lost and nobody is launched twice, and the source calls itself exhausted just
when everybody is out (`spawnsEverybody`).
-/

namespace OpenRide.Simulation

open Lib

/-! ## The source -/

section

variable {β φ : Type}

/-- The behaviour of an agent: the numbers of its profile, and the rest. -/
structure Behavior (β : Type) where
  profile : Dict String ℤ
  fields : β

/-- The fields a role adds to what its agents are created with. -/
structure ExtraFields (φ : Type) where
  initTimeStep : Option ℤ
  others : φ

/-- A role in the agent configuration. -/
structure RoleConfig (β φ : Type) where
  schedulerKey : String
  agentClass : String
  initTimeStepKey : Option String
  extraFields : Option (String → Behavior β → ExtraFields φ)

/-- What an agent is created with. -/
structure AgentSpec (β φ : Type) where
  uniqueId : String
  runId : String
  referenceTime : String
  initTimeStep : ℤ
  behavior : Behavior β
  extra : Option φ

/-- An agent to launch. -/
structure Item (β φ : Type) where
  schedulerKey : String
  spec : AgentSpec β φ
  projectPath : String
  agentClass : String
  role : String

/-- What the source is built from. -/
structure SourceConfig (β φ : Type) where
  agentConfig : Dict String (RoleConfig β φ)
  getAgentCollection : String → Dict String (Behavior β)
  runId : String
  referenceTime : String
  projectPath : String
  orderSpawnMaxPerStep : ℤ := 40
  orderRole : String := "order"

/-- The first step a behaviour asks for. -/
def RoleConfig.initTimeStep (cfg : RoleConfig β φ) (behavior : Behavior β) : ℤ :=
  match cfg.initTimeStepKey with
  | some key => if key = "" then 0 else (behavior.profile.get? key).getD 0
  | none => 0

/-- The fields of the role override those of the agent. -/
def RoleConfig.update (cfg : RoleConfig β φ) (spec : AgentSpec β φ) : AgentSpec β φ :=
  match cfg.extraFields with
  | some extraFields =>
    let extra := extraFields spec.uniqueId spec.behavior
    { spec with
      initTimeStep := extra.initTimeStep.getD spec.initTimeStep
      extra := some extra.others }
  | none => spec

namespace SourceConfig

variable (c : SourceConfig β φ)

/-- The item of an agent. -/
def item (role : String) (cfg : RoleConfig β φ) (agentId : String) (behavior : Behavior β) :
    Item β φ where
  schedulerKey := cfg.schedulerKey
  spec := cfg.update
    { uniqueId := agentId
      runId := c.runId
      referenceTime := c.referenceTime
      initTimeStep := cfg.initTimeStep behavior
      behavior
      extra := none }
  projectPath := c.projectPath
  agentClass := cfg.agentClass
  role

/-- Everybody, role after role, in the order they register. -/
def items : List (Item β φ) :=
  c.agentConfig.entries.flatMap fun r ↦
    (c.getAgentCollection r.1).entries.map fun a ↦ c.item r.1 r.2 a.1 a.2

/-- The agents of the agent scheduler. -/
def agents : List (Item β φ) := c.items.filter fun a ↦ a.schedulerKey = "agent"

end SourceConfig

/-- `BatchedPrecomputedAgentSource`. -/
structure AgentSource (β φ : Type) where
  registry : Dict ℤ (List (Item β φ))
  bootstrap : List (Item β φ)
  maxStep : ℤ
  currentStep : ℤ
  orderSpawnMaxPerStep : ℤ
  orderRole : String
  orderBacklog : List (Item β φ)

namespace AgentSource

/-- File an item. -/
def register (s : AgentSource β φ) (item : Item β φ) : AgentSource β φ :=
  if item.schedulerKey = "agent" then
    { s with
      registry := s.registry.append item.spec.initTimeStep item
      maxStep := max s.maxStep item.spec.initTimeStep }
  else { s with bootstrap := s.bootstrap ++ [item] }

/-- `__init__`. -/
def init (c : SourceConfig β φ) : AgentSource β φ :=
  c.items.foldl register
    { registry := Dict.empty
      bootstrap := []
      maxStep := 0
      currentStep := -1
      orderSpawnMaxPerStep := max 1 c.orderSpawnMaxPerStep
      orderRole := c.orderRole
      orderBacklog := [] }

/-- `agents_for_step`: whom to launch. -/
def agentsForStep (s : AgentSource β φ) (step : ℤ) : List (Item β φ) × AgentSource β φ :=
  let due := s.orderBacklog ++ (s.registry.get? step).getD []
  let orders := due.filter fun a ↦ a.role = s.orderRole
  let others := due.filter fun a ↦ ¬ a.role = s.orderRole
  let cap := s.orderSpawnMaxPerStep.toNat
  (others ++ orders.take cap, { s with currentStep := step, orderBacklog := orders.drop cap })

/-- `is_exhausted`. -/
def isExhausted (s : AgentSource β φ) : Bool :=
  decide (s.maxStep ≤ s.currentStep) && s.orderBacklog.isEmpty

/-- The source after the first `k` steps. -/
def after (s : AgentSource β φ) : ℕ → AgentSource β φ
  | 0 => s
  | k + 1 => ((s.after k).agentsForStep k).2

/-- Whom it launches in step `k`. -/
def launched (s : AgentSource β φ) (k : ℕ) : List (Item β φ) := ((s.after k).agentsForStep k).1

/-- Whom it launches in the first `k` steps. -/
def launchedBefore (s : AgentSource β φ) (k : ℕ) : List (Item β φ) :=
  (List.range k).flatMap s.launched

/-! ## What is registered -/

section Registered

variable (l : List (Item β φ)) (s : AgentSource β φ)

theorem getD_registry_foldl (x : ℤ) : ((l.foldl register s).registry.get? x).getD [] =
    (s.registry.get? x).getD [] ++
      (l.filter fun a ↦ a.schedulerKey = "agent").filter fun a ↦ a.spec.initTimeStep = x := by
  induction l generalizing s with
  | nil => simp
  | cons a l ih =>
    rw [List.foldl_cons, ih]
    by_cases ha : a.schedulerKey = "agent"
    · have hregister : ((s.register a).registry.get? x).getD [] =
          (s.registry.get? x).getD [] ++ if x = a.spec.initTimeStep then [a] else [] := by
        rw [register, if_pos ha]
        exact Dict.getD_append _ _ _ _
      rw [hregister]
      by_cases hx : x = a.spec.initTimeStep
      · simp [ha, hx]
      · simp [ha, hx, Ne.symm hx]
    · simp [register, ha]

theorem maxStep_foldl_le {k : ℤ} : (l.foldl register s).maxStep ≤ k ↔ s.maxStep ≤ k ∧
    ∀ a ∈ l.filter (fun a ↦ a.schedulerKey = "agent"), a.spec.initTimeStep ≤ k := by
  induction l generalizing s with
  | nil => simp
  | cons a l ih =>
    rw [List.foldl_cons, ih]
    by_cases ha : a.schedulerKey = "agent"
    · simp [register, ha, and_assoc]
    · simp [register, ha]

theorem foldl_register_frame : (l.foldl register s).orderSpawnMaxPerStep = s.orderSpawnMaxPerStep ∧
    (l.foldl register s).orderRole = s.orderRole ∧
    (l.foldl register s).currentStep = s.currentStep ∧
    (l.foldl register s).orderBacklog = s.orderBacklog := by
  induction l generalizing s with
  | nil => simp
  | cons a l ih =>
    by_cases ha : a.schedulerKey = "agent"
    · simpa [register, ha] using ih (s.register a)
    · simpa [register, ha] using ih (s.register a)

theorem after_frame (k : ℕ) : (s.after k).registry = s.registry ∧ (s.after k).maxStep = s.maxStep ∧
    (s.after k).orderSpawnMaxPerStep = s.orderSpawnMaxPerStep ∧
    (s.after k).orderRole = s.orderRole := by
  induction k with
  | zero => simp [after]
  | succ k ih => simpa [after, agentsForStep] using ih

end Registered

/-! ## A run of the source -/

section Run

variable (c : SourceConfig β φ)

/-- The agents of the agent scheduler that are orders. -/
def orders : List (Item β φ) := c.agents.filter fun a ↦ a.role = c.orderRole

/-- The backlog in front of step `k`. -/
def backlog (k : ℕ) : List (Item β φ) := ((init c).after k).orderBacklog

/-- Orders a step may launch. -/
def cap : ℕ := (max 1 c.orderSpawnMaxPerStep).toNat

/-- Who is due in step `k`, the backlog apart. -/
def due (k : ℕ) : List (Item β φ) := c.agents.filter fun a ↦ a.spec.initTimeStep = k

/-- What one step does. -/
theorem agentsForStep_after (k : ℕ) :
    ((init c).after k).agentsForStep k =
      (((backlog c k ++ due c k).filter fun a ↦ ¬ a.role = c.orderRole) ++
          ((backlog c k ++ due c k).filter fun a ↦ a.role = c.orderRole).take (cap c),
        { (init c).after k with
          currentStep := k
          orderBacklog := ((backlog c k ++ due c k).filter fun a ↦ a.role = c.orderRole).drop
            (cap c) }) := by
  obtain ⟨hregistry, -, hcap, hrole⟩ := after_frame (init c) k
  obtain ⟨hcap', hrole', -⟩ := foldl_register_frame c.items
    ⟨Dict.empty, [], 0, -1, max 1 c.orderSpawnMaxPerStep, c.orderRole, []⟩
  have hdue : (((init c).after k).registry.get? k).getD [] = due c k := by
    rw [hregistry]
    exact getD_registry_foldl _ _ _
  have hc : ((init c).after k).orderSpawnMaxPerStep.toNat = cap c := by
    rw [hcap]
    exact congrArg Int.toNat hcap'
  have hr : ((init c).after k).orderRole = c.orderRole := hrole.trans hrole'
  simp only [agentsForStep, hdue, hc, hr]
  rfl

theorem backlog_zero : backlog c 0 = [] :=
  (foldl_register_frame c.items _).2.2.2

theorem backlog_succ (k : ℕ) : backlog c (k + 1) =
    ((backlog c k ++ due c k).filter fun a ↦ a.role = c.orderRole).drop (cap c) := by
  rw [backlog, after, agentsForStep_after]

variable {k : ℕ}

theorem role_of_mem_backlog {a : Item β φ} (h : a ∈ backlog c k) : a.role = c.orderRole := by
  cases k with
  | zero => simp [backlog_zero] at h
  | succ k =>
    rw [backlog_succ] at h
    simpa using (List.mem_filter.mp (List.mem_of_mem_drop h)).2

theorem filter_backlog (k : ℕ) :
    ((backlog c k).filter fun a ↦ a.role = c.orderRole) = backlog c k :=
  List.filter_eq_self.mpr fun _ ha ↦ by simpa using role_of_mem_backlog c ha

theorem filter_not_backlog (k : ℕ) :
    ((backlog c k).filter fun a ↦ ¬ a.role = c.orderRole) = [] :=
  List.filter_eq_nil_iff.mpr fun _ ha ↦ by simpa using role_of_mem_backlog c ha

/-- The orders due in step `k`. -/
def dueOrders (k : ℕ) : List (Item β φ) := (due c k).filter fun a ↦ a.role = c.orderRole

theorem backlog_succ_eq (k : ℕ) :
    backlog c (k + 1) = (backlog c k ++ dueOrders c k).drop (cap c) := by
  rw [backlog_succ, List.filter_append, filter_backlog]
  rfl

theorem launched_eq (k : ℕ) : (init c).launched k =
    ((due c k).filter fun a ↦ ¬ a.role = c.orderRole) ++
      (backlog c k ++ dueOrders c k).take (cap c) := by
  rw [launched, agentsForStep_after, List.filter_append, filter_not_backlog, List.filter_append,
    filter_backlog]
  rfl

/-! ### What is out and what waits -/

theorem filter_launched (k : ℕ) :
    ((init c).launched k).filter (fun a ↦ a.role = c.orderRole) =
      (backlog c k ++ dueOrders c k).take (cap c) := by
  have hnone : ((due c k).filter fun a ↦ ¬ a.role = c.orderRole).filter
      (fun a ↦ a.role = c.orderRole) = [] := by
    refine List.filter_eq_nil_iff.mpr fun a ha ↦ ?_
    simpa using (List.mem_filter.mp ha).2
  have hself : (backlog c k ++ dueOrders c k).filter (fun a ↦ a.role = c.orderRole) =
      backlog c k ++ dueOrders c k := by
    rw [List.filter_append, filter_backlog, dueOrders, List.filter_filter]
    simp
  rw [launched_eq, List.filter_append, hnone, List.nil_append]
  refine List.filter_eq_self.mpr fun a ha ↦ ?_
  exact List.filter_eq_self.mp hself a (List.mem_of_mem_take ha)

theorem filter_not_launched (k : ℕ) :
    ((init c).launched k).filter (fun a ↦ ¬ a.role = c.orderRole) =
      (due c k).filter fun a ↦ ¬ a.role = c.orderRole := by
  have hnone : ((backlog c k ++ dueOrders c k).take (cap c)).filter
      (fun a ↦ ¬ a.role = c.orderRole) = [] := by
    refine List.filter_eq_nil_iff.mpr fun a ha ↦ ?_
    rcases List.mem_append.mp (List.mem_of_mem_take ha) with ha | ha
    · simpa using role_of_mem_backlog c ha
    · simpa using (List.mem_filter.mp ha).2
  rw [launched_eq, List.filter_append, hnone, List.append_nil, List.filter_filter]
  simp

/-- The first `k` steps. -/
def firstSteps (k : ℕ) : List ℤ := (List.range k).map fun j : ℕ ↦ (j : ℤ)

theorem mem_firstSteps {x : ℤ} : x ∈ firstSteps k ↔ 0 ≤ x ∧ x < k := by
  simp only [firstSteps, List.mem_map, List.mem_range]
  constructor
  · rintro ⟨j, hj, rfl⟩
    omega
  · intro h
    exact ⟨x.toNat, by omega, by omega⟩

theorem pairwise_firstSteps (k : ℕ) : (firstSteps k).Pairwise (· < ·) := by
  rw [firstSteps, List.pairwise_map]
  exact List.pairwise_lt_range.imp fun h ↦ by exact_mod_cast h

/-- The step an agent is filed under. -/
def firstStep (a : Item β φ) : ℤ := a.spec.initTimeStep

theorem flatMap_due (k : ℕ) : (List.range k).flatMap (due c) =
    listBy firstStep (firstSteps k) c.agents := by
  rw [listBy, firstSteps, List.flatMap_map]
  rfl

theorem flatMap_dueOrders (k : ℕ) : (List.range k).flatMap (dueOrders c) =
    listBy firstStep (firstSteps k) (orders c) := by
  rw [listBy, firstSteps, List.flatMap_map]
  refine List.flatMap_congr fun j _ ↦ ?_
  rw [dueOrders, due, orders, List.filter_comm]
  rfl

theorem launchedBefore_succ (s : AgentSource β φ) (k : ℕ) :
    s.launchedBefore (k + 1) = s.launchedBefore k ++ s.launched k := by
  simp [launchedBefore, List.range_succ]

/-- **Orders go out in the order of their first steps**: those that are out, followed by those that
wait, are those due so far. -/
theorem launchedOrders_backlog (k : ℕ) :
    ((init c).launchedBefore k).filter (fun a ↦ a.role = c.orderRole) ++ backlog c k =
      listBy firstStep (firstSteps k) (orders c) := by
  rw [← flatMap_dueOrders]
  induction k with
  | zero => simpa [launchedBefore] using backlog_zero c
  | succ k ih =>
    rw [List.range_succ, List.flatMap_append, List.flatMap_singleton, ← ih, launchedBefore_succ,
      List.filter_append, filter_launched, backlog_succ_eq, List.append_assoc,
      List.take_append_drop, List.append_assoc]

/-- **Nobody is lost**: those that are out and those that wait are those due so far. -/
theorem launchedBefore_backlog_perm (k : ℕ) : ((init c).launchedBefore k ++ backlog c k).Perm
    (listBy firstStep (firstSteps k) c.agents) := by
  have hothers : ((init c).launchedBefore k).filter (fun a ↦ ¬ a.role = c.orderRole) =
      (listBy firstStep (firstSteps k) c.agents).filter fun a ↦ ¬ a.role = c.orderRole := by
    rw [← flatMap_due, launchedBefore, List.filter_flatMap, List.filter_flatMap]
    exact List.flatMap_congr fun j _ ↦ filter_not_launched c j
  have horders : listBy firstStep (firstSteps k) (orders c) =
      (listBy firstStep (firstSteps k) c.agents).filter fun a ↦ a.role = c.orderRole := by
    rw [← flatMap_dueOrders, ← flatMap_due, List.filter_flatMap]
    rfl
  have hsplit : ∀ l : List (Item β φ), l.Perm ((l.filter fun a ↦ a.role = c.orderRole) ++
      l.filter fun a ↦ ¬ a.role = c.orderRole) := by
    intro l
    simpa using (List.filter_append_perm (fun a ↦ decide (a.role = c.orderRole)) l).symm
  have hmove : ((init c).launchedBefore k ++ backlog c k).Perm
      ((((init c).launchedBefore k).filter fun a ↦ a.role = c.orderRole) ++ backlog c k ++
        ((init c).launchedBefore k).filter fun a ↦ ¬ a.role = c.orderRole) := by
    refine ((hsplit _).append_right _).trans ?_
    rw [List.append_assoc, List.append_assoc]
    exact List.perm_append_comm.append_left _
  rw [launchedOrders_backlog, hothers, horders] at hmove
  exact hmove.trans (hsplit _).symm

/-- A longer run lists more. -/
theorem firstSteps_prefix_listBy {m : ℕ} (h : k ≤ m) (l : List (Item β φ)) :
    listBy firstStep (firstSteps k) l <+: listBy firstStep (firstSteps m) l := by
  obtain ⟨j, rfl⟩ := Nat.exists_eq_add_of_le h
  rw [firstSteps, firstSteps, List.range_add, List.map_append, listBy, listBy, List.flatMap_append]
  exact List.prefix_append _ _

/-- After the last first step, everybody has been due. -/
theorem listBy_firstSteps_eq {l : List (Item β φ)} (h : ∀ a ∈ l, 0 ≤ firstStep a ∧ firstStep a < k)
    : listBy firstStep (firstSteps k) l = sortedBy firstStep l :=
  listBy_eq_sortedBy (pairwise_firstSteps k) fun a ha ↦ mem_firstSteps.mpr (h a ha)

theorem listBy_firstSteps_subperm (k : ℕ) (l : List (Item β φ)) :
    (listBy firstStep (firstSteps k) l).Subperm l := by
  classical
  exact listBy_subperm ((pairwise_firstSteps k).imp ne_of_lt) l

variable {c}

theorem exists_forall_firstStep_lt (l : List (Item β φ)) : ∃ m : ℕ, ∀ a ∈ l, firstStep a < m := by
  induction l with
  | nil => exact ⟨0, by simp⟩
  | cons a l ih =>
    obtain ⟨m, hm⟩ := ih
    refine ⟨max m ((firstStep a).toNat + 1), List.forall_mem_cons.mpr ⟨by omega, fun b hb ↦ ?_⟩⟩
    have hb' := hm b hb
    omega

theorem one_le_cap : 1 ≤ cap c := by
  rw [cap]
  omega

/-- **The backlog runs empty** once nobody is due any more. -/
theorem backlog_eq_nil {m : ℕ} (hm : ∀ a ∈ c.agents, firstStep a < m)
    (hk : m + (backlog c m).length ≤ k) : backlog c k = [] := by
  have hnobody : ∀ j ≥ m, dueOrders c j = [] := by
    intro j hj
    refine List.filter_eq_nil_iff.mpr fun a ha ↦ ?_
    have hdue := List.mem_filter.mp ha
    have hlt := hm a hdue.1
    have heq : firstStep a = j := by simpa [firstStep] using hdue.2
    omega
  have hshrink : ∀ j, (backlog c (m + j)).length ≤ (backlog c m).length - j := by
    intro j
    induction j with
    | zero => exact Nat.le_refl _
    | succ j ih =>
      have hcap := @one_le_cap β φ c
      rw [← Nat.add_assoc, backlog_succ_eq, hnobody _ (by omega), List.append_nil,
        List.length_drop]
      omega
  obtain ⟨j, rfl⟩ := Nat.exists_eq_add_of_le (show m ≤ k by omega)
  have hlength := hshrink j
  exact List.eq_nil_of_length_eq_zero (by omega)

theorem isExhausted_after (k : ℕ) : ((init c).after (k + 1)).isExhausted = true ↔
    (∀ a ∈ c.agents, firstStep a ≤ k) ∧ backlog c (k + 1) = [] := by
  have hstep : ((init c).after (k + 1)).currentStep = k := by
    rw [after, agentsForStep_after]
  have hlast : ((init c).after (k + 1)).maxStep ≤ k ↔ ∀ a ∈ c.agents, firstStep a ≤ k := by
    rw [(after_frame _ _).2.1, init, maxStep_foldl_le]
    have hzero : (0 : ℤ) ≤ k := Int.natCast_nonneg k
    exact and_iff_right hzero
  rw [isExhausted, hstep, Bool.and_eq_true, decide_eq_true_iff, hlast, List.isEmpty_iff]
  rfl

/-- What spawning owes to the agents of the agent scheduler, in the first `k` steps and over the
whole run. -/
structure SpawnsEverybody (c : SourceConfig β φ) : Prop where
  /-- Nobody is launched twice. -/
  atMostOnce : ∀ k, ((init c).launchedBefore k).Subperm c.agents
  /-- From some step on, everybody has been launched. -/
  once : ∃ m, ∀ k ≥ m, ((init c).launchedBefore k).Perm c.agents
  /-- Agents that are no orders go out in their first step. -/
  onTime : ∀ k, (((init c).launched k).filter fun a ↦ ¬ a.role = c.orderRole) =
    c.agents.filter fun a ↦ firstStep a = k ∧ ¬ a.role = c.orderRole
  /-- Orders do not go out before their first step. -/
  notBefore : ∀ k, ∀ a ∈ (init c).launched k, a.role = c.orderRole → firstStep a ≤ k
  /-- A step launches no more orders than it may. -/
  capped : ∀ k, ((((init c).launched k).filter fun a ↦ a.role = c.orderRole).length : ℤ) ≤
    max 1 c.orderSpawnMaxPerStep
  /-- Orders go out sorted by their first steps, and as registered where these agree. -/
  inOrder : ∀ k, (((init c).launchedBefore k).filter fun a ↦ a.role = c.orderRole) <+:
    sortedBy firstStep (c.agents.filter fun a ↦ a.role = c.orderRole)
  /-- After step `k`, the source is exhausted if everybody is out and the last first step is
  reached. -/
  exhausted : ∀ k : ℕ, ((init c).after (k + 1)).isExhausted = true ↔
    ((init c).launchedBefore (k + 1)).Perm c.agents ∧ ∀ a ∈ c.agents, firstStep a ≤ k

section Nonneg

variable (hpos : ∀ a ∈ c.agents, 0 ≤ firstStep a)
include hpos

/-- **Everybody is out** just when everybody has been due and nobody waits. -/
theorem launchedBefore_perm_iff (k : ℕ) : ((init c).launchedBefore k).Perm c.agents ↔
    backlog c k = [] ∧ ∀ a ∈ c.agents, firstStep a < k := by
  have hperm := launchedBefore_backlog_perm c k
  constructor
  · intro h
    have hlength := hperm.length_eq
    have hle := (listBy_firstSteps_subperm k c.agents).length_le
    have hout := h.length_eq
    rw [List.length_append] at hlength
    have hnone : backlog c k = [] := List.eq_nil_of_length_eq_zero (by omega)
    refine ⟨hnone, fun a ha ↦ ?_⟩
    rw [hnone, List.append_nil] at hperm
    have hmem := hperm.mem_iff.mp (h.mem_iff.mpr ha)
    exact (mem_firstSteps.mp (mem_listBy.mp hmem).2).2
  · rintro ⟨hnone, hlt⟩
    rw [hnone, List.append_nil, listBy_firstSteps_eq fun a ha ↦ ⟨hpos a ha, hlt a ha⟩] at hperm
    exact hperm.trans (sortedBy_perm _ _)

/-- **Spawning loses and duplicates nobody.** -/
theorem spawnsEverybody : SpawnsEverybody c where
  atMostOnce k :=
    ((List.sublist_append_left _ _).subperm.trans (launchedBefore_backlog_perm c k).subperm).trans
      (listBy_firstSteps_subperm k c.agents)
  once := by
    obtain ⟨m, hm⟩ := exists_forall_firstStep_lt c.agents
    refine ⟨m + (backlog c m).length, fun k hk ↦ (launchedBefore_perm_iff hpos k).mpr
      ⟨backlog_eq_nil hm hk, fun a ha ↦ ?_⟩⟩
    have hlt := hm a ha
    omega
  onTime k := by
    rw [filter_not_launched, due, List.filter_filter]
    refine List.filter_congr fun a _ ↦ ?_
    rw [Bool.eq_iff_iff]
    simp only [Bool.and_eq_true, decide_eq_true_eq, firstStep]
    exact and_comm.trans decide_eq_true_iff.symm
  notBefore k a ha hrole := by
    have hmem : a ∈ ((init c).launchedBefore (k + 1)).filter fun a ↦ a.role = c.orderRole := by
      rw [launchedBefore_succ]
      simp [ha, hrole]
    have hlisted := List.mem_append_left (backlog c (k + 1)) hmem
    rw [launchedOrders_backlog] at hlisted
    have hlt := (mem_firstSteps.mp (mem_listBy.mp hlisted).2).2
    omega
  capped k := by
    have hlength := List.length_take_le (cap c) (backlog c k ++ dueOrders c k)
    rw [filter_launched]
    rw [cap] at hlength ⊢
    omega
  inOrder k := by
    obtain ⟨m, hm⟩ := exists_forall_firstStep_lt c.agents
    have hall : ∀ a ∈ orders c, 0 ≤ firstStep a ∧ firstStep a < (k + m : ℕ) := by
      intro a ha
      have hagent := (List.mem_filter.mp ha).1
      have hlt := hm a hagent
      exact ⟨hpos a hagent, by omega⟩
    have hsofar := launchedOrders_backlog c k
    show _ <+: sortedBy firstStep (orders c)
    rw [← listBy_firstSteps_eq hall]
    refine List.IsPrefix.trans ?_ (firstSteps_prefix_listBy (Nat.le_add_right k m) _)
    rw [← hsofar]
    exact List.prefix_append _ _
  exhausted k := by
    rw [isExhausted_after, launchedBefore_perm_iff hpos]
    constructor
    · rintro ⟨hlast, hnone⟩
      refine ⟨⟨hnone, fun a ha ↦ ?_⟩, hlast⟩
      have hle := hlast a ha
      omega
    · rintro ⟨⟨hnone, -⟩, hlast⟩
      exact ⟨hlast, hnone⟩

end Nonneg

end Run

/-! ### More orders than a step may launch -/

/-- A truck, and three orders for two steps, of which each may launch one. -/
def rushHour : SourceConfig Unit Unit where
  agentConfig := Dict.ofList
    [("truck", ⟨"agent", "TruckAgent", none, none⟩),
      ("order", ⟨"agent", "OrderAgent", some "request_time_step", none⟩),
      ("assignment", ⟨"service", "AssignmentAgent", none, none⟩)]
  getAgentCollection role :=
    if role = "order" then Dict.ofList
      [("late", ⟨Dict.ofList [("request_time_step", 1)], ()⟩),
        ("first", ⟨Dict.empty, ()⟩), ("second", ⟨Dict.empty, ()⟩)]
    else Dict.ofList [(role, ⟨Dict.empty, ()⟩)]
  runId := "run"
  referenceTime := "20200101080000"
  projectPath := "."
  orderSpawnMaxPerStep := 1

theorem spawnsEverybody_rushHour : SpawnsEverybody rushHour :=
  spawnsEverybody (by decide)

example : ((List.range 4).map fun k ↦ ((init rushHour).launched k).map fun a ↦ a.spec.uniqueId) =
    [["truck", "first"], ["second"], ["late"], []] := by decide

end AgentSource

end

end OpenRide.Simulation
