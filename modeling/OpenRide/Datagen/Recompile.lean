import Mathlib.Tactic.Linarith
import OpenRide.Datagen.Preprocess

/-!
# Compiling a recipe

The recipe of a compiled scenario is what it is edited and compiled from later, so compiling it
should give the same world.  Almost everything does: counts, seed, trip matrix, early orders,
planner, solver, overrides and facilities are normal forms of the functions that read them, and the
cooperation block is accepted again (`recompile`).

Two things do not.  The recipe drops the curve of an order policy, since the hourly weights are
written out, but a `random` policy reads only a curve of its own, and then has none.  And the
hauliers that trucks and orders are dealt to were normalised twice where those of the recipe were
normalised once, so that compiling the recipe normalises them a third time; an id of 64 characters
or more may change each time.  `recompile_same_iff` says that nothing else can go wrong.
-/

namespace OpenRide.Datagen

open Lib

variable (E : DatagenEnv)

/-! ## The stages of a compile -/

/-- The results of the stages of a compile that succeeds. -/
structure Stages (raw : List (String × Raw)) (referenceTime : String) where
  name : String
  slug : String
  days : ℤ
  seed : ℤ
  counts : AgentCounts
  truckPolicy : List (String × Raw)
  orderPolicy : List (String × Raw)
  facilityPolicy : List (String × Raw)
  hauliers : List Haulier
  truckHauliers : List Haulier
  orderHauliers : List Haulier
  cooperation : Cooperation
  planner : PlannerConfig
  records : Raw
  tripMatrix : Grid
  hourlyWeights : Option (List ℚ)
  early : ℤ
  sites : List Site
  declared_ok : checkDeclaredEpoch E (Raw.field raw "referenceTime") = .ok ()
  epoch_ok : checkEpoch E referenceTime = .ok ()
  name_ok : scenarioName E raw = .ok name
  slug_ok : scenarioSlug E raw name = .ok slug
  days_ok : simulationDays E raw = .ok days
  seed_ok : scenarioSeed E raw = .ok seed
  counts_ok : agentCounts E raw days = .ok counts
  truckPolicy_ok : rolePolicy E raw "truck" = .ok truckPolicy
  orderPolicy_ok : rolePolicy E raw "order" = .ok orderPolicy
  facilityPolicy_ok : rolePolicy E raw "facility" = .ok facilityPolicy
  hauliers_ok : normalizeHauliers E.host (Raw.field raw "hauliers") = .ok hauliers
  truckHauliers_ok :
    distributeByShare E.host counts.trucks (hauliersRaw hauliers) .fleetShare = .ok truckHauliers
  orders_ok : checkListLength counts.orders = .ok ()
  orderHauliers_ok :
    distributeByShare E.host counts.orders (hauliersRaw hauliers) .orderShare = .ok orderHauliers
  cooperation_ok : normalizeCooperation E.host.toPyText (Raw.field raw "cooperation")
    (hauliers.map Haulier.id) = .ok cooperation
  planner_ok : normalizePlanner E.host (Raw.field raw "planner") = .ok planner
  records_ok : orderRecords E orderPolicy (policyType E raw "order") = .ok records
  tripMatrix_ok :
    resolveOrderMatrix E raw orderPolicy (policyType E raw "order") records = .ok tripMatrix
  hourlyWeights_ok : orderDemand E raw orderPolicy (policyType E raw "order") = .ok hourlyWeights
  early_ok : earlyOrderCount E.host (Raw.field raw "earlyOrderCount") counts.trucks counts.orders =
    .ok early
  sites_ok : facilitySites E raw counts.facilities (policyType E raw "facility") tripMatrix
    (roleOverrides (mergedOverrides raw) "facility") slug referenceTime = .ok sites

namespace Stages

variable {E} {raw : List (String × Raw)} {referenceTime : String}

/-- The planner block that runs. -/
def plannerRun (s : Stages E raw referenceTime) : PlannerConfig :=
  plannerThatRuns s.planner (solverStrategy E raw s.planner) (solverParams raw s.planner)

/-- The compiled world. -/
def world (s : Stages E raw referenceTime) : World where
  days := s.days
  seed := s.seed
  trucks := s.counts.trucks
  orders := s.counts.orders
  facilities := s.sites.length
  hourlyWeights := s.hourlyWeights
  tripMatrix := s.tripMatrix
  earlyOrders := s.early
  truckHauliers := s.truckHauliers
  orderHauliers := s.orderHauliers
  planner := s.plannerRun
  strategy := solverStrategy E raw s.planner
  solverParams := solverParams raw s.planner
  overrides := mergedOverrides raw
  sites := s.sites

/-- What the recipe is written from. -/
def recipeData (s : Stages E raw referenceTime) : RecipeData where
  name := s.name
  slug := s.slug
  days := s.days
  seed := s.seed
  referenceTime := referenceTime
  counts := s.counts
  truckPolicy := s.truckPolicy
  orderPolicy := s.orderPolicy
  facilityPolicy := s.facilityPolicy
  earlyOrders := s.early
  hourlyWeights := s.hourlyWeights
  tripMatrix := s.tripMatrix
  hauliers := s.hauliers
  cooperation := s.cooperation.toRaw
    (authoredPoolStructureIds E.host.toPyText (Raw.field raw "cooperation"))
  planner := s.plannerRun
  strategy := solverStrategy E raw s.planner
  solverParams := recipeSolverParams raw
  overrides := mergedOverrides raw
  facilityRules := Raw.field raw "facilityRules"
  facilityRulesWorld := Raw.field raw "facilityRulesWorld"

/-- The recipe, as the specification it is. -/
def recipe (s : Stages E raw referenceTime) : List (String × Raw) := s.recipeData.entries

variable (s : Stages E raw referenceTime)

/-- A compile whose stages succeed succeeds. -/
theorem compileSpec_eq : compileSpec E raw referenceTime = .ok ⟨s.world, .dict s.recipe⟩ := by
  simp only [compileSpec, s.declared_ok, s.epoch_ok, s.name_ok, s.slug_ok, s.days_ok,
    s.seed_ok, s.counts_ok,
    s.truckPolicy_ok, s.orderPolicy_ok, s.facilityPolicy_ok, s.hauliers_ok, s.truckHauliers_ok,
    s.orders_ok, s.orderHauliers_ok, s.cooperation_ok, s.planner_ok, s.records_ok, s.tripMatrix_ok,
    s.hourlyWeights_ok, s.early_ok, s.sites_ok, raiseAs_ok, ok_bind]
  rfl

/-- A compile that succeeds has stages that do. -/
theorem exists_of_compileSpec {c : CompiledScenario} (h : compileSpec E raw referenceTime = .ok c) :
    ∃ s : Stages E raw referenceTime, c = ⟨s.world, .dict s.recipe⟩ := by
  obtain ⟨_, hdeclared, h⟩ := bind_eq_ok.mp h
  obtain ⟨_, hepoch, h⟩ := bind_eq_ok.mp h
  obtain ⟨name, hname, h⟩ := bind_eq_ok.mp h
  obtain ⟨slug, hslug, h⟩ := bind_eq_ok.mp h
  obtain ⟨days, hdays, h⟩ := bind_eq_ok.mp h
  obtain ⟨seed, hseed, h⟩ := bind_eq_ok.mp h
  obtain ⟨counts, hcounts, h⟩ := bind_eq_ok.mp h
  obtain ⟨truckPolicy, htruck, h⟩ := bind_eq_ok.mp h
  obtain ⟨orderPolicy, horder, h⟩ := bind_eq_ok.mp h
  obtain ⟨facilityPolicy, hfacility, h⟩ := bind_eq_ok.mp h
  obtain ⟨hauliers, hhauliers, h⟩ := bind_eq_ok.mp h
  obtain ⟨truckHauliers, htruckHauliers, h⟩ := bind_eq_ok.mp h
  obtain ⟨_, horders, h⟩ := bind_eq_ok.mp h
  obtain ⟨orderHauliers, horderHauliers, h⟩ := bind_eq_ok.mp h
  obtain ⟨cooperation, hcooperation, h⟩ := bind_eq_ok.mp h
  obtain ⟨planner, hplanner, h⟩ := bind_eq_ok.mp h
  obtain ⟨records, hrecords, h⟩ := bind_eq_ok.mp h
  obtain ⟨tripMatrix, htripMatrix, h⟩ := bind_eq_ok.mp h
  obtain ⟨hourlyWeights, hhourly, h⟩ := bind_eq_ok.mp h
  obtain ⟨early, hearly, h⟩ := bind_eq_ok.mp h
  obtain ⟨sites, hsites, h⟩ := bind_eq_ok.mp h
  exact ⟨⟨name, slug, days, seed, counts, truckPolicy, orderPolicy, facilityPolicy, hauliers,
    truckHauliers, orderHauliers, cooperation, planner, records, tripMatrix, hourlyWeights, early,
    sites, hdeclared, hepoch, hname, hslug, hdays, hseed, hcounts, htruck, horder, hfacility,
    raiseAs_eq_ok.mp hhauliers, htruckHauliers, horders, horderHauliers,
    raiseAs_eq_ok.mp hcooperation, hplanner, hrecords, htripMatrix, hhourly, hearly, hsites⟩,
    (Except.ok.inj h).symm⟩

/-! ## The recipe read back: identity, calendar, counts -/

/-- The epoch of the recipe is the one compiled in, which is readable. -/
theorem checkDeclaredEpoch_recipe :
    checkDeclaredEpoch E (Raw.field s.recipe "referenceTime") = .ok () := by
  have hepoch : (E.referenceHour (.str referenceTime)).isNone = false := by
    have h := s.epoch_ok
    unfold checkEpoch at h
    split at h
    · cases h
    · next hsome => exact Bool.eq_false_iff.mpr hsome
  have hdeclared : Raw.field s.recipe "referenceTime" = .str referenceTime := rfl
  unfold checkDeclaredEpoch
  dsimp only
  rw [hdeclared, hepoch, Bool.and_false, if_neg Bool.false_ne_true]

theorem name_spec : s.name ≠ "" ∧ pyStrip s.name = s.name := by
  have h := s.name_ok
  unfold scenarioName at h
  dsimp only at h
  split at h
  · cases h
  · next hne =>
    rw [← Except.ok.inj h]
    exact ⟨hne, pyStrip_pyStrip _⟩

theorem scenarioName_recipe : ∃ name, scenarioName E s.recipe = .ok name := by
  obtain ⟨hne, hstrip⟩ := s.name_spec
  have hstripped : stripBy isPySpace s.name.toList = s.name.toList := by
    have h := congrArg String.toList hstrip
    rwa [pyStrip, String.toList_ofList] at h
  obtain ⟨c, l, hl⟩ := List.exists_cons_of_ne_nil fun hnil ↦
    hne (String.toList_inj.mp (hnil.trans rfl))
  have hspace : isPySpace c = false :=
    (isStripped_stripBy isPySpace s.name.toList).1 c (by rw [hstripped, hl]; rfl)
  have hmem : c ∈ (pyStrip (String.ofList (s.name.toList.take 80))).toList := by
    rw [pyStrip, String.toList_ofList, String.toList_ofList, hl]
    exact mem_stripBy_of_mem List.mem_cons_self hspace
  have hshort : pyStrip (String.ofList (s.name.toList.take 80)) ≠ "" := by
    intro he
    rw [he] at hmem
    cases hmem
  have hempty : String.ofList (s.name.toList.take 80) ≠ "" := by
    intro he
    rw [he] at hshort
    exact hshort (by decide +kernel)
  have hfield : Raw.field s.recipe "name" = .str (String.ofList (s.name.toList.take 80)) := rfl
  have hshown : E.host.strOrEmpty (.str (String.ofList (s.name.toList.take 80))) =
      String.ofList (s.name.toList.take 80) := by
    rw [PyText.strOrEmpty, if_pos (Raw.truthy_str.mpr hempty)]
    rfl
  refine ⟨pyStrip (String.ofList (s.name.toList.take 80)), ?_⟩
  unfold scenarioName
  dsimp only
  rw [hfield, hshown, if_neg hshort]

theorem slug_spec : isScenarioSlug s.slug = true ∧ pyStrip s.slug = s.slug := by
  have h := s.slug_ok
  unfold scenarioSlug at h
  dsimp only at h
  split at h
  · next hslug =>
    rw [← Except.ok.inj h]
    exact ⟨hslug, pyStrip_pyStrip _⟩
  · cases h

theorem scenarioSlug_recipe (name : String) : scenarioSlug E s.recipe name = .ok s.slug := by
  obtain ⟨hslug, hstrip⟩ := s.slug_spec
  have hne : s.slug ≠ "" := by
    intro he
    rw [he] at hslug
    cases hslug
  have hfield : Raw.field s.recipe "slug" = .str s.slug := rfl
  have hshown : pyStrip (E.host.strOf (.str s.slug)) = s.slug := hstrip
  unfold scenarioSlug
  dsimp only
  rw [hfield, Raw.orElse_str hne, hshown, if_pos hslug]

theorem truthy_int {n : ℤ} (h : 1 ≤ n) : (Raw.int n).truthy = true := by
  rw [Raw.truthy, decide_eq_true_eq]
  omega

theorem days_spec : 1 ≤ s.days ∧ s.days ≤ maxSimulationDays := by
  obtain ⟨days, -, h⟩ := bind_eq_ok.mp s.days_ok
  rw [← Except.ok.inj h, clamp, maxSimulationDays]
  omega

theorem simulationDays_recipe : simulationDays E s.recipe = .ok s.days := by
  obtain ⟨h1, h2⟩ := s.days_spec
  have hfield : Raw.field s.recipe "simulationDays" = .int s.days := rfl
  have hclamp : clamp 1 maxSimulationDays s.days = s.days := by
    rw [clamp, min_eq_right h2, max_eq_right h1]
  rw [simulationDays, hfield, Raw.orElse_of_truthy (truthy_int h1), pyInt_int, ok_bind, hclamp]
  rfl

theorem scenarioSeed_recipe :
    scenarioSeed E s.recipe = .ok s.seed := rfl

/-- The counts of a compiled scenario are within bounds. -/
theorem counts_spec :
    (1 ≤ s.counts.trucks ∧ s.counts.trucks ≤ maxCount) ∧
      (1 ≤ s.counts.facilities ∧ s.counts.facilities ≤ maxCount) ∧ 1 ≤ s.counts.rawOrders ∧
      (s.counts.unit = "per_day" ∨ s.counts.unit = "total") ∧
      s.counts.orders = if s.counts.unit = "per_day" then s.counts.rawOrders * s.days
        else s.counts.rawOrders := by
  obtain ⟨trucks, -, h⟩ := bind_eq_ok.mp s.counts_ok
  obtain ⟨orders, -, h⟩ := bind_eq_ok.mp h
  obtain ⟨facilities, -, h⟩ := bind_eq_ok.mp h
  have hunit : orderCountUnit E raw = "per_day" ∨ orderCountUnit E raw = "total" := by
    unfold orderCountUnit
    dsimp only
    split
    · exact Or.inl rfl
    · exact Or.inr rfl
  rw [← Except.ok.inj h]
  refine ⟨?_, ?_, ?_, hunit, rfl⟩
  · dsimp only
    rw [clamp, maxCount]
    omega
  · dsimp only
    rw [clamp, maxCount]
    omega
  · dsimp only
    omega

theorem orders_pos : 1 ≤ s.counts.orders := by
  obtain ⟨-, -, horders, -, h⟩ := s.counts_spec
  rw [h]
  split
  · nlinarith [s.days_spec.1]
  · exact horders

variable {role : String}

theorem agentCount_recipe {n : ℤ} (h : 1 ≤ n)
    (hblock : Raw.field (agentBlock s.recipe role) "count" = .int n) (default : ℤ) :
    agentCount E s.recipe role default = .ok n := by
  rw [agentCount, hblock, Raw.orElse_of_truthy (truthy_int h), pyInt_int]

theorem orderCountUnit_recipe : orderCountUnit E s.recipe = s.counts.unit := by
  obtain ⟨-, -, -, hunit, -⟩ := s.counts_spec
  have hfield : Raw.field (agentBlock s.recipe "order") "orderCountUnit" = .str s.counts.unit := rfl
  have hne : s.counts.unit ≠ "" := by
    rcases hunit with he | he <;> rw [he] <;> decide
  have hshown : E.host.strOf (.str s.counts.unit) = s.counts.unit := rfl
  unfold orderCountUnit
  dsimp only
  rw [hfield, Raw.orElse_str hne, hshown]
  rcases hunit with he | he <;> rw [he] <;> decide

theorem clamp_eq_self {low high n : ℤ} (h1 : low ≤ n) (h2 : n ≤ high) : clamp low high n = n := by
  rw [clamp, min_eq_right h2, max_eq_right h1]

theorem agentCounts_recipe : agentCounts E s.recipe s.days = .ok s.counts := by
  obtain ⟨⟨ht1, ht2⟩, ⟨hf1, hf2⟩, horders, hunit, htotal⟩ := s.counts_spec
  rw [agentCounts, s.agentCount_recipe ht1 rfl, ok_bind, s.agentCount_recipe horders rfl, ok_bind,
    s.agentCount_recipe hf1 rfl, ok_bind]
  show Except.ok _ = _
  rw [orderCountUnit_recipe, clamp_eq_self ht1 ht2, clamp_eq_self hf1 hf2, max_eq_right horders,
    ← htotal]

/-! ## The recipe read back: policies -/

theorem strOf_ne_empty (H : PyHost) {v : Raw} (h : v.truthy = true) : H.strOf v ≠ "" := by
  cases v with
  | str s => exact Raw.truthy_str.mp h
  | null | bool | int | float | list | dict => exact H.str_ne_empty _ rfl

theorem policyType_ne_empty (raw : List (String × Raw)) (role : String) :
    policyType E raw role ≠ "" := by
  have hname : defaultPolicyName role ≠ "" := by
    unfold defaultPolicyName
    split
    · decide
    · split <;> decide
  have hshown : E.host.strOf ((Raw.field (authoredPolicy raw role) "type").orElse
      (.str (defaultPolicyName role))) ≠ "" := by
    refine strOf_ne_empty E.host ?_
    rw [Raw.orElse]
    split
    · assumption
    · exact Raw.truthy_str.mpr hname
  unfold policyType canonicalPolicyType
  split
  · decide
  · exact hshown

theorem canonicalPolicyType_policyType (raw : List (String × Raw)) (role : String) :
    canonicalPolicyType role (policyType E raw role) = policyType E raw role := by
  unfold policyType canonicalPolicyType
  split
  · exact if_neg fun h ↦ absurd h.2 (by decide)
  · rfl

variable {policy : List (String × Raw)}

theorem rolePolicy_spec {raw : List (String × Raw)} (h : rolePolicy E raw role = .ok policy) :
    (role, policyType E raw role) ∈ E.policyRegistry ∧
      policy = Dict.setIn "type" (.str (policyType E raw role)) (authoredPolicy raw role) := by
  unfold rolePolicy at h
  dsimp only at h
  split at h
  · next hmem => exact ⟨hmem, (Except.ok.inj h).symm⟩
  · cases h

theorem rolePolicy_readBack {raw raw' : List (String × Raw)}
    (hmem : (role, policyType E raw role) ∈ E.policyRegistry)
    (hpolicy : authoredPolicy raw' role = policy)
    (htype : Raw.field policy "type" = .str (policyType E raw role)) :
    policyType E raw' role = policyType E raw role ∧ rolePolicy E raw' role = .ok policy := by
  have hptype : policyType E raw' role = policyType E raw role := by
    have hshown : E.host.strOf (.str (policyType E raw role)) = policyType E raw role := rfl
    rw [policyType, hpolicy, htype, Raw.orElse_str (policyType_ne_empty raw role), hshown,
      canonicalPolicyType_policyType]
  refine ⟨hptype, ?_⟩
  unfold rolePolicy
  dsimp only
  rw [hptype, if_pos hmem, hpolicy, Raw.setIn_of_field htype rfl]

theorem truckPolicy_recipe : rolePolicy E s.recipe "truck" = .ok s.truckPolicy := by
  obtain ⟨hmem, hpolicy⟩ := rolePolicy_spec s.truckPolicy_ok
  have htype : Raw.field s.truckPolicy "type" = .str (policyType E raw "truck") := by
    rw [hpolicy, Raw.field_setIn_self]
  have hread : authoredPolicy s.recipe "truck" = s.truckPolicy := rfl
  exact (rolePolicy_readBack hmem hread htype).2

theorem facilityPolicy_recipe :
    policyType E s.recipe "facility" = policyType E raw "facility" ∧
      rolePolicy E s.recipe "facility" = .ok s.facilityPolicy := by
  obtain ⟨hmem, hpolicy⟩ := rolePolicy_spec s.facilityPolicy_ok
  have htype : Raw.field s.facilityPolicy "type" = .str (policyType E raw "facility") := by
    rw [hpolicy, Raw.field_setIn_self]
  have hread : authoredPolicy s.recipe "facility" = s.facilityPolicy := rfl
  exact rolePolicy_readBack hmem hread htype

/-- The persisted order policy has the fields of the policy, but for the matrix and the curve. -/
theorem field_recipeOrderPolicy (policy : List (String × Raw)) (key : String) :
    Raw.field (recipeOrderPolicy policy) key =
      if key ≠ "matrix" ∧ key ≠ "curve" then Raw.field policy key else .null := by
  have hlookup : Dict.lookupIn key (recipeOrderPolicy policy) =
      if key ≠ "matrix" ∧ key ≠ "curve" then Dict.lookupIn key policy else none := by
    unfold recipeOrderPolicy
    simpa only [decide_eq_true_eq] using
      Dict.lookupIn_filter_key (fun k ↦ decide (k ≠ "matrix" ∧ k ≠ "curve")) key policy
  rw [Raw.field, hlookup]
  split
  · rfl
  · rfl

theorem orderPolicy_recipe :
    policyType E s.recipe "order" = policyType E raw "order" ∧
      rolePolicy E s.recipe "order" = .ok (recipeOrderPolicy s.orderPolicy) := by
  obtain ⟨hmem, hpolicy⟩ := rolePolicy_spec s.orderPolicy_ok
  have htype : Raw.field (recipeOrderPolicy s.orderPolicy) "type" =
      .str (policyType E raw "order") := by
    rw [field_recipeOrderPolicy, if_pos (by decide), hpolicy, Raw.field_setIn_self]
  have hread : authoredPolicy s.recipe "order" = recipeOrderPolicy s.orderPolicy := rfl
  exact rolePolicy_readBack hmem hread htype

/-! ## The recipe read back: hauliers and cooperation -/

theorem normal_hauliers : NormalHauliers s.hauliers :=
  normalizeHauliers_normal E.host s.hauliers_ok

theorem deal_recipe (n : ℤ) (key : ShareKey) :
    distributeByShare E.host n (hauliersRaw (renormalise s.hauliers)) key =
      .ok ((dealt n.toNat (s.hauliers.map fun h ↦ h.share key)).map fun i ↦
        (renormalise (renormalise s.hauliers)).getD i defaultHaulier) := by
  rw [distributeByShare_toRaw E.host s.normal_hauliers.renormalise, map_share_renormalise]

/-- The cooperation block of the recipe is accepted, though the ids of its hauliers may have
changed. -/
theorem cooperation_recipe :
    ∃ coop, normalizeCooperation E.host.toPyText (Raw.field s.recipe "cooperation")
      ((renormalise s.hauliers).map Haulier.id) = .ok coop := by
  have hfield : Raw.field s.recipe "cooperation" = s.cooperation.toRaw
      (authoredPoolStructureIds E.host.toPyText (Raw.field raw "cooperation")) := rfl
  rw [hfield, map_id_renormalise]
  refine normalizeCooperation_toRaw s.cooperation_ok (fun m hm ↦ ?_) ?_ _
  · have hslug : HasSlugChar m := by
      obtain ⟨h, hh, rfl⟩ := List.mem_map.mp hm
      exact s.normal_hauliers.id h hh
    unfold memberSlug
    exact (slug_mem_renormIdsFrom hm hslug).resolve_left List.not_mem_nil
  · intro hnil
    have hlen := length_renormIds s.hauliers
    rw [hnil, List.length_nil, eq_comm, List.length_eq_zero_iff] at hlen
    exact s.normal_hauliers.ne_nil hlen

/-! ## The recipe read back: planner and solver -/

theorem planner_recipe :
    normalizePlanner E.host (Raw.field s.recipe "planner") = .ok s.plannerRun := by
  have hsettled := normalizePlanner_settled E.host s.planner_ok
  have hrun : s.plannerRun.Settled E.host :=
    ⟨hsettled.topology, hsettled.timing, hsettled.sharing, hsettled.market⟩
  exact hrun.normalizePlanner_toRaw E.host

theorem solverStrategy_recipe :
    solverStrategy E s.recipe s.plannerRun = solverStrategy E raw s.planner := by
  have hne : solverStrategy E raw s.planner ≠ "" := by
    refine strOf_ne_empty E.host ?_
    have hdefault : ∀ v w : Raw, w.truthy = true → (v.orElse w).truthy = true := by
      intro v w hw
      rw [Raw.orElse]
      split
      · assumption
      · exact hw
    exact hdefault _ _ (hdefault _ _ (by decide))
  have hfield : Raw.field s.recipe "solver" = .str (solverStrategy E raw s.planner) := rfl
  rw [solverStrategy, hfield, Raw.orElse_str hne]
  rfl

/-- **The parameters that ran run again**: they are updated by themselves. -/
theorem solverParams_recipe : solverParams s.recipe s.plannerRun = solverParams raw s.planner := by
  have hauthored : (Raw.field s.recipe "solverParams").asDict =
    (Raw.field raw "solverParams").asDict := by
    have hfield : Raw.field s.recipe "solverParams" = recipeSolverParams raw := rfl
    rw [hfield, recipeSolverParams]
    cases Raw.field raw "solverParams" with
    | null | bool | int | float | str | list | dict => rfl
  obtain ⟨authored, hrawParams⟩ : ∃ authored : Dict String Raw,
      authored = Dict.ofList (Raw.field raw "solverParams").asDict := ⟨_, rfl⟩
  obtain ⟨ran, hran⟩ : ∃ ran : Dict String Raw, ran = solverParams raw s.planner := ⟨_, rfl⟩
  have hprefix' : defaultSolverParams.keys <+: ran.keys := by
    rw [hran]
    exact (Dict.keys_prefix_update _ _).trans (Dict.keys_prefix_update _ _)
  have hbound : ∀ p ∈ authored.entries, ran.get? p.1 = some p.2 := by
    intro p hp
    rw [hrawParams] at hp
    rw [hran]
    exact Dict.get?_update_of_mem (Dict.nodup _) hp
  have hdeployed : (Raw.field s.plannerRun.deployment "params").asDict = ran.entries := by
    rw [hran]
    rfl
  rw [← hran, solverParams, hauthored, hdeployed, Dict.ofList_entries,
    Dict.update_entries_of_prefix hprefix', ← hrawParams, Dict.update_of_get? hbound]

/-! ## The recipe read back: where orders go, and when -/

/-- The specification has no records its trip matrix is learned from. -/
def LearnsNothing (E : DatagenEnv) (raw : List (String × Raw)) : Prop :=
  policyType E raw "order" = "historical" →
    (Raw.field (authoredPolicy raw "order") "source").truthy = false

theorem field_orderPolicy {key : String} (h : key ≠ "type") :
    Raw.field s.orderPolicy key = Raw.field (authoredPolicy raw "order") key := by
  rw [(rolePolicy_spec s.orderPolicy_ok).2, Raw.field_setIn_ne _ _ h]

theorem orderRecords_eq_null {ptype : String}
    (h : ptype = "historical" → (Raw.field policy "source").truthy = false) :
    orderRecords E policy ptype = .ok .null := by
  unfold orderRecords
  dsimp only
  rw [if_neg]
  rintro ⟨htype, hsource⟩
  rw [h htype] at hsource
  cases hsource

theorem records_recipe (h : LearnsNothing E raw) :
    s.records = .null ∧
      orderRecords E (recipeOrderPolicy s.orderPolicy) (policyType E raw "order") = .ok .null := by
  have hsource : policyType E raw "order" = "historical" →
      (Raw.field s.orderPolicy "source").truthy = false := by
    rw [s.field_orderPolicy (by decide)]
    exact h
  refine ⟨?_, orderRecords_eq_null ?_⟩
  · exact Except.ok.inj (s.records_ok.symm.trans (orderRecords_eq_null hsource))
  · rw [field_recipeOrderPolicy, if_pos (by decide)]
    exact hsource

theorem resolveFile_dict {entries : List (String × Raw)} {kind : FileKind}
    (h : "$file" ∉ entries.map Prod.fst) : resolveFile E (.dict entries) kind =
      .ok (.dict entries) := by
  rw [resolveFile, Dict.lookupIn_eq_none.mpr h]

/-- **An authored trip matrix is authored by the recipe.** -/
theorem authoredMatrix_recipe {grid : Grid} (h : authoredMatrix E raw policy = .ok grid)
    (s : Stages E raw referenceTime) (hgrid : s.tripMatrix = grid) :
    authoredMatrix E s.recipe (recipeOrderPolicy s.orderPolicy) = .ok grid := by
  obtain ⟨codes, weight, htrip, rfl⟩ : ∃ codes weight,
      IsTripMatrix E.host E.codes codes weight ∧ grid = offDiagonal codes weight := by
    obtain ⟨matrix, -, h⟩ := bind_eq_ok.mp h
    split at h
    · exact fromWeights_isTripMatrix E.host h
    · exact fromWeights_isTripMatrix E.host h
  have hne : codes ≠ [] := by
    rintro rfl
    exact zero_ne_one htrip.total
  have hkeys : (codes.map (rowRaw codes weight)).map Prod.fst = codes := by
    rw [List.map_map]
    exact List.map_id codes
  have hentries : gridRaw (offDiagonal codes weight) = .dict (codes.map (rowRaw codes weight)) := by
    have hdict := asDict_gridRaw codes weight
    rw [gridRaw, Raw.asDict] at hdict
    rw [gridRaw, hdict]
  have hfile : resolveFile E (gridRaw (offDiagonal codes weight)) .matrix =
      .ok (gridRaw (offDiagonal codes weight)) := by
    rw [hentries]
    refine resolveFile_dict ?_
    rw [hkeys]
    exact fun hmem ↦ codeKey_ne_file E.host "$file" (htrip.key _ hmem)
  have htruthy : (gridRaw (offDiagonal codes weight)).truthy = true := by
    rw [hentries, Raw.truthy, Bool.not_eq_true', List.isEmpty_eq_false_iff, ne_eq,
      List.map_eq_nil_iff]
    exact hne
  have hauthored : Raw.field s.recipe "tripMatrix" = gridRaw (offDiagonal codes weight) := by
    rw [← hgrid]
    rfl
  have hown : Raw.field (recipeOrderPolicy s.orderPolicy) "matrix" = .null := by
    rw [field_recipeOrderPolicy, if_neg (by decide)]
  have hnull : Raw.null.isNull = true := rfl
  rw [authoredMatrix, hown, if_pos hnull, hauthored, hfile, ok_bind, Raw.orElse_of_truthy htruthy,
    htrip.fromWeights_gridRaw]

theorem tripMatrix_recipe (h : LearnsNothing E raw) :
    resolveOrderMatrix E s.recipe (recipeOrderPolicy s.orderPolicy)
      (policyType E raw "order") .null =
      .ok s.tripMatrix := by
  have hok := s.tripMatrix_ok
  rw [(s.records_recipe h).1] at hok
  rw [resolveOrderMatrix] at hok ⊢
  split at hok
  · next hrandom => rw [if_pos hrandom, hok]
  · next hrandom =>
    have hnull : ¬ Raw.null.truthy = true := Bool.false_ne_true
    rw [if_neg hnull] at hok
    rw [if_neg hrandom, if_neg hnull]
    exact authoredMatrix_recipe hok s rfl

/-- The hourly weights of the recipe: none for a `random` policy, which has no curve any more. -/
theorem orderDemand_recipe :
    orderDemand E s.recipe (recipeOrderPolicy s.orderPolicy) (policyType E raw "order") =
      .ok (if policyType E raw "order" = "random" then none else s.hourlyWeights) := by
  have hown : Raw.field (recipeOrderPolicy s.orderPolicy) "curve" = .null := by
    rw [field_recipeOrderPolicy, if_neg (by decide)]
  have hcurve : Raw.field s.recipe "orderDemandCurve" =
      (s.hourlyWeights.map curveRaw).getD .null := rfl
  have hread : resolveFile E ((s.hourlyWeights.map curveRaw).getD .null) .curve =
      .ok ((s.hourlyWeights.map curveRaw).getD .null) := by
    cases s.hourlyWeights with
    | none => rfl
    | some weights =>
      have hkeys : ∀ v w : Raw, "$file" ∉ [("resolution", v), ("points", w)].map Prod.fst := by
        intro v w
        simp
      exact resolveFile_dict (hkeys _ _)
  rw [orderDemand, hown, Raw.orElse_null, hcurve, hread, ok_bind]
  by_cases hrandom : policyType E raw "order" = "random"
  · rw [if_pos ⟨hrandom, rfl⟩, if_pos hrandom]
    rfl
  · obtain ⟨curve, -, h⟩ := bind_eq_ok.mp s.hourlyWeights_ok
    rw [if_neg fun h ↦ hrandom h.1] at h
    obtain ⟨weights, hweights, h⟩ := bind_eq_ok.mp h
    have hsome : s.hourlyWeights = some weights := (Except.ok.inj h).symm
    have hhourly := parseOrderDemandCurve_isHourly hweights
    rw [if_neg fun h ↦ hrandom h.1, if_neg hrandom, hsome, Option.map_some, Option.getD_some,
      Raw.orElse_of_truthy (by rfl), hhourly.parseOrderDemandCurve_curveRaw]
    rfl

/-- A `random` policy that has a curve of its own. -/
def DrawsOwnCurve (E : DatagenEnv) (raw : List (String × Raw)) : Prop :=
  policyType E raw "order" = "random" ∧
    (Raw.field (authoredPolicy raw "order") "curve").isNull = false

/-- **Only a curve of its own gives a `random` policy hourly weights.** -/
theorem hourlyWeights_eq_none_iff (h : policyType E raw "order" = "random") :
    s.hourlyWeights = none ↔ ¬ DrawsOwnCurve E raw := by
  obtain ⟨curve, -, hok⟩ := bind_eq_ok.mp s.hourlyWeights_ok
  rw [s.field_orderPolicy (by decide)] at hok
  split at hok
  · next hnull =>
    constructor
    · rintro - ⟨-, hown⟩
      rw [hnull.2] at hown
      cases hown
    · exact fun _ ↦ (Except.ok.inj hok).symm
  · next hown =>
    obtain ⟨weights, -, hok⟩ := bind_eq_ok.mp hok
    constructor
    · intro hnone
      cases hnone.symm.trans (Except.ok.inj hok).symm
    · intro hnot
      exact absurd ⟨h, Bool.eq_false_iff.mpr fun hnull ↦ hown ⟨h, hnull⟩⟩ hnot

/-! ## The recipe read back: overrides and facilities -/

theorem lookupIn_mergedOverrides (raw : List (String × Raw)) (role : String)
    (h : role ∈ overrideRoles) : Dict.lookupIn role (mergedOverrides raw) =
      if (mergedRole raw role).entries = [] then none else some (mergedRole raw role) := by
  have hmem : ∀ roles : List String, Dict.lookupIn role ((roles.map fun role ↦
      (role, mergedRole raw role)).filter fun p ↦ !p.2.entries.isEmpty) =
      if role ∈ roles ∧ (mergedRole raw role).entries ≠ [] then some (mergedRole raw role)
      else none := by
    intro roles
    induction roles with
    | nil => rw [if_neg fun hin ↦ absurd hin.1 List.not_mem_nil]; rfl
    | cons r roles ih =>
      rw [List.map_cons, List.filter_cons]
      by_cases hr : r = role
      · subst hr
        by_cases hempty : (mergedRole raw r).entries = []
        · rw [if_neg (by rw [hempty]; decide), ih, if_neg fun hin ↦ hin.2 hempty,
            if_neg fun hin ↦ hin.2 hempty]
        · rw [if_pos (by rw [Bool.not_eq_true', List.isEmpty_eq_false_iff]; exact hempty),
            Dict.lookupIn, if_pos rfl, if_pos ⟨List.mem_cons_self, hempty⟩]
      · have hcons : role ∈ r :: roles ↔ role ∈ roles := by
          rw [List.mem_cons, or_iff_right (Ne.symm hr)]
        simp only [hcons]
        split
        · rw [Dict.lookupIn, if_neg hr, ih]
        · exact ih
  rw [mergedOverrides, hmem]
  by_cases hempty : (mergedRole raw role).entries = []
  · rw [if_pos hempty, if_neg fun hin ↦ hin.2 hempty]
  · rw [if_neg hempty, if_pos ⟨h, hempty⟩]

theorem mergedRole_recipe (role : String) (hrole : role ∈ overrideRoles) :
    mergedRole s.recipe role = mergedRole raw role := by
  have hlegacy : safeProfile s.recipe role = [] := rfl
  have hauthored : Raw.field s.recipe "overrides" = overridesRaw (mergedOverrides raw) := rfl
  have hlookup : (Raw.field (overridesRaw (mergedOverrides raw)).asDict role).asDict =
      (mergedRole raw role).entries := by
    have hfind := lookupIn_mergedOverrides raw role hrole
    rw [overridesRaw]
    split
    · next hempty =>
      rw [List.isEmpty_iff.mp hempty] at hfind
      have hnone : (mergedRole raw role).entries = [] := by
        by_contra hne
        rw [if_neg hne] at hfind
        cases hfind
      rw [hnone]
      rfl
    · have hraw :
        Dict.lookupIn role ((mergedOverrides raw).map fun p ↦ (p.1, Raw.dict p.2.entries)) =
          (Dict.lookupIn role (mergedOverrides raw)).map fun d ↦ Raw.dict d.entries :=
        Dict.lookupIn_map_snd (fun d : Dict String Raw ↦ Raw.dict d.entries) role _
      rw [Raw.asDict, Raw.field, hraw, hfind]
      split
      · next hnone => rw [hnone]; rfl
      · rfl
  rw [mergedRole, hlegacy, hauthored, hlookup]
  exact Dict.ofList_entries _

theorem mergedOverrides_recipe : mergedOverrides s.recipe = mergedOverrides raw := by
  rw [mergedOverrides, mergedOverrides]
  refine congrArg _ (List.map_congr_left fun role hrole ↦ ?_)
  rw [s.mergedRole_recipe role hrole]

/-! ## The recipe compiled -/

/-- The hourly weights the recipe compiles to. -/
def hourlyAgain (s : Stages E raw referenceTime) : Option (List ℚ) :=
  if policyType E raw "order" = "random" then none else s.hourlyWeights

/-- Whom trucks or orders are dealt to when the recipe is compiled. -/
def dealtAgain (s : Stages E raw referenceTime) (n : ℤ) (key : ShareKey) : List Haulier :=
  (dealt n.toNat (s.hauliers.map fun h ↦ h.share key)).map fun i ↦
    (renormalise (renormalise s.hauliers)).getD i defaultHaulier

/-- **A recipe compiles**, and its world is the same but for the hourly weights and the ids of the
hauliers. -/
theorem compileSpec_recipe (h : LearnsNothing E raw) :
    ∃ recipe, compileSpec E s.recipe referenceTime = .ok
      ⟨{ s.world with
        hourlyWeights := s.hourlyAgain
        truckHauliers := s.dealtAgain s.counts.trucks .fleetShare
        orderHauliers := s.dealtAgain s.counts.orders .orderShare }, recipe⟩ := by
  obtain ⟨name, hname⟩ := s.scenarioName_recipe
  obtain ⟨coop, hcoop⟩ := s.cooperation_recipe
  have hfacilityType := s.facilityPolicy_recipe.1
  have horderType := s.orderPolicy_recipe.1
  let again : Stages E s.recipe referenceTime := {
    name := name
    slug := s.slug
    days := s.days
    seed := s.seed
    counts := s.counts
    truckPolicy := s.truckPolicy
    orderPolicy := recipeOrderPolicy s.orderPolicy
    facilityPolicy := s.facilityPolicy
    hauliers := renormalise s.hauliers
    truckHauliers := s.dealtAgain s.counts.trucks .fleetShare
    orderHauliers := s.dealtAgain s.counts.orders .orderShare
    cooperation := coop
    planner := s.plannerRun
    records := .null
    tripMatrix := s.tripMatrix
    hourlyWeights := s.hourlyAgain
    early := s.early
    sites := s.sites
    declared_ok := s.checkDeclaredEpoch_recipe
    epoch_ok := s.epoch_ok
    name_ok := hname
    slug_ok := s.scenarioSlug_recipe name
    days_ok := s.simulationDays_recipe
    seed_ok := s.scenarioSeed_recipe
    counts_ok := s.agentCounts_recipe
    truckPolicy_ok := s.truckPolicy_recipe
    orderPolicy_ok := s.orderPolicy_recipe.2
    facilityPolicy_ok := s.facilityPolicy_recipe.2
    hauliers_ok := normalizeHauliers_toRaw E.host s.normal_hauliers
    truckHauliers_ok := s.deal_recipe _ _
    orders_ok := s.orders_ok
    orderHauliers_ok := s.deal_recipe _ _
    cooperation_ok := hcoop
    planner_ok := s.planner_recipe
    records_ok := horderType ▸ (s.records_recipe h).2
    tripMatrix_ok := horderType ▸ s.tripMatrix_recipe h
    hourlyWeights_ok := horderType ▸ s.orderDemand_recipe
    early_ok := earlyOrderCount_idem s.counts_spec.1.1 s.orders_pos s.early_ok
    sites_ok := by
      rw [hfacilityType, s.mergedOverrides_recipe]
      exact s.sites_ok }
  refine ⟨.dict again.recipe, again.compileSpec_eq.trans ?_⟩
  have hworld : again.world = { s.world with
      hourlyWeights := s.hourlyAgain
      truckHauliers := s.dealtAgain s.counts.trucks .fleetShare
      orderHauliers := s.dealtAgain s.counts.orders .orderShare } := by
    have hplanner : again.plannerRun = s.plannerRun := by
      show plannerThatRuns s.plannerRun (solverStrategy E s.recipe s.plannerRun)
        (solverParams s.recipe s.plannerRun) = _
      rw [s.solverStrategy_recipe, s.solverParams_recipe]
      rfl
    rw [world, world, hplanner]
    show World.mk _ _ _ _ _ _ _ _ _ _ _ (solverStrategy E s.recipe s.plannerRun)
      (solverParams s.recipe s.plannerRun) (mergedOverrides s.recipe) _ = _
    rw [s.solverStrategy_recipe, s.solverParams_recipe, s.mergedOverrides_recipe]
  rw [hworld]

/-- No haulier that is given a truck or an order changes its id when the list of hauliers, which was
normalised twice, is normalised once more. -/
def HauliersKeepIds (E : DatagenEnv) (raw : List (String × Raw)) : Prop :=
  ∀ days counts hs, simulationDays E raw = .ok days → agentCounts E raw days = .ok counts →
    normalizeHauliers E.host (Raw.field raw "hauliers") = .ok hs →
    ∀ i ∈ dealt counts.trucks.toNat (hs.map fun h ↦ h.share .fleetShare) ++
        dealt counts.orders.toNat (hs.map fun h ↦ h.share .orderShare),
      (renormIds (renormIds (hs.map Haulier.id))).getD i "" =
        (renormIds (hs.map Haulier.id)).getD i ""

theorem hauliersKeepIds_iff :
    HauliersKeepIds E raw ↔
      s.dealtAgain s.counts.trucks .fleetShare = s.truckHauliers ∧
        s.dealtAgain s.counts.orders .orderShare = s.orderHauliers := by
  have htrucks := s.truckHauliers_ok
  have horders := s.orderHauliers_ok
  rw [distributeByShare_toRaw E.host s.normal_hauliers] at htrucks horders
  rw [← Except.ok.inj htrucks, ← Except.ok.inj horders, dealtAgain, dealtAgain,
    deal_renormalise_iff, deal_renormalise_iff]
  constructor
  · intro h
    have hkeep := h s.days s.counts s.hauliers s.days_ok s.counts_ok s.hauliers_ok
    exact ⟨fun i hi ↦ hkeep i (List.mem_append_left _ hi),
      fun i hi ↦ hkeep i (List.mem_append_right _ hi)⟩
  · rintro ⟨hfleet, horder⟩ days counts hs hdays hcounts hhs i hi
    obtain rfl := Except.ok.inj (s.days_ok.symm.trans hdays)
    obtain rfl := Except.ok.inj (s.counts_ok.symm.trans hcounts)
    obtain rfl := Except.ok.inj (s.hauliers_ok.symm.trans hhs)
    exact (List.mem_append.mp hi).elim (hfleet i) (horder i)

theorem hourlyAgain_eq_iff : s.hourlyAgain = s.hourlyWeights ↔ ¬ DrawsOwnCurve E raw := by
  rw [hourlyAgain]
  by_cases hrandom : policyType E raw "order" = "random"
  · rw [if_pos hrandom, eq_comm, s.hourlyWeights_eq_none_iff hrandom]
  · rw [if_neg hrandom]
    exact iff_of_true rfl fun h ↦ hrandom h.1

/-- The recipe compiles to the same world just when it keeps the hourly weights and the ids. -/
theorem same_iff (h : LearnsNothing E raw) :
    (∃ recipe, compileSpec E s.recipe referenceTime = .ok ⟨s.world, recipe⟩) ↔
      ¬ DrawsOwnCurve E raw ∧ HauliersKeepIds E raw := by
  obtain ⟨recipe, hcompile⟩ := s.compileSpec_recipe h
  rw [hauliersKeepIds_iff s, ← hourlyAgain_eq_iff s]
  constructor
  · rintro ⟨recipe', h'⟩
    have hworld := (CompiledScenario.mk.inj (Except.ok.inj (hcompile.symm.trans h'))).1
    exact ⟨congrArg World.hourlyWeights hworld, congrArg World.truckHauliers hworld,
      congrArg World.orderHauliers hworld⟩
  · rintro ⟨hhourly, htrucks, horders⟩
    rw [hhourly, htrucks, horders] at hcompile
    exact ⟨recipe, hcompile⟩

end Stages

/-- **A persisted scenario recompiles to the same world** just when its order policy is not a
`random` one with a curve of its own, and its hauliers keep their ids. -/
theorem recompile_same_iff {raw : List (String × Raw)} {referenceTime : String}
    {compiled : CompiledScenario} (hc : compile E (.dict raw) referenceTime = .ok compiled)
    (hl : Stages.LearnsNothing E raw) :
    (∃ recipe, compile E compiled.recipe referenceTime = .ok ⟨compiled.world, recipe⟩) ↔
      ¬ Stages.DrawsOwnCurve E raw ∧ Stages.HauliersKeepIds E raw := by
  obtain ⟨s, rfl⟩ := Stages.exists_of_compileSpec hc
  exact s.same_iff hl

/-! ### An order policy with a curve of its own -/

/-- A catalogue of two depots. -/
def twoDepots : DatagenEnv where
  host := asciiHost
  policyRegistry := builtinPolicies
  referenceHour
    | .str s => if s = "2020-01-01 00:00:00" then some 0 else none
    | _ => none
  scenarioPath path := path
  isFile _ := false
  loadFile _ _ := .error (.validation "no such file")
  codes := ["CT", "CU"]
  facilitySites count _ := .ok ((["CT", "CU"].map fun code ↦
    Dict.ofList [("code", .str code), ("name", .str ("Depot " ++ code))]).take count.toNat)
  rebateError _ _ := none
  resolveFacilityRules _ _ sites _ _ := .ok sites

/-- A specification with random orders, which may have a curve. -/
def randomOrders (curve : Raw) : List (String × Raw) :=
  [("name", .str "Two depots"), ("agents", .dict [("order", .dict [("count", .int 3),
    ("policy", .dict [("type", .str "random"), ("curve", curve)])])])]

/-- Three times as many orders at ten as at eight. -/
def morningCurve : Raw := .dict [("points", .list
  [.dict [("hour", .int 8), ("weight", .int 1)], .dict [("hour", .int 10), ("weight", .int 3)]])]

theorem exists_compile_randomOrders (curve : Raw)
    (h : (compile twoDepots (.dict (randomOrders curve)) "2020-01-01 00:00:00").isOk = true) :
    ∃ c, compile twoDepots (.dict (randomOrders curve)) "2020-01-01 00:00:00" = .ok c := by
  cases hc : compile twoDepots (.dict (randomOrders curve)) "2020-01-01 00:00:00" with
  | ok c => exact ⟨c, rfl⟩
  | error e =>
    rw [hc] at h
    cases h

theorem learnsNothing_randomOrders (curve : Raw) :
    Stages.LearnsNothing twoDepots (randomOrders curve) := by
  intro h
  have htype : policyType twoDepots (randomOrders curve) "order" = "random" := rfl
  rw [htype] at h
  exact absurd h (by decide)

/-- With a curve the recipe does not give the same world. -/
theorem recompile_morningCurve : ∃ c,
    compile twoDepots (.dict (randomOrders morningCurve)) "2020-01-01 00:00:00" = .ok c ∧
      ¬ ∃ recipe, compile twoDepots c.recipe "2020-01-01 00:00:00" = .ok ⟨c.world, recipe⟩ := by
  obtain ⟨c, hc⟩ := exists_compile_randomOrders morningCurve (by decide +kernel)
  refine ⟨c, hc, ?_⟩
  obtain ⟨s, rfl⟩ := Stages.exists_of_compileSpec hc
  intro hsame
  exact ((s.same_iff (learnsNothing_randomOrders _)).mp hsame).1 ⟨rfl, rfl⟩

theorem hauliersKeepIds_randomOrders (curve : Raw) :
    Stages.HauliersKeepIds twoDepots (randomOrders curve) := by
  intro days counts hs _ _ hhs i _
  have hdefault : normalizeHauliers asciiHost .null = .ok defaultHauliers := rfl
  obtain rfl := Except.ok.inj (hdefault.symm.trans hhs)
  have hfixed : renormIds (renormIds (defaultHauliers.map Haulier.id)) =
      renormIds (defaultHauliers.map Haulier.id) := by decide +kernel
  rw [hfixed]

/-- Without one it does. -/
theorem recompile_uniform : ∃ c,
    compile twoDepots (.dict (randomOrders .null)) "2020-01-01 00:00:00" = .ok c ∧
      ∃ recipe, compile twoDepots c.recipe "2020-01-01 00:00:00" = .ok ⟨c.world, recipe⟩ := by
  obtain ⟨c, hc⟩ := exists_compile_randomOrders .null (by decide +kernel)
  have hnone : ¬ Stages.DrawsOwnCurve twoDepots (randomOrders .null) := by
    rintro ⟨-, h⟩
    cases h
  exact ⟨c, hc, (recompile_same_iff twoDepots hc (learnsNothing_randomOrders _)).mpr
    ⟨hnone, hauliersKeepIds_randomOrders _⟩⟩

end OpenRide.Datagen
