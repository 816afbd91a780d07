import OpenRide.Datagen.CooperationIds
import OpenRide.Datagen.Recompile
import OpenRide.Scenario.SavedBack

/-!
# A recipe is settled

What a compile writes is in the form that saving back does not change (`Stages.settled_recipe`).
Its cooperation block has pools for a structure just when the author wrote pools under its id, and
its ids are free of white space, so no two of them are read as one.  Two things can unsettle a
recipe: a name whose first 80 characters end in white space, and an empty object of solver
parameters.
-/

namespace OpenRide.Scenario

open Lib Datagen

section

variable {T : PyText}

/-! ## The cooperation block -/

theorem field_toRaw_id (s : CoopStructure) (withPools : Bool) :
    Raw.field (s.toRaw withPools).asDict "id" = .str s.id := rfl

theorem field_toRaw_pools (s : CoopStructure) (withPools : Bool) :
    Raw.field (s.toRaw withPools).asDict "pools" =
      if withPools then .list (s.pools.map PoolEntry.toRaw) else .null := by
  cases withPools with
  | false => rfl
  | true => rfl

theorem structureId_toRaw {s : CoopStructure} (h : NoSpace s.id) (withPools : Bool) :
    structureId T (s.toRaw withPools).asDict = s.id := by
  rw [structureId, field_toRaw_id, strOrEmpty_str, pyStrip_eq_self h]

theorem authoredPool_toRaw (p : PoolEntry) :
    authoredPool T [("id", .str p.id), ("members", .list (p.members.map .str))] =
      .ok p.toRaw := by
  have hmembers : recordList ((Raw.list (p.members.map .str)).orElse (.list [])) =
      .ok (p.members.map .str) := by
    rw [Raw.orElse]
    split
    · rfl
    · next hempty =>
      rw [Raw.truthy, Bool.not_eq_true, Bool.not_eq_false', List.isEmpty_iff] at hempty
      rw [hempty]
      rfl
  have hid : Raw.field [("id", .str p.id), ("members", .list (p.members.map .str))] "id" =
      .str p.id := rfl
  have hfield : Raw.field [("id", .str p.id), ("members", .list (p.members.map .str))] "members" =
      .list (p.members.map .str) := rfl
  rw [authoredPool, hfield, hmembers, ok_bind, hid, strOrEmpty_str, List.map_map]
  rfl

/-- The pools of a persisted structure can be read. -/
theorem authoredPools_toRaw (s : CoopStructure) (withPools : Bool) :
    ∃ pools, authoredPools T (s.toRaw withPools).asDict = .ok pools := by
  cases withPools with
  | false => exact ⟨none, rfl⟩
  | true =>
    have hdicts : (s.pools.map PoolEntry.toRaw).filterMap dictOf? =
        s.pools.map fun p ↦ [("id", .str p.id), ("members", .list (p.members.map .str))] := by
      rw [List.filterMap_map]
      exact List.filterMap_eq_map_iff_forall_eq_some.mpr fun p _ ↦ rfl
    have hread : each (authoredPool T) ((s.pools.map PoolEntry.toRaw).filterMap dictOf?) =
        .ok (s.pools.map PoolEntry.toRaw) := by
      rw [hdicts, each_eq_ok, List.forall₂_map_left_iff, List.forall₂_map_right_iff,
        List.forall₂_same]
      exact fun p _ ↦ authoredPool_toRaw p
    rw [authoredPools, field_toRaw_pools, if_pos rfl]
    dsimp only
    rw [hread]
    exact ⟨_, rfl⟩

theorem cooperationStructures_toRaw (coop : Cooperation) (authoredPoolIds : List String) :
    cooperationStructures (coop.toRaw authoredPoolIds) =
      coop.structures.map fun s ↦ (s.toRaw (s.id ∈ authoredPoolIds)).asDict := by
  have hfield : Raw.field [("active", .str coop.active), ("structures",
      .list (coop.structures.map fun s ↦ s.toRaw (s.id ∈ authoredPoolIds)))] "structures" =
      .list (coop.structures.map fun s ↦ s.toRaw (s.id ∈ authoredPoolIds)) := rfl
  rw [Cooperation.toRaw, cooperationStructures_of_list hfield, List.filterMap_map]
  exact List.filterMap_eq_map_iff_forall_eq_some.mpr fun s _ ↦ rfl

/-- **A persisted block is settled**: whether a structure has pools depends on its id. -/
theorem settledBlock_toRaw {coop : Cooperation} (h : ∀ s ∈ coop.structures, NoSpace s.id)
    (authoredPoolIds : List String) : SettledBlock T (coop.toRaw authoredPoolIds) := by
  refine ⟨fun fields hfields ↦ ?_, fun f hf f' hf' hid hnull written hwritten ↦ ?_⟩
  · rw [cooperationStructures_toRaw] at hfields
    obtain ⟨s, -, rfl⟩ := List.mem_map.mp hfields
    exact authoredPools_toRaw s _
  · rw [cooperationStructures_toRaw] at hf hf'
    obtain ⟨s, hs, rfl⟩ := List.mem_map.mp hf
    obtain ⟨s', hs', rfl⟩ := List.mem_map.mp hf'
    rw [structureId_toRaw (h s hs), structureId_toRaw (h s' hs')] at hid
    rw [field_toRaw_pools, hid] at hnull
    rw [field_toRaw_pools] at hwritten
    split at hnull
    · cases hnull
    · next hnot =>
      rw [if_neg hnot] at hwritten
      cases hwritten

end

/-! ## The recipe -/

section

variable {E : DatagenEnv} {raw : List (String × Raw)} {referenceTime : String}

/-- The keys of a recipe. -/
def recipeKeys : List String :=
  ["name", "slug", "simulationDays", "seed", "referenceTime", "orderCountUnit", "agents",
    "earlyOrderCount", "orderDemandCurve", "tripMatrix", "hauliers", "cooperation", "planner",
    "solver", "solverParams", "overrides", "facilityRules", "facilityRulesWorld"]

theorem map_fst_recipe (s : Stages E raw referenceTime) : s.recipe.map Prod.fst = recipeKeys := rfl

/-- The recipe, as a specification. -/
def recipeSpec (s : Stages E raw referenceTime) : Spec :=
  ⟨s.recipe, by rw [map_fst_recipe]; decide⟩

/-- A name as a recipe has it. -/
def recipeName (name : String) : String := String.ofList (name.toList.take 80)

theorem rawRole_recipe_of_notMem (s : Stages E raw referenceTime) {role : String}
    (h : role ∉ agentRoles.map Prod.fst) : rawRole (recipeSpec s) role = [] := by
  obtain ⟨agents, hagents, hkeys⟩ : ∃ agents, (recipeSpec s).value "agents" = .dict agents ∧
      agents.map Prod.fst = agentRoles.map Prod.fst := ⟨_, rfl, rfl⟩
  have hnone : Dict.lookupIn role agents = none := Dict.lookupIn_eq_none.mpr (hkeys ▸ h)
  rw [rawRole, hagents]
  dsimp only [Raw.asDict]
  rw [Raw.field, hnone]
  rfl

/-- **The recipe of a compile is settled**, unless its name was cut at white space or its solver
parameters are an empty object. -/
theorem settled_recipe (s : Stages E raw referenceTime)
    (hname : pyStrip (recipeName s.name) = recipeName s.name)
    (hparams : Raw.field raw "solverParams" ≠ .dict []) :
    Settled E.host.toPyText (recipeSpec s) := by
  have hrole : ∀ role, role ∈ agentRoles.map Prod.fst ∨ rawRole (recipeSpec s) role = [] :=
    fun role ↦ (em _).imp_right (rawRole_recipe_of_notMem s)
  refine
    { aliases := fun key a ha hne ↦ ?_
      name := ⟨recipeName s.name, rfl, hname⟩
      slug := ⟨s.slug, ?_, rfl, s.slug_spec.2⟩
      objects := fun key hkey ↦ ?_
      counts := fun role h ↦ ?_
      policies := fun role ↦ ?_
      fields := fun role f hf ↦ ?_
      roles := fun role h ↦ rawRole_recipe_of_notMem s h
      cooperation :=
        settledBlock_toRaw (fun t ht ↦ normalizeCooperation_noSpace s.cooperation_ok ht) _ }
  · have hall : ∀ key ∈ specKeys, ∀ a ∈ key.aliases, a ≠ key.spelling → a ∉ recipeKeys := by decide
    refine Dict.lookupIn_eq_none.mpr ?_
    show a ∉ s.recipe.map Prod.fst
    exact hall key key.mem_specKeys a ha hne
  · intro hempty
    have hslug := s.slug_spec.1
    rw [hempty] at hslug
    exact absurd hslug (by decide)
  · rcases List.mem_cons.mp hkey with rfl | hkey
    · have hvalue : (recipeSpec s).value SpecKey.solverParams.spelling = recipeSolverParams raw :=
        rfl
      rw [hvalue]
      unfold recipeSolverParams
      split
      · next params hraw =>
        cases params with
        | nil => exact absurd hraw hparams
        | cons p entries => exact Or.inr ⟨p, entries, rfl⟩
      · exact Or.inl rfl
    rcases List.mem_cons.mp hkey with rfl | hkey
    · exact Or.inl rfl
    obtain rfl := List.mem_singleton.mp hkey
    have hvalue : (recipeSpec s).value SpecKey.overrides.spelling =
        overridesRaw (mergedOverrides raw) := rfl
    rw [hvalue, overridesRaw]
    cases mergedOverrides raw with
    | nil => exact Or.inl rfl
    | cons p overrides => exact Or.inr ⟨_, _, rfl⟩
  · simp only [agentRoles, List.map_cons, List.map_nil, List.mem_cons, List.not_mem_nil,
      or_false] at h
    rcases h with rfl | rfl | rfl
    · rfl
    · rfl
    · rfl
  · rcases hrole role with hmem | hnil
    · simp only [agentRoles, List.map_cons, List.map_nil, List.mem_cons, List.not_mem_nil,
        or_false] at hmem
      rcases hmem with rfl | rfl | rfl
      · rfl
      · rfl
      · rfl
    · rw [hnil]
      rfl
  · have hnone : ∀ entries : List (String × Raw), (∀ k ∈ entries.map Prod.fst, k ∈ roleFields) →
        Raw.field entries f = .null := by
      intro entries hkeys
      rw [Raw.field, Dict.lookupIn_eq_none.mpr fun hmem ↦ hf (hkeys f hmem)]
      rfl
    rcases hrole role with hmem | hnil
    · simp only [agentRoles, List.map_cons, List.map_nil, List.mem_cons, List.not_mem_nil,
        or_false] at hmem
      rcases hmem with rfl | rfl | rfl
      · exact hnone [_, _] (by simp [roleFields])
      · exact hnone [_, _, _] (by simp [roleFields])
      · exact hnone [_, _] (by simp [roleFields])
    · rw [hnil]
      rfl

end

end OpenRide.Scenario
