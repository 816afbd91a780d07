import OpenRide.Datagen.Recompile

/-!
# The planner block of a compile

Only one stage of a compile reads the planner block of a specification, so a specification that
compiles compiles with another block just when that is accepted (`exists_compile_setPlanner`).

The stages of the block itself are taken apart here, and what they make of a block in which one
value is authored: another topology, another way of sharing, another policy or another bound of the
market.
-/

namespace OpenRide.Datagen

open Lib

/-! ## What compiling depends on -/

section

variable {E : DatagenEnv} {raw : List (String × Raw)} {referenceTime : String}

theorem agentBlock_setPlanner (raw : List (String × Raw)) (planner : Raw) (role : String) :
    agentBlock (Dict.setIn "planner" planner raw) role = agentBlock raw role := by
  rw [agentBlock, Raw.field_setIn_ne _ _ (by decide), agentBlock]

theorem policyType_setPlanner (raw : List (String × Raw)) (planner : Raw) (role : String) :
    policyType E (Dict.setIn "planner" planner raw) role = policyType E raw role := by
  simp only [policyType, authoredPolicy, agentBlock_setPlanner]

theorem rolePolicy_setPlanner (raw : List (String × Raw)) (planner : Raw) (role : String) :
    rolePolicy E (Dict.setIn "planner" planner raw) role = rolePolicy E raw role := by
  simp only [rolePolicy, policyType_setPlanner, authoredPolicy, agentBlock_setPlanner]

theorem agentCounts_setPlanner (raw : List (String × Raw)) (planner : Raw) (days : ℤ) :
    agentCounts E (Dict.setIn "planner" planner raw) days = agentCounts E raw days := by
  have hunit : orderCountUnit E (Dict.setIn "planner" planner raw) = orderCountUnit E raw := by
    simp (disch := decide) only [orderCountUnit, agentBlock_setPlanner, Raw.field_setIn_ne]
  simp only [agentCounts, agentCount, hunit, agentBlock_setPlanner]

theorem mergedOverrides_setPlanner (raw : List (String × Raw)) (planner : Raw) :
    mergedOverrides (Dict.setIn "planner" planner raw) = mergedOverrides raw := by
  simp (disch := decide) only [mergedOverrides, mergedRole, safeProfile, Raw.field_setIn_ne]

/-- Every stage of the compile but the planner's own reads the specification past its planner
block. -/
def stagesWithPlanner (s : Stages E raw referenceTime) {planner : Raw} {cfg : PlannerConfig}
    (h : normalizePlanner E.host planner = .ok cfg) :
    Stages E (Dict.setIn "planner" planner raw) referenceTime :=
  { s with
    planner := cfg
    declared_ok := by
      rw [Raw.field_setIn_ne _ _ (by decide)]
      exact s.declared_ok
    name_ok := by
      simp (disch := decide) only [scenarioName, Raw.field_setIn_ne]
      exact s.name_ok
    slug_ok := by
      simp (disch := decide) only [scenarioSlug, Raw.field_setIn_ne]
      exact s.slug_ok
    days_ok := by
      simp (disch := decide) only [simulationDays, Raw.field_setIn_ne]
      exact s.days_ok
    seed_ok := by
      simp (disch := decide) only [scenarioSeed, Raw.field_setIn_ne]
      exact s.seed_ok
    counts_ok := (agentCounts_setPlanner raw planner s.days).trans s.counts_ok
    truckPolicy_ok := (rolePolicy_setPlanner raw planner "truck").trans s.truckPolicy_ok
    orderPolicy_ok := (rolePolicy_setPlanner raw planner "order").trans s.orderPolicy_ok
    facilityPolicy_ok := (rolePolicy_setPlanner raw planner "facility").trans s.facilityPolicy_ok
    hauliers_ok := by
      rw [Raw.field_setIn_ne _ _ (by decide)]
      exact s.hauliers_ok
    cooperation_ok := by
      rw [Raw.field_setIn_ne _ _ (by decide)]
      exact s.cooperation_ok
    planner_ok := by
      rw [Raw.field_setIn_self]
      exact h
    records_ok := by
      rw [policyType_setPlanner]
      exact s.records_ok
    tripMatrix_ok := by
      simp (disch := decide) only [policyType_setPlanner, resolveOrderMatrix, authoredMatrix,
        Raw.field_setIn_ne]
      exact s.tripMatrix_ok
    hourlyWeights_ok := by
      simp (disch := decide) only [policyType_setPlanner, orderDemand, Raw.field_setIn_ne]
      exact s.hourlyWeights_ok
    early_ok := by
      rw [Raw.field_setIn_ne _ _ (by decide)]
      exact s.early_ok
    sites_ok := by
      simp (disch := decide) only [policyType_setPlanner, mergedOverrides_setPlanner, facilitySites,
        Raw.field_setIn_ne]
      exact s.sites_ok }

/-- The planner block that runs, if this is what it normalises to. -/
def runs (E : DatagenEnv) (raw : List (String × Raw)) (cfg : PlannerConfig) : PlannerConfig :=
  plannerThatRuns cfg (solverStrategy E raw cfg) (solverParams raw cfg)

theorem runs_setPlanner (raw : List (String × Raw)) (planner : Raw) (cfg : PlannerConfig) :
    runs E (Dict.setIn "planner" planner raw) cfg = runs E raw cfg := by
  simp (disch := decide) only [runs, solverStrategy, solverParams, Raw.field_setIn_ne]

/-- **With another planner block a specification that compiles compiles** just when the block is
accepted, and runs it. -/
theorem exists_compile_setPlanner (s : Stages E raw referenceTime) {planner : Raw}
    {Q : PlannerConfig → Prop} :
    (∃ c, compile E (.dict (Dict.setIn "planner" planner raw)) referenceTime = .ok c ∧
      Q c.world.planner) ↔
      ∃ cfg, normalizePlanner E.host planner = .ok cfg ∧ Q (runs E raw cfg) := by
  constructor
  · rintro ⟨c, hc, hQ⟩
    obtain ⟨s', rfl⟩ := Stages.exists_of_compileSpec hc
    have hplanner := s'.planner_ok
    rw [Raw.field_setIn_self] at hplanner
    refine ⟨s'.planner, hplanner, ?_⟩
    rw [← runs_setPlanner raw planner]
    exact hQ
  · rintro ⟨cfg, hcfg, hQ⟩
    refine ⟨_, (stagesWithPlanner s hcfg).compileSpec_eq, ?_⟩
    rw [← runs_setPlanner raw planner] at hQ
    exact hQ

end

/-! ## The market -/

inductive MarketRole where
  | offer
  | claim
  | arbitration
deriving DecidableEq

/-- The key of a role in the market. -/
def MarketRole.key : MarketRole → String
  | offer => "offer"
  | claim => "claim"
  | arbitration => "arbitration"

/-- The algorithm of a role in `DEFAULT_MARKET`. -/
def MarketRole.default : MarketRole → String
  | offer => "OfferAll"
  | claim => "ClaimAllPlanned"
  | arbitration => "LowestCost"

variable {role : MarketRole}

theorem MarketRole.key_inj {r : MarketRole} : r.key = role.key → r = role := by
  cases r <;> cases role <;> decide

theorem MarketRole.key_ne_max_rounds (role : MarketRole) : "max_rounds" ≠ role.key := by
  cases role <;> decide

section

variable (H : PyHost)

/-- What is normalised of a role of the market: its own block. -/
def roleBlock (role : MarketRole) : Raw → Except PyError Raw
  | .null => .ok (algorithmRaw role.default)
  | .dict block => do
    let ptype ← marketType H role.key role.default (Raw.field block "type")
    let params ← marketParams H role.key (Raw.field block "params")
    return .dict (Dict.setIn "params" (.dict params) (Dict.setIn "type" (.str ptype) block))
  | _ =>
    let shown := H.repr (.str role.key)
    .error (.validation s!"planner: market {shown} must be an object with 'type' and 'params'")

theorem marketRole_eq (role : MarketRole) (market : List (String × Raw)) :
    marketRole H role.key role.default market = do
      let block ← roleBlock H role (Raw.field market role.key)
      return Dict.setIn role.key block market := by
  rw [marketRole]
  cases Raw.field market role.key with
  | null => rfl
  | dict block =>
    dsimp only [roleBlock]
    cases marketType H role.key role.default (Raw.field block "type") with
    | error e => rfl
    | ok ptype =>
      cases marketParams H role.key (Raw.field block "params") with
      | error e => rfl
      | ok params => rfl
  | bool | int | float | str | list => rfl

/-- A market whose roles and bound are these. -/
def settledMarket (market : List (String × Raw)) (blocks : MarketRole → Raw) (rounds : ℤ) :
    List (String × Raw) :=
  Dict.setIn "max_rounds" (.int rounds)
    (Dict.setIn "arbitration" (blocks .arbitration)
      (Dict.setIn "claim" (blocks .claim) (Dict.setIn "offer" (blocks .offer) market)))

/-- The stages of a normalisation of the market. -/
structure MarketStages (market : List (String × Raw)) (blocks : MarketRole → Raw) (rounds : ℤ) :
    Prop where
  block : ∀ role, roleBlock H role (Raw.field market role.key) = .ok (blocks role)
  rounds : marketRounds H (Raw.field market "max_rounds") = .ok rounds

theorem normalizeMarket_eq_ok {market market' : List (String × Raw)} :
    normalizeMarket H (.dict market) = .ok market' ↔
      ∃ blocks rounds, MarketStages H market blocks rounds ∧
        market' = settledMarket market blocks rounds := by
  have hroles : marketRoles = [MarketRole.offer, .claim, .arbitration].map
    fun role ↦ (role.key, role.default) := rfl
  rw [normalizeMarket]
  simp only [hroles, List.map_cons, List.map_nil, marketRolesFrom, marketRole_eq]
  constructor
  · intro h
    obtain ⟨market₃, h₃, h⟩ := bind_eq_ok.mp h
    obtain ⟨market₁, h₁, h₃⟩ := bind_eq_ok.mp h₃
    obtain ⟨offer, hoffer, h₁⟩ := bind_eq_ok.mp h₁
    cases h₁
    obtain ⟨market₂, h₂, h₃⟩ := bind_eq_ok.mp h₃
    obtain ⟨claim, hclaim, h₂⟩ := bind_eq_ok.mp h₂
    cases h₂
    obtain ⟨market₃', h₃', h₃⟩ := bind_eq_ok.mp h₃
    obtain ⟨arbitration, harbitration, h₃'⟩ := bind_eq_ok.mp h₃'
    cases h₃'
    cases h₃
    obtain ⟨rounds, hrounds, h⟩ := bind_eq_ok.mp h
    cases h
    simp (disch := decide) only [MarketRole.key, Raw.field_setIn_ne] at hclaim harbitration hrounds
    refine ⟨fun | .offer => offer | .claim => claim | .arbitration => arbitration, rounds,
      ⟨fun role ↦ ?_, hrounds⟩, rfl⟩
    cases role with
    | offer => exact hoffer
    | claim => exact hclaim
    | arbitration => exact harbitration
  · rintro ⟨blocks, rounds, ⟨hblock, hrounds⟩, rfl⟩
    have hclaim := hblock .claim
    have harbitration := hblock .arbitration
    rw [hblock .offer, ok_bind]
    simp only [MarketRole.key] at hclaim harbitration ⊢
    simp (disch := decide) only [ok_bind, Raw.field_setIn_ne, hclaim, harbitration, hrounds, pure,
      Except.pure]
    rfl

/-- A role with another block, the others being the same. -/
theorem lookupIn_settledMarket_role (market market' : List (String × Raw)) (role : MarketRole)
    (blocks blocks' : MarketRole → Raw) (rounds : ℤ)
    (hblocks : ∀ r, r ≠ role → blocks' r = blocks r)
    (hmarket : ∀ x, x ≠ role.key → Dict.lookupIn x market' = Dict.lookupIn x market) :
    Dict.lookupIn role.key (settledMarket market' blocks' rounds) = some (blocks' role) ∧
      ∀ x, x ≠ role.key → Dict.lookupIn x (settledMarket market' blocks' rounds) =
        Dict.lookupIn x (settledMarket market blocks rounds) := by
  constructor
  · cases role <;> simp [settledMarket, MarketRole.key, Dict.lookupIn_setIn]
  · intro x hx
    simp only [settledMarket, Dict.lookupIn_setIn, hmarket x hx]
    cases role with
    | offer =>
      have hne : x ≠ "offer" := hx
      simp only [hblocks .claim (by decide), hblocks .arbitration (by decide), if_neg hne]
    | claim =>
      have hne : x ≠ "claim" := hx
      simp only [hblocks .offer (by decide), hblocks .arbitration (by decide), if_neg hne]
    | arbitration =>
      have hne : x ≠ "arbitration" := hx
      simp only [hblocks .offer (by decide), hblocks .claim (by decide), if_neg hne]

/-- Another bound, the roles being the same. -/
theorem lookupIn_settledMarket_rounds {market market' : List (String × Raw)}
    (blocks : MarketRole → Raw) (rounds rounds' : ℤ)
    (hmarket : ∀ x, x ≠ "max_rounds" → Dict.lookupIn x market' = Dict.lookupIn x market) :
    Dict.lookupIn "max_rounds" (settledMarket market' blocks rounds') = some (.int rounds') ∧
      ∀ x, x ≠ "max_rounds" → Dict.lookupIn x (settledMarket market' blocks rounds') =
        Dict.lookupIn x (settledMarket market blocks rounds) := by
  constructor
  · rw [settledMarket, Dict.lookupIn_setIn, if_pos rfl]
  · intro x hx
    simp only [settledMarket, Dict.lookupIn_setIn, hmarket x hx, if_neg hx]

end

theorem roleBlock_params {H : PyHost} {authored block : Raw}
    (h : roleBlock H role authored = .ok block) : ∃ params settled, block = .dict settled ∧
      Raw.field settled "params" = .dict params ∧
      marketParams H role.key (Raw.field authored.asDict "params") = .ok params := by
  cases authored with
  | null =>
    cases h
    exact ⟨[], _, rfl, rfl, rfl⟩
  | dict authored =>
    obtain ⟨ptype, -, h⟩ := bind_eq_ok.mp h
    obtain ⟨params, hparams, h⟩ := bind_eq_ok.mp h
    cases h
    exact ⟨params, _, rfl, Raw.field_setIn_self _ _ _, hparams⟩
  | bool | int | float | str | list => cases h

theorem roleBlock_named {H : PyHost} {block params : List (String × Raw)} {name : String}
    (hparams : marketParams H role.key (Raw.field block "params") = .ok params) {settled : Raw} :
    roleBlock H role (.dict (Dict.setIn "type" (.str name) block)) = .ok settled ↔
      pyStrip name ≠ "" ∧ settled =
        .dict (Dict.setIn "params" (.dict params) (Dict.setIn "type" (.str (pyStrip name))
          block)) := by
  rw [roleBlock, Raw.field_setIn_self, Raw.field_setIn_ne _ _ (by decide), hparams, marketType]
  split
  · next hblank => exact iff_of_false nofun fun h ↦ h.1 hblank
  · next hblank =>
    rw [ok_bind, ok_bind, Dict.setIn_setIn]
    exact ⟨fun h ↦ ⟨hblank, (Except.ok.inj h).symm⟩, fun h ↦ congrArg Except.ok h.2.symm⟩

variable {rounds : ℤ}

theorem normalizeMarket_named {H : PyHost} {market params : List (String × Raw)}
    {blocks : MarketRole → Raw} (hstages : MarketStages H market blocks rounds)
    (hparams : marketParams H role.key (Raw.field (Raw.field market role.key).asDict "params") =
      .ok params)
    (name : String) {market' : List (String × Raw)} :
    normalizeMarket H (.dict (Dict.setIn role.key (.dict (Dict.setIn "type" (.str name)
        (Raw.field market role.key).asDict)) market)) = .ok market' ↔
      pyStrip name ≠ "" ∧ market' = settledMarket
        (Dict.setIn role.key (.dict (Dict.setIn "type" (.str name)
          (Raw.field market role.key).asDict)) market)
        (fun r ↦ if r = role then .dict (Dict.setIn "params" (.dict params) (Dict.setIn "type"
          (.str (pyStrip name)) (Raw.field market role.key).asDict)) else blocks r) rounds := by
  rw [normalizeMarket_eq_ok]
  constructor
  · rintro ⟨blocks', rounds', ⟨hblock, hrounds⟩, rfl⟩
    have hrole := hblock role
    rw [Raw.field_setIn_self, roleBlock_named hparams] at hrole
    rw [Raw.field_setIn_ne _ _ role.key_ne_max_rounds, hstages.rounds] at hrounds
    cases hrounds
    refine ⟨hrole.1, congrArg (settledMarket _ · _) (funext fun r ↦ ?_)⟩
    split
    · next hr => exact hr ▸ hrole.2
    · next hr =>
      have hother := hblock r
      rw [Raw.field_setIn_ne _ _ fun h ↦ hr (MarketRole.key_inj h), hstages.block] at hother
      exact (Except.ok.inj hother).symm
  · rintro ⟨hblank, rfl⟩
    refine ⟨_, rounds, ⟨fun r ↦ ?_, ?_⟩, rfl⟩
    · by_cases hr : r = role
      · subst hr
        rw [Raw.field_setIn_self, roleBlock_named hparams, if_pos rfl]
        exact ⟨hblank, rfl⟩
      · rw [Raw.field_setIn_ne _ _ fun h ↦ hr (MarketRole.key_inj h), if_neg hr]
        exact hstages.block r
    · rw [Raw.field_setIn_ne _ _ role.key_ne_max_rounds]
      exact hstages.rounds

/-- The bounds the compiler accepts: the integers up to 100, and nothing else but `null`. -/
theorem marketRounds_eq_ok {H : PyHost} {value : Raw} :
    marketRounds H value = .ok rounds ↔
      value = .null ∧ rounds = 20 ∨ value = .int rounds ∧ 1 ≤ rounds ∧ rounds ≤ 100 := by
  cases value with
  | null => exact ⟨fun h ↦ Or.inl ⟨rfl, (Except.ok.inj h).symm⟩, fun h ↦ by
      rcases h with ⟨-, rfl⟩ | ⟨h, -⟩
      · rfl
      · cases h⟩
  | int authored =>
    rw [marketRounds]
    constructor
    · intro h
      split at h
      · next hrange =>
        cases h
        exact Or.inr ⟨rfl, hrange⟩
      · cases h
    · rintro (⟨h, -⟩ | ⟨h, hrange⟩)
      · cases h
      · obtain rfl := Raw.int.inj h
        exact if_pos hrange
  | bool | float | str | list | dict =>
    refine iff_of_false nofun ?_
    rintro (⟨h, -⟩ | ⟨h, -⟩)
    · cases h
    · cases h

theorem normalizeMarket_bounded {H : PyHost} {market : List (String × Raw)}
    {blocks : MarketRole → Raw} (hstages : MarketStages H market blocks rounds) (value : Raw)
    {market' : List (String × Raw)} :
    normalizeMarket H (.dict (Dict.setIn "max_rounds" value market)) = .ok market' ↔
      ∃ bound, marketRounds H value = .ok bound ∧
        market' = settledMarket (Dict.setIn "max_rounds" value market) blocks bound := by
  rw [normalizeMarket_eq_ok]
  constructor
  · rintro ⟨blocks', bound, ⟨hblock, hbound⟩, rfl⟩
    rw [Raw.field_setIn_self] at hbound
    refine ⟨bound, hbound, congrArg (settledMarket _ · _) (funext fun role ↦ ?_)⟩
    have hrole := hblock role
    rw [Raw.field_setIn_ne _ _ (Ne.symm role.key_ne_max_rounds), hstages.block] at hrole
    exact (Except.ok.inj hrole).symm
  · rintro ⟨bound, hbound, rfl⟩
    refine ⟨blocks, bound, ⟨fun role ↦ ?_, ?_⟩, rfl⟩
    · rw [Raw.field_setIn_ne _ _ (Ne.symm role.key_ne_max_rounds)]
      exact hstages.block role
    · rw [Raw.field_setIn_self]
      exact hbound

/-! ## The block -/

section

variable {H : PyHost} {planner : List (String × Raw)}

/-- The stages of a normalisation of the planner block. -/
structure PlannerStages (H : PyHost) (planner : List (String × Raw)) where
  topology : String
  timing : List (String × Raw)
  market : List (String × Raw)
  rebateAware : Bool
  topology_ok : plannerTopology H planner = .ok topology
  timing_ok : plannerTiming H (Raw.field planner "timing") = .ok timing
  market_ok : normalizeMarket H (Raw.field planner "market") = .ok market
  rebateAware_ok : strictBool H (Raw.fieldD planner "rebate_aware" (.bool false))
    "planner.rebate_aware" = .ok rebateAware

/-- The normalised block. -/
def PlannerStages.cfg (s : PlannerStages H planner) : PlannerConfig where
  topology := resolveTopology s.topology
  timing := s.timing
  deployment := (Raw.field planner "deployment").asDict
  sharing := plannerSharing (Raw.field planner "sharing") s.topology
  market := s.market
  rebateAware := s.rebateAware

variable {cfg : PlannerConfig}

theorem normalizePlanner_eq_ok :
    normalizePlanner H (.dict planner) = .ok cfg ↔ ∃ s : PlannerStages H planner, cfg = s.cfg := by
  constructor
  · intro h
    obtain ⟨topology, htopology, h⟩ := bind_eq_ok.mp h
    obtain ⟨timing, htiming, h⟩ := bind_eq_ok.mp h
    obtain ⟨market, hmarket, h⟩ := bind_eq_ok.mp h
    obtain ⟨rebateAware, hrebateAware, h⟩ := bind_eq_ok.mp h
    exact ⟨⟨topology, timing, market, rebateAware, htopology, htiming, hmarket, hrebateAware⟩,
      (Except.ok.inj h).symm⟩
  · rintro ⟨s, rfl⟩
    exact bind_eq_ok.mpr ⟨_, s.topology_ok, bind_eq_ok.mpr ⟨_, s.timing_ok,
      bind_eq_ok.mpr ⟨_, s.market_ok, bind_eq_ok.mpr ⟨_, s.rebateAware_ok, rfl⟩⟩⟩⟩

theorem normalizePlanner_setMarket (s : PlannerStages H planner) {market : List (String × Raw)} :
    normalizePlanner H (.dict (Dict.setIn "market" (.dict market) planner)) = .ok cfg ↔
      ∃ market', normalizeMarket H (.dict market) = .ok market' ∧
        cfg = { s.cfg with market := market' } := by
  have htopology : plannerTopology H (Dict.setIn "market" (.dict market) planner) =
      plannerTopology H planner := by
    simp (disch := decide) only [plannerTopology, Raw.field_setIn_ne]
  have hrebate : Raw.fieldD (Dict.setIn "market" (.dict market) planner) "rebate_aware"
      (.bool false) =
      Raw.fieldD planner "rebate_aware" (.bool false) := by
    rw [Raw.fieldD, Dict.lookupIn_setIn, if_neg (by decide), Raw.fieldD]
  rw [normalizePlanner_eq_ok]
  constructor
  · rintro ⟨s', rfl⟩
    have hmarket := s'.market_ok
    rw [Raw.field_setIn_self] at hmarket
    have ht := s'.topology_ok
    rw [htopology, s.topology_ok] at ht
    have htiming := s'.timing_ok
    rw [Raw.field_setIn_ne _ _ (by decide), s.timing_ok] at htiming
    have hr := s'.rebateAware_ok
    rw [hrebate, s.rebateAware_ok] at hr
    refine ⟨s'.market, hmarket, ?_⟩
    simp (disch := decide) only [PlannerStages.cfg, Raw.field_setIn_ne, ← Except.ok.inj ht,
      ← Except.ok.inj htiming, ← Except.ok.inj hr]
  · rintro ⟨market', hmarket, rfl⟩
    refine ⟨⟨s.topology, s.timing, market', s.rebateAware, htopology.trans s.topology_ok, ?_, ?_,
      hrebate.symm ▸ s.rebateAware_ok⟩, ?_⟩
    · rw [Raw.field_setIn_ne _ _ (by decide)]
      exact s.timing_ok
    · rw [Raw.field_setIn_self]
      exact hmarket
    · simp (disch := decide) only [PlannerStages.cfg, Raw.field_setIn_ne]

theorem normalizePlanner_setSharing (s : PlannerStages H planner) {sharing : Raw} :
    normalizePlanner H (.dict (Dict.setIn "sharing" sharing planner)) =
      .ok { s.cfg with sharing := plannerSharing sharing s.topology } := by
  have htopology : plannerTopology H (Dict.setIn "sharing" sharing planner) =
      plannerTopology H planner := by
    simp (disch := decide) only [plannerTopology, Raw.field_setIn_ne]
  refine normalizePlanner_eq_ok.mpr
    ⟨⟨s.topology, s.timing, s.market, s.rebateAware, htopology.trans s.topology_ok, ?_, ?_, ?_⟩, ?_⟩
  · rw [Raw.field_setIn_ne _ _ (by decide)]
    exact s.timing_ok
  · rw [Raw.field_setIn_ne _ _ (by decide)]
    exact s.market_ok
  · rw [Raw.fieldD, Dict.lookupIn_setIn, if_neg (by decide)]
    exact s.rebateAware_ok
  · simp (disch := decide) only [PlannerStages.cfg, Raw.field_setIn_ne, Raw.field_setIn_self]

/-- The block with another topology, as far as it is one. -/
theorem normalizePlanner_setTopology (s : PlannerStages H planner) {name : String} :
    normalizePlanner H (.dict (Dict.setIn "topology" (.str name) planner)) = .ok cfg ↔
      ∃ topology ∈ plannerTopologies, topology = (if name = "" then "partitioned" else name) ∧
        cfg = { s.cfg with
          topology := resolveTopology topology
          sharing := plannerSharing (Raw.field planner "sharing") topology } := by
  have hread : H.strOf ((Raw.str name).orElse (.str "partitioned")) =
      if name = "" then "partitioned" else name := by
    split
    · next hname =>
      rw [hname]
      rfl
    · next hname =>
      rw [Raw.orElse_str hname]
      rfl
  rw [normalizePlanner_eq_ok]
  constructor
  · rintro ⟨s', rfl⟩
    have ht := s'.topology_ok
    have hmem := plannerTopology_mem H ht
    have htiming := s'.timing_ok
    rw [Raw.field_setIn_ne _ _ (by decide), s.timing_ok] at htiming
    have hmarket := s'.market_ok
    rw [Raw.field_setIn_ne _ _ (by decide), s.market_ok] at hmarket
    have hr := s'.rebateAware_ok
    rw [Raw.fieldD, Dict.lookupIn_setIn, if_neg (by decide)] at hr
    have hr' := s.rebateAware_ok.symm.trans hr
    refine ⟨s'.topology, hmem, ?_, ?_⟩
    · rw [plannerTopology, Raw.field_setIn_self, hread] at ht
      by_cases hknown : (if name = "" then "partitioned" else name) ∈ plannerTopologies
      · exact (Except.ok.inj ((if_pos hknown).symm.trans ht)).symm
      · cases (if_neg hknown).symm.trans ht
    · simp (disch := decide) only [PlannerStages.cfg, Raw.field_setIn_ne,
        ← Except.ok.inj htiming, ← Except.ok.inj hmarket, ← Except.ok.inj hr']
  · rintro ⟨topology, hmem, heq, rfl⟩
    refine ⟨⟨topology, s.timing, s.market, s.rebateAware, ?_, ?_, ?_, ?_⟩, ?_⟩
    · rw [plannerTopology, Raw.field_setIn_self, hread]
      rw [← heq, if_pos hmem]
    · rw [Raw.field_setIn_ne _ _ (by decide)]
      exact s.timing_ok
    · rw [Raw.field_setIn_ne _ _ (by decide)]
      exact s.market_ok
    · rw [Raw.fieldD, Dict.lookupIn_setIn, if_neg (by decide)]
      exact s.rebateAware_ok
    · simp (disch := decide) only [PlannerStages.cfg, Raw.field_setIn_ne]

/-- The topology as authored. -/
def authoredTopology (H : PyHost) (planner : List (String × Raw)) : String :=
  H.strOf ((Raw.field planner "topology").orElse (.str "partitioned"))

theorem plannerTopology_eq {H : PyHost} {planner : List (String × Raw)} {topology : String}
    (h : plannerTopology H planner = .ok topology) : authoredTopology H planner = topology := by
  by_cases hknown : authoredTopology H planner ∈ plannerTopologies
  · exact Except.ok.inj ((if_pos hknown).symm.trans h)
  · cases (if_neg hknown).symm.trans h

theorem plannerSharing_eq (sharing : Raw) (topology : String) : plannerSharing sharing topology =
    if (Raw.field sharing.asDict "type").truthy = true then
      .dict (setDefaultIn "params" (.dict []) sharing.asDict)
    else if topology = "two-stage" then algorithmRaw defaultSharingAlgorithm else .null := by
  cases sharing <;> rfl

theorem lookupIn_setDefaultIn (block : List (String × Raw)) :
    Dict.lookupIn "params" (setDefaultIn "params" (.dict []) block) =
      some (Raw.fieldD block "params" (.dict [])) ∧
    ∀ key, key ≠ "params" → Dict.lookupIn key (setDefaultIn "params" (.dict []) block) =
      Dict.lookupIn key block := by
  rw [setDefaultIn, Raw.fieldD]
  cases h : Dict.lookupIn "params" block with
  | none =>
    refine ⟨?_, fun key hkey ↦ ?_⟩
    · rw [Dict.lookupIn_setIn, if_pos rfl]
      rfl
    · rw [Dict.lookupIn_setIn, if_neg hkey]
  | some params => exact ⟨h, fun _ _ ↦ rfl⟩

theorem exists_marketStages {H : PyHost} {planner : List (String × Raw)}
    (ps : PlannerStages H planner) : ∃ blocks rounds,
      MarketStages H (Raw.field planner "market").asDict blocks rounds ∧
        ps.market = settledMarket (Raw.field planner "market").asDict blocks rounds := by
  have hmarket := ps.market_ok
  rw [← normalizeMarket_eq_ok]
  cases hfield : Raw.field planner "market" with
  | null =>
    rw [hfield] at hmarket
    exact hmarket
  | dict market =>
    rw [hfield] at hmarket
    exact hmarket
  | bool | int | float | str | list =>
    rw [hfield] at hmarket
    cases hmarket

end

theorem exists_plannerStages {E : DatagenEnv} {raw : List (String × Raw)} {referenceTime : String}
    (s : Stages E raw referenceTime) :
    ∃ ps : PlannerStages E.host (Raw.field raw "planner").asDict, ps.cfg = s.planner := by
  have hplanner := s.planner_ok
  cases hfield : Raw.field raw "planner" with
  | null =>
    rw [hfield] at hplanner
    obtain ⟨ps, hps⟩ := normalizePlanner_eq_ok.mp
      (show normalizePlanner E.host (.dict []) = .ok s.planner from hplanner)
    exact ⟨ps, hps.symm⟩
  | dict planner =>
    rw [hfield] at hplanner
    obtain ⟨ps, hps⟩ := normalizePlanner_eq_ok.mp hplanner
    exact ⟨ps, hps.symm⟩
  | bool | int | float | str | list =>
    rw [hfield] at hplanner
    cases hplanner

end OpenRide.Datagen
