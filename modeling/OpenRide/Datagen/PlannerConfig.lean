import OpenRide.Datagen.Values

/-!
# The planner block

How orders are planned is authored as a block with a topology, a timing mode, the algorithms that
deploy and share, and the market of the pooled topology.  `normalizePlanner` checks the axes that
the framework fixes, fills in what is missing, and resolves the old name of a topology; names of
algorithms are not checked here.

The normalised block is what a scenario is saved with, only that its deployment is replaced by the
strategy that runs.  It is a normal form (`normalizePlanner_toRaw`): the old topology name is gone,
and with it the sharing default it implied, which is written out.
-/

namespace OpenRide.Datagen

open Lib

/-- `PLANNER_TOPOLOGIES`. -/
def plannerTopologies : List String := ["partitioned", "pooled", "two-stage"]

/-- `PLANNER_TOPOLOGY_ALIASES.get(topology, topology)`. -/
def resolveTopology (topology : String) : String :=
  if topology = "two-stage" then "pooled" else topology

/-- `PLANNER_TIMING_MODES`. -/
def plannerTimingModes : List String := ["online", "static", "hybrid"]

/-- `DEFAULT_SHARING_ALGORITHM`. -/
def defaultSharingAlgorithm : String := "transfer-when-cheaper"

/-- An algorithm without parameters. -/
def algorithmRaw (type : String) : Raw := .dict [("type", .str type), ("params", .dict [])]

/-- `MARKET_ROLES`, each with its algorithm in `DEFAULT_MARKET`. -/
def marketRoles : List (String × String) :=
  [("offer", "OfferAll"), ("claim", "ClaimAllPlanned"), ("arbitration", "LowestCost")]

/-- `DEFAULT_MARKET["max_rounds"]`. -/
def defaultMaxRounds : ℤ := 20

/-- `MARKET_MAX_ROUNDS_MIN`. -/
def marketMaxRoundsMin : ℤ := 1

/-- `MARKET_MAX_ROUNDS_MAX`. -/
def marketMaxRoundsMax : ℤ := 100

/-- A normalised planner block. -/
structure PlannerConfig where
  topology : String
  timing : List (String × Raw)
  deployment : List (String × Raw)
  sharing : Raw
  market : List (String × Raw)
  rebateAware : Bool

/-- The planner block as the dictionary that is persisted. -/
def PlannerConfig.toRaw (cfg : PlannerConfig) : Raw :=
  .dict [("topology", .str cfg.topology), ("timing", .dict cfg.timing),
    ("deployment", .dict cfg.deployment), ("sharing", cfg.sharing), ("market", .dict cfg.market),
    ("rebate_aware", .bool cfg.rebateAware)]

/-- `entries.setdefault(key, value)`. -/
def setDefaultIn (key : String) (value : Raw) (entries : List (String × Raw)) :
    List (String × Raw) :=
  match Dict.lookupIn key entries with
  | none => Dict.setIn key value entries
  | some _ => entries

section

variable (H : PyHost)

/-! ## The market -/

/-- The type of a market role: a text that is not blank. -/
def marketType (role default : String) (rawType : Raw) : Except PyError String :=
  let shown := H.repr (.str role)
  let wrong : PyError := .validation s!"planner: market {shown} 'type' must be a non-empty string"
  match rawType with
  | .null => .ok (pyStrip default)
  | .str ptype => if pyStrip ptype = "" then .error wrong else .ok (pyStrip ptype)
  | _ => .error wrong

/-- The parameters of a market role. -/
def marketParams (role : String) (rawParams : Raw) : Except PyError (List (String × Raw)) :=
  match rawParams with
  | .null => .ok []
  | .dict params => .ok params
  | _ =>
    let shown := H.repr (.str role)
    .error (.validation s!"planner: market {shown} 'params' must be an object")

/-- One role of the market, normalised. -/
def marketRole (role default : String) (market : List (String × Raw)) :
    Except PyError (List (String × Raw)) :=
  match Raw.field market role with
  | .null => .ok (Dict.setIn role (algorithmRaw default) market)
  | .dict block => do
    let ptype ← marketType H role default (Raw.field block "type")
    let params ← marketParams H role (Raw.field block "params")
    return Dict.setIn role
      (.dict (Dict.setIn "params" (.dict params) (Dict.setIn "type" (.str ptype) block))) market
  | _ =>
    let shown := H.repr (.str role)
    .error (.validation s!"planner: market {shown} must be an object with 'type' and 'params'")

/-- The roles of the market, normalised one after the other. -/
def marketRolesFrom : List (String × String) → List (String × Raw) →
    Except PyError (List (String × Raw))
  | [], market => .ok market
  | (role, default) :: roles, market => do
    let market ← marketRole H role default market
    marketRolesFrom roles market

/-- The bound on the rounds of the market. -/
def marketRounds (rawRounds : Raw) : Except PyError ℤ :=
  let low := toString marketMaxRoundsMin
  let high := toString marketMaxRoundsMax
  let got := H.repr rawRounds
  let wrong : PyError := .validation
    s!"planner: market 'max_rounds' must be an integer in {low}..{high} (got {got})"
  match rawRounds with
  | .null => .ok defaultMaxRounds
  | .int rounds =>
    if marketMaxRoundsMin ≤ rounds ∧ rounds ≤ marketMaxRoundsMax then .ok rounds else .error wrong
  -- a boolean is an integer of the language, but not here
  | _ => .error wrong

/-- `_normalize_market`. -/
def normalizeMarket (rawMarket : Raw) : Except PyError (List (String × Raw)) :=
  let normalized (market : List (String × Raw)) : Except PyError (List (String × Raw)) := do
    let market ← marketRolesFrom H marketRoles market
    let rounds ← marketRounds H (Raw.field market "max_rounds")
    return Dict.setIn "max_rounds" (.int rounds) market
  match rawMarket with
  | .null => normalized []
  | .dict market => normalized market
  | _ => .error (.validation "planner: 'market' must be an object")

/-! ## The block -/

/-- The topology as authored. -/
def plannerTopology (planner : List (String × Raw)) : Except PyError String :=
  let topology := H.strOf ((Raw.field planner "topology").orElse (.str "partitioned"))
  if topology ∈ plannerTopologies then .ok topology else
    let shown := H.repr (.str topology)
    let available := H.repr (.list (plannerTopologies.map .str))
    .error (.validation s!"planner: unknown topology {shown}. Available: {available}")

/-- The timing, with its mode checked. -/
def plannerTiming (rawTiming : Raw) : Except PyError (List (String × Raw)) :=
  let checked (timing : List (String × Raw)) : Except PyError (List (String × Raw)) :=
    let mode := H.strOf ((Raw.field timing "mode").orElse (.str "online"))
    if mode ∈ plannerTimingModes then .ok (Dict.setIn "mode" (.str mode) timing) else
      let shown := H.repr (.str mode)
      let available := H.repr (.list (plannerTimingModes.map .str))
      .error (.validation s!"planner: unknown timing mode {shown}. Available: {available}")
  match rawTiming with
  | .str mode => checked [("mode", .str mode)]
  | .dict timing => checked timing
  | .null => checked [("mode", .str "online")]
  | _ => .error (.validation "planner: 'timing' must be a mode string or object")

/-- The sharing algorithm.  Only the old topology name has a default. -/
def plannerSharing (rawSharing : Raw) (topology : String) : Raw :=
  let default := if topology = "two-stage" then algorithmRaw defaultSharingAlgorithm else .null
  match rawSharing with
  | .dict sharing =>
    if (Raw.field sharing "type").truthy then .dict (setDefaultIn "params" (.dict []) sharing)
    else default
  | _ => default

/-- `_strict_bool`. -/
def strictBool (value : Raw) (whr : String) : Except PyError Bool :=
  match value with
  | .bool b => .ok b
  | _ =>
    let got := H.repr value
    let type := value.typeName
    .error (.validation (s!"{whr}: must be a boolean true/false (got {got} of type {type}). " ++
      "Strings are refused rather than coerced: bool(\"false\") is True, which would silently " ++
      "ENABLE the flag."))

/-- `_normalize_planner`. -/
def normalizePlanner (rawPlanner : Raw) : Except PyError PlannerConfig :=
  let normalized (planner : List (String × Raw)) : Except PyError PlannerConfig := do
    let topology ← plannerTopology H planner
    let timing ← plannerTiming H (Raw.field planner "timing")
    let market ← normalizeMarket H (Raw.field planner "market")
    let rebateAware ←
      strictBool H (Raw.fieldD planner "rebate_aware" (.bool false)) "planner.rebate_aware"
    return {
      topology := resolveTopology topology
      timing := timing
      deployment := (Raw.field planner "deployment").asDict
      sharing := plannerSharing (Raw.field planner "sharing") topology
      market := market
      rebateAware := rebateAware }
  match rawPlanner with
  | .null => normalized []
  | .dict planner => normalized planner
  | _ => .error (.validation "planner: must be an object")

/-! ## Normal forms -/

/-- A role of the market as normalised: an object with a stripped type and parameters. -/
def RoleSettled (market : List (String × Raw)) (role : String) : Prop :=
  ∃ block ptype params, Raw.field market role = .dict block ∧
    Raw.field block "type" = .str ptype ∧ pyStrip ptype = ptype ∧ ptype ≠ "" ∧
    Raw.field block "params" = .dict params

variable {role default : String}

theorem marketType_settled {ptype : String} {rawType : Raw} (hd : pyStrip default ≠ "")
    (h : marketType H role default rawType = .ok ptype) : pyStrip ptype = ptype ∧ ptype ≠ "" := by
  unfold marketType at h
  dsimp only at h
  split at h
  · cases h
    exact ⟨pyStrip_pyStrip _, hd⟩
  · split at h
    · cases h
    · next hne =>
      cases h
      exact ⟨pyStrip_pyStrip _, hne⟩
  · cases h

variable {market : List (String × Raw)}

/-- What normalising a role does: it settles the role and leaves the other fields alone. -/
theorem marketRole_spec {market' : List (String × Raw)}
    (hd : pyStrip default = default ∧ default ≠ "")
    (h : marketRole H role default market = .ok market') :
    RoleSettled market' role ∧ ∀ x, x ≠ role → Raw.field market' x = Raw.field market x := by
  unfold marketRole at h
  split at h
  · cases h
    refine ⟨⟨_, default, [], Raw.field_setIn_self _ _ _, rfl, hd.1, hd.2, rfl⟩, fun x hx ↦ ?_⟩
    exact Raw.field_setIn_ne _ _ hx
  · next block _ =>
    obtain ⟨ptype, htype, h⟩ := bind_eq_ok.mp h
    obtain ⟨params, -, h⟩ := bind_eq_ok.mp h
    cases h
    obtain ⟨hstrip, hne⟩ := marketType_settled H (hd.1.symm ▸ hd.2) htype
    refine ⟨⟨_, ptype, params, Raw.field_setIn_self _ _ _, ?_, hstrip, hne,
      Raw.field_setIn_self _ _ _⟩, fun x hx ↦ Raw.field_setIn_ne _ _ hx⟩
    rw [Raw.field_setIn_ne _ _ (by decide), Raw.field_setIn_self]
  · cases h

theorem RoleSettled.marketRole_eq (h : RoleSettled market role) :
    marketRole H role default market = .ok market := by
  obtain ⟨block, ptype, params, hblock, htype, hstrip, hne, hparams⟩ := h
  have hmarketType : marketType H role default (.str ptype) = .ok ptype := by
    unfold marketType
    dsimp only
    rw [hstrip, if_neg hne]
  unfold marketRole
  rw [hblock]
  dsimp only
  rw [htype, hmarketType, ok_bind, hparams]
  show Except.ok _ = _
  rw [Raw.setIn_of_field htype rfl, Raw.setIn_of_field hparams rfl, Raw.setIn_of_field hblock rfl]

theorem marketRolesFrom_settled {roles : List (String × String)} {market' : List (String × Raw)}
    (hroles : ∀ r ∈ roles, pyStrip r.2 = r.2 ∧ r.2 ≠ "") (hn : (roles.map Prod.fst).Nodup)
    (h : marketRolesFrom H roles market = .ok market') :
    (∀ r ∈ roles, RoleSettled market' r.1) ∧
      ∀ x, x ∉ roles.map Prod.fst → Raw.field market' x = Raw.field market x := by
  induction roles generalizing market with
  | nil =>
    cases h
    exact ⟨nofun, fun _ _ ↦ rfl⟩
  | cons r roles ih =>
    obtain ⟨role, default⟩ := r
    obtain ⟨hrole, hn⟩ := List.nodup_cons.mp hn
    obtain ⟨next, hnext, h⟩ := bind_eq_ok.mp h
    obtain ⟨hsettled, hother⟩ := marketRole_spec H (hroles _ List.mem_cons_self) hnext
    obtain ⟨hrest, hfields⟩ := ih (fun r hr ↦ hroles r (List.mem_cons_of_mem _ hr)) hn h
    refine ⟨fun r hr ↦ ?_, fun x hx ↦ ?_⟩
    · rcases List.mem_cons.mp hr with rfl | hr
      · rw [RoleSettled, hfields _ hrole]
        exact hsettled
      · exact hrest r hr
    · rw [List.map_cons, List.mem_cons, not_or] at hx
      rw [hfields x hx.2, hother x hx.1]

theorem marketRolesFrom_eq {roles : List (String × String)}
    (h : ∀ r ∈ roles, RoleSettled market r.1) : marketRolesFrom H roles market = .ok market := by
  induction roles with
  | nil => rfl
  | cons r roles ih =>
    rw [marketRolesFrom, (h r List.mem_cons_self).marketRole_eq, ok_bind]
    exact ih fun r hr ↦ h r (List.mem_cons_of_mem _ hr)

/-- **A normalised market is a normal form.** -/
theorem normalizeMarket_idem {rawMarket : Raw} (h : normalizeMarket H rawMarket = .ok market) :
    normalizeMarket H (.dict market) = .ok market := by
  have hroles : ∀ r ∈ marketRoles, pyStrip r.2 = r.2 ∧ r.2 ≠ "" := by
    decide +kernel
  have hcore : ∀ authored, ((do
      let market ← marketRolesFrom H marketRoles authored
      let rounds ← marketRounds H (Raw.field market "max_rounds")
      return Dict.setIn "max_rounds" (.int rounds) market) : Except PyError _) = .ok market →
      normalizeMarket H (.dict market) = .ok market := by
    intro authored h
    obtain ⟨settled, hsettled, h⟩ := bind_eq_ok.mp h
    obtain ⟨rounds, hrounds, h⟩ := bind_eq_ok.mp h
    cases h
    obtain ⟨hall, -⟩ := marketRolesFrom_settled H hroles (by decide) hsettled
    have hset : ∀ r ∈ marketRoles,
      RoleSettled (Dict.setIn "max_rounds" (.int rounds) settled) r.1 := by
      intro r hr
      have hne : r.1 ≠ "max_rounds" := by
        revert r
        decide
      rw [RoleSettled, Raw.field_setIn_ne _ _ hne]
      exact hall r hr
    have hrounds' : marketRounds H (.int rounds) = .ok rounds := by
      unfold marketRounds at hrounds
      dsimp only at hrounds
      split at hrounds
      · cases hrounds
        rfl
      · split at hrounds
        · next hrange =>
          cases hrounds
          exact if_pos hrange
        · cases hrounds
      · cases hrounds
    unfold normalizeMarket
    dsimp only
    rw [marketRolesFrom_eq H hset, ok_bind, Raw.field_setIn_self, hrounds', ok_bind]
    show Except.ok _ = _
    rw [Dict.setIn_setIn]
  unfold normalizeMarket at h
  dsimp only at h
  split at h
  · exact hcore [] h
  · exact hcore _ h
  · cases h

variable {topology : String}

theorem plannerTopology_mem {planner : List (String × Raw)}
    (h : plannerTopology H planner = .ok topology) : topology ∈ plannerTopologies := by
  unfold plannerTopology at h
  dsimp only at h
  split at h
  · next hmem =>
    cases h
    exact hmem
  · cases h

/-- A resolved topology resolves to itself, and it is not the old name. -/
theorem resolveTopology_mem (h : topology ∈ plannerTopologies) :
    resolveTopology topology = "partitioned" ∨ resolveTopology topology = "pooled" := by
  revert topology
  decide

/-- A timing as normalised: its mode is one of the known ones. -/
def TimingSettled (timing : List (String × Raw)) : Prop :=
  ∃ mode ∈ plannerTimingModes, Raw.field timing "mode" = .str mode

theorem plannerTiming_settled {rawTiming : Raw} {timing : List (String × Raw)}
    (h : plannerTiming H rawTiming = .ok timing) : TimingSettled timing := by
  have hchecked : ∀ authored : List (String × Raw), plannerTiming H (.dict authored) = .ok timing →
      TimingSettled timing := by
    intro authored h
    unfold plannerTiming at h
    dsimp only at h
    split at h
    · next hmem =>
      cases h
      exact ⟨_, hmem, Raw.field_setIn_self _ _ _⟩
    · cases h
  cases rawTiming with
  | str mode => exact hchecked [("mode", .str mode)] h
  | dict authored => exact hchecked authored h
  | null => exact hchecked [("mode", .str "online")] h
  | bool | int | float | list => cases h

theorem TimingSettled.plannerTiming_eq {timing : List (String × Raw)} (h : TimingSettled timing) :
    plannerTiming H (.dict timing) = .ok timing := by
  obtain ⟨mode, hmem, hmode⟩ := h
  have hne : mode ≠ "" := by
    rintro rfl
    exact absurd hmem (by decide)
  have hstr : H.strOf ((Raw.str mode).orElse (.str "online")) = mode := by
    rw [Raw.orElse_str hne]
    rfl
  unfold plannerTiming
  dsimp only
  rw [hmode, hstr, if_pos hmem, Raw.setIn_of_field hmode rfl]

/-- A sharing algorithm as normalised: none, or one with a type and parameters. -/
def SharingSettled (sharing : Raw) : Prop :=
  sharing = .null ∨ ∃ entries, sharing = .dict entries ∧ (Raw.field entries "type").truthy = true ∧
    ∃ params, Dict.lookupIn "params" entries = some params

theorem setDefaultIn_spec (entries : List (String × Raw)) :
    (∃ params, Dict.lookupIn "params" (setDefaultIn "params" (.dict []) entries) = some params) ∧
      Raw.field (setDefaultIn "params" (.dict []) entries) "type" = Raw.field entries "type" := by
  rw [setDefaultIn]
  split
  · refine ⟨⟨.dict [], ?_⟩, Raw.field_setIn_ne _ _ (by decide)⟩
    rw [Dict.lookupIn_setIn, if_pos rfl]
  · next params hparams => exact ⟨⟨params, hparams⟩, rfl⟩

theorem plannerSharing_settled (rawSharing : Raw) (topology : String) :
    SharingSettled (plannerSharing rawSharing topology) := by
  have hdefault : SharingSettled
      (if topology = "two-stage" then algorithmRaw defaultSharingAlgorithm else .null) := by
    split
    · exact Or.inr ⟨_, rfl, by decide, .dict [], rfl⟩
    · exact Or.inl rfl
  cases rawSharing with
  | dict sharing =>
    unfold plannerSharing
    dsimp only
    split
    · next htype =>
      obtain ⟨hparams, hkept⟩ := setDefaultIn_spec sharing
      exact Or.inr ⟨_, rfl, by rw [hkept]; exact htype, hparams⟩
    · exact hdefault
  | null | bool | int | float | str | list => exact hdefault

theorem SharingSettled.plannerSharing_eq {sharing : Raw} (h : SharingSettled sharing)
    (hne : topology ≠ "two-stage") : plannerSharing sharing topology = sharing := by
  rcases h with rfl | ⟨entries, rfl, htype, params, hparams⟩
  · exact if_neg hne
  · unfold plannerSharing
    dsimp only
    rw [if_pos htype, setDefaultIn, hparams]

/-- What a normalised block is made of. -/
structure PlannerConfig.Settled (cfg : PlannerConfig) : Prop where
  topology : cfg.topology = "partitioned" ∨ cfg.topology = "pooled"
  timing : TimingSettled cfg.timing
  sharing : SharingSettled cfg.sharing
  market : normalizeMarket H (.dict cfg.market) = .ok cfg.market

theorem normalizePlanner_settled {rawPlanner : Raw} {cfg : PlannerConfig}
    (h : normalizePlanner H rawPlanner = .ok cfg) : cfg.Settled H := by
  have hdict : ∀ planner, normalizePlanner H (.dict planner) = .ok cfg → cfg.Settled H := by
    intro planner h
    obtain ⟨topology, htopology, h⟩ := bind_eq_ok.mp h
    obtain ⟨timing, htiming, h⟩ := bind_eq_ok.mp h
    obtain ⟨market, hmarket, h⟩ := bind_eq_ok.mp h
    obtain ⟨rebateAware, -, h⟩ := bind_eq_ok.mp h
    cases h
    exact ⟨resolveTopology_mem (plannerTopology_mem H htopology), plannerTiming_settled H htiming,
      plannerSharing_settled _ _, normalizeMarket_idem H hmarket⟩
  cases rawPlanner with
  | null => exact hdict [] h
  | dict planner => exact hdict planner h
  | bool | int | float | str | list => cases h

/-- **A normalised planner block is a normal form**, whatever its deployment is. -/
theorem PlannerConfig.Settled.normalizePlanner_toRaw {cfg : PlannerConfig} (h : cfg.Settled H) :
    normalizePlanner H cfg.toRaw = .ok cfg := by
  have htopology : plannerTopology H cfg.toRaw.asDict = .ok cfg.topology ∧
      resolveTopology cfg.topology = cfg.topology ∧ cfg.topology ≠ "two-stage" := by
    have hstr : H.strOf ((Raw.str cfg.topology).orElse (.str "partitioned")) = cfg.topology := by
      rw [Raw.orElse_str (by rcases h.topology with he | he <;> rw [he] <;> decide)]
      rfl
    refine ⟨?_, ?_, ?_⟩
    · unfold plannerTopology
      show (if H.strOf ((Raw.str cfg.topology).orElse (.str "partitioned")) ∈ plannerTopologies
        then _ else _) = _
      rw [hstr, if_pos (by rcases h.topology with he | he <;> rw [he] <;> decide)]
      exact congrArg Except.ok hstr
    · rcases h.topology with he | he <;> rw [he] <;> decide
    · rcases h.topology with he | he <;> rw [he] <;> decide
  obtain ⟨hread, hresolved, hne⟩ := htopology
  show (plannerTopology H cfg.toRaw.asDict >>= _) = _
  rw [hread, ok_bind]
  show (plannerTiming H (.dict cfg.timing) >>= _) = _
  rw [h.timing.plannerTiming_eq, ok_bind]
  show (normalizeMarket H (.dict cfg.market) >>= _) = _
  rw [h.market, ok_bind]
  show (strictBool H (.bool cfg.rebateAware) _ >>= _) = _
  rw [strictBool, ok_bind, hresolved]
  show Except.ok { cfg with sharing := plannerSharing cfg.sharing cfg.topology } = _
  rw [h.sharing.plannerSharing_eq hne]

end

end OpenRide.Datagen
