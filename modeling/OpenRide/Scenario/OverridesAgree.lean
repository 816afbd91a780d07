import OpenRide.Scenario.RunOverrides

/-!
# When an override is authoring the value

An override and the compiler read the same value with two functions.  Where they agree is said kind
by kind (`PlannerOverride.Agrees`), and `asAuthored_iff` says that this is all: there the override
is accepted just when the compiler accepts and uses the value, and gives the same planner block, and
elsewhere it is not so.
-/

namespace OpenRide.Scenario

open Lib Datagen

/-! ## Blocks that are the same -/

theorem same_toRaw_sharing (cfg : PlannerConfig) (v w : Raw) :
    Same ({ cfg with sharing := v } : PlannerConfig).toRaw
      ({ cfg with sharing := w } : PlannerConfig).toRaw ↔ Same v w := by
  show Same (.dict (Dict.setIn "sharing" v cfg.toRaw.asDict))
    (.dict (Dict.setIn "sharing" w cfg.toRaw.asDict)) ↔ _
  exact same_setIn_setIn_iff

/-- A market written over, and the market that runs. -/
theorem same_setMarket_iff (E : DatagenEnv) (raw : List (String × Raw)) (cfg : PlannerConfig)
    (v w : List (String × Raw)) :
    Same (.dict (Dict.setIn "market" (.dict v) (runs E raw cfg).toRaw.asDict))
      (runs E raw { cfg with market := w }).toRaw ↔ Same (.dict v) (.dict w) := by
  exact same_setIn_setIn_iff

/-- A way of sharing written over, and the one that runs. -/
theorem same_setSharing_iff (E : DatagenEnv) (raw : List (String × Raw)) (cfg : PlannerConfig)
    (v w : Raw) :
    Same (.dict (Dict.setIn "sharing" v (runs E raw cfg).toRaw.asDict))
      (runs E raw { cfg with sharing := w }).toRaw ↔ Same v w := by
  exact same_setIn_setIn_iff

/-- An algorithm with a type and parameters, and nothing else. -/
theorem same_algorithm_iff {name type : String} {params v : Raw} {block : List (String × Raw)}
    (htype : Dict.lookupIn "type" block = some (.str type))
    (hparams : Dict.lookupIn "params" block = some v) :
    Same (.dict [("type", .str name), ("params", params)]) (.dict block) ↔
      name = type ∧ Same params v ∧
        ∀ key, key ≠ "type" → key ≠ "params" → Dict.lookupIn key block = none := by
  have hpair (key : String) : Dict.lookupIn key [("type", Raw.str name), ("params", params)] =
      if key = "type" then some (.str name) else if key = "params" then some params else none := by
    simp only [Dict.lookupIn]
    split
    · next h => rw [if_pos h.symm]
    · next h =>
      rw [if_neg (Ne.symm h)]
      split
      · next h' => rw [if_pos h'.symm]
      · next h' => rw [if_neg (Ne.symm h')]
  constructor
  · intro h
    refine ⟨(h.lookupIn rfl htype).str_inj, h.lookupIn rfl hparams, fun key ht hp ↦ ?_⟩
    rw [← h.lookupIn_eq_none, hpair, if_neg ht, if_neg hp]
  · rintro ⟨rfl, hsame, hother⟩
    refine Same.dict (fun key ↦ ?_) fun key v' w' hv hw ↦ ?_
    · rw [hpair]
      split
      · next h => rw [h, htype]
      · next h =>
        split
        · next h' =>
          rw [h', hparams]
          exact iff_of_false (Option.some_ne_none _) (Option.some_ne_none _)
        · next h' => rw [hother key h h']
    · rw [hpair] at hv
      split at hv
      · next h =>
        rw [h, htype, hv] at hw
        cases hw
        exact Same.refl _
      · next h =>
        split at hv
        · next h' =>
          rw [h', hparams] at hw
          cases hv
          cases hw
          exact hsame
        · cases hv

/-! ## When the two agree -/

/-- The block of an algorithm says nothing but its type and its parameters. -/
def OnlyAlgorithm (block : List (String × Raw)) : Prop :=
  ∀ p ∈ block, p.1 = "type" ∨ p.1 = "params"

/-- The authored sharing names a type. -/
def SharingNamed (planner : List (String × Raw)) : Prop :=
  (Raw.field (Raw.field planner "sharing").asDict "type").truthy = true

/-- When an override does what authoring the value in this planner block does. -/
def PlannerOverride.Agrees (H : PyHost) (planner : List (String × Raw)) : PlannerOverride → Prop
  | topology name => name ∈ plannerTopologies →
    SharingNamed planner ∨ (authoredTopology H planner = "two-stage" ↔ name = "two-stage")
  | policy role name => name = "" ∨ name = pyStrip name ∧
    OnlyAlgorithm (Raw.field (Raw.field planner "market").asDict role.key).asDict
  | maxRounds (.int rounds) => ¬ (10 < rounds ∧ rounds ≤ 100)
  | maxRounds value => ∃ rounds, caught (pyInt H value) = .ok rounds ∧
    ∀ r ∈ rounds, ¬ (1 ≤ r ∧ r ≤ 10)
  | sharing name =>
    let block := (Raw.field planner "sharing").asDict
    name = "" ∨ OnlyAlgorithm block ∧
      ∃ params, Raw.fieldD block "params" (.dict []) = .dict params ∧
        (SharingNamed planner ∨ params = [])

theorem onlyAlgorithm_iff {block : List (String × Raw)} : OnlyAlgorithm block ↔
    ∀ key, key ≠ "type" → key ≠ "params" → Dict.lookupIn key block = none := by
  constructor
  · intro h key htype hparams
    refine Dict.lookupIn_eq_none.mpr fun hmem ↦ ?_
    obtain ⟨p, hp, rfl⟩ := List.mem_map.mp hmem
    rcases h p hp with he | he
    · exact htype he
    · exact hparams he
  · intro h p hp
    by_contra hne
    rw [not_or] at hne
    exact Dict.lookupIn_eq_none.mp (h p.1 hne.1 hne.2) (List.mem_map.mpr ⟨p, hp, rfl⟩)

section

variable {E : DatagenEnv} {raw : List (String × Raw)} {referenceTime : String}
  {collection : AssignmentCollection} {o : PlannerOverride}

theorem asAuthored_accepted (s : Stages E raw referenceTime)
    (hcoll : CompiledBehaviors (runs E raw s.planner) collection) {planner : Raw}
    (happly : o.apply E.host collection =
      .ok (true, collection.map fun p ↦ (p.1, replan planner p.2))) :
    AsAuthored E raw referenceTime collection o ↔
      ∃ cfg, normalizePlanner E.host (.dict (o.author (Raw.field raw "planner").asDict)) = .ok cfg ∧
        o.UsedBy (runs E raw cfg) ∧ Same planner (runs E raw cfg).toRaw := by
  rw [← exists_compile_setPlanner s
    (Q := fun cfg ↦ o.UsedBy cfg ∧ Same planner cfg.toRaw), AsAuthored, happly]
  constructor
  · rintro (⟨collection', c, heq, hc, hused, hreplanned⟩ | ⟨heq, -⟩)
    · obtain ⟨-, rfl⟩ := Prod.mk.inj (Except.ok.inj heq)
      exact ⟨c, hc, hused, hcoll.replanned_iff.mp hreplanned⟩
    · cases (Prod.mk.inj (Except.ok.inj heq)).1
  · rintro ⟨c, hc, hused, hsame⟩
    exact Or.inl ⟨_, c, rfl, hc, hused, hcoll.replanned_iff.mpr hsame⟩

theorem asAuthored_rejected (s : Stages E raw referenceTime)
    (happly : o.apply E.host collection = .ok (false, collection)) :
    AsAuthored E raw referenceTime collection o ↔
      ¬ ∃ cfg, normalizePlanner E.host (.dict (o.author (Raw.field raw "planner").asDict)) =
        .ok cfg ∧ o.UsedBy (runs E raw cfg) := by
  rw [← exists_compile_setPlanner s (Q := o.UsedBy), AsAuthored, happly]
  constructor
  · rintro (⟨collection', c, heq, -⟩ | ⟨-, hnone⟩)
    · cases (Prod.mk.inj (Except.ok.inj heq)).1
    · exact hnone
  · exact fun hnone ↦ Or.inr ⟨rfl, hnone⟩

theorem not_asAuthored_raised {e : PyError} (happly : o.apply E.host collection = .error e) :
    ¬ AsAuthored E raw referenceTime collection o := by
  rw [AsAuthored, happly]
  rintro (⟨collection', c, heq, -⟩ | ⟨heq, -⟩)
  · cases heq
  · cases heq

/-! ### Topologies -/

theorem same_plannerSharing_iff {sharing : Raw} {topology topology' : String} :
    Same (plannerSharing sharing topology) (plannerSharing sharing topology') ↔
      (Raw.field sharing.asDict "type").truthy = true ∨
        (topology = "two-stage" ↔ topology' = "two-stage") := by
  rw [plannerSharing_eq, plannerSharing_eq]
  by_cases hnamed : (Raw.field sharing.asDict "type").truthy = true
  · rw [if_pos hnamed, if_pos hnamed]
    exact iff_of_true (Same.refl _) (Or.inl hnamed)
  · rw [if_neg hnamed, if_neg hnamed, or_iff_right hnamed]
    by_cases h : topology = "two-stage"
    · rw [if_pos h, iff_true_left h]
      split
      · next h' => exact iff_of_true (Same.refl _) h'
      · next h' => exact iff_of_false nofun h'
    · rw [if_neg h, iff_false_left h]
      split
      · next h' => exact iff_of_false nofun (not_not.mpr h')
      · next h' => exact iff_of_true (Same.refl _) h'

theorem asAuthored_topology (s : Stages E raw referenceTime)
    (hcoll : CompiledBehaviors (runs E raw s.planner) collection) (name : String) :
    AsAuthored E raw referenceTime collection (.topology name) ↔
      PlannerOverride.Agrees E.host (Raw.field raw "planner").asDict (.topology name) := by
  obtain ⟨ps, hps⟩ := exists_plannerStages s
  rw [PlannerOverride.Agrees]
  by_cases hname : name ∈ plannerTopologies
  · have happly : (PlannerOverride.topology name).apply E.host collection =
        .ok (true, collection.map fun p ↦ (p.1, replan (.dict (Dict.setIn "topology"
          (.str (resolveTopology name)) (runs E raw s.planner).toRaw.asDict)) p.2)) := by
      simp only [PlannerOverride.apply, applyPlannerTopologyOverride, if_pos hname,
        hcoll.patchBehaviors_eq]
      rfl
    have hne : name ≠ "" := by
      rintro rfl
      exact absurd hname (by decide)
    rw [asAuthored_accepted s hcoll happly, imp_iff_right hname]
    simp only [PlannerOverride.author, normalizePlanner_setTopology ps, if_neg hne]
    have hsame : Same (.dict (Dict.setIn "topology" (.str (resolveTopology name))
          (runs E raw s.planner).toRaw.asDict))
        (runs E raw { ps.cfg with
          topology := resolveTopology name
          sharing := plannerSharing (Raw.field (Raw.field raw "planner").asDict "sharing")
            name }).toRaw ↔
        SharingNamed (Raw.field raw "planner").asDict ∨
          (authoredTopology E.host (Raw.field raw "planner").asDict = "two-stage" ↔
            name = "two-stage") := by
      rw [plannerTopology_eq ps.topology_ok, SharingNamed, ← same_plannerSharing_iff, ← hps]
      exact same_toRaw_sharing { runs E raw ps.cfg with topology := resolveTopology name } _ _
    rw [← hsame]
    constructor
    · rintro ⟨cfg, ⟨topology, -, rfl, rfl⟩, -, h⟩
      exact h
    · exact fun h ↦ ⟨_, ⟨name, hname, rfl, rfl⟩, rfl, h⟩
  · have happly : (PlannerOverride.topology name).apply E.host collection =
        .ok (false, collection) := by
      simp only [PlannerOverride.apply, applyPlannerTopologyOverride, if_neg hname]
      rfl
    rw [asAuthored_rejected s happly]
    refine iff_of_true ?_ fun h ↦ absurd h hname
    rintro ⟨cfg, hcfg, hused⟩
    obtain ⟨topology, hmem, heq, rfl⟩ := (normalizePlanner_setTopology ps).mp hcfg
    split at heq
    · next hempty =>
      subst hempty heq
      have hother : resolveTopology "partitioned" ≠ resolveTopology "" := by decide
      exact hother hused
    · exact hname (heq ▸ hmem)

/-! ### Sharing -/

theorem orElse_dict (entries : List (String × Raw)) :
    (Raw.dict entries).orElse (.dict []) = .dict entries := by
  cases entries with
  | nil => rfl
  | cons p entries => rfl

theorem Same.of_dict {entries : List (String × Raw)} {v : Raw} (h : Same (.dict entries) v) :
    ∃ entries', v = .dict entries' := by
  cases h with
  | refl => exact ⟨entries, rfl⟩
  | dict _ _ => exact ⟨_, rfl⟩

theorem same_nil_iff {v : Raw} : Same (.dict []) v ↔ v = .dict [] := by
  constructor
  · intro h
    obtain ⟨entries, rfl⟩ := h.of_dict
    cases entries with
    | nil => rfl
    | cons p entries =>
      have hnone := h.lookupIn_eq_none.mp (rfl : Dict.lookupIn p.1 [] = none)
      rw [Dict.lookupIn_eq_none] at hnone
      exact absurd List.mem_cons_self hnone
  · rintro rfl
    exact Same.refl _

/-- The parameters that an override of the sharing keeps. -/
theorem patchSharing_plannerSharing (name : String) (planner : List (String × Raw))
    (topology : String) (entries : List (String × Raw))
    (hentries : Raw.field entries "sharing" =
      plannerSharing (Raw.field planner "sharing") topology) :
    patchSharing name entries = do
      let params ← pyDict ((if (Raw.field (Raw.field planner "sharing").asDict "type").truthy = true
        then Raw.fieldD (Raw.field planner "sharing").asDict "params" (.dict [])
        else .dict []).orElse (.dict []))
      return Dict.setIn "sharing" (.dict [("type", .str name), ("params", .dict params)])
        entries := by
  rw [patchSharing, hentries, plannerSharing_eq]
  split
  · next existing hexisting =>
    have hparams : (Raw.field existing "params").orElse (.dict []) =
        (if (Raw.field (Raw.field planner "sharing").asDict "type").truthy = true
          then Raw.fieldD (Raw.field planner "sharing").asDict "params" (.dict [])
          else .dict []).orElse (.dict []) := by
      split at hexisting
      · next hnamed =>
        rw [orElse_dict] at hexisting
        obtain rfl := Raw.dict.inj hexisting
        rw [if_pos hnamed, Raw.field, (lookupIn_setDefaultIn _).1]
        rfl
      · next hnamed =>
        rw [if_neg hnamed]
        split at hexisting
        · obtain rfl := Raw.dict.inj hexisting
          rfl
        · obtain rfl := Raw.dict.inj hexisting
          rfl
    rw [hparams]
  · next hother =>
    exfalso
    split at hother
    · exact hother _ (orElse_dict _)
    · split at hother
      · exact hother _ rfl
      · exact hother _ rfl

/-- The parameters kept are those authored just when these are a dictionary, empty if they stand
beside no type. -/
theorem exists_kept_iff (named : Prop) [Decidable named] (authored : Raw) :
    (∃ params, pyDict ((if named then authored else .dict []).orElse (.dict [])) = .ok params ∧
      Same (.dict params) authored) ↔
      ∃ params, authored = .dict params ∧ (named ∨ params = []) := by
  constructor
  · rintro ⟨params, hparams, hsame⟩
    obtain ⟨entries, rfl⟩ := hsame.of_dict
    refine ⟨entries, rfl, ?_⟩
    by_cases hnamed : named
    · exact Or.inl hnamed
    · rw [if_neg hnamed] at hparams
      obtain rfl : [] = params := Except.ok.inj hparams
      exact Or.inr (Raw.dict.inj (same_nil_iff.mp hsame))
  · rintro ⟨params, rfl, hnamed⟩
    refine ⟨params, ?_, Same.refl _⟩
    split
    · rw [orElse_dict]
      rfl
    · next hnot =>
      rw [hnamed.resolve_left hnot]
      rfl

/-- The authored block with another type, as it is normalised. -/
theorem lookupIn_authoredSharing (block : List (String × Raw)) (name : String) :
    Dict.lookupIn "type" (setDefaultIn "params" (.dict [])
        (Dict.setIn "type" (.str name) block)) = some (.str name) ∧
      Dict.lookupIn "params" (setDefaultIn "params" (.dict [])
        (Dict.setIn "type" (.str name) block)) = some (Raw.fieldD block "params" (.dict [])) ∧
      (OnlyAlgorithm block ↔ ∀ key, key ≠ "type" → key ≠ "params" →
        Dict.lookupIn key (setDefaultIn "params" (.dict [])
          (Dict.setIn "type" (.str name) block)) = none) := by
  obtain ⟨hparams, hother⟩ := lookupIn_setDefaultIn (Dict.setIn "type" (.str name) block)
  refine ⟨?_, ?_, ?_⟩
  · rw [hother _ (by decide), Dict.lookupIn_setIn, if_pos rfl]
  · rw [hparams, Raw.fieldD, Dict.lookupIn_setIn, if_neg (by decide), Raw.fieldD]
  · rw [onlyAlgorithm_iff]
    refine forall_congr' fun key ↦ imp_congr_right fun htype ↦ imp_congr_right fun hkey ↦ ?_
    rw [hother key hkey, Dict.lookupIn_setIn, if_neg htype]

theorem asAuthored_sharing_empty (s : Stages E raw referenceTime)
    (hcoll : CompiledBehaviors (runs E raw s.planner) collection) :
    AsAuthored E raw referenceTime collection (.sharing "") := by
  obtain ⟨ps, hps⟩ := exists_plannerStages s
  have happly : (PlannerOverride.sharing "").apply E.host collection = .ok (false, collection) := by
    simp only [PlannerOverride.apply, applyCooperationOverride, if_true, hcoll.patchBehaviors_id,
      ok_bind]
    rfl
  rw [asAuthored_rejected s happly]
  rintro ⟨cfg, hcfg, block, hblock, htype⟩
  rw [PlannerOverride.author, normalizePlanner_setSharing ps] at hcfg
  cases hcfg
  have hunnamed : (Raw.field (Raw.dict (Dict.setIn "type" (.str "")
    (Raw.field (Raw.field raw "planner").asDict "sharing").asDict)).asDict "type").truthy ≠
      true := by
    rw [Raw.asDict, Raw.field_setIn_self]
    decide
  have hsharing : plannerSharing (.dict (Dict.setIn "type" (.str "")
    (Raw.field (Raw.field raw "planner").asDict "sharing").asDict)) ps.topology =
      .dict block := hblock
  rw [plannerSharing_eq, if_neg hunnamed] at hsharing
  split at hsharing
  · obtain rfl := Raw.dict.inj hsharing
    exact absurd (Raw.str.inj htype) (by decide)
  · cases hsharing

theorem asAuthored_sharing (s : Stages E raw referenceTime)
    (hcoll : CompiledBehaviors (runs E raw s.planner) collection) (name : String) :
    AsAuthored E raw referenceTime collection (.sharing name) ↔
      PlannerOverride.Agrees E.host (Raw.field raw "planner").asDict (.sharing name) := by
  obtain ⟨ps, hps⟩ := exists_plannerStages s
  rw [PlannerOverride.Agrees]
  by_cases hname : name = ""
  · subst hname
    exact iff_of_true (asAuthored_sharing_empty s hcoll) (Or.inl rfl)
  rw [or_iff_right hname]
  obtain ⟨block, hblock⟩ : ∃ block, (Raw.field (Raw.field raw "planner").asDict
    "sharing").asDict = block := ⟨_, rfl⟩
  obtain ⟨htype, hparams, honly⟩ := lookupIn_authoredSharing block name
  have hnormal : normalizePlanner E.host (.dict ((PlannerOverride.sharing name).author
      (Raw.field raw "planner").asDict)) = .ok { ps.cfg with
        sharing := .dict (setDefaultIn "params" (.dict [])
          (Dict.setIn "type" (.str name) block)) } := by
    have htruthy : (Raw.field (Raw.dict (Dict.setIn "type" (.str name) block)).asDict
        "type").truthy = true := by
      rw [Raw.asDict, Raw.field_setIn_self]
      exact Raw.truthy_str.mpr hname
    rw [PlannerOverride.author, normalizePlanner_setSharing ps, hblock, plannerSharing_eq,
      if_pos htruthy]
    rfl
  have happly : (PlannerOverride.sharing name).apply E.host collection = do
      let params ← pyDict ((if (Raw.field block "type").truthy = true
        then Raw.fieldD block "params" (.dict []) else .dict []).orElse (.dict []))
      return (true, collection.map fun p ↦ (p.1, replan (.dict (Dict.setIn "sharing"
        (.dict [("type", .str name), ("params", .dict params)])
        (runs E raw s.planner).toRaw.asDict)) p.2)) := by
    have hentries : Raw.field (runs E raw s.planner).toRaw.asDict "sharing" =
        plannerSharing (Raw.field (Raw.field raw "planner").asDict "sharing") ps.topology :=
      congrArg PlannerConfig.sharing hps.symm
    have hcooperation : applyCooperationOverride collection name =
        patchBehaviors (patchPlanner (patchSharing name)) collection := by
      simp only [applyCooperationOverride, if_neg hname]
    rw [PlannerOverride.apply, hcooperation, hcoll.patchBehaviors_eq,
      patchSharing_plannerSharing name _ _ _ hentries, hblock]
    simp only [bind_assoc, pure_bind, ne_eq, hname, not_false_eq_true, decide_true]
  have hsame (params : List (String × Raw)) : Same (.dict (Dict.setIn "sharing"
        (.dict [("type", .str name), ("params", .dict params)])
        (runs E raw s.planner).toRaw.asDict))
      (runs E raw { ps.cfg with
        sharing := .dict (setDefaultIn "params" (.dict [])
          (Dict.setIn "type" (.str name) block)) }).toRaw ↔
      OnlyAlgorithm block ∧ Same (.dict params) (Raw.fieldD block "params" (.dict [])) := by
    rw [honly, ← hps, and_comm]
    rw [same_setSharing_iff, same_algorithm_iff htype hparams, eq_self, true_and]
  have hkept := exists_kept_iff ((Raw.field block "type").truthy = true)
    (Raw.fieldD block "params" (.dict []))
  rw [SharingNamed, hblock, ← hkept]
  cases hdict : pyDict ((if (Raw.field block "type").truthy = true
      then Raw.fieldD block "params" (.dict []) else .dict []).orElse (.dict [])) with
  | error e =>
    rw [hdict] at happly
    refine iff_of_false (not_asAuthored_raised happly) ?_
    rintro ⟨-, params, h, -⟩
    cases h
  | ok params =>
    rw [hdict] at happly
    rw [asAuthored_accepted s hcoll happly]
    constructor
    · rintro ⟨cfg, hcfg, -, h⟩
      obtain rfl := Except.ok.inj (hnormal.symm.trans hcfg)
      obtain ⟨hplain, hequal⟩ := (hsame params).mp h
      exact ⟨hplain, params, rfl, hequal⟩
    · rintro ⟨hplain, params', heq, hequal⟩
      cases heq
      refine ⟨_, hnormal, ⟨_, rfl, ?_⟩, (hsame params).mpr ⟨hplain, hequal⟩⟩
      rw [Raw.field, htype]
      rfl

/-! ### The market -/

theorem apply_policy {cfg : PlannerConfig} (hcoll : CompiledBehaviors cfg collection) {H : PyHost}
    (role : MarketRole) {name : String} (hname : name ≠ "") :
    (PlannerOverride.policy role name).apply H collection = do
      let planner ← patchMarket ⟨[(role, name)], none⟩ cfg.toRaw.asDict
      return (true, collection.map fun p ↦ (p.1, replan (.dict planner) p.2)) := by
  have hpolicies : ([(MarketRole.offer, if MarketRole.offer = role then name else ""),
      (.claim, if MarketRole.claim = role then name else ""),
      (.arbitration, if MarketRole.arbitration = role then name else "")].filter
        fun p ↦ p.2 ≠ "") = [(role, name)] := by
    cases role <;> simp [hname]
  rw [PlannerOverride.apply, applyMarketOverride]
  simp only [hpolicies]
  have hnull : Raw.null.isNull = true := rfl
  simp only [hnull, if_true, ok_bind, List.cons_ne_nil, false_and, if_false,
    hcoll.patchBehaviors_eq, hcoll.any_dict, bind_assoc, pure_bind, Option.isSome_some]

theorem asAuthored_policy (s : Stages E raw referenceTime)
    (hcoll : CompiledBehaviors (runs E raw s.planner) collection) (role : MarketRole)
    (name : String) :
    AsAuthored E raw referenceTime collection (.policy role name) ↔
      PlannerOverride.Agrees E.host (Raw.field raw "planner").asDict (.policy role name) := by
  obtain ⟨ps, hps⟩ := exists_plannerStages s
  obtain ⟨blocks, rounds, hstages, hmarket⟩ := exists_marketStages ps
  obtain ⟨market, hauthored⟩ : ∃ market,
    (Raw.field (Raw.field raw "planner").asDict "market").asDict = market := ⟨_, rfl⟩
  rw [hauthored] at hstages hmarket
  obtain ⟨params, settled, hsettled, hsettledParams, hparams⟩ :=
    roleBlock_params (hstages.block role)
  rw [PlannerOverride.Agrees, hauthored]
  have hauthor : (PlannerOverride.policy role name).author (Raw.field raw "planner").asDict =
      Dict.setIn "market" (.dict (Dict.setIn role.key (.dict (Dict.setIn "type" (.str name)
        (Raw.field market role.key).asDict)) market)) (Raw.field raw "planner").asDict := by
    rw [PlannerOverride.author, hauthored]
  by_cases hname : name = ""
  · have happly : (PlannerOverride.policy role name).apply E.host collection =
        .ok (false, collection) := by
      subst hname
      rw [PlannerOverride.apply, applyMarketOverride]
      simp
      rfl
    rw [asAuthored_rejected s happly, hauthor]
    refine iff_of_true ?_ (Or.inl hname)
    rintro ⟨cfg, hcfg, -⟩
    obtain ⟨market', hmarket', -⟩ := (normalizePlanner_setMarket ps).mp hcfg
    refine ((normalizeMarket_named hstages hparams name).mp hmarket').1 ?_
    rw [hname]
    rfl
  rw [or_iff_right hname]
  have hblock : Raw.field ps.market role.key = .dict settled := by
    rw [hmarket, Raw.field, (lookupIn_settledMarket_role market market role blocks blocks rounds
      (fun _ _ ↦ rfl) fun _ _ ↦ rfl).1, hsettled]
    rfl
  have happly : (PlannerOverride.policy role name).apply E.host collection =
      .ok (true, collection.map fun p ↦ (p.1, replan (.dict (Dict.setIn "market"
        (.dict (Dict.setIn role.key (.dict [("type", .str name), ("params", .dict params)])
          ps.market)) (runs E raw s.planner).toRaw.asDict)) p.2)) := by
    have hplanned : Raw.field (runs E raw s.planner).toRaw.asDict "market" = .dict ps.market :=
      congrArg (fun cfg ↦ Raw.dict (PlannerConfig.market cfg)) hps.symm
    have hkept : pyDict ((Raw.field settled "params").orElse (.dict [])) = .ok params := by
      rw [hsettledParams, orElse_dict]
      rfl
    rw [apply_policy hcoll role hname, patchMarket, hplanned, Raw.asDict, patchRoles, patchRole,
      hblock]
    simp only [hkept]
    rfl
  have honly : OnlyAlgorithm (Raw.field market role.key).asDict ↔
      ∀ key, key ≠ "type" → key ≠ "params" → Dict.lookupIn key (Dict.setIn "params" (.dict params)
        (Dict.setIn "type" (.str (pyStrip name)) (Raw.field market role.key).asDict)) = none := by
    rw [onlyAlgorithm_iff]
    refine forall_congr' fun key ↦ imp_congr_right fun htype ↦ imp_congr_right fun hkey ↦ ?_
    rw [Dict.lookupIn_setIn, if_neg hkey, Dict.lookupIn_setIn, if_neg htype]
  obtain ⟨compiled, hcompiled⟩ : ∃ compiled, compiled = Raw.dict (Dict.setIn "params" (.dict params)
    (Dict.setIn "type" (.str (pyStrip name)) (Raw.field market role.key).asDict)) := ⟨_, rfl⟩
  have hblocks : Same (.dict [("type", .str name), ("params", .dict params)]) compiled ↔
      name = pyStrip name ∧ OnlyAlgorithm (Raw.field market role.key).asDict := by
    have htype : Dict.lookupIn "type" (Dict.setIn "params" (.dict params) (Dict.setIn "type"
        (.str (pyStrip name)) (Raw.field market role.key).asDict)) = some
          (.str (pyStrip name)) := by
      rw [Dict.lookupIn_setIn, if_neg (by decide), Dict.lookupIn_setIn, if_pos rfl]
    have hcompiledParams : Dict.lookupIn "params" (Dict.setIn "params" (.dict params) (Dict.setIn
        "type" (.str (pyStrip name)) (Raw.field market role.key).asDict)) = some
          (.dict params) := by
      rw [Dict.lookupIn_setIn, if_pos rfl]
    rw [hcompiled, same_algorithm_iff htype hcompiledParams, honly]
    exact and_congr_right fun _ ↦ and_iff_right (Same.refl _)
  obtain ⟨hkey, hother⟩ := lookupIn_settledMarket_role market
    (Dict.setIn role.key (.dict (Dict.setIn "type" (.str name)
      (Raw.field market role.key).asDict)) market) role blocks
    (fun r ↦ if r = role then compiled else blocks r) rounds
    (fun r hr ↦ if_neg hr) fun x hx ↦ by rw [Dict.lookupIn_setIn, if_neg hx]
  rw [← hmarket] at hother
  rw [if_pos rfl] at hkey
  rw [asAuthored_accepted s hcoll happly, hauthor]
  constructor
  · rintro ⟨cfg, hcfg, -, hsame⟩
    obtain ⟨market', hmarket', rfl⟩ := (normalizePlanner_setMarket ps).mp hcfg
    obtain ⟨-, rfl⟩ := (normalizeMarket_named hstages hparams name).mp hmarket'
    rw [← hps, ← hcompiled] at hsame
    rw [same_setMarket_iff, same_setIn_iff hother hkey] at hsame
    exact hblocks.mp hsame
  · rintro ⟨hstrip, hplain⟩
    have hblank : pyStrip name ≠ "" := hstrip ▸ hname
    refine ⟨_, (normalizePlanner_setMarket ps).mpr
      ⟨_, (normalizeMarket_named hstages hparams name).mpr ⟨hblank, rfl⟩, rfl⟩, ?_, ?_⟩
    · refine ⟨Dict.setIn "params" (.dict params) (Dict.setIn "type" (.str (pyStrip name))
        (Raw.field market role.key).asDict), ?_, ?_⟩
      · rw [← hcompiled]
        exact congrArg (Option.getD · Raw.null) hkey
      · rw [Raw.field_setIn_ne _ _ (by decide), Raw.field_setIn_self, ← hstrip]
    · rw [← hps, ← hcompiled, same_setMarket_iff, same_setIn_iff hother hkey]
      exact hblocks.mpr ⟨hstrip, hplain⟩

/-- The compiler uses a bound just when it is an integer up to 100. -/
theorem exists_bounded_iff (ps : PlannerStages E.host (Raw.field raw "planner").asDict)
    {blocks : MarketRole → Raw} {rounds : ℤ}
    (hstages : MarketStages E.host (Raw.field (Raw.field raw "planner").asDict "market").asDict
      blocks rounds)
    (value : Raw) (Q : PlannerConfig → Prop) :
    (∃ cfg, normalizePlanner E.host (.dict ((PlannerOverride.maxRounds value).author
        (Raw.field raw "planner").asDict)) = .ok cfg ∧
      (PlannerOverride.maxRounds value).UsedBy (runs E raw cfg) ∧ Q cfg) ↔
      ∃ bound, value = .int bound ∧ (1 ≤ bound ∧ bound ≤ 100) ∧
        Q { ps.cfg with
          market := settledMarket (Dict.setIn "max_rounds" value
            (Raw.field (Raw.field raw "planner").asDict "market").asDict) blocks bound } := by
  constructor
  · rintro ⟨cfg, hcfg, hused, hQ⟩
    obtain ⟨market', hmarket', rfl⟩ := (normalizePlanner_setMarket ps).mp hcfg
    obtain ⟨bound, hbound, rfl⟩ := (normalizeMarket_bounded hstages value).mp hmarket'
    have hvalue : value = .int bound := hused.symm.trans (Raw.field_setIn_self _ _ _)
    rcases marketRounds_eq_ok.mp hbound with ⟨hnull, -⟩ | ⟨-, hrange⟩
    · rw [hnull] at hvalue
      cases hvalue
    · exact ⟨bound, hvalue, hrange, hQ⟩
  · rintro ⟨bound, rfl, hrange, hQ⟩
    exact ⟨_, (normalizePlanner_setMarket ps).mpr ⟨_, (normalizeMarket_bounded hstages _).mpr
      ⟨bound, marketRounds_eq_ok.mpr (Or.inr ⟨rfl, hrange⟩), rfl⟩, rfl⟩,
      Raw.field_setIn_self _ _ _, hQ⟩

/-- An override of the bound accepts what reads as an integer up to 10. -/
theorem apply_maxRounds {cfg : PlannerConfig} (hcoll : CompiledBehaviors cfg collection)
    (H : PyHost) (value : Raw) : (PlannerOverride.maxRounds value).apply H collection = do
      let rounds ← caught (pyInt H value)
      match rounds.filter fun rounds ↦ 1 ≤ rounds ∧ rounds ≤ 10 with
      | none => return (false, collection)
      | some rounds =>
        let market := Dict.setIn "max_rounds" (.int rounds)
          (Raw.field cfg.toRaw.asDict "market").asDict
        return (true, collection.map fun p ↦ (p.1, replan (.dict
          (Dict.setIn "market" (.dict market) cfg.toRaw.asDict)) p.2)) := by
  have hpolicies : ([(MarketRole.offer, ""), (.claim, ""), (.arbitration, "")].filter
      fun p ↦ p.2 ≠ "") = [] := by decide
  cases hnull : value.isNull with
  | true =>
    obtain rfl : value = .null := by
      cases value with
      | null => rfl
      | bool | int | float | str | list | dict => cases hnull
    rfl
  | false =>
    rw [PlannerOverride.apply, applyMarketOverride]
    simp only [hpolicies, hnull, overrideRounds, Bool.false_eq_true, if_false, true_and]
    cases caught (pyInt H value) with
    | error e => rfl
    | ok rounds =>
      simp only [pure, Except.pure, ok_bind]
      cases rounds.filter fun rounds ↦ 1 ≤ rounds ∧ rounds ≤ 10 with
      | none => rfl
      | some bound =>
        simp only [reduceCtorEq, if_false, hcoll.patchBehaviors_eq, hcoll.any_dict, patchMarket,
          patchRoles, ok_bind, pure, Except.pure, if_true, Option.isSome_some]

/-- An override and the compiler agree on a bound. -/
theorem asAuthored_maxRounds_int (s : Stages E raw referenceTime)
    (hcoll : CompiledBehaviors (runs E raw s.planner) collection) (n : ℤ) :
    AsAuthored E raw referenceTime collection (.maxRounds (.int n)) ↔
      ¬ (10 < n ∧ n ≤ 100) := by
  obtain ⟨ps, hps⟩ := exists_plannerStages s
  obtain ⟨blocks, rounds, hstages, hmarket⟩ := exists_marketStages ps
  have happly := apply_maxRounds hcoll E.host (.int n)
  rw [pyInt_int, caught_ok, ok_bind] at happly
  by_cases hn : 1 ≤ n ∧ n ≤ 10
  · rw [Option.filter_some, if_pos (decide_eq_true hn)] at happly
    rw [asAuthored_accepted s hcoll happly]
    refine iff_of_true ?_ fun h ↦ absurd hn.2 (not_le.mpr h.1)
    have hplanned : (Raw.field (runs E raw s.planner).toRaw.asDict "market").asDict = ps.market :=
      congrArg PlannerConfig.market hps.symm
    obtain ⟨hkey, hother⟩ := lookupIn_settledMarket_rounds blocks rounds n
      (fun x hx ↦ by rw [Dict.lookupIn_setIn, if_neg hx] :
        ∀ x, x ≠ "max_rounds" → Dict.lookupIn x (Dict.setIn "max_rounds" (.int n)
          (Raw.field (Raw.field raw "planner").asDict "market").asDict) =
            Dict.lookupIn x (Raw.field (Raw.field raw "planner").asDict "market").asDict)
    rw [← hmarket] at hother
    refine (exists_bounded_iff ps hstages (.int n) _).mpr ⟨n, rfl, ⟨hn.1, by omega⟩, ?_⟩
    rw [hplanned, ← hps, same_setMarket_iff, same_setIn_iff hother hkey]
    exact Same.refl _
  · rw [Option.filter_some, if_neg (by simpa using hn)] at happly
    rw [asAuthored_rejected s happly]
    have hused := exists_bounded_iff ps hstages (.int n) fun _ ↦ True
    simp only [and_true] at hused
    rw [hused]
    constructor
    · exact fun h hrange ↦ h ⟨n, rfl, by omega⟩
    · rintro h ⟨bound, heq, hrange⟩
      obtain rfl := Raw.int.inj heq
      omega

theorem asAuthored_maxRounds (s : Stages E raw referenceTime)
    (hcoll : CompiledBehaviors (runs E raw s.planner) collection) (value : Raw) :
    AsAuthored E raw referenceTime collection (.maxRounds value) ↔
      PlannerOverride.Agrees E.host (Raw.field raw "planner").asDict (.maxRounds value) := by
  by_cases hint : ∃ n, value = .int n
  · obtain ⟨n, rfl⟩ := hint
    exact asAuthored_maxRounds_int s hcoll n
  obtain ⟨ps, hps⟩ := exists_plannerStages s
  obtain ⟨blocks, rounds, hstages, -⟩ := exists_marketStages ps
  have hunused (Q : PlannerConfig → Prop) := (exists_bounded_iff ps hstages value Q).not.mpr
    fun ⟨bound, hvalue, _⟩ ↦ hint ⟨bound, hvalue⟩
  have hagrees : PlannerOverride.Agrees E.host (Raw.field raw "planner").asDict
      (.maxRounds value) ↔ ∃ rounds, caught (pyInt E.host value) = .ok rounds ∧
        ∀ r ∈ rounds, ¬ (1 ≤ r ∧ r ≤ 10) := by
    cases value with
    | int n => exact absurd ⟨n, rfl⟩ hint
    | null | bool | float | str | list | dict => exact Iff.rfl
  have happly := apply_maxRounds hcoll E.host value
  rw [hagrees]
  cases hread : caught (pyInt E.host value) with
  | error e =>
    rw [hread] at happly
    refine iff_of_false (not_asAuthored_raised happly) ?_
    rintro ⟨rounds, h, -⟩
    cases h
  | ok read =>
    rw [hread, ok_bind] at happly
    cases hfilter : read.filter fun rounds ↦ 1 ≤ rounds ∧ rounds ≤ 10 with
    | none =>
      rw [hfilter] at happly
      rw [asAuthored_rejected s happly]
      refine iff_of_true ?_ ⟨read, rfl, fun r hr hrange ↦ ?_⟩
      · have hnone := hunused fun _ ↦ True
        simp only [and_true] at hnone
        exact hnone
      · have hkept : read.filter (fun rounds ↦ 1 ≤ rounds ∧ rounds ≤ 10) = some r :=
          Option.filter_eq_some_iff.mpr ⟨hr, decide_eq_true hrange⟩
        rw [hfilter] at hkept
        cases hkept
    | some bound =>
      rw [hfilter] at happly
      rw [asAuthored_accepted s hcoll happly]
      refine iff_of_false (hunused _) ?_
      rintro ⟨read', heq, hnot⟩
      cases heq
      obtain ⟨hmem, hrange⟩ := Option.filter_eq_some_iff.mp hfilter
      exact hnot bound hmem (of_decide_eq_true hrange)

/-- **An override does what authoring the value does** just when the two agree on it. -/
theorem asAuthored_iff {E : DatagenEnv} {raw : List (String × Raw)} {referenceTime : String}
    {c : CompiledScenario} (hc : compile E (.dict raw) referenceTime = .ok c)
    {collection : AssignmentCollection} (hcoll : CompiledBehaviors c.world.planner collection)
    (o : PlannerOverride) :
    AsAuthored E raw referenceTime collection o ↔
      o.Agrees E.host (Raw.field raw "planner").asDict := by
  obtain ⟨s, rfl⟩ := Stages.exists_of_compileSpec hc
  cases o with
  | topology name => exact asAuthored_topology s hcoll name
  | policy role name => exact asAuthored_policy s hcoll role name
  | maxRounds value => exact asAuthored_maxRounds s hcoll value
  | sharing name => exact asAuthored_sharing s hcoll name

/-- The assignment behaviour of a compiled scenario. -/
def assignmentMain (c : CompiledScenario) : AssignmentCollection :=
  [("assignment_main", .dict [("profile", .dict [("planner", c.world.planner.toRaw)])])]

theorem compiledBehaviors_assignmentMain (c : CompiledScenario) :
    CompiledBehaviors c.world.planner (assignmentMain c) := by
  refine ⟨List.cons_ne_nil _ _, fun p hp ↦ ?_⟩
  obtain rfl := List.mem_singleton.mp hp
  exact ⟨_, _, rfl, rfl, rfl⟩

/-- Running a scenario pooled is compiling it so. -/
theorem asAuthored_pooled : ∃ c,
    compile twoDepots (.dict (randomOrders .null)) "2020-01-01 00:00:00" = .ok c ∧
      AsAuthored twoDepots (randomOrders .null) "2020-01-01 00:00:00" (assignmentMain c)
        (.topology "pooled") := by
  obtain ⟨c, hc⟩ := exists_compile_randomOrders .null (by decide +kernel)
  refine ⟨c, hc, (asAuthored_iff hc (compiledBehaviors_assignmentMain c) _).mpr fun _ ↦ Or.inr ?_⟩
  decide

/-- A market of fifty rounds can be compiled, but not run. -/
theorem fifty_rounds : ∃ c,
    compile twoDepots (.dict (randomOrders .null)) "2020-01-01 00:00:00" = .ok c ∧
      ¬ AsAuthored twoDepots (randomOrders .null) "2020-01-01 00:00:00" (assignmentMain c)
        (.maxRounds (.int 50)) := by
  obtain ⟨c, hc⟩ := exists_compile_randomOrders .null (by decide +kernel)
  refine ⟨c, hc, ?_⟩
  obtain ⟨s, rfl⟩ := Stages.exists_of_compileSpec hc
  rw [asAuthored_maxRounds_int s (compiledBehaviors_assignmentMain _)]
  decide

end

end OpenRide.Scenario
