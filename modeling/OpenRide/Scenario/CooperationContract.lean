import OpenRide.Scenario.CooperationKept
import OpenRide.Scenario.SettledRecipe

/-!
# What a save keeps of the cooperation

`saves_keep_cooperation` follows a save that is accepted from the guard through the handing on of
pools and the compile.  Every structure whose id is its own, in the saved block and in the one that
is sent, and whose content is not emptied on purpose, comes back under its id: with an edge if the
entry that is sent names two hauliers, and with the pools it had if it is sent without.  A block
that is sent back as it was keeps all its structures.

The guard compares ids and asks whether lists are empty (`saves_lose_pairs`): a structure without an
id is not guarded, two ids with one slug change places, and an edge from a haulier to itself is
content for the guard and nothing for the compile.
-/

namespace OpenRide.Scenario

open Lib Datagen

/-- The cooperation block of a specification, compiled with its own hauliers. -/
def compiledCooperation (E : DatagenEnv) (spec : Spec) : Except PyError Cooperation := do
  let hauliers ← normalizeHauliers E.host (spec.value "hauliers")
  raiseAs CooperationError.toPyError (normalizeCooperation E.host.toPyText
    (spec.value "cooperation") (hauliers.map Haulier.id))

/-- What a save keeps: of the structures of a saved block, when another is sent. -/
structure CooperationKept (T : PyText) (allowReset : Bool) (saved incoming : Raw)
    (before after : Cooperation) : Prop where
  /-- A structure with an edge is compiled again under its id. -/
  cooperates : ∀ sid, sid ≠ "" → KeepsOwnId T saved sid → KeepsOwnId T incoming sid →
    (allowReset = false ∨ sid ∉ lostStructures T saved incoming) →
    ∀ (i : ℕ) fields s, (structureEntries saved)[i]? = some (Raw.dict fields) →
      structureId T fields = sid → structureOf before (structureEntries saved) i = some s →
      s.edges ≠ [] →
      ∃ f ∈ cooperationStructures incoming, structureId T f = sid ∧ hasContent f = true ∧
        ∃ t ∈ after.structures, t.id = s.id ∧ (NamesTwo T f → t.edges ≠ []) ∧
          (Raw.field f "pools" = .null → ∀ written, Raw.field fields "pools" = .list written →
            t.edges ≠ [])
  /-- Pools that are not sent are the pools there were. -/
  pools : ∀ sid, sid ≠ "" → KeepsOwnId T saved sid → KeepsOwnId T incoming sid →
    (allowReset = false ∨ sid ∉ lostStructures T saved incoming) →
    ∀ (i : ℕ) fields s (j : ℕ) f, (structureEntries saved)[i]? = some (Raw.dict fields) →
      structureId T fields = sid → structureOf before (structureEntries saved) i = some s →
      (structureEntries incoming)[j]? = some (Raw.dict f) → structureId T f = sid →
      Raw.field f "pools" = .null → ∀ written, Raw.field fields "pools" = .list written →
        ∃ t ∈ after.structures, t.id = s.id ∧ t.pools = s.pools ∧ t.edges = s.edges
  /-- A block that is sent back keeps every structure with an edge. -/
  same : incoming = saved → ∀ s ∈ before.structures, s.edges ≠ [] →
    ∃ t ∈ after.structures, t.id = s.id ∧ t.edges = s.edges

/-! ## From the guard to the compile -/

section

variable {T : PyText} {saved incoming : Raw}

theorem cooperationStructures_filtered (block : List (String × Raw))
    (keep : List (String × Raw) → Bool) :
    cooperationStructures (.dict (Dict.setIn "structures"
      (.list (((cooperationStructures (.dict block)).filter keep).map .dict)) block)) =
      (cooperationStructures (.dict block)).filter keep := by
  rw [cooperationStructures_of_list (Raw.field_setIn_self _ _ _), List.filterMap_map]
  exact List.filterMap_some

/-- The structures whose pools are handed on: all that are not being emptied. -/
theorem mem_carriedPrevious {previous : Spec} {allowReset : Bool} {fields : List (String × Raw)} :
    fields ∈ cooperationStructures
        (previousCooperation (carriedPrevious T (some previous) incoming allowReset)) ↔
      fields ∈ cooperationStructures (previous.value "cooperation") ∧
        (allowReset = false ∨
          structureId T fields ∉ lostStructures T (previous.value "cooperation") incoming) := by
  rw [carriedPrevious]
  split
  · next hreset =>
    subst hreset
    rw [previousScopedToUntouchedStructures, Option.map_some, previousCooperation, Option.map_some,
      Option.getD_some]
    dsimp only
    split
    · next hlost => simp [hlost]
    · split
      · next coop hcoop =>
        rw [Spec.value_of_get? (Dict.get?_set_self _ _ _), cooperationStructures_filtered,
          List.mem_filter, hcoop]
        simp
      · next hother =>
        have hnone : cooperationStructures (previous.value "cooperation") = [] := by
          cases hvalue : previous.value "cooperation" with
          | dict coop => exact absurd hvalue (hother coop)
          | _ => rfl
        simp [hnone]
  · next hreset =>
    simp [hreset, previousCooperation]

/-- A structure with an edge has content. -/
theorem hasContent_of_edges {known : SortedSet String} {idx : ℕ} {fields : List (String × Raw)}
    {authored : AuthoredStructure} (h : compileEntry T known idx (.dict fields) = .ok authored)
    (hedges : authored.edges ≠ []) : hasContent fields = true := by
  by_contra hnone
  rw [hasContent, Bool.not_eq_true, Bool.or_eq_false_iff] at hnone
  exact hedges (edges_eq_nil_of_no_content h hnone.1 hnone.2)

theorem notMem_lostStructures {sid : String} (h : sid ∉ lostStructures T saved incoming)
    (hsid : sid ∈ cooperationContentStructureIds T saved) :
    sid ∈ cooperationContentStructureIds T incoming := by
  by_contra hnot
  exact h (List.mem_filter.mpr ⟨hsid, decide_eq_true hnot⟩)

/-- **What an accepted block keeps.** -/
theorem cooperationKept_of_carried {ids ids' : List String} {before after : Cooperation}
    {previous : Spec} {allowReset : Bool} {block : Raw} (hempty : "" ∉ ids)
    (hbefore : normalizeCooperation T (previous.value "cooperation") ids = .ok before)
    (hafter : normalizeCooperation T block ids' = .ok after)
    (hguard : allowReset = true ∨ lostStructures T (previous.value "cooperation") incoming = [])
    (hcarry : carryAuthoredPools T incoming
      (previousCooperation (carriedPrevious T (some previous) incoming allowReset)) = .ok block) :
    CooperationKept T allowReset (previous.value "cooperation") incoming before after := by
  have hlost : ∀ sid, (allowReset = false ∨
      sid ∉ lostStructures T (previous.value "cooperation") incoming) →
      sid ∉ lostStructures T (previous.value "cooperation") incoming := by
    rintro sid (hreset | hnot)
    · rcases hguard with hguard | hguard
      · rw [hreset] at hguard
        cases hguard
      · rw [hguard]
        exact List.not_mem_nil
    · exact hnot
  have hcarried : ∀ {sid} {i : ℕ} {fields : List (String × Raw)}, (allowReset = false ∨
        sid ∉ lostStructures T (previous.value "cooperation") incoming) →
      (structureEntries (previous.value "cooperation"))[i]? = some (Raw.dict fields) →
      structureId T fields = sid → fields ∈ cooperationStructures
        (previousCooperation (carriedPrevious T (some previous) incoming allowReset)) :=
    fun hkept hi hid ↦ mem_carriedPrevious.mpr
      ⟨mem_cooperationStructures_iff.mpr ⟨_, hi⟩, by rwa [hid]⟩
  have hsub : ∀ g ∈ cooperationStructures (previousCooperation (carriedPrevious T (some previous)
      incoming allowReset)), g ∈ cooperationStructures (previous.value "cooperation") :=
    fun g hg ↦ (mem_carriedPrevious.mp hg).1
  constructor
  · intro sid hne hown hown' hkept i fields s hi hid hs hedges
    obtain ⟨_, hauth⟩ := authoredStructures_of_entries hi
    obtain ⟨s', authored, hs', -, hcompiled, hsedges, -⟩ := exists_structureOf hbefore hauth hi
    obtain rfl := Option.some.inj (hs'.symm.trans hs)
    have hcontent : hasContent fields = true :=
      hasContent_of_edges hcompiled (by rwa [← hsedges])
    have hmem : sid ∈ cooperationContentStructureIds T (previous.value "cooperation") :=
      mem_cooperationContentStructureIds.mpr
        ⟨hne, fields, mem_cooperationStructures_iff.mpr ⟨i, hi⟩, hcontent, hid⟩
    obtain ⟨-, f, hf, hfcontent, hfid⟩ := mem_cooperationContentStructureIds.mp
      (notMem_lostStructures (hlost sid hkept) hmem)
    obtain ⟨j, hj⟩ := mem_cooperationStructures_iff.mp hf
    obtain ⟨t, -, ht, htid, hnames, hpools⟩ := structure_across_save hempty hbefore hafter hcarry
      hsub hne hown hown' hi hid hs' (hcarried hkept hi hid) hj hfid
    refine ⟨f, hf, hfid, hfcontent, t, ht, htid, hnames, fun hnull written hwritten ↦ ?_⟩
    rw [(hpools hnull written hwritten).2]
    exact hedges
  · intro sid hne hown hown' hkept i fields s j f hi hid hs hj hfid hnull written hwritten
    obtain ⟨t, -, ht, htid, -, hpools⟩ := structure_across_save hempty hbefore hafter hcarry
      hsub hne hown hown' hi hid hs (hcarried hkept hi hid) hj hfid
    exact ⟨t, ht, htid, hpools hnull written hwritten⟩
  · rintro rfl s hs hedges
    exact cooperating_of_same hbefore hafter hcarry hs hedges

end

/-! ## The two ways to save -/

section

variable {env : SaveEnv} {domain : String}

theorem exists_hauliers {E : DatagenEnv} {spec : Spec} {coop : Cooperation}
    (h : compiledCooperation E spec = .ok coop) :
    ∃ ids, "" ∉ ids ∧
      normalizeCooperation E.host.toPyText (spec.value "cooperation") ids = .ok coop := by
  obtain ⟨hauliers, hhauliers, hcoop⟩ := bind_eq_ok.mp h
  refine ⟨hauliers.map Haulier.id, ?_, raiseAs_eq_ok.mp hcoop⟩
  intro hmem
  obtain ⟨haulier, hmem, hid⟩ := List.mem_map.mp hmem
  obtain ⟨c, hc, -⟩ := (normalizeHauliers_normal E.host hhauliers).id haulier hmem
  rw [hid] at hc
  exact absurd hc (by simp)

theorem value_stageExternalSources {stagedPath : String → Option String} {spec : Spec}
    {key : String} (hkey : key ≠ "agents") :
    (stageExternalSources stagedPath spec).value key = spec.value key := by
  rw [stageExternalSources]
  split
  · rw [Spec.value, Dict.get?_set_ne _ _ hkey, Spec.value]
  · rfl

/-- What is compiled into a folder has a compiled cooperation block, which the recipe shows. -/
theorem compiledCooperation_of_compileIntoFolder {spec : Spec} {compiled : CompiledScenario}
    (h : compileIntoFolder env spec = .ok compiled) :
    ∃ after, compiledCooperation env.datagen spec = .ok after ∧
      Raw.field compiled.recipe.asDict "cooperation" = after.toRaw
        (authoredPoolStructureIds env.datagen.host.toPyText (spec.value "cooperation")) := by
  obtain ⟨compiled', hcompiled, h⟩ := bind_eq_ok.mp h
  obtain ⟨-, -, h⟩ := bind_eq_ok.mp h
  cases h
  obtain ⟨s, rfl⟩ := Stages.exists_of_compileSpec (raiseAs_eq_ok.mp hcompiled)
  have hvalue : ∀ key, key ≠ "agents" →
      Raw.field (stageExternalSources env.stagedPath spec).entries key = spec.value key :=
    fun key hkey ↦ value_stageExternalSources hkey
  have hcooperation := s.cooperation_ok
  have hhauliers := s.hauliers_ok
  rw [hvalue _ (by decide)] at hcooperation hhauliers
  refine ⟨s.cooperation, ?_, ?_⟩
  · rw [compiledCooperation, hhauliers, ok_bind, hcooperation]
    rfl
  · rw [← hvalue _ (by decide)]
    rfl

/-- The cooperation block that is compiled is the one of the payload with pools handed on. -/
theorem carryAuthoredPools_of_assembleSpec {T : PyText} {raw out : Spec} {previous : Option Spec}
    (h : assembleSpec T raw domain previous = .ok out) :
    carryAuthoredPools T (raw.value "cooperation") (previousCooperation previous) =
      .ok (out.value "cooperation") := by
  obtain ⟨block, hblock, rfl⟩ := assembleSpec_eq_ok.mp h
  have hvalue := Spec.value_of_get?
    (Spec.get?_ofKeys (specValue raw previous (fromBody T raw domain block)) .cooperation)
  exact hblock.trans (congrArg Except.ok hvalue.symm)

theorem lost_of_guard {T : PyText} {previous : Spec} {incoming : Raw} {slug : String}
    {allowReset : Bool}
    (h : guardCooperationNotEmptied T (some previous) incoming slug allowReset = .ok ()) :
    allowReset = true ∨ lostStructures T (previous.value "cooperation") incoming = [] := by
  rw [guardCooperationNotEmptied] at h
  split at h
  · next hok => exact hok
  · cases h

/-- What the cooperation block of an accepted save is. -/
def SavedCooperation (env : SaveEnv) (allowReset : Bool) (saved incoming : Raw)
    (before : Cooperation) (out : Spec) (compiled : CompiledScenario) : Prop :=
  ∃ after, compiledCooperation env.datagen out = .ok after ∧
    Raw.field compiled.recipe.asDict "cooperation" = after.toRaw
      (authoredPoolStructureIds env.datagen.host.toPyText (out.value "cooperation")) ∧
    CooperationKept env.datagen.host.toPyText allowReset saved incoming before after

/-- What every accepted save has gone through. -/
theorem kept_of_save {raw saved : Spec} {slug : String} {allowReset : Bool} {out : Spec}
    {compiled : CompiledScenario} {before : Cooperation}
    (hbefore : compiledCooperation env.datagen saved = .ok before)
    (hguard : guardCooperationNotEmptied env.datagen.host.toPyText (some saved)
      (raw.value "cooperation") slug allowReset = .ok ())
    (hout : assembleSpec env.datagen.host.toPyText raw domain (carriedPrevious
      env.datagen.host.toPyText (some saved) (raw.value "cooperation") allowReset) = .ok out)
    (hcompiled : compileIntoFolder env out = .ok compiled) :
    SavedCooperation env allowReset (saved.value "cooperation") (raw.value "cooperation") before
      out compiled := by
  obtain ⟨ids, hempty, hnorm⟩ := exists_hauliers hbefore
  obtain ⟨after, hafter, hrecipe⟩ := compiledCooperation_of_compileIntoFolder hcompiled
  obtain ⟨ids', -, hnorm'⟩ := exists_hauliers hafter
  exact ⟨after, hafter, hrecipe, cooperationKept_of_carried hempty hnorm hnorm'
    (lost_of_guard hguard) (carryAuthoredPools_of_assembleSpec hout)⟩

/-- **A save that is accepted keeps what cooperates.** -/
theorem saves_keep_cooperation (env : SaveEnv) (domain : String) (saved : Spec)
    (before : Cooperation) (hbefore : compiledCooperation env.datagen saved = .ok before) :
    (∀ payload overwrite allowReset compiled,
      (env.folders (specSlug env.datagen.host.toPyText (generatePayload domain payload))).bind
        ScenarioFolder.loadGenerationSpec = some saved →
      generateScenario env domain payload overwrite allowReset = .ok compiled →
      ∃ out, generateSpec env.datagen.host.toPyText domain (some saved) payload allowReset =
          .ok out ∧ compileIntoFolder env out = .ok compiled ∧
        SavedCooperation env allowReset (saved.value "cooperation")
          ((generatePayload domain payload).value "cooperation") before out compiled) ∧
    (∀ slug folder patch allowReset compiled, env.folders slug = some folder →
      folder.editBase = saved → editScenario env domain slug patch allowReset = .ok compiled →
      ∃ out, editSpec env.datagen.host.toPyText domain slug saved patch allowReset = .ok out ∧
        compileIntoFolder env out = .ok compiled ∧
        SavedCooperation env allowReset (saved.value "cooperation")
          ((mergedSpec domain slug saved patch).value "cooperation") before out compiled) := by
  constructor
  · intro payload overwrite allowReset compiled hsaved h
    obtain ⟨-, -, h⟩ := bind_eq_ok.mp h
    dsimp only at h
    rw [hsaved] at h
    split at h
    · cases h
    · split at h
      · cases h
      · obtain ⟨⟨⟩, hguard, h⟩ := bind_eq_ok.mp h
        obtain ⟨out, hout, hcompiled⟩ := bind_eq_ok.mp h
        have hspec := raiseAs_eq_ok.mp hout
        exact ⟨out, hspec, hcompiled, kept_of_save hbefore hguard hspec hcompiled⟩
  · rintro slug folder patch allowReset compiled hfolder rfl h
    obtain ⟨-, -, h⟩ := bind_eq_ok.mp h
    dsimp only at h
    rw [hfolder] at h
    obtain ⟨⟨⟩, hguard, h⟩ := bind_eq_ok.mp h
    obtain ⟨out, hout, hcompiled⟩ := bind_eq_ok.mp h
    have hspec := raiseAs_eq_ok.mp hout
    exact ⟨out, hspec, hcompiled, kept_of_save hbefore hguard hspec hcompiled⟩

end

/-! ### Two hauliers at two depots -/

theorem exists_ok_of_isOk {ε α : Type} {x : Except ε α} (h : x.isOk = true) : ∃ a, x = .ok a := by
  cases x with
  | ok a => exact ⟨a, rfl⟩
  | error e => cases h

/-- A specification with two hauliers and a cooperation block. -/
def depotSpec (cooperation : Raw) : Spec :=
  Dict.ofList [("name", .str "Two depots"), ("slug", .str "two-depots"),
    ("referenceTime", .str "2020-01-01 00:00:00"),
    ("agents", .dict [("order", .dict [("count", .int 3),
      ("policy", .dict [("type", .str "random")])])]),
    ("hauliers", .list (["anna", "bert"].map fun name ↦ .dict [("id", .str name),
      ("name", .str name), ("fleetShare", .int 50), ("orderShare", .int 50)])),
    ("cooperation", cooperation)]

/-- A disk with this scenario on it. -/
def depotEnv (saved : Raw) : SaveEnv where
  datagen := twoDepots
  stagedPath _ := none
  generate _ := .ok ()
  folders slug := if slug = "two-depots" then some ⟨some (depotSpec saved), none, true⟩ else none

/-- A structure of one edge. -/
def oneEdge (id a b : String) : Raw :=
  .dict [("id", .str id), ("edges", .list [.list [.str a, .str b]])]

/-- A block of some structures. -/
def blockOf (structures : List Raw) : Raw := .dict [("structures", .list structures)]

/-- A save over the scenario is accepted, and a structure that cooperated does not any more. -/
def LosesPair (saved incoming : Raw) : Prop :=
  ∃ compiled before out after,
    generateScenario (depotEnv saved) "depots" (depotSpec incoming) true false = .ok compiled ∧
    compiledCooperation twoDepots (depotSpec saved) = .ok before ∧
    generateSpec asciiHost.toPyText "depots" (some (depotSpec saved)) (depotSpec incoming) false =
      .ok out ∧
    compiledCooperation twoDepots out = .ok after ∧
    ∃ s ∈ before.structures, s.edges ≠ [] ∧ ∀ t ∈ after.structures, t.id = s.id → t.edges = []

/-- The same as a computation. -/
def losesPair (saved incoming : Raw) : Bool :=
  match generateScenario (depotEnv saved) "depots" (depotSpec incoming) true false,
    compiledCooperation twoDepots (depotSpec saved),
    generateSpec asciiHost.toPyText "depots" (some (depotSpec saved))
      (depotSpec incoming) false with
  | .ok _, .ok before, .ok out =>
    match compiledCooperation twoDepots out with
    | .ok after => before.structures.any fun s ↦ s.edges ≠ [] ∧
        ∀ t ∈ after.structures, t.id = s.id → t.edges = []
    | .error _ => false
  | _, _, _ => false

theorem losesPair_spec {saved incoming : Raw} (h : losesPair saved incoming = true) :
    LosesPair saved incoming := by
  rw [losesPair] at h
  split at h
  · next compiled before out hcompiled hbefore hout =>
    split at h
    · next after hafter =>
      obtain ⟨s, hs, hlost⟩ := List.any_eq_true.mp h
      exact ⟨compiled, before, out, after, hcompiled, hbefore, hout, hafter, s, hs,
        of_decide_eq_true hlost⟩
    · cases h
  · cases h

/-- A block whose structure is authored by a pool. -/
def pooledRing : Raw :=
  blockOf [.dict [("id", .str "ring"), ("pools", .list [.dict [("id", .str "shared"),
    ("members", .list [.str "anna", .str "bert"])]])]]

/-- An editor that speaks edges only sends the structure back without its pool. -/
theorem saves_keep_cooperation_pooledRing : ∃ before compiled out,
    compiledCooperation twoDepots (depotSpec pooledRing) = .ok before ∧
      generateScenario (depotEnv pooledRing) "depots"
        (depotSpec (blockOf [oneEdge "ring" "anna" "bert"])) true false = .ok compiled ∧
      SavedCooperation (depotEnv pooledRing) false ((depotSpec pooledRing).value "cooperation")
        ((generatePayload "depots" (depotSpec (blockOf [oneEdge "ring" "anna" "bert"]))).value
          "cooperation") before out compiled := by
  obtain ⟨before, hbefore⟩ : ∃ before,
      compiledCooperation twoDepots (depotSpec pooledRing) = .ok before :=
    exists_ok_of_isOk (by decide +kernel)
  obtain ⟨compiled, hcompiled⟩ : ∃ compiled, generateScenario (depotEnv pooledRing) "depots"
      (depotSpec (blockOf [oneEdge "ring" "anna" "bert"])) true false = .ok compiled :=
    exists_ok_of_isOk (by decide +kernel)
  obtain ⟨out, -, -, hsaved⟩ := (saves_keep_cooperation (depotEnv pooledRing) "depots"
    (depotSpec pooledRing) before hbefore).1 _ true false compiled rfl hcompiled
  exact ⟨before, compiled, out, hbefore, hcompiled, hsaved⟩

/-- Accepted saves that lose a pair: to an edge from a haulier to itself, in a structure without an
id, in a block that is a list of pairs, and to an order of two ids with one slug. -/
theorem saves_lose_pairs :
    LosesPair (blockOf [oneEdge "ring" "anna" "bert"]) (blockOf [oneEdge "ring" "anna" "anna"]) ∧
    LosesPair (blockOf [oneEdge "" "anna" "bert"]) (blockOf []) ∧
    LosesPair (.list [.list [.str "anna", .str "bert"]]) .null ∧
    LosesPair (blockOf [.dict [("id", .str "ring")], oneEdge "Ring" "anna" "bert"])
      (blockOf [oneEdge "Ring" "anna" "bert", .dict [("id", .str "ring")]]) :=
  ⟨losesPair_spec (by decide +kernel), losesPair_spec (by decide +kernel),
    losesPair_spec (by decide +kernel), losesPair_spec (by decide +kernel)⟩

end OpenRide.Scenario
