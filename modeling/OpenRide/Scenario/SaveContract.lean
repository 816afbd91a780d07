import OpenRide.Scenario.SettledRecipe

/-!
# What a save changes

`saves_respect_payload` is the contract of both ways to save.  A key that is carried over keeps its
saved value when the payload is silent on it and takes the value the payload says; an edit of a
settled specification keeps every other key as well, agents role by role; and a settled
specification that is sent back is saved as it was.

It has limits, which `saves_lose_unsaid` shows on one small scenario.  The name, the source and the
cooperation block are those of the payload, the agents are one key, and a spelling counts only if
none before it is there.
-/

namespace OpenRide.Scenario

open Lib Datagen

theorem assembled_of_generateSpec {T : PyText} {domain : String} {saved payload out : Spec}
    {allowReset : Bool} (h : generateSpec T domain (some saved) payload allowReset = .ok out) :
    Assembled T (generatePayload domain payload) domain saved out := by
  obtain ⟨prev, hcarried, hprev, -⟩ := get?_carriedPrevious T allowReset
    ((generatePayload domain payload).value "cooperation") saved
  rw [generateSpec, hcarried] at h
  exact assembled_of_assembleSpec
    (fun key hne ↦ hprev _ fun he ↦ hne (SpecKey.spelling_injective he)) h

/-- What `editScenario` assembles over a saved specification, settled or not. -/
theorem assembled_of_editSpec {T : PyText} {domain slug : String} {saved patch out : Spec}
    {allowReset : Bool} (h : editSpec T domain slug saved patch allowReset = .ok out) :
    Assembled T (mergedSpec domain slug saved patch) domain saved out := by
  obtain ⟨prev, hcarried, hprev, -⟩ := get?_carriedPrevious T allowReset
    ((mergedSpec domain slug saved patch).value "cooperation") saved
  rw [editSpec, hcarried] at h
  exact assembled_of_assembleSpec
    (fun key hne ↦ hprev _ fun he ↦ hne (SpecKey.spelling_injective he)) h

/-- What a compile writes is settled, unless its name was cut at white space or its solver
parameters are an empty object. -/
theorem settled_of_compileSpec {E : DatagenEnv} {raw : List (String × Raw)} {referenceTime : String}
    {compiled : CompiledScenario} (h : compileSpec E raw referenceTime = .ok compiled) :
    ∃ recipe : Spec, compiled.recipe = .dict recipe.entries ∧
      ((∃ s, recipe.value "name" = .str s ∧ pyStrip s = s) →
        recipe.value "solverParams" ≠ .dict [] → Settled E.host.toPyText recipe) := by
  obtain ⟨s, rfl⟩ := Stages.exists_of_compileSpec h
  refine ⟨recipeSpec s, rfl, ?_⟩
  rintro ⟨name, hname, hstrip⟩ hparams
  have hvalue : (recipeSpec s).value "name" = .str (recipeName s.name) := rfl
  obtain rfl := Raw.str.inj (hvalue.symm.trans hname)
  refine settled_recipe s hstrip fun hraw ↦ hparams ?_
  show recipeSolverParams raw = .dict []
  simp only [recipeSolverParams, hraw]

/-- **A save changes what the payload says, and keeps what it is silent on.** -/
theorem saves_respect_payload (E : DatagenEnv) (domain : String) (saved : Spec) :
    (∀ payload allowReset out,
      generateSpec E.host.toPyText domain (some saved) payload allowReset = .ok out →
        Assembled E.host.toPyText (generatePayload domain payload) domain saved out) ∧
    (∀ slug patch allowReset out,
      editSpec E.host.toPyText domain slug saved patch allowReset = .ok out →
        Assembled E.host.toPyText (mergedSpec domain slug saved patch) domain saved out ∧
          (Settled E.host.toPyText saved → slug ≠ "" →
            Edited E.host.toPyText domain slug saved patch out)) ∧
    (Settled E.host.toPyText saved → ∀ allowReset,
      (∃ out, generateSpec E.host.toPyText domain (some saved) saved allowReset = .ok out ∧
        SavedBack saved out) ∧
      ∀ slug patch, saved.get? "slug" = some (.str slug) →
        (∀ k v, patch.get? k = some v → saved.get? k = some v) →
          ∃ out, editSpec E.host.toPyText domain slug saved patch allowReset = .ok out ∧
            SavedBack saved out) ∧
    (∀ raw referenceTime compiled, compileSpec E raw referenceTime = .ok compiled →
      ∃ recipe : Spec, compiled.recipe = .dict recipe.entries ∧
        ((∃ s, recipe.value "name" = .str s ∧ pyStrip s = s) →
          recipe.value "solverParams" ≠ .dict [] → Settled E.host.toPyText recipe)) :=
  ⟨fun _ _ _ h ↦ assembled_of_generateSpec h,
    fun _ _ _ _ h ↦ ⟨assembled_of_editSpec h, fun hs hslug ↦ edited_of_editSpec hs hslug h⟩,
    fun hs _ ↦ ⟨savedBack_of_generateSpec hs, fun _ _ hslug hpatch ↦
      savedBack_of_editSpec hs hslug hpatch⟩,
    fun _ _ _ h ↦ settled_of_compileSpec h⟩

/-! ### A small scenario -/

/-- A saved scenario of three trucks and five orders, with two structures of which the second is
active. -/
def savedDepots : Spec :=
  Dict.ofList [("name", .str "Two depots"), ("slug", .str "two-depots"), ("source", .str "spec"),
    ("simulationDays", .int 7),
    ("agents", .dict [("truck", .dict [("count", .int 3)]), ("order", .dict [("count", .int 5)]),
      ("facility", .dict [("count", .int 2)])]),
    ("cooperation", .dict [("active", .str "solo"),
      ("structures", .list [.dict [("id", .str "none")], .dict [("id", .str "solo")]])]),
    ("overrides", .dict [])]

/-- A payload that speaks of the trucks only. -/
def sevenTrucks : Spec :=
  Dict.ofList [("slug", .str "two-depots"),
    ("agents", .dict [("truck", .dict [("count", .int 7)])])]

/-- A payload with the days under the second spelling, and null under the first. -/
def fiveDays : Spec :=
  Dict.ofList [("slug", .str "two-depots"), ("simulationDays", .null), ("simulation_days", .int 5)]

/-- A patch with the trucks under a legacy key. -/
def nineTrucks : Spec := Dict.ofList [("numTrucks", .int 9)]

/-- Saves lose a name, a role and a cooperation block that are not said, a value said under a second
spelling, and parts of a specification that is sent back. -/
theorem saves_lose_unsaid :
    (∃ out,
      generateSpec asciiHost.toPyText "depots" (some savedDepots) sevenTrucks false = .ok out ∧
      (sevenTrucks.get? "name" = none ∧ savedDepots.value "name" = .str "Two depots" ∧
        out.value "name" = .str "") ∧
      (rawRole sevenTrucks "order" = [] ∧
        Raw.field (rawRole savedDepots "order") "count" = .int 5 ∧
        Raw.field (rawRole out "order") "count" = .null) ∧
      (sevenTrucks.get? "cooperation" = none ∧
        Raw.field (savedDepots.value "cooperation").asDict "active" = .str "solo" ∧
        out.value "cooperation" = .null)) ∧
    (∃ out, generateSpec asciiHost.toPyText "depots" (some savedDepots) fiveDays false = .ok out ∧
      fiveDays.get? "simulation_days" = some (.int 5) ∧ out.value "simulationDays" = .int 7) ∧
    (∃ out, editSpec asciiHost.toPyText "depots" "two-depots" savedDepots nineTrucks false =
      .ok out ∧ nineTrucks.get? "numTrucks" = some (.int 9) ∧
        Raw.field (rawRole out "truck") "count" = .int 3) ∧
    (∃ out,
      generateSpec asciiHost.toPyText "depots" (some savedDepots) savedDepots false = .ok out ∧
      (savedDepots.value "source" = .str "spec" ∧ out.value "source" = .str "frontend") ∧
      savedDepots.value "overrides" = .dict [] ∧ out.value "overrides" = .null) :=
  ⟨⟨_, rfl, ⟨rfl, rfl, rfl⟩, ⟨rfl, rfl, rfl⟩, rfl, rfl, rfl⟩, ⟨_, rfl, rfl, rfl⟩,
    ⟨_, rfl, rfl, rfl⟩,
    _, rfl, ⟨rfl, rfl⟩, rfl, rfl⟩

/-- The recipe of a scenario with random orders, sent back, is saved as it was. -/
theorem saves_respect_payload_recipe : ∃ compiled, ∃ recipe : Spec,
    compileSpec twoDepots (randomOrders .null) "2020-01-01 00:00:00" = .ok compiled ∧
      compiled.recipe = .dict recipe.entries ∧
        ∃ out, generateSpec asciiHost.toPyText "depots" (some recipe) recipe false = .ok out ∧
          SavedBack recipe out := by
  obtain ⟨compiled, hcompiled⟩ := exists_compile_randomOrders .null (by decide +kernel)
  obtain ⟨recipe, hrecipe, hsettled⟩ :=
    (saves_respect_payload twoDepots "depots" Dict.empty).2.2.2 _ _ compiled hcompiled
  obtain ⟨s, rfl⟩ := Stages.exists_of_compileSpec hcompiled
  have hentries : s.recipe = recipe.entries := Raw.dict.inj hrecipe
  have hname : s.name = "Two depots" := by
    have hok : scenarioName twoDepots (randomOrders .null) = .ok "Two depots" := rfl
    exact Except.ok.inj (s.name_ok.symm.trans hok)
  have hvalue : ∀ key, recipe.value key = (recipeSpec s).value key := fun key ↦ by
    rw [Spec.value, Spec.value, Dict.get?, Dict.get?, ← hentries]
    rfl
  have hsaved := hsettled ⟨recipeName s.name, hvalue "name", by rw [hname]; decide +kernel⟩ (by
    rw [hvalue]
    exact Raw.noConfusion)
  exact ⟨_, recipe, hcompiled, hrecipe,
    ((saves_respect_payload twoDepots "depots" recipe).2.2.1 hsaved false).1⟩

end OpenRide.Scenario
