import Mathlib.Data.List.Infix
import OpenRide.Scenario.SpecKeys

/-!
# Saving a scenario

There are two ways to save.  `generateScenario` takes a whole payload and writes it over the folder
of the scenario; `editScenario` merges a patch over the saved specification, key by key.  Both first
ask `guardCooperationNotEmptied` whether a structure would lose its edges and pools, then assemble
the specification and compile it.  The recipe the compile returns is the new saved specification.

With `allowReset` the guard is silent, and the pools of the structures that are being emptied are
not handed on (`previousScopedToUntouchedStructures`).

What is on disk is a parameter: the folder of each slug, and what compiling uses besides the
specification.
-/

namespace OpenRide.Scenario

open Lib Datagen

/-! ## The folder of a scenario -/

/-- What a save reads of the folder of a scenario. -/
structure ScenarioFolder where
  /-- `read_spec`: the object in `spec.json`, if it can be read. -/
  spec : Option Spec
  /-- What is found elsewhere in the folder: the recipe of the bundle, the settings, the meta
  file. -/
  fallback : Option Spec
  /-- Is `spec.json` or `scenario.json` there, and not empty? -/
  hasSpecFile : Bool

/-- `_load_generation_spec_from_disk`. -/
def ScenarioFolder.loadGenerationSpec (folder : ScenarioFolder) : Option Spec :=
  match folder.spec with
  | some spec => some spec
  | none => folder.fallback

/-- `_previous_exists_but_is_unreadable`. -/
def previousExistsButIsUnreadable (folder : Option ScenarioFolder) (previous : Option Spec) :
    Bool :=
  previous.isNone && match folder with
    | some folder => folder.hasSpecFile
    | none => false

/-- What saving uses besides the payload. -/
structure SaveEnv where
  datagen : DatagenEnv
  /-- The path relative to the folder that replaces an absolute path to a file. -/
  stagedPath : String → Option String
  /-- Whatever generating and writing the bundle of a compiled scenario raises. -/
  generate : CompiledScenario → Except PyError Unit
  /-- The folders there are, by slug. -/
  folders : String → Option ScenarioFolder

/-- Why a save fails. -/
inductive SaveError where
  | valueError (message : String)
  | fileExists (message : String)
  | fileNotFound (message : String)
  /-- `CooperationResetRequired`. -/
  | resetRequired (message : String)
  /-- Raised while the specification is assembled and compiled. -/
  | raised (e : PyError)
deriving DecidableEq

/-! ## Slugs -/

/-- `RESERVED_SLUGS`. -/
def reservedSlugs : List String := ["default", "con", "prn", "aux", "nul", "com1", "lpt1"]

section

variable (T : PyText)

/-- `validate_slug`: the error of a slug that is not one. -/
def validateSlug (slug : String) : Option String :=
  let stripped := pyStrip slug
  let shown := T.repr (.str stripped)
  if slug = "" then some "Slug is required"
  else if stripped ∈ reservedSlugs then some s!"Slug {shown} is reserved"
  else if ['.', '.'] <:+: stripped.toList ∨ '/' ∈ stripped.toList ∨ '\\' ∈ stripped.toList then
    some "Slug must not contain path separators"
  else if !isScenarioSlug stripped then
    some "Slug must be 1–64 chars: lowercase letters, digits, underscore, hyphen"
  else none

/-- Raise the error of a slug that is not one. -/
def checkSlug (slug : String) : Except SaveError Unit :=
  match validateSlug T slug with
  | some message => .error (.valueError message)
  | none => .ok ()

/-! ## Cooperation that would be lost -/

/-- The structures with content in one block and none in another. -/
def lostStructures (previous incoming : Raw) : List String :=
  (cooperationContentStructureIds T previous).filter
    (· ∉ cooperationContentStructureIds T incoming)

/-- `_guard_cooperation_not_emptied`. -/
def guardCooperationNotEmptied (previous : Option Spec) (incoming : Raw) (slug : String)
    (allowReset : Bool) : Except SaveError Unit :=
  let lost := lostStructures T (previousCooperation previous) incoming
  if allowReset ∨ lost = [] then .ok ()
  else
    let shown := T.repr (.str slug)
    let names := ", ".intercalate ((SortedSet.ofList lost).toList.map fun s ↦ T.repr (.str s))
    .error (.resetRequired (s!"Refusing to empty cooperation on scenario {shown}: structure(s) " ++
      s!"{names} carry edges/pools in the saved spec.json, but the incoming payload carries " ++
      "neither for them. A client that does not understand a cooperation field would silently " ++
      "delete it here (see FIX-6 / finding F2). Send the structure's content back, or pass " ++
      "allow_cooperation_reset=True to clear it on purpose."))

/-- `_previous_scoped_to_untouched_structures`. -/
def previousScopedToUntouchedStructures (previous : Option Spec) (incoming : Raw) : Option Spec :=
  previous.map fun prev ↦
    let beingReset := lostStructures T (prev.value "cooperation") incoming
    if beingReset = [] then prev
    else match prev.value "cooperation" with
      | .dict coop =>
        let kept := (cooperationStructures (.dict coop)).filter (structureId T · ∉ beingReset)
        prev.set "cooperation" (.dict (Dict.setIn "structures" (.list (kept.map .dict)) coop))
      | _ => prev

/-- The specification whose pools are handed on. -/
def carriedPrevious (previous : Option Spec) (incoming : Raw) (allowReset : Bool) : Option Spec :=
  if allowReset then previousScopedToUntouchedStructures T previous incoming else previous

end

/-! ## Compiling into the folder -/

/-- The path relative to the folder for the records an order policy learns from. -/
def stagedSource (stagedPath : String → Option String) (policy : List (String × Raw)) :
    Option String :=
  let src := Raw.field policy "source"
  let path := match src with
    | .dict entries => Raw.field entries "$file"
    | _ => src
  match path with
  | .str path => if pyStrip path = "" then none else stagedPath (pyStrip path)
  | _ => none

/-- `_stage_external_sources`. -/
def stageExternalSources (stagedPath : String → Option String) (spec : Spec) : Spec :=
  let agents := (spec.value "agents").asDict
  let order := (Raw.field agents "order").asDict
  let policy := (Raw.field order "policy").asDict
  match stagedSource stagedPath policy with
  | some path =>
    let policy := Dict.setIn "source" (.str path) policy
    let order := Dict.setIn "policy" (.dict policy) order
    spec.set "agents" (.dict (Dict.setIn "order" (.dict order) agents))
  | none => spec

/-- The epoch a specification declares, or else the default one. -/
def declaredReferenceTime (spec : Spec) : String :=
  match spec.value "referenceTime" with
  | .str s => if pyStrip s = "" then "2020-01-01 08:00:00" else pyStrip s
  | _ => "2020-01-01 08:00:00"

section

variable (env : SaveEnv)

/-- `_compile_into_folder`. -/
def compileIntoFolder (spec : Spec) : Except SaveError CompiledScenario := do
  let staged := stageExternalSources env.stagedPath spec
  let compiled ← raiseAs SaveError.raised
    (compile env.datagen (.dict staged.entries) (declaredReferenceTime staged))
  raiseAs SaveError.raised (env.generate compiled)
  return compiled

/-! ## The two ways to save -/

/-- What `generate_scenario` assembles from: the payload, for the domain of the call. -/
def generatePayload (domain : String) (rawSpec : Spec) : Spec := rawSpec.set "domain" (.str domain)

/-- The specification `generate_scenario` assembles. -/
def generateSpec (T : PyText) (domain : String) (previous : Option Spec) (rawSpec : Spec)
    (allowReset : Bool) : Except PyError Spec :=
  let payload := generatePayload domain rawSpec
  assembleSpec T payload domain
    (carriedPrevious T previous (payload.value "cooperation") allowReset)

/-- `generate_scenario`. -/
def generateScenario (domain : String) (rawSpec : Spec) (overwrite allowReset : Bool) :
    Except SaveError CompiledScenario := do
  let T := env.datagen.host.toPyText
  let payload := generatePayload domain rawSpec
  let slug := specSlug T payload
  checkSlug T slug
  let folder := env.folders slug
  if folder.isSome ∧ overwrite = false then
    throw (.fileExists s!"Scenario already exists: {slug}")
  let previous := folder.bind ScenarioFolder.loadGenerationSpec
  if previousExistsButIsUnreadable folder previous ∧ allowReset = false then
    let shown := T.repr (.str slug)
    throw (.resetRequired
      (s!"Refusing to overwrite scenario {shown}: a spec file exists on disk " ++
      "but could not be read, so the destructive-save guard cannot tell what this save would " ++
      "destroy. Fix or remove the unreadable spec, or pass allow_cooperation_reset=True to " ++
      "overwrite it deliberately."))
  guardCooperationNotEmptied T previous (payload.value "cooperation") slug allowReset
  let spec ← raiseAs SaveError.raised (generateSpec T domain previous rawSpec allowReset)
  compileIntoFolder env spec

/-- What an edit is merged over. -/
def ScenarioFolder.editBase (folder : ScenarioFolder) : Spec :=
  match folder.spec with
  | some spec => spec
  | none => folder.fallback.getD Dict.empty

/-- `{**base, **patch, "slug": slug, "domain": domain}`. -/
def mergedSpec (domain slug : String) (base patch : Spec) : Spec :=
  ((base.update patch.entries).set "slug" (.str slug)).set "domain" (.str domain)

/-- The specification `edit_scenario` assembles. -/
def editSpec (T : PyText) (domain slug : String) (base patch : Spec) (allowReset : Bool) :
    Except PyError Spec :=
  let merged := mergedSpec domain slug base patch
  assembleSpec T merged domain
    (carriedPrevious T (some base) (merged.value "cooperation") allowReset)

/-- `edit_scenario`. -/
def editScenario (domain slug : String) (patch : Spec) (allowReset : Bool) :
    Except SaveError CompiledScenario := do
  let T := env.datagen.host.toPyText
  checkSlug T slug
  match env.folders slug with
  | none => throw (.fileNotFound s!"Scenario not found: {slug}")
  | some folder =>
    let base := folder.editBase
    let merged := mergedSpec domain slug base patch
    guardCooperationNotEmptied T (some base) (merged.value "cooperation") slug allowReset
    let spec ← raiseAs SaveError.raised (editSpec T domain slug base patch allowReset)
    compileIntoFolder env spec

end

end OpenRide.Scenario
