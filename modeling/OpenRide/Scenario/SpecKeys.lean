import OpenRide.Datagen.Preprocess

/-!
# The keys of a saved specification

A scenario is saved as a specification with a fixed set of keys.  What a client sends is a payload
that may speak only some of them, under one of several spellings, so a table says of each key what
a save does with it: take it from the payload, carry it over from the saved specification when the
payload is silent, or merge it.  A second table says whether an explicit null speaks.

`assembleSpec` goes through the table once.  Cooperation structures are merged by
`carryAuthoredPools`, which hands the pools an author wrote on to a structure of the same id that
comes without pools.
-/

namespace OpenRide.Scenario

open Lib Datagen

/-- A specification or a payload: an object. -/
abbrev Spec := Dict String Raw

/-- `raw.get(key)`. -/
def Spec.value (spec : Spec) (key : String) : Raw := (spec.get? key).getD .null

theorem Spec.value_of_get? {spec : Spec} {key : String} {v : Raw} (h : spec.get? key = some v) :
    spec.value key = v := by
  rw [Spec.value, h]
  rfl

/-! ## The tables -/

/-- How `assembleSpec` decides a key's value when merging over a saved specification. -/
inductive Carry where
  /-- The body is authoritative; never inherited. -/
  | fromBody
  /-- The body wins if it supplied the key; otherwise inherit. -/
  | carryIfAbsent
  /-- Merged structurally. -/
  | mergeNested
deriving DecidableEq

/-- What an explicit null means for one key. -/
inductive NullPolicy where
  /-- Null is outside the key's domain: the client did not speak the key. -/
  | unsupplied
  /-- Null is a value: the clear is honoured. -/
  | clears
deriving DecidableEq

/-- Every top-level key a specification may carry. -/
inductive SpecKey where
  | name
  | slug
  | domain
  | source
  | simulationDays
  | seed
  | orderCountUnit
  | referenceTime
  | agents
  | earlyOrderCount
  | orderDemandCurve
  | tripMatrix
  | hauliers
  | cooperation
  | planner
  | solver
  | solverParams
  | roleSettings
  | overrides
  | facilityRules
  | facilityRulesWorld
deriving DecidableEq

/-- The keys in the order they are written. -/
def specKeys : List SpecKey :=
  [.name, .slug, .domain, .source, .simulationDays, .seed, .orderCountUnit, .referenceTime, .agents,
    .earlyOrderCount, .orderDemandCurve, .tripMatrix, .hauliers, .cooperation, .planner, .solver,
    .solverParams, .roleSettings, .overrides, .facilityRules, .facilityRulesWorld]

namespace SpecKey

/-- The key as it is written. -/
def spelling : SpecKey → String
  | name => "name"
  | slug => "slug"
  | domain => "domain"
  | source => "source"
  | simulationDays => "simulationDays"
  | seed => "seed"
  | orderCountUnit => "orderCountUnit"
  | referenceTime => "referenceTime"
  | agents => "agents"
  | earlyOrderCount => "earlyOrderCount"
  | orderDemandCurve => "orderDemandCurve"
  | tripMatrix => "tripMatrix"
  | hauliers => "hauliers"
  | cooperation => "cooperation"
  | planner => "planner"
  | solver => "solver"
  | solverParams => "solverParams"
  | roleSettings => "roleSettings"
  | overrides => "overrides"
  | facilityRules => "facilityRules"
  | facilityRulesWorld => "facilityRulesWorld"

/-- `SPEC_KEYS`: how a key survives a save. -/
def carry : SpecKey → Carry
  | name | slug | domain | source => .fromBody
  | cooperation => .mergeNested
  | _ => .carryIfAbsent

/-- `SPEC_KEY_NULL_POLICY`. -/
def nullPolicy : SpecKey → NullPolicy
  | orderDemandCurve | earlyOrderCount | planner | solverParams | overrides | solver
  | roleSettings => .clears
  | _ => .unsupplied

/-- `SPEC_KEY_ALIASES`: the accepted spellings of a key. -/
def aliases : SpecKey → List String
  | simulationDays => ["simulationDays", "simulation_days"]
  | roleSettings => ["roleSettings", "roleProfiles"]
  | agents => ["agents", "numTrucks", "numOrders", "numFacilities"]
  | key => [key.spelling]

theorem mem_specKeys (key : SpecKey) : key ∈ specKeys := by cases key <;> decide

theorem spelling_injective : Function.Injective spelling := by
  intro k k' h
  cases k <;> cases k' <;> first | rfl | exact absurd h (by decide)

theorem aliases_eq (key : SpecKey) : ∃ rest, key.aliases = key.spelling :: rest := by
  cases key <;> exact ⟨_, rfl⟩

end SpecKey

/-- The specification with these values of its keys. -/
def Spec.ofKeys (f : SpecKey → Raw) : Spec :=
  ⟨specKeys.map fun key ↦ (key.spelling, f key), by
    rw [List.map_map]
    exact (List.Nodup.map SpecKey.spelling_injective (by decide : specKeys.Nodup))⟩

@[simp] theorem Spec.get?_ofKeys (f : SpecKey → Raw) (key : SpecKey) :
    (Spec.ofKeys f).get? key.spelling = some (f key) :=
  (Dict.lookupIn_eq_some (Spec.ofKeys f).nodup).mpr
    (List.mem_map.mpr ⟨key, key.mem_specKeys, rfl⟩)

/-! ## What a payload speaks -/

/-- `value is None or (isinstance(value, str) and not value.strip())`. -/
def isBlank : Raw → Bool
  | .null => true
  | .str s => pyStrip s == ""
  | _ => false

/-- `_key_supplied`: the value of the first alias that is there decides. -/
def keySupplied (raw : Spec) (key : SpecKey) : Bool :=
  match key.aliases.findSome? raw.get? with
  | none => false
  | some value => !(key.nullPolicy == .unsupplied && isBlank value)

/-! ## Authored pools -/

/-- The entries of an object. -/
def dictOf? : Raw → Option (List (String × Raw))
  | .dict entries => some entries
  | _ => none

section

variable (T : PyText)

/-- One pool of `_authored_pools`. -/
def authoredPool (pool : List (String × Raw)) : Except PyError Raw := do
  let members ← recordList ((Raw.field pool "members").orElse (.list []))
  return .dict [("id", .str (T.strOrEmpty (Raw.field pool "id"))),
    ("members", .list (members.map fun m ↦ .str (T.strOf m)))]

/-- `_authored_pools`. -/
def authoredPools (fields : List (String × Raw)) : Except PyError (Option (List Raw)) :=
  match Raw.field fields "pools" with
  | .list pools => do
    let written ← each (authoredPool T) (pools.filterMap dictOf?)
    return some written
  | _ => .ok none

/-- `_cooperation_structures`. -/
def cooperationStructures (cooperation : Raw) : List (List (String × Raw)) :=
  match cooperation with
  | .dict fields =>
    match Raw.field fields "structures" with
    | .list entries => entries.filterMap dictOf?
    | _ => []
  | _ => []

/-- `str(s.get("id") or "").strip()`. -/
def structureId (fields : List (String × Raw)) : String :=
  pyStrip (T.strOrEmpty (Raw.field fields "id"))

/-- Does a structure have at least one edge or at least one pool? -/
def hasContent (fields : List (String × Raw)) : Bool :=
  (Raw.field fields "edges").truthy || (Raw.field fields "pools").truthy

/-- `cooperation_content_structure_ids`. -/
def cooperationContentStructureIds (cooperation : Raw) : List String :=
  (((cooperationStructures cooperation).filter hasContent).map (structureId T)).filter (· ≠ "")

/-- The authored pools of some structures by id, the last of an id counting. -/
def prevPoolsFrom : List (List (String × Raw)) → Dict String (List Raw) →
    Except PyError (Dict String (List Raw))
  | [], acc => .ok acc
  | fields :: rest, acc => do
    let pools ← authoredPools T fields
    match pools with
    | some pools =>
      prevPoolsFrom rest (if structureId T fields = "" then acc
        else acc.set (structureId T fields) pools)
    | none => prevPoolsFrom rest acc

/-- A structure with the pools it is handed on, if it comes without. -/
def carryEntry (prevPools : Dict String (List Raw)) (entry : Raw) : Raw :=
  match entry with
  | .dict fields =>
    match Raw.field fields "pools", prevPools.get? (structureId T fields) with
    | .null, some pools => .dict (Dict.setIn "pools" (.list pools) fields)
    | _, _ => entry
  | _ => entry

/-- `_carry_authored_pools`. -/
def carryAuthoredPools (incoming previous : Raw) : Except PyError Raw := do
  let prevPools ← prevPoolsFrom T (cooperationStructures previous) Dict.empty
  match incoming with
  | .dict fields =>
    match Raw.field fields "structures" with
    | .list entries =>
      return .dict (Dict.setIn "structures" (.list (entries.map (carryEntry T prevPools))) fields)
    | _ => return incoming
  | _ => return incoming

/-! ## Assembling -/

/-- `str(raw.get("name") or "").strip()`. -/
def specName (raw : Spec) : String := pyStrip (T.strOrEmpty (raw.value "name"))

/-- `_spec_slug`. -/
def specSlug (raw : Spec) : String :=
  pyStrip (T.strOf ((raw.value "slug").orElse (.str (slug '_' (specName T raw) "scenario"))))

/-- The block of a role in the agents of a payload. -/
def rawRole (raw : Spec) (role : String) : List (String × Raw) :=
  (Raw.field (raw.value "agents").asDict role).asDict

/-- An object, or nothing. -/
def dictOrNull : Raw → Raw
  | .dict entries => .dict entries
  | _ => .null

/-- The fields that are not null. -/
def present (entries : List (String × Raw)) : List (String × Raw) :=
  entries.filter fun p ↦ !p.2.isNull

/-- `_role`: what a payload says of the agents of a role. -/
def roleBlock (raw : Spec) (role legacyCountKey : String) : Raw :=
  let r := rawRole raw role
  .dict (present [("count", Raw.fieldD r "count" (raw.value legacyCountKey)),
    ("policy", dictOrNull (Raw.field r "policy")),
    ("orderCountUnit", Raw.field r "orderCountUnit")])

/-- An object that is not empty, or nothing. -/
def objectOrNull : Raw → Raw
  | .dict (p :: entries) => .dict (p :: entries)
  | _ => .null

/-- `roleSettings`, or else `roleProfiles`. -/
def bodyRoleSettings (raw : Spec) : Raw :=
  match raw.value "roleSettings" with
  | .dict settings => objectOrNull (.dict settings)
  | _ => objectOrNull (raw.value "roleProfiles")

/-- `str(raw.get("domain") or domain or "container-logistics-sim")`. -/
def specDomain (raw : Spec) (domain : String) : String :=
  T.strOf ((raw.value "domain").orElse ((Raw.str domain).orElse (.str "container-logistics-sim")))

/-- The value each key takes if the client supplied it, or if it is derived, with the merged
cooperation block. -/
def fromBody (raw : Spec) (domain : String) (cooperation : Raw) : SpecKey → Raw
  | .name => .str (specName T raw)
  | .slug => .str (specSlug T raw)
  | .domain => .str (specDomain T raw domain)
  | .source => .str "frontend"
  | .simulationDays => (raw.get? "simulationDays").getD (raw.value "simulation_days")
  | .agents => .dict [("truck", roleBlock raw "truck" "numTrucks"),
      ("order", roleBlock raw "order" "numOrders"),
      ("facility", roleBlock raw "facility" "numFacilities")]
  | .cooperation => cooperation
  | .solverParams => objectOrNull (raw.value "solverParams")
  | .roleSettings => bodyRoleSettings raw
  | .overrides => objectOrNull (raw.value "overrides")
  | key => raw.value key.spelling

/-- The value of a key: inherited, if the client did not speak it and the saved specification has
it. -/
def specValue (raw : Spec) (previous : Option Spec) (body : SpecKey → Raw) (key : SpecKey) : Raw :=
  if key.carry = .carryIfAbsent ∧ keySupplied raw key = false then
    (previous.bind fun prev ↦ prev.get? key.spelling).getD (body key)
  else body key

/-- `previous.get("cooperation") if isinstance(previous, dict) else None`. -/
def previousCooperation (previous : Option Spec) : Raw :=
  (previous.map fun prev ↦ prev.value "cooperation").getD .null

/-- `assemble_spec`. -/
def assembleSpec (raw : Spec) (domain : String) (previous : Option Spec) : Except PyError Spec := do
  let cooperation ← carryAuthoredPools T (raw.value "cooperation") (previousCooperation previous)
  return Spec.ofKeys (specValue raw previous (fromBody T raw domain cooperation))

end

end OpenRide.Scenario
