import OpenRide.Datagen.CooperationEcho
import OpenRide.Datagen.Demand
import OpenRide.Datagen.Hauliers
import OpenRide.Datagen.PlannerConfig
import OpenRide.Datagen.TripMatrix

/-!
# Compiling a scenario specification

`compile` turns the specification an author wrote into the data a scenario is generated from, and
into the *recipe* it is saved with.  It validates every field, fills in what is missing, resolves
files, and decides how many trucks and orders of which haulier there are, where orders go and when
they arrive, which facilities exist, and how orders are planned.  The recipe is a specification
again, with the resolved values written out.

What is computed elsewhere is a parameter, `DatagenEnv`: the files, the address catalogue with the
facilities it places, the rules that change single facilities, and the reading of rebates and of
clock times.  Of the result only what the compiler decides is modelled, not the settings it copies
from constants.
-/

namespace OpenRide.Datagen

open Lib

/-! ## The environment -/

/-- The kinds of input file. -/
inductive FileKind where
  | matrix
  | curve
  | records
deriving DecidableEq

/-- The word for a kind of file in error messages. -/
def FileKind.name : FileKind → String
  | .matrix => "matrix"
  | .curve => "curve"
  | .records => "records"

/-- A facility as placed by the catalogue: a dictionary. -/
abbrev Site := Dict String Raw

/-- Whatever a compile uses besides the specification. -/
structure DatagenEnv where
  host : PyHost
  /-- `POLICY_REGISTRY`: the registered policy types of each role. -/
  policyRegistry : List (String × String)
  /-- `rebate.reference_hour`. -/
  referenceHour : Raw → Option ℕ
  /-- A path relative to the scenario's directory. -/
  scenarioPath : String → String
  /-- `os.path.isfile`. -/
  isFile : String → Bool
  /-- `load_matrix_file`, `load_curve_file` and `load_records_file`. -/
  loadFile : FileKind → String → Except PyError Raw
  /-- `catalog.codes()`. -/
  codes : List String
  /-- `catalog.facility_sites` with the code registry of a trip matrix. -/
  facilitySites : ℤ → Option Grid → Except PyError (List Site)
  /-- What leaves the `try` around `parse_rebate_schedule`, if anything does. -/
  rebateError : Raw → String → Option PyError
  /-- `Preprocessor._resolve_facility_rules`: the facilities after the rules of a specification
  were checked and applied. -/
  resolveFacilityRules : Raw → Raw → List Site → Dict String Raw → String →
    Except PyError (List Site)

/-- The policies registered without extensions. -/
def builtinPolicies : List (String × String) :=
  [("order", "random"), ("order", "historical"), ("truck", "default"), ("truck", "random"),
    ("truck", "historical"), ("facility", "allocate"), ("facility", "random"),
    ("assignment", "default"), ("analytics", "default"), ("order_lifecycle", "default")]

/-! ## Constants -/

/-- `MAX_TRUCKS` and `MAX_FACILITY_COUNT`. -/
def maxCount : ℤ := 1000000

/-- `sys.maxsize`: no list is longer. -/
def maxListLength : ℤ := 2 ^ 63 - 1

/-- `MAX_SIMULATION_DAYS`. -/
def maxSimulationDays : ℤ := 7

/-- `DEFAULT_SEED`. -/
def defaultSeed : ℤ := 20260712

/-- `NUM_FACILITIES`. -/
def defaultNumFacilities : ℤ := 15

/-- `default_policy_name`. -/
def defaultPolicyName (role : String) : String :=
  if role = "order" then "historical" else if role = "facility" then "allocate" else "default"

/-- `canonical_policy_type`. -/
def canonicalPolicyType (role ptype : String) : String :=
  if role = "order" ∧ ptype = "matrix" then "historical" else ptype

/-- `FACILITY_SETTINGS["profile"]`. -/
def facilityProfile : Dict String Raw :=
  Dict.ofList [("publish_facility_stream_kafka", .bool true),
    ("persist_facility_snapshots", .bool false), ("fifo_queue_policy", .bool true),
    ("gate_count", .int 1), ("service_time", .int 1800), ("max_queue_size", .null),
    ("facility_type", .str "Depo"), ("status", .str "Open"), ("operating_hours", .str "24/7"),
    ("operating_days", .str "7 days a week")]

/-- `ASSIGNMENT_SETTINGS["profile"]["strategy"]`. -/
def defaultStrategy : String := "RandomAssignment"

/-- `ASSIGNMENT_SETTINGS["profile"]["solver_params"]`. -/
def defaultSolverParams : Dict String Raw :=
  Dict.ofList [("dual_cycle_bonus_km", .num 5), ("dual_cycle_radius_km", .num (1 / 2))]

/-- The roles with overrides. -/
def overrideRoles : List String := ["truck", "order", "facility"]

/-- `_UNSAFE_OVERRIDE_KEYS`. -/
def unsafeOverrideKeys : List String :=
  ["facilities", "location", "name", "pickup_facility_name", "dropoff_facility_name", "pickup_loc",
    "dropoff_loc", "pickup_service_time", "dropoff_service_time", "estimated_time_to_pickup",
    "estimated_time_to_dropoff", "home_facility_name"]

/-! ## Overrides -/

/-- The fields of a legacy `roleSettings` profile that may be merged. -/
def safeProfile (raw : List (String × Raw)) (role : String) : List (String × Raw) :=
  let settings := (Raw.field (Raw.field raw "roleSettings").asDict role).asDict
  (Raw.field settings "profile").asDict.filter fun p ↦ p.1 ∉ unsafeOverrideKeys

/-- The overrides of one role: the legacy profile, updated by what is authored as overrides. -/
def mergedRole (raw : List (String × Raw)) (role : String) : Dict String Raw :=
  (Dict.ofList (safeProfile raw role)).update
    (Raw.field (Raw.field raw "overrides").asDict role).asDict

/-- `_merged_overrides`: the overrides of the roles that have any. -/
def mergedOverrides (raw : List (String × Raw)) : List (String × Dict String Raw) :=
  (overrideRoles.map fun role ↦ (role, mergedRole raw role)).filter fun p ↦ !p.2.entries.isEmpty

/-- `overrides.get(role)`, or nothing. -/
def roleOverrides (overrides : List (String × Dict String Raw)) (role : String) : Dict String Raw :=
  (Dict.lookupIn role overrides).getD Dict.empty

/-- The overrides as the dictionary that is persisted. -/
def overridesRaw (overrides : List (String × Dict String Raw)) : Raw :=
  if overrides.isEmpty then .null else .dict (overrides.map fun p ↦ (p.1, .dict p.2.entries))

section

variable (E : DatagenEnv)

/-- `_coerce_positive_int`. -/
def coercePositiveInt (value : Raw) (whr : String) : Except PyError Unit :=
  let got := E.host.repr value
  match value with
  | .bool b =>
    let read := if b then "1" else "0"
    .error (.validation (s!"{whr}: must be a positive integer, got a boolean ({got}). Booleans " ++
      s!"are integers in Python, so this would silently compile to {read}."))
  | .int n =>
    if n < 1 then
      .error (.validation s!"{whr}: must be a positive integer (>= 1), got {got}.")
    else .ok ()
  | _ =>
    let type := value.typeName
    .error (.validation s!"{whr}: must be a positive integer, got {type} ({got}).")

/-- `_coerce_rebate`. -/
def coerceRebate (value : Raw) (whr : String) : Except PyError Unit :=
  match E.rebateError value whr with
  | some e => .error e
  | none => .ok ()

/-- The coercer of a key, applied to an override unless that is missing or null. -/
def validateOverride (facility : Dict String Raw) (slug key : String)
    (coerce : Raw → String → Except PyError Unit) : Except PyError Unit :=
  match (facility.get? key).getD .null with
  | .null => .ok ()
  | value =>
    let shown := E.host.repr (.str slug)
    coerce value s!"spec {shown}: overrides.facility.{key}"

/-- `_validate_blanket_facility_overrides`. -/
def validateBlanketFacilityOverrides (facility : Dict String Raw) (slug : String) :
    Except PyError Unit := do
  validateOverride E facility slug "gate_count" (coercePositiveInt E)
  validateOverride E facility slug "service_time" (coercePositiveInt E)
  validateOverride E facility slug "rebate" (coerceRebate E)

/-- `_reject_rebate_by_code`. -/
def rejectRebateByCode (facility : Dict String Raw) (slug : String) : Except PyError Unit :=
  if facility.contains "rebate_by_code" then
    let shown := E.host.repr (.str slug)
    .error (.validation (s!"spec {shown}: overrides.facility.rebate_by_code is no longer " ++
      "supported. It was one per-key mechanism; facilityRules is one mechanism for every " ++
      "per-facility key.\n\n" ++
      "Translate:\n" ++
      "    \"overrides\": \x7b \"facility\": \x7b \"rebate_by_code\": \x7b \"CT\": " ++
      "\x7b…\x7d, \"MT\": null \x7d \x7d \x7d\n" ++
      "into:\n" ++
      "    \"facilityRules\": [\n" ++
      "      \x7b \"match\": \x7b\"code\": \"CT\"\x7d, \"set\": \x7b\"rebate\": " ++
      "\x7b…\x7d\x7d \x7d,\n" ++
      "      \x7b \"match\": \x7b\"code\": \"MT\"\x7d, \"set\": \x7b\"rebate\": " ++
      "null\x7d \x7d\n" ++
      "    ]\n" ++
      "An explicit null still means \"this code gets NO schedule, overriding the\n" ++
      "scenario-wide overrides.facility.rebate\" — in facilityRules, what counts is\n" ++
      "the presence of \"rebate\" in \"set\", exactly as it did here.\n" ++
      "Then record the facility world these rules target:\n" ++
      s!"    openride scenario rules-baseline {slug}"))
  else .ok ()

/-! ## Rebates -/

/-- The rebates the facilities end up with, each with its facility. -/
def effectiveRebates (sites : List Site) : List (Site × Raw) :=
  sites.filterMap fun site ↦
    match (site.get? "rebate").getD .null with
    | .null => none
    | block => some (site, block)

/-- `str((block or {}).get("currency"))`. -/
def rebateCurrency (block : Raw) : String := E.host.strOf (Raw.field block.asDict "currency")

/-- The currencies of the rebates, sorted. -/
def rebateCurrencies (effective : List (Site × Raw)) : List String :=
  (SortedSet.ofList ((effective.filter fun p ↦
    !(Raw.field p.2.asDict "currency").isNull).map fun p ↦ rebateCurrency E p.2)).toList

/-- A facility with a rebate in this currency, for the error message. -/
def currencyExample (effective : List (Site × Raw)) (currency : String) : String :=
  let site := (effective.find? fun p ↦ rebateCurrency E p.2 = currency).map Prod.fst
  let named := site.map fun s ↦ ((s.get? "name").getD .null).orElse ((s.get? "code").getD .null)
  E.host.repr (.str currency) ++ " at " ++ E.host.repr (named.getD .null)

/-- `_validate_facility_rebate`, without the warnings it logs. -/
def validateFacilityRebate (facility : Dict String Raw) (sites : List Site)
    (slug referenceTime : String) : Except PyError Unit := do
  let shown := E.host.repr (.str slug)
  match (facility.get? "rebate").getD .null with
  | .null => pure ()
  | block => coerceRebate E block "overrides.facility.rebate"
  let effective := effectiveRebates sites
  if effective.isEmpty then return ()
  let refHour := E.referenceHour (.str referenceTime)
  if refHour ≠ some 0 then
    let epoch := E.host.repr (.str referenceTime)
    let hour := (refHour.map toString).getD "None"
    throw (.validation (s!"spec {shown}: a facility rebate schedule requires a midnight " ++
      s!"simulation epoch, but reference_time is {epoch} (hour {hour}). A rebate is priced on " ++
      "the true wall clock, while the order-demand curve's authored hour H is realised at " ++
      s!"wall hour (H + {hour}) % 24 — so the two axes in this spec are {hour} hours apart and " ++
      "every schedule would mean something other than it says. Fix: add \"referenceTime\": " ++
      "\"2020-01-01 00:00:00\" to spec.json and recompile. (Generation is byte-identical " ++
      "under this change; only wall-clock LABELS move — plan §18.3.)"))
  let currencies := rebateCurrencies E effective
  if 1 < currencies.length then
    let count := currencies.length
    let listed := E.host.repr (.list (currencies.map .str))
    let examples := ", ".intercalate (currencies.map (currencyExample E effective))
    throw (.validation (s!"spec {shown}: rebate schedules resolve to {count} different " ++
      s!"currencies {listed} across this scenario's facilities (e.g. {examples}). The haulier " ++
      "ledger publishes ONE signed total beside ONE currency label, so mixed units would be " ++
      "summed together and labelled with whichever name sorts first. There is no conversion " ++
      "and no FX in this model — use a single currency label for the whole scenario."))

/-! ## Files -/

/-- A file, read. -/
def readFile (path : Raw) (kind : FileKind) : Except PyError Raw :=
  let kindName := kind.name
  match path with
  | .str path =>
    if pyStrip path = "" then
      .error (.validation s!"{kindName} $file must be a non-empty path")
    else
      let resolved := E.scenarioPath (pyStrip path)
      if E.isFile resolved then E.loadFile kind resolved
      else .error (.validation s!"{kindName} file not found: {resolved}")
  | _ => .error (.validation s!"{kindName} $file must be a non-empty path")

/-- `_resolve_file`: what is not a path is inline already. -/
def resolveFile (value : Raw) (kind : FileKind) : Except PyError Raw :=
  match value with
  | .dict entries =>
    match Dict.lookupIn "$file" entries with
    | some path => readFile E path kind
    | none => .ok value
  | .str _ => readFile E value kind
  | _ => .ok value

/-! ## Identity and calendar -/

/-- `CANONICAL_EPOCH_FORMAT`, as error messages print it. -/
def epochFormat : String := "'%Y-%m-%d %H:%M:%S'"

/-- The check of the epoch a specification declares.  One that is null or blank counts as not
declared. -/
def checkDeclaredEpoch (declared : Raw) : Except PyError Unit :=
  let absent := declared.isNull || (declared.isStr && pyStrip (E.host.strOf declared) == "")
  if !absent && (E.referenceHour declared).isNone then
    let shown := E.host.repr declared
    .error (.validation (s!"spec: declared 'referenceTime' {shown} is not in the canonical " ++
      s!"{epochFormat} form (e.g. '2020-01-01 00:00:00')."))
  else .ok ()

/-- The check of the epoch that is compiled in. -/
def checkEpoch (referenceTime : String) : Except PyError Unit :=
  if (E.referenceHour (.str referenceTime)).isNone then
    let shown := E.host.repr (.str referenceTime)
    .error (.validation (s!"spec: simulation epoch {shown} is not in the canonical " ++
      s!"{epochFormat} form (e.g. '2020-01-01 00:00:00'). Offset/ISO spellings are refused " ++
      "rather than guessed: an offset makes 'which wall clock' ambiguous, and the permissive " ++
      "parser this replaces blessed '2020-01-01T00:00:00+08:00' as hour 0 and stamped the run " ++
      "axes_aligned=true. All 15 existing bundles already use the canonical form, so this " ++
      "refuses nothing that exists."))
  else .ok ()

/-- The name of a scenario. -/
def scenarioName (raw : List (String × Raw)) : Except PyError String :=
  let name := pyStrip (E.host.strOrEmpty (Raw.field raw "name"))
  if name = "" then .error (.validation "Scenario name is required") else .ok name

/-- `_SLUG_RE`. -/
def isScenarioSlug (s : String) : Bool :=
  match s.toList with
  | [] => false
  | c :: cs => isSlugChar c && cs.length ≤ 63 && cs.all fun c ↦ isSlugChar c || c == '_' || c == '-'

/-- The slug of a scenario: the one authored, or else that of the name. -/
def scenarioSlug (raw : List (String × Raw)) (name : String) : Except PyError String :=
  let authored := (Raw.field raw "slug").orElse (.str (slug '_' name "scenario"))
  let slug := pyStrip (E.host.strOf authored)
  if isScenarioSlug slug then .ok slug else
    .error (.validation
      "Slug must be 1-64 chars: lowercase letters, digits, underscore, hyphen")

/-- `max(low, min(high, n))`. -/
def clamp (low high n : ℤ) : ℤ := max low (min high n)

/-- The days a scenario runs. -/
def simulationDays (raw : List (String × Raw)) : Except PyError ℤ := do
  let days ← pyInt E.host ((Raw.field raw "simulationDays").orElse
    ((Raw.field raw "simulation_days").orElse (.int 1)))
  return clamp 1 maxSimulationDays days

/-- The seed of a scenario. -/
def scenarioSeed (raw : List (String × Raw)) : Except PyError ℤ :=
  match Raw.field raw "seed" with
  | .null => .ok defaultSeed
  | seed => pyInt E.host seed

/-! ## Counts and policies -/

/-- The block of an agent. -/
def agentBlock (raw : List (String × Raw)) (role : String) : List (String × Raw) :=
  (Raw.field (Raw.field raw "agents").asDict role).asDict

/-- The number of agents of a role. -/
def agentCount (raw : List (String × Raw)) (role : String) (default : ℤ) : Except PyError ℤ :=
  pyInt E.host ((Raw.field (agentBlock raw role) "count").orElse (.int default))

/-- How orders are counted: per day, or in total. -/
def orderCountUnit (raw : List (String × Raw)) : String :=
  let unit := E.host.strOf ((Raw.field (agentBlock raw "order") "orderCountUnit").orElse
    ((Raw.field raw "orderCountUnit").orElse (.str "total")))
  if unit = "per_day" then "per_day" else "total"

/-- The counts of a scenario. -/
structure AgentCounts where
  trucks : ℤ
  rawOrders : ℤ
  unit : String
  orders : ℤ
  facilities : ℤ
deriving DecidableEq

/-- The counts of a scenario that runs some days. -/
def agentCounts (raw : List (String × Raw)) (days : ℤ) : Except PyError AgentCounts := do
  let trucks ← agentCount E raw "truck" 1
  let orders ← agentCount E raw "order" 1
  let facilities ← agentCount E raw "facility" defaultNumFacilities
  let rawOrders := max 1 orders
  let unit := orderCountUnit E raw
  return {
    trucks := clamp 1 maxCount trucks
    rawOrders := rawOrders
    unit := unit
    orders := if unit = "per_day" then rawOrders * days else rawOrders
    facilities := clamp 1 maxCount facilities }

/-- The policy of a role as authored. -/
def authoredPolicy (raw : List (String × Raw)) (role : String) : List (String × Raw) :=
  match Raw.field (agentBlock raw role) "policy" with
  | .dict policy => policy
  | _ => [("type", .str (defaultPolicyName role))]

/-- The type of the policy of a role, without its old names. -/
def policyType (raw : List (String × Raw)) (role : String) : String :=
  canonicalPolicyType role (E.host.strOf
    ((Raw.field (authoredPolicy raw role) "type").orElse (.str (defaultPolicyName role))))

/-- The policy of a role, its type canonical and registered. -/
def rolePolicy (raw : List (String × Raw)) (role : String) : Except PyError (List (String × Raw)) :=
  let ptype := policyType E raw role
  if (role, ptype) ∈ E.policyRegistry then
    .ok (Dict.setIn "type" (.str ptype) (authoredPolicy raw role))
  else
    let shown := E.host.repr (.str ptype)
    let available := E.host.repr (.list ((sortedBy id ((E.policyRegistry.filter fun p ↦
      p.1 = role).map Prod.snd)).map .str))
    .error (.validation s!"Unknown {role} policy type {shown}. Available: {available}")

/-- `[haulier] * n`, as far as it may fail: no list has more than `maxListLength` entries. -/
def checkListLength (n : ℤ) : Except PyError Unit :=
  if maxListLength < n then .error .overflow else .ok ()

/-! ## Where orders go, and when -/

/-- `_uniform_grid`. -/
def uniformGrid (codes : List String) : Except PyError Grid :=
  let grid := fullGrid codes fun p d ↦ if p = d then 0 else 1
  if gridTotal grid ≤ 0 then
    .error (.validation "Cannot build a uniform matrix with fewer than 2 codes")
  else .ok (scaleGrid (gridTotal grid) grid)

/-- The trip a record counts for, if it names two locations. -/
def recordTrip (record : Raw) : Option (String × String) :=
  match record with
  | .dict fields =>
    let row := codeKey E.host (E.host.strOf (Raw.fieldD fields "pickup_code" (.str "")))
    let col := codeKey E.host (E.host.strOf (Raw.fieldD fields "dropoff_code" (.str "")))
    if row = "" ∨ col = "" then none else some (row, col)
  | _ => none

/-- One more trip from `row` to `col`. -/
def countTrip (counts : Dict String (Dict String ℚ)) (trip : String × String) :
    Dict String (Dict String ℚ) :=
  let cells := (counts.get? trip.1).getD Dict.empty
  counts.set trip.1 (cells.set trip.2 ((cells.get? trip.2).getD 0 + 1))

/-- The weights learned from records: `ProbabilityMatrix.from_records`. -/
def recordWeights (records : List Raw) : Raw :=
  gridRaw (((records.filterMap (recordTrip E)).foldl countTrip Dict.empty).entries.map fun row ↦
    (row.1, row.2.entries))

/-- The records of an order policy that learns from some. -/
def orderRecords (policy : List (String × Raw)) (ptype : String) : Except PyError Raw :=
  let source := Raw.field policy "source"
  if ptype = "historical" ∧ source.truthy then
    resolveFile E (if source.isStr then .dict [("$file", source)] else source) .records
  else .ok .null

/-- What iterating over records yields. -/
def recordList : Raw → Except PyError (List Raw)
  | .list records => .ok records
  | .dict entries => .ok (entries.map fun p ↦ .str p.1)
  | .str s => .ok (s.toList.map fun c ↦ .str (String.ofList [c]))
  | _ => .error .typeError

/-- The matrix learned from records. -/
def learnedMatrix (records : Raw) : Except PyError Grid := do
  let list ← recordList records
  raiseAs (fun
    | .valueError message => .validation s!"historical source produced no usable matrix: {message}"
    | e => e) (fromWeights E.host (recordWeights E list) E.codes)

/-- The matrix authored, or else the default one. -/
def authoredMatrix (raw policy : List (String × Raw)) : Except PyError Grid := do
  let matrix ← resolveFile E
    (if (Raw.field policy "matrix").isNull then Raw.field raw "tripMatrix"
      else Raw.field policy "matrix") .matrix
  match fromWeights E.host (matrix.orElse defaultTripMatrix) E.codes with
  | .error (.valueError _) => fromWeights E.host defaultTripMatrix E.codes
  | result => result

/-- `_resolve_order_matrix`. -/
def resolveOrderMatrix (raw policy : List (String × Raw)) (ptype : String) (records : Raw) :
    Except PyError Grid :=
  if ptype = "random" then uniformGrid E.codes
  else if records.truthy then learnedMatrix E records
  else authoredMatrix E raw policy

/-- The hourly demand weights, none for orders that arrive uniformly. -/
def orderDemand (raw policy : List (String × Raw)) (ptype : String) :
    Except PyError (Option (List ℚ)) := do
  let curve ← resolveFile E
    ((Raw.field policy "curve").orElse (Raw.field raw "orderDemandCurve")) .curve
  if ptype = "random" ∧ (Raw.field policy "curve").isNull = true then return none
  else
    let weights ← parseOrderDemandCurve E.host (curve.orElse .null)
    return some weights

/-! ## Facilities and the solver -/

/-- A facility with the service time and the number of gates of the profile. -/
def stampSite (profile : Dict String Raw) (site : Site) : Site :=
  ["service_time", "gate_count"].foldl (fun site key ↦
    match (profile.get? key).getD .null with
    | .null => site
    | value => site.set key value) site

/-- The profile of facilities: the constants, updated by the overrides that are not null. -/
def facilityProfileOf (facility : Dict String Raw) : Dict String Raw :=
  facilityProfile.update (facility.entries.filter fun p ↦ !p.2.isNull)

/-- The facilities of a scenario. -/
def facilitySites (raw : List (String × Raw)) (facilities : ℤ) (facilityPolicy : String)
    (tripMatrix : Grid) (facility : Dict String Raw) (slug referenceTime : String) :
    Except PyError (List Site) := do
  let placed ← E.facilitySites facilities
    (if facilityPolicy = "random" then none else some tripMatrix)
  rejectRebateByCode E facility slug
  validateBlanketFacilityOverrides E facility slug
  let profile := facilityProfileOf facility
  let sites ← E.resolveFacilityRules (Raw.field raw "facilityRules")
    (Raw.field raw "facilityRulesWorld") (placed.map (stampSite profile)) profile slug
  validateFacilityRebate E facility sites slug referenceTime
  return sites

/-- The strategy that runs: the legacy `solver` field wins over the deployment of the planner. -/
def solverStrategy (raw : List (String × Raw)) (planner : PlannerConfig) : String :=
  E.host.strOf ((Raw.field raw "solver").orElse
    ((Raw.field planner.deployment "type").orElse (.str defaultStrategy)))

/-- The parameters of the solver, most specific last. -/
def solverParams (raw : List (String × Raw)) (planner : PlannerConfig) : Dict String Raw :=
  (defaultSolverParams.update
    (Dict.ofList (Raw.field planner.deployment "params").asDict).entries).update
    (Dict.ofList (Raw.field raw "solverParams").asDict).entries

/-! ## The compile -/

/-- What the compiler decides about the world of a scenario. -/
structure World where
  days : ℤ
  seed : ℤ
  trucks : ℤ
  orders : ℤ
  facilities : ℤ
  hourlyWeights : Option (List ℚ)
  tripMatrix : Grid
  earlyOrders : ℤ
  truckHauliers : List Haulier
  orderHauliers : List Haulier
  planner : PlannerConfig
  strategy : String
  solverParams : Dict String Raw
  overrides : List (String × Dict String Raw)
  sites : List Site

/-- A compiled scenario: its world, and the recipe it is saved with. -/
structure CompiledScenario where
  world : World
  recipe : Raw

/-- `except ValueError` around the normalisation of cooperation structures. -/
def CooperationError.toPyError : CooperationError → PyError
  | .valueError message => .validation message
  | .keyError => .keyError

/-- The planner block as it runs: its deployment is the strategy and the parameters. -/
def plannerThatRuns (planner : PlannerConfig) (strategy : String) (params : Dict String Raw) :
    PlannerConfig :=
  { planner with
    deployment := [("type", .str strategy), ("params", .dict params.entries)] }

/-- The policy of orders as it is persisted: without the matrix and the curve, which are written
out elsewhere in the recipe. -/
def recipeOrderPolicy (policy : List (String × Raw)) : List (String × Raw) :=
  policy.filter fun p ↦ p.1 ≠ "matrix" ∧ p.1 ≠ "curve"

/-- What the recipe is written from. -/
structure RecipeData where
  name : String
  slug : String
  days : ℤ
  seed : ℤ
  referenceTime : String
  counts : AgentCounts
  truckPolicy : List (String × Raw)
  orderPolicy : List (String × Raw)
  facilityPolicy : List (String × Raw)
  earlyOrders : ℤ
  hourlyWeights : Option (List ℚ)
  tripMatrix : Grid
  hauliers : List Haulier
  cooperation : Raw
  planner : PlannerConfig
  strategy : String
  solverParams : Raw
  overrides : List (String × Dict String Raw)
  facilityRules : Raw
  facilityRulesWorld : Raw

/-- The recipe.  The keys that record the version and the clocks of the curves are left out. -/
def RecipeData.entries (r : RecipeData) : List (String × Raw) :=
  [("name", .str (String.ofList (r.name.toList.take 80))),
    ("slug", .str r.slug),
    ("simulationDays", .int r.days),
    ("seed", .int r.seed),
    ("referenceTime", .str r.referenceTime),
    ("orderCountUnit", .str r.counts.unit),
    ("agents", .dict [
      ("truck", .dict [("count", .int r.counts.trucks), ("policy", .dict r.truckPolicy)]),
      ("order", .dict [("count", .int r.counts.rawOrders), ("orderCountUnit", .str r.counts.unit),
        ("policy", .dict (recipeOrderPolicy r.orderPolicy))]),
      ("facility", .dict [("count", .int r.counts.facilities),
        ("policy", .dict r.facilityPolicy)])]),
    ("earlyOrderCount", .int r.earlyOrders),
    ("orderDemandCurve", (r.hourlyWeights.map curveRaw).getD .null),
    ("tripMatrix", gridRaw r.tripMatrix),
    ("hauliers", hauliersRaw r.hauliers),
    ("cooperation", r.cooperation),
    ("planner", r.planner.toRaw),
    ("solver", .str r.strategy),
    ("solverParams", r.solverParams),
    ("overrides", overridesRaw r.overrides),
    ("facilityRules", r.facilityRules),
    ("facilityRulesWorld", r.facilityRulesWorld)]

/-- `solverParams` as it is persisted. -/
def recipeSolverParams (raw : List (String × Raw)) : Raw :=
  match Raw.field raw "solverParams" with
  | .dict params => .dict params
  | _ => .null

/-- `Preprocessor.compile` of a specification that is an object. -/
def compileSpec (raw : List (String × Raw)) (referenceTime : String) :
    Except PyError CompiledScenario := do
  checkDeclaredEpoch E (Raw.field raw "referenceTime")
  checkEpoch E referenceTime
  let name ← scenarioName E raw
  let slug ← scenarioSlug E raw name
  let days ← simulationDays E raw
  let seed ← scenarioSeed E raw
  let counts ← agentCounts E raw days
  let truckPolicy ← rolePolicy E raw "truck"
  let orderPolicy ← rolePolicy E raw "order"
  let facilityPolicy ← rolePolicy E raw "facility"
  let hauliers ← raiseAs PyError.toValidation (normalizeHauliers E.host (Raw.field raw "hauliers"))
  let truckHauliers ← distributeByShare E.host counts.trucks (hauliersRaw hauliers) .fleetShare
  checkListLength counts.orders
  let orderHauliers ← distributeByShare E.host counts.orders (hauliersRaw hauliers) .orderShare
  let cooperation ← raiseAs CooperationError.toPyError (normalizeCooperation E.host.toPyText
    (Raw.field raw "cooperation") (hauliers.map Haulier.id))
  let planner ← normalizePlanner E.host (Raw.field raw "planner")
  let orderType := policyType E raw "order"
  let records ← orderRecords E orderPolicy orderType
  let tripMatrix ← resolveOrderMatrix E raw orderPolicy orderType records
  let hourlyWeights ← orderDemand E raw orderPolicy orderType
  let early ← earlyOrderCount E.host (Raw.field raw "earlyOrderCount") counts.trucks counts.orders
  let overrides := mergedOverrides raw
  let sites ← facilitySites E raw counts.facilities (policyType E raw "facility") tripMatrix
    (roleOverrides overrides "facility") slug referenceTime
  let strategy := solverStrategy E raw planner
  let params := solverParams raw planner
  let planner := plannerThatRuns planner strategy params
  return {
    world := {
      days := days
      seed := seed
      trucks := counts.trucks
      orders := counts.orders
      facilities := sites.length
      hourlyWeights := hourlyWeights
      tripMatrix := tripMatrix
      earlyOrders := early
      truckHauliers := truckHauliers
      orderHauliers := orderHauliers
      planner := planner
      strategy := strategy
      solverParams := params
      overrides := overrides
      sites := sites }
    recipe := .dict (RecipeData.entries {
      name := name
      slug := slug
      days := days
      seed := seed
      referenceTime := referenceTime
      counts := counts
      truckPolicy := truckPolicy
      orderPolicy := orderPolicy
      facilityPolicy := facilityPolicy
      earlyOrders := early
      hourlyWeights := hourlyWeights
      tripMatrix := tripMatrix
      hauliers := hauliers
      cooperation := cooperation.toRaw
        (authoredPoolStructureIds E.host.toPyText (Raw.field raw "cooperation"))
      planner := planner
      strategy := strategy
      solverParams := recipeSolverParams raw
      overrides := overrides
      facilityRules := Raw.field raw "facilityRules"
      facilityRulesWorld := Raw.field raw "facilityRulesWorld" }) }

/-- `Preprocessor.compile`. -/
def compile (raw : Raw) (referenceTime : String) : Except PyError CompiledScenario :=
  match raw with
  | .dict entries => compileSpec E entries referenceTime
  | _ => .error (.validation "spec.json must be a JSON object")

end

end OpenRide.Datagen
