import OpenRide.Datagen.RebateSchedule
import OpenRide.Datagen.Preprocess

/-!
# Facility rules

A rule addresses facilities by their code or by their name and sets some of three keys.  Every key
of every facility is resolved on its own: it takes the value of the most specific rule that matches
the facility and mentions the key, a `null` being a value like any other, and if there is none the
value that the blanket profile gives to all facilities.

`validateFacilityRules` reads the authored list against the facilities that were placed, and rejects
among others two rules of equal rank that set the same key of one facility.  `resolveFacilityRules`
and `applyResolution` follow it; they write the values onto the facilities, where the next
resolution finds them.
-/

namespace OpenRide.Datagen

open Lib

/-! ## Keys and matchers -/

/-- The two ways to address a facility. -/
inductive Matcher where
  | name
  | code
deriving DecidableEq

/-- The key a matcher is authored under, and the field of a facility it looks at. -/
def Matcher.key : Matcher → String
  | .name => "name"
  | .code => "code"

/-- `MATCHER_RANKS`. -/
def Matcher.rank : Matcher → ℕ
  | .name => 30
  | .code => 10

/-- The matcher of a key. -/
def Matcher.ofKey? (key : String) : Option Matcher :=
  if key = "name" then some .name else if key = "code" then some .code else none

/-- The keys of `SETTABLE_KEYS`. -/
inductive SettableKey where
  | gateCount
  | serviceTime
  | rebate
deriving DecidableEq

namespace SettableKey

/-- The keys in the order of the table. -/
def all : List SettableKey := [gateCount, serviceTime, rebate]

/-- The keys as strings sort. -/
def sorted : List SettableKey := [gateCount, rebate, serviceTime]

/-- The name of a key. -/
def key : SettableKey → String
  | gateCount => "gate_count"
  | serviceTime => "service_time"
  | rebate => "rebate"

/-- The key of a name. -/
def ofKey? (key : String) : Option SettableKey := all.find? fun k ↦ k.key = key

/-- Whether `null` is a value of the key. -/
def nullable : SettableKey → Bool
  | rebate => true
  | _ => false

end SettableKey

/-- `DEAD_PROFILE_KEYS`. -/
def deadProfileKeys : List (String × String) :=
  [("fifo_queue_policy",
      "a facility profile key that nothing reads (solver_boundary_audit P7/P11); "
      ++ "setting it would change nothing. If queue discipline should be per-facility, implement "
      ++ "the QUEUE_DISCIPLINE registry first — then the key becomes live and joins the allow-list "
      ++ "on merit"),
    ("max_queue_size", "a facility profile key that nothing reads (solver_boundary_audit P7/P11); "
      ++ "setting it would change nothing"),
    ("status", "a facility profile key that nothing reads — the facility opens unconditionally at "
      ++ "facility/app.py; setting it would change nothing"),
    ("operating_hours",
      "a facility profile key that nothing reads; setting it would change nothing"),
    ("operating_days",
      "a facility profile key that nothing reads; setting it would change nothing")]

/-- `_LOC_REJECTION`. -/
def locRejection : String :=
  "generation samples only real on-land postal addresses BY CONSTRUCTION (the 2026-06-17 " ++
  "facilities-in-the-sea fix); hand-set coordinates reintroduce that bug and move a site out from "
  ++ "under the facilityRulesWorld digest"

/-- `_EXPLAINED_REJECTIONS`. -/
def explainedRejections : List (String × String) :=
  [("facility_type",
      "it is 1:1 derivable from 'code' and the builders' own literal wins anyway, so "
      ++ "it is already authored-and-ignored today; making it settable would break the code<->type "
      ++ "invariant that the trip matrix and order-leg snapping depend on"),
    ("name", "it is the addressing key — a rule renaming its own target is self-referential and "
      ++ "invalidates the facilityRulesWorld digest, which is computed over names"),
    ("location", locRejection), ("lat", locRejection), ("lon", locRejection),
    ("footprint", locRejection),
    ("publish_facility_stream_kafka", "it is observation, not world; a rule that silently stops "
      ++ "streaming a subset of facilities is indistinguishable from the recurring 'things vanish "
      ++ "from the live map' bug class. It is the first v2 candidate, gated on a named use case"),
    ("persist_facility_snapshots",
      "it is observation, not world; see publish_facility_stream_kafka")]

section

variable (H : PyHost)

/-- `_coerce_gate_count` and `_coerce_service_time`: `_coerce_positive_int`. -/
def readPositiveInt (value : Raw) : Except RulesError Raw :=
  let got := H.repr value
  match value with
  | .bool b =>
    let read := if b then "1" else "0"
    .error (.facilityRules
      (s!": must be a positive integer, got a boolean ({got}). Booleans are " ++
      s!"integers in Python, so this would silently compile to {read}."))
  | .int n =>
    if n < 1 then
      .error (.facilityRules s!": must be a positive integer (>= 1), got {got}.")
    else .ok (.int n)
  | _ =>
    let type := value.typeName
    .error (.facilityRules s!": must be a positive integer, got {type} ({got}).")

/-- The value of a key, normalised, with the place that messages start with left out. -/
def SettableKey.read (k : SettableKey) (value : Raw) : Except RulesError Raw :=
  match k with
  | .rebate => return (← readRebateSchedule H value).asBlock
  | _ => readPositiveInt H value

/-- The coercer of a key. -/
def SettableKey.coerce (k : SettableKey) (value : Raw) (whr : String) : Except RulesError Raw :=
  raiseAs (·.at whr) (k.read H value)

/-! ## Rules -/

/-- A rule. -/
structure Rule where
  matcher : Matcher
  wanted : String
  set : List (SettableKey × Raw)

namespace Rule

/-- `rule_rank`. -/
def rank (r : Rule) : ℕ := r.matcher.rank

/-- `rule_matches`. -/
def matchesSite (r : Rule) (site : Site) : Bool :=
  H.strOf (((site.get? r.matcher.key).getD .null).orElse (.str "")) = r.wanted

/-- `rule["set"][key]`, if the key is there. -/
def value? (r : Rule) (k : SettableKey) : Option Raw := Dict.lookupIn k r.set

/-- `describe_rule`. -/
def describe (index : ℕ) (r : Rule) : String :=
  let key := r.matcher.key
  let wanted := H.repr (.str r.wanted)
  s!"rules[{index}] match.{key}={wanted}"

end Rule

/-- A list of texts, printed. -/
def reprStrings (texts : List String) : String := H.repr (.list (texts.map .str))

/-- The names of the settable keys, printed. -/
def settableKeysText : String := reprStrings H (SettableKey.sorted.map SettableKey.key)

/-- `str(site.get("name"))`. -/
def nameText (site : Site) : String := H.strOf ((site.get? "name").getD .null)

/-- `str(site.get("name") or "")`. -/
def nameOrEmpty (site : Site) : String :=
  H.strOf (((site.get? "name").getD .null).orElse (.str ""))

/-- `_reject_set_key`. -/
def rejectSetKey (key whr : String) : RulesError :=
  let shown := H.repr (.str key)
  let allowed := settableKeysText H
  match Dict.lookupIn key deadProfileKeys, Dict.lookupIn key explainedRejections with
  | some why, _ => .facilityRules s!"{whr}: {shown} is {why}. Settable keys: {allowed}."
  | none, some why =>
    .facilityRules s!"{whr}: {shown} is not settable because {why}. Settable keys: {allowed}."
  | none, none =>
    .facilityRules s!"{whr}: {shown} is not a settable facility key. Available: {allowed}."

/-- `text.rsplit("_", 1)[0]`. -/
def rsplitHead (text : String) : String :=
  if '_' ∈ text.toList then
    String.ofList ((text.toList.reverse.dropWhile fun c ↦ c != '_').drop 1).reverse
  else text

/-- `_name_hint`. -/
def nameHint (sites : List Site) (wanted : String) : String :=
  let pfx := rsplitHead wanted
  let shown := H.repr (.str pfx)
  let same := sortedBy id ((sites.filter fun s ↦
    rsplitHead (nameOrEmpty H s) = pfx).map (nameText H))
  match same with
  | [] =>
    let named := sites.filter fun s ↦ ((s.get? "name").getD .null).truthy
    let prefixes := reprStrings H
      (SortedSet.ofList (named.map fun s ↦ rsplitHead (nameOrEmpty H s))).toList
    s!"No facility name uses the {shown} prefix. Prefixes in use: {prefixes}."
  | first :: rest =>
    let count := same.length
    let last := (first :: rest).getLast (List.cons_ne_nil first rest)
    let listed := if count ≤ 4 then ", ".intercalate (same.map fun n ↦ H.repr (.str n))
      else s!"{first} … {last}"
    s!"This scenario has {count} facilities with the {shown} prefix: {listed}."

/-! ## Validation -/

/-- The matcher of a rule, and the text it wants. -/
def validateMatch (codes : List String) (rawMatch : Raw) (whr : String) :
    Except RulesError (Matcher × String) :=
  match rawMatch with
  | .dict [(key, value)] =>
    match Matcher.ofKey? key with
    | none =>
      let shown := H.repr (.str key)
      .error (.facilityRules s!"{whr}.match: unknown matcher {shown}. Available: ['code', 'name'].")
    | some matcher =>
      let got := H.repr value
      let blank := RulesError.facilityRules
        s!"{whr}.match.{key}: must be a non-empty string (got {got})."
      match value with
      | .str wanted =>
        if pyStrip wanted = "" then .error blank
        else if matcher = .code ∧ wanted ∉ codes then
          let codeList := reprStrings H codes
          .error (.facilityRules
            s!"{whr}.match.code: unknown code {got}. Available: {codeList}.")
        else .ok (matcher, wanted)
      | _ => .error blank
  | .dict entries =>
    let keys := reprStrings H (sortedBy id (entries.map Prod.fst))
    .error (.facilityRules (s!"{whr}.match: must carry EXACTLY ONE matcher key, got {keys}. " ++
      "Combining matchers is either redundant or contradictory, and supporting it would force " ++
      "specificity to be a lattice instead of a total order over ['code', 'name']."))
  | _ =>
    let type := rawMatch.typeName
    .error (.facilityRules s!"{whr}.match: must be an object (got {type}).")

/-- A key and its value in the `set` of a rule. -/
def validateSetEntry (whr : String) (entry : String × Raw) :
    Except RulesError (SettableKey × Raw) :=
  match SettableKey.ofKey? entry.1 with
  | none => .error (rejectSetKey H entry.1 s!"{whr}.set")
  | some k =>
    let name := k.key
    if entry.2.isNull then
      if k.nullable then .ok (k, entry.2)
      else .error (.facilityRules (s!"{whr}.set.{name}: null is not a legal value — there is no " ++
        s!"'no {name}'. Remove the key or give it a value."))
    else do
      let _ ← k.coerce H entry.2 s!"{whr}.set.{name}"
      return (k, entry.2)

/-- The `set` of a rule. -/
def validateSet (rawSet : Raw) (whr : String) : Except RulesError (List (SettableKey × Raw)) :=
  match rawSet with
  | .dict [] =>
    .error (.facilityRules
      (s!"{whr}.set: must set at least one key. A rule that sets nothing is " ++
      "authoring noise that reads like configuration."))
  | .dict entries => each (validateSetEntry H whr) entries
  | _ =>
    let type := rawSet.typeName
    .error (.facilityRules s!"{whr}.set: must be an object (got {type}).")

/-- A rule matches some facility. -/
def validateBites (sites : List Site) (codes : List String) (rule : Rule) (whr : String) :
    Except RulesError Unit :=
  if sites.any fun s ↦ rule.matchesSite H s then .ok ()
  else
    let key := rule.matcher.key
    let wanted := H.repr (.str rule.wanted)
    let hint := if rule.matcher = .name then nameHint H sites rule.wanted
      else s!"No facility carries code {wanted}."
    let codeList := reprStrings H codes
    .error (.facilityRules (s!"{whr} matches no facility — match.{key}={wanted}.\n{hint}\n" ++
      "Facility names are GENERATED from num_facilities, the trip matrix and the address book; " ++
      s!"they are not stable across a change to any of those. Available codes: {codeList}."))

/-- One authored rule. -/
def validateRule (sites : List Site) (codes : List String) (rule : Raw) (whr : String) :
    Except RulesError Rule :=
  match rule with
  | .dict entries =>
    let extra := (entries.map Prod.fst).filter fun key ↦ key ≠ "match" ∧ key ≠ "set"
    if extra ≠ [] then
      let shown := reprStrings H (sortedBy id extra)
      .error (.facilityRules (s!"{whr}: unknown key(s) {shown}. A rule carries exactly " ++
        "['match', 'set'] — anything else is authoring noise that reads like configuration."))
    else
      match Dict.lookupIn "match" entries, Dict.lookupIn "set" entries with
      | some rawMatch, some rawSet => do
        let (matcher, wanted) ← validateMatch H codes rawMatch whr
        let set ← validateSet H rawSet whr
        validateBites H sites codes ⟨matcher, wanted, set⟩ whr
        return ⟨matcher, wanted, set⟩
      | none, _ => .error (.facilityRules s!"{whr}: missing required key 'match'.")
      | some _, none => .error (.facilityRules s!"{whr}: missing required key 'set'.")
  | _ =>
    let type := rule.typeName
    .error (.facilityRules s!"{whr}: must be an object with 'match' and 'set' (got {type}).")

/-- The names of the facilities a rule matches. -/
def matchedNames (sites : List Site) (rule : Rule) : SortedSet String :=
  SortedSet.ofList ((sites.filter fun s ↦ rule.matchesSite H s).map (nameText H))

/-- The names that two rules share. -/
def sharedNames (sites : List Site) (r r' : Rule) : List String :=
  (matchedNames H sites r).toList.filter fun n ↦ n ∈ matchedNames H sites r'

/-- The conflict of two rules about a key, if they share a facility. -/
def conflictOf (sites : List Site) (slug : String) (k : SettableKey) (a b : Rule × ℕ) :
    Option RulesError :=
  match sharedNames H sites a.1 b.1 with
  | [] => none
  | firstShared :: rest =>
    let shownSlug := H.repr (.str slug)
    let key := k.key
    let shownKey := H.repr (.str key)
    let matcher := a.1.matcher.key
    let rank := a.1.rank
    let count := (firstShared :: rest).length
    let shownExample := H.repr (.str firstShared)
    let first := a.1.describe H a.2
    let second := b.1.describe H b.2
    let firstValue := H.repr ((a.1.value? k).getD .null)
    let secondValue := H.repr ((b.1.value? k).getD .null)
    some (.facilityRules (s!"spec {shownSlug}: facilityRules conflict — two rules of equal " ++
      s!"specificity (match.{matcher}, rank {rank}) both set {shownKey} on {count} facilities, " ++
      s!"including {shownExample}.\n    {first}  set.{key}={firstValue}\n" ++
      s!"    {second}  set.{key}={secondValue}\n" ++
      "Rules of equal specificity are resolved by neither order nor value: merge them into one " ++
      "rule, or address the facilities you actually mean by name."))

/-- The first of a list of pairs, the earlier of each pair first, that has a conflict. -/
def firstConflict (conflict : Rule × ℕ → Rule × ℕ → Option RulesError) :
    List (Rule × ℕ) → Option RulesError
  | [] => none
  | a :: rest => (rest.findSome? (conflict a)).or (firstConflict conflict rest)

/-- The rules of a rank that set a key, each with its place in the list. -/
def rulesAbout (rules : List Rule) (rank : ℕ) (k : SettableKey) : List (Rule × ℕ) :=
  rules.zipIdx.filter fun p ↦ p.1.rank = rank ∧ (p.1.value? k).isSome

/-- The conflicts of each rank and key, the first of each. -/
def conflictsOf (rules : List Rule) (sites : List Site) (slug : String) : List RulesError :=
  [10, 30].flatMap fun rank ↦ SettableKey.sorted.filterMap fun k ↦
    firstConflict (conflictOf H sites slug k) (rulesAbout rules rank k)

/-- `_reject_equal_rank_conflicts`. -/
def rejectEqualRankConflicts (rules : List Rule) (sites : List Site) (slug : String) :
    Except RulesError Unit :=
  match conflictsOf H rules sites slug with
  | [] => .ok ()
  | e :: _ => .error e

/-- The rules of a list from the `idx`-th on. -/
def validateRules (sites : List Site) (codes : List String) (slug : String) :
    ℕ → List Raw → Except RulesError (List Rule)
  | _, [] => .ok []
  | idx, rule :: rules => do
    let shown := H.repr (.str slug)
    let first ← validateRule H sites codes rule s!"spec {shown}: facilityRules[{idx}]"
    let rest ← validateRules sites codes slug (idx + 1) rules
    return first :: rest

/-- `validate_facility_rules`. -/
def validateFacilityRules (rawRules : Raw) (sites : List Site) (codes : List String)
    (slug : String) : Except RulesError (List Rule) :=
  match rawRules with
  | .null => .ok []
  | .list entries => do
    let rules ← validateRules H sites (SortedSet.ofList codes).toList slug 0 entries
    rejectEqualRankConflicts H rules sites slug
    return rules
  | _ =>
    let shown := H.repr (.str slug)
    let type := rawRules.typeName
    .error (.facilityRules (s!"spec {shown}: facilityRules must be a list of \x7b'match': ..., " ++
      s!"'set': ...\x7d objects (got {type})."))

/-! ## Resolution -/

/-- A key with its value and where the value comes from. -/
structure Resolved where
  key : SettableKey
  value : Raw
  source : String

/-- What became of an authored rule. -/
structure RuleApplied where
  index : ℕ
  matcher : String × String
  setKeys : List String
  matched : ℕ

/-- `Resolution`: for each facility its keys, and for each rule what became of it. -/
structure Resolution where
  perSite : List (List Resolved)
  rulesApplied : List RuleApplied

/-- `_blanket_value`. -/
def blanketValue (k : SettableKey) (site : Site) (blanket : Dict String Raw) :
    Except RulesError (Raw × String) :=
  let onSite := (site.get? k.key).getD .null
  let onBlanket := (blanket.get? k.key).getD .null
  match k with
  | .rebate =>
    if !onSite.isNull then .ok (onSite, "overrides.facility")
    else if onBlanket.isNull then .ok (.null, "datagen default (no schedule)")
    else do
      let value ← k.coerce H onBlanket "overrides.facility.rebate"
      return (value, "overrides.facility")
  | _ =>
    if !onBlanket.isNull then .ok (onBlanket, "overrides.facility")
    else .ok (onSite, "datagen default")

/-- The rules that match a facility and mention a key, each with its place in the list. -/
def candidates (rules : List Rule) (site : Site) (k : SettableKey) : List (Rule × ℕ) :=
  rules.zipIdx.filter fun p ↦ p.1.matchesSite H site && (p.1.value? k).isSome

/-- The value a rule gives to a key: `null` as it is, any other value normalised. -/
def ruleValue (k : SettableKey) (value : Raw) (whr : String) : Except RulesError Raw :=
  if value.isNull then .ok .null else k.coerce H value whr

/-- One key of one facility. -/
def resolveKey (rules : List Rule) (site : Site) (blanket : Dict String Raw) (slug : String)
    (k : SettableKey) : Except RulesError Resolved := do
  let base ← blanketValue H k site blanket
  let found := candidates H rules site k
  if found.isEmpty then return ⟨k, base.1, base.2⟩
  let best := (found.map fun p ↦ p.1.rank).foldl max 0
  let shownSlug := H.repr (.str slug)
  let shownSite := H.repr ((site.get? "name").getD .null)
  let key := k.key
  let shownKey := H.repr (.str key)
  match found.filter fun p ↦ p.1.rank = best with
  | [] => throw .indexError
  | [(winner, index)] =>
    let value ← ruleValue H k ((winner.value? k).getD .null) s!"facilityRules[{index}].set.{key}"
    return ⟨k, value, winner.describe H index⟩
  | winners =>
    let listed := ", ".intercalate (winners.map fun p ↦ p.1.describe H p.2)
    throw (.facilityRules (s!"spec {shownSlug}: facilityRules conflict on {shownSite} for " ++
      s!"{shownKey} at rank {best} ({listed})."))

/-- All keys of one facility. -/
def resolveSite (rules : List Rule) (blanket : Dict String Raw) (slug : String) (site : Site) :
    Except RulesError (List Resolved) :=
  each (resolveKey H rules site blanket slug) SettableKey.all

/-- What became of the rules. -/
def rulesApplied (rules : List Rule) (sites : List Site) : List RuleApplied :=
  rules.zipIdx.map fun p ↦
    { index := p.2
      matcher := (p.1.matcher.key, p.1.wanted)
      setKeys := sortedBy id (p.1.set.map fun e ↦ e.1.key)
      matched := (sites.filter fun s ↦ p.1.matchesSite H s).length }

/-- `resolve_facility_rules`. -/
def resolveFacilityRules (rules : List Rule) (sites : List Site) (blanket : Dict String Raw)
    (slug : String) : Except RulesError Resolution := do
  let perSite ← each (resolveSite H rules blanket slug) sites
  return ⟨perSite, rulesApplied H rules sites⟩

/-- A value stamped onto a facility; a facility without a schedule has no such field. -/
def applyValue (site : Site) (r : Resolved) : Site :=
  if r.key = .rebate ∧ r.value.isNull then site.erase r.key.key else site.set r.key.key r.value

/-- `apply_resolution`. -/
def applyResolution (sites : List Site) (resolution : Resolution) : Except RulesError (List Site) :=
  if sites.length ≠ resolution.perSite.length then
    let covered := resolution.perSite.length
    let given := sites.length
    .error (.facilityRules s!"resolution covers {covered} sites but {given} were given")
  else .ok (sites.zipWith (fun site values ↦ values.foldl applyValue site) resolution.perSite)

/-- The rules resolved for the facilities and applied to them. -/
def resolveAndApply (rules : List Rule) (sites : List Site) (blanket : Dict String Raw)
    (slug : String) : Except RulesError (List Site) := do
  applyResolution sites (← resolveFacilityRules H rules sites blanket slug)

end

end OpenRide.Datagen
