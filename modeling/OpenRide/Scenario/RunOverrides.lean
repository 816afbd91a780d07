import OpenRide.Datagen.PlannerStages

/-!
# Overriding the planner for one run

A scenario can be run with another topology, another market policy, another bound on the rounds of
the market or another way of sharing than it was compiled with: the assignment behaviours are
patched after they are loaded.  That should be the same as authoring the value and compiling again.

The two are written separately, and differ (`asAuthored_iff`).  The bound of an override ends at 10
and the authored one at 100; an override reads numerals and fractions where the compiler wants an
integer; the compiler strips the names of policies, keeps what else was authored beside a type, and
lets the old name of the pooled topology imply a way of sharing.
-/

namespace OpenRide.Scenario

open Lib Datagen

/-! ## Values that are equal -/

/-- `a == b`: the order of the keys of a dictionary does not matter. -/
inductive Same : Raw → Raw → Prop where
  | refl (a : Raw) : Same a a
  | dict {a b : List (String × Raw)}
      (hkeys : ∀ key, Dict.lookupIn key a = none ↔ Dict.lookupIn key b = none)
      (hvalues : ∀ key v w, Dict.lookupIn key a = some v → Dict.lookupIn key b = some w →
        Same v w) :
      Same (.dict a) (.dict b)

theorem Same.str_inj {s t : String} (h : Same (.str s) (.str t)) : s = t := by
  cases h
  rfl

variable {a b : List (String × Raw)}

variable {key : String}

theorem Same.lookupIn (h : Same (.dict a) (.dict b)) {v w : Raw} (hv : Dict.lookupIn key a = some v)
    (hw : Dict.lookupIn key b = some w) : Same v w := by
  cases h with
  | refl =>
    obtain rfl := Option.some.inj (hv.symm.trans hw)
    exact Same.refl v
  | dict _ hvalues => exact hvalues key v w hv hw

theorem Same.lookupIn_eq_none (h : Same (.dict a) (.dict b)) :
    Dict.lookupIn key a = none ↔ Dict.lookupIn key b = none := by
  cases h with
  | refl => exact Iff.rfl
  | dict hkeys _ => exact hkeys key

/-- One field written over, the others being the same. -/
theorem same_setIn_iff {v w : Raw} (hother : ∀ x, x ≠ key → Dict.lookupIn x b = Dict.lookupIn x a)
    (hkey : Dict.lookupIn key b = some w) :
    Same (.dict (Dict.setIn key v a)) (.dict b) ↔ Same v w := by
  constructor
  · intro h
    exact h.lookupIn (by rw [Dict.lookupIn_setIn, if_pos rfl]) hkey
  · intro h
    refine Same.dict (fun x ↦ ?_) fun x v' w' hv hw ↦ ?_
    · rw [Dict.lookupIn_setIn]
      split
      · next hx =>
        rw [hx, hkey]
        exact iff_of_false (Option.some_ne_none _) (Option.some_ne_none _)
      · next hx => rw [hother x hx]
    · rw [Dict.lookupIn_setIn] at hv
      split at hv
      · next hx =>
        subst hx
        cases hv
        obtain rfl := Option.some.inj (hkey.symm.trans hw)
        exact h
      · next hx =>
        rw [hother x hx, hv] at hw
        cases hw
        exact Same.refl v'

theorem same_setIn_setIn_iff {v w : Raw} :
    Same (.dict (Dict.setIn key v a)) (.dict (Dict.setIn key w a)) ↔ Same v w :=
  same_setIn_iff (fun x hx ↦ by rw [Dict.lookupIn_setIn, if_neg hx])
    (by rw [Dict.lookupIn_setIn, if_pos rfl])

/-! ## The overrides -/

/-- The assignment behaviours, under the ids of their agents. -/
abbrev AssignmentCollection := List (String × Raw)

/-- An element of the sequence that a dictionary is made from, with its index.  A key that is no
text has no place here. -/
def pyPair (item : Raw × ℕ) : Except PyError (String × Raw) :=
  let index := toString item.2
  let wrong (n : ℕ) : PyError := .valueError
    s!"dictionary update sequence element #{index} has length {n}; 2 is required"
  match item.1 with
  | .list [.str key, value] => .ok (key, value)
  | .list [.list _, _] => .error .typeError
  | .list [.dict _, _] => .error .typeError
  | .list [_, _] => .error .inexact
  | .list items => .error (wrong items.length)
  | .str s =>
    match s.toList with
    | [key, value] => .ok (String.singleton key, .str (String.singleton value))
    | characters => .error (wrong characters.length)
  | .dict [(key, _), (value, _)] => .ok (key, .str value)
  | .dict entries => .error (wrong entries.length)
  | _ => .error .typeError

/-- `dict(value)`. -/
def pyDict : Raw → Except PyError (List (String × Raw))
  | .dict entries => .ok entries
  | .list items => do
    let pairs ← each pyPair items.zipIdx
    return (Dict.ofList pairs).entries
  | .str s => do
    let pairs ← each pyPair (s.toList.map fun c ↦ Raw.str (String.singleton c)).zipIdx
    return (Dict.ofList pairs).entries
  | _ => .error .typeError

/-- What an override does to a behaviour, in terms of what it does to its profile. -/
def patchBehavior (patch : List (String × Raw) → Except PyError (List (String × Raw))) :
    Raw → Except PyError Raw
  | .dict behavior =>
    match (Dict.lookupIn "profile" behavior).getD (.dict []) with
    | .dict profile => do
      let profile ← patch profile
      return .dict (Dict.setIn "profile" (.dict profile) behavior)
    | _ => .error .attributeError
  | behavior => .ok behavior

/-- What an override does to a profile, in terms of what it does to the planner block, which is
created where there is none. -/
def patchPlanner (patch : List (String × Raw) → Except PyError (List (String × Raw)))
    (profile : List (String × Raw)) : Except PyError (List (String × Raw)) := do
  let planner ← patch (Raw.field profile "planner").asDict
  return Dict.setIn "planner" (.dict planner) profile

/-- What an override does to the behaviours. -/
def patchBehaviors (patch : List (String × Raw) → Except PyError (List (String × Raw)))
    (collection : AssignmentCollection) : Except PyError AssignmentCollection :=
  each (fun p ↦ do
    let behavior ← patchBehavior patch p.2
    return (p.1, behavior)) collection

/-- `apply_planner_topology_override`: the topology applied, if it is one, and the behaviours. -/
def applyPlannerTopologyOverride (collection : AssignmentCollection) (topology : String) :
    Except PyError (Option String × AssignmentCollection) :=
  if topology ∈ plannerTopologies then do
    let resolved := resolveTopology topology
    let collection ← patchBehaviors
      (patchPlanner fun planner ↦ .ok (Dict.setIn "topology" (.str resolved) planner)) collection
    return (some resolved, collection)
  else .ok (none, collection)

/-- What an override of the market asks for. -/
structure MarketPatch where
  policies : List (MarketRole × String)
  maxRounds : Option ℤ
deriving DecidableEq

/-- The loop over the roles of `apply_market_override`, for one of them: the parameters are kept. -/
def patchRole (role : MarketRole) (type : String) (market : List (String × Raw)) :
    Except PyError (List (String × Raw)) := do
  let params ← match Raw.field market role.key with
    | .dict existing => pyDict ((Raw.field existing "params").orElse (.dict []))
    | _ => .ok []
  return Dict.setIn role.key (.dict [("type", .str type), ("params", .dict params)]) market

def patchRoles : List (MarketRole × String) → List (String × Raw) →
    Except PyError (List (String × Raw))
  | [], market => .ok market
  | (role, type) :: policies, market => do
    let market ← patchRole role type market
    patchRoles policies market

/-- What an override of the market does to the planner block. -/
def patchMarket (patch : MarketPatch) (planner : List (String × Raw)) :
    Except PyError (List (String × Raw)) := do
  let market ← patchRoles patch.policies (Raw.field planner "market").asDict
  let market := match patch.maxRounds with
    | none => market
    | some rounds => Dict.setIn "max_rounds" (.int rounds) market
  return Dict.setIn "market" (.dict market) planner

section

variable (H : PyHost)

/-- The bound on the rounds that an override asks for, if it is a bound. -/
def overrideRounds (maxRounds : Raw) : Except PyError (Option ℤ) := do
  let rounds ← caught (pyInt H maxRounds)
  return rounds.filter fun rounds ↦ 1 ≤ rounds ∧ rounds ≤ 10

/-- `apply_market_override`: the patch applied, if there is one, and the behaviours.  A role without
a name, or with an empty one, is left alone; `null` is no bound. -/
def applyMarketOverride (collection : AssignmentCollection) (offer claim arbitration : String)
    (maxRounds : Raw) : Except PyError (Option MarketPatch × AssignmentCollection) := do
  let named : List (MarketRole × String) :=
    [(.offer, offer), (.claim, claim), (.arbitration, arbitration)]
  let policies := named.filter fun p ↦ p.2 ≠ ""
  let rounds ← if maxRounds.isNull then .ok none else overrideRounds H maxRounds
  if policies = [] ∧ rounds = none then return (none, collection)
  let patch : MarketPatch := ⟨policies, rounds⟩
  let patched ← patchBehaviors (patchPlanner (patchMarket patch)) collection
  -- behaviours that are no objects are skipped
  return (if collection.any (fun p ↦ match p.2 with | .dict _ => true | _ => false)
    then some patch else none, patched)

/-- What an override of the sharing does to the planner block: the parameters are kept. -/
def patchSharing (sharing : String) (planner : List (String × Raw)) :
    Except PyError (List (String × Raw)) :=
  match (Raw.field planner "sharing").orElse (.dict []) with
  | .dict existing => do
    let params ← pyDict ((Raw.field existing "params").orElse (.dict []))
    return Dict.setIn "sharing" (.dict [("type", .str sharing), ("params", .dict params)]) planner
  | _ => .error .attributeError

/-- `apply_cooperation_override` without a structure. -/
def applyCooperationOverride (collection : AssignmentCollection) (sharing : String) :
    Except PyError AssignmentCollection :=
  patchBehaviors (fun profile ↦
    if sharing = "" then .ok profile else patchPlanner (patchSharing sharing) profile) collection

/-- A value given for one run. -/
inductive PlannerOverride where
  | topology (name : String)
  | policy (role : MarketRole) (name : String)
  | maxRounds (value : Raw)
  | sharing (name : String)

/-- Is the value accepted, and what are the behaviours then? -/
def PlannerOverride.apply (collection : AssignmentCollection) :
    PlannerOverride → Except PyError (Bool × AssignmentCollection)
  | topology name => do
    let (applied, collection) ← applyPlannerTopologyOverride collection name
    return (applied.isSome, collection)
  | policy role name => do
    let named (r : MarketRole) := if r = role then name else ""
    let (applied, collection) ← applyMarketOverride H collection (named .offer) (named .claim)
      (named .arbitration) .null
    return (applied.isSome, collection)
  | maxRounds value => do
    let (applied, collection) ← applyMarketOverride H collection "" "" "" value
    return (applied.isSome, collection)
  | sharing name => do
    let collection ← applyCooperationOverride collection name
    return (name ≠ "", collection)

end

/-! ## Authoring the value instead -/

namespace PlannerOverride

/-- The planner block with the value authored in it. -/
def author (planner : List (String × Raw)) : PlannerOverride → List (String × Raw)
  | topology name => Dict.setIn "topology" (.str name) planner
  | policy role name =>
    let market := (Raw.field planner "market").asDict
    let block := (Raw.field market role.key).asDict
    Dict.setIn "market"
      (.dict (Dict.setIn role.key (.dict (Dict.setIn "type" (.str name) block)) market)) planner
  | maxRounds value =>
    Dict.setIn "market"
      (.dict (Dict.setIn "max_rounds" value (Raw.field planner "market").asDict)) planner
  | sharing name =>
    Dict.setIn "sharing"
      (.dict (Dict.setIn "type" (.str name) (Raw.field planner "sharing").asDict)) planner

/-- The specification with the value authored in its planner block. -/
def authored (raw : List (String × Raw)) (o : PlannerOverride) : List (String × Raw) :=
  Dict.setIn "planner" (.dict (o.author (Raw.field raw "planner").asDict)) raw

/-- The compiled block uses the value. -/
def UsedBy (cfg : PlannerConfig) : PlannerOverride → Prop
  | topology name => cfg.topology = resolveTopology name
  | policy role name => ∃ block, Raw.field cfg.market role.key = .dict block ∧
      Raw.field block "type" = .str name
  | maxRounds value => Raw.field cfg.market "max_rounds" = value
  | sharing name => ∃ block, cfg.sharing = .dict block ∧ Raw.field block "type" = .str name

end PlannerOverride

/-- The behaviours are compiled ones with this planner block. -/
def CompiledBehaviors (cfg : PlannerConfig) (collection : AssignmentCollection) : Prop :=
  collection ≠ [] ∧ ∀ p ∈ collection, ∃ behavior profile, p.2 = .dict behavior ∧
    Raw.field behavior "profile" = .dict profile ∧ Raw.field profile "planner" = cfg.toRaw

/-- A behaviour with another planner block in its profile. -/
def replan (planner : Raw) : Raw → Raw
  | .dict behavior =>
    let profile := (Raw.field behavior "profile").asDict
    .dict (Dict.setIn "profile" (.dict (Dict.setIn "planner" planner profile)) behavior)
  | behavior => behavior

/-- The behaviours have this planner block now, and are else as before. -/
def Replanned (cfg : PlannerConfig) (collection collection' : AssignmentCollection) : Prop :=
  ∃ planner, Same planner cfg.toRaw ∧
    collection' = collection.map fun p ↦ (p.1, replan planner p.2)

/-- The override does what authoring the value does: it is accepted just when the compiler accepts
and uses it, and gives the same planner block; or else it changes nothing. -/
def AsAuthored (E : DatagenEnv) (raw : List (String × Raw)) (referenceTime : String)
    (collection : AssignmentCollection) (o : PlannerOverride) : Prop :=
  (∃ collection' c, o.apply E.host collection = .ok (true, collection') ∧
      compile E (.dict (o.authored raw)) referenceTime = .ok c ∧ o.UsedBy c.world.planner ∧
      Replanned c.world.planner collection collection') ∨
    (o.apply E.host collection = .ok (false, collection) ∧
      ¬ ∃ c, compile E (.dict (o.authored raw)) referenceTime = .ok c ∧ o.UsedBy c.world.planner)

/-! ## What an override does -/

section

variable {H : PyHost} {cfg : PlannerConfig} {collection : AssignmentCollection}

theorem CompiledBehaviors.patchBehaviors_eq (h : CompiledBehaviors cfg collection)
    {patch : List (String × Raw) → Except PyError (List (String × Raw))} :
    patchBehaviors (patchPlanner patch) collection = do
      let planner ← patch cfg.toRaw.asDict
      return collection.map fun p ↦ (p.1, replan (.dict planner) p.2) := by
  obtain ⟨hne, hall⟩ := h
  have hone : ∀ p ∈ collection, (do
      let behavior ← patchBehavior (patchPlanner patch) p.2
      return (p.1, behavior)) = do
      let planner ← patch cfg.toRaw.asDict
      return (p.1, replan (.dict planner) p.2) := by
    intro p hp
    obtain ⟨behavior, profile, hbehavior, hprofile, hplanner⟩ := hall p hp
    have hlookup := Raw.lookupIn_of_field hprofile rfl
    rw [hbehavior, patchBehavior, hlookup]
    simp only [Option.getD_some, patchPlanner, hplanner, replan, hprofile]
    cases patch cfg.toRaw.asDict with
    | error e => rfl
    | ok planner => rfl
  cases hpatch : patch cfg.toRaw.asDict with
  | error e =>
    obtain ⟨p, rest, rfl⟩ := List.exists_cons_of_ne_nil hne
    have hp := hone p List.mem_cons_self
    rw [hpatch] at hp
    rw [patchBehaviors, each, hp]
    rfl
  | ok planner =>
    refine each_eq_map fun p hp ↦ ?_
    rw [hone p hp, hpatch]
    rfl

theorem CompiledBehaviors.replanned_iff (h : CompiledBehaviors cfg collection) {planner : Raw}
    {cfg' : PlannerConfig} :
    Replanned cfg' collection (collection.map fun p ↦ (p.1, replan planner p.2)) ↔
      Same planner cfg'.toRaw := by
  constructor
  · rintro ⟨planner', hsame, heq⟩
    obtain ⟨hne, hall⟩ := h
    obtain ⟨p, rest, rfl⟩ := List.exists_cons_of_ne_nil hne
    obtain ⟨behavior, profile, hbehavior, -⟩ := hall p List.mem_cons_self
    have hp := congrArg Prod.snd (List.cons.inj heq).1
    dsimp only at hp
    rw [hbehavior, replan, replan] at hp
    have hprofile := congrArg (Raw.field · "profile") (Raw.dict.inj hp)
    simp only [Raw.field_setIn_self] at hprofile
    have hplanner := congrArg (Raw.field · "planner") (Raw.dict.inj hprofile)
    simp only [Raw.field_setIn_self] at hplanner
    exact hplanner ▸ hsame
  · exact fun hsame ↦ ⟨planner, hsame, rfl⟩

theorem CompiledBehaviors.any_dict (h : CompiledBehaviors cfg collection) :
    (collection.any fun p ↦ match p.2 with | .dict _ => true | _ => false) = true := by
  obtain ⟨hne, hall⟩ := h
  obtain ⟨p, rest, rfl⟩ := List.exists_cons_of_ne_nil hne
  obtain ⟨behavior, profile, hbehavior, -⟩ := hall p List.mem_cons_self
  rw [List.any_cons, hbehavior]
  rfl

theorem CompiledBehaviors.patchBehaviors_id (h : CompiledBehaviors cfg collection) :
    patchBehaviors .ok collection = .ok collection := by
  have hone : ∀ p ∈ collection, (do
      let behavior ← patchBehavior .ok p.2
      return (p.1, behavior)) = (.ok (id p) : Except PyError (String × Raw)) := by
    intro p hp
    obtain ⟨behavior, profile, hbehavior, hprofile, -⟩ := h.2 p hp
    have hlookup := Raw.lookupIn_of_field hprofile rfl
    rw [hbehavior, patchBehavior, hlookup]
    show Except.ok (p.1, Raw.dict (Dict.setIn "profile" (.dict profile) behavior)) = .ok p
    rw [Raw.setIn_of_field hprofile rfl, ← hbehavior]
  exact (each_eq_map hone).trans (congrArg Except.ok (List.map_id collection))

end

end OpenRide.Scenario
