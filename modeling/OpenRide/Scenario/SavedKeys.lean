import OpenRide.Scenario.PoolCarry

/-!
# What a save keeps and what it takes

A payload is `Silent` on a key when it spells the key nowhere, or only with a null or blank value
where null is no value.  It `Says` a value when the first spelling it has of the key has that
value.  `Assembled` collects what `assembleSpec` makes of both: a key the payload is silent on is
inherited, a key it says is taken.

An edit reads the patch merged over the saved specification, so what a patch is silent on is said
by the saved specification itself.  Reading that back changes nothing when it is `Settled`: spelled
by the names of the keys alone, and with the values a save writes.
-/

namespace OpenRide.Scenario

open Lib Datagen

/-! ## Speaking a key -/

/-- A payload does not speak a key: under every spelling it is missing, or blank where null is no
value. -/
def Silent (raw : Spec) (key : SpecKey) : Prop :=
  ∀ a ∈ key.aliases, ∀ v, raw.get? a = some v → key.nullPolicy = .unsupplied ∧ isBlank v = true

/-- Is this a value of the key? -/
def SpecKey.Accepts (key : SpecKey) (v : Raw) : Prop :=
  match key with
  | .solverParams | .roleSettings | .overrides => ∃ p entries, v = .dict (p :: entries)
  | key => key.nullPolicy = .unsupplied → isBlank v = false

/-- A payload gives a key a value: under the first spelling of the key that it has. -/
def Says (raw : Spec) (key : SpecKey) (v : Raw) : Prop :=
  key.aliases.findSome? raw.get? = some v ∧ key.Accepts v

variable {key : SpecKey}

theorem keySupplied_of_silent {raw : Spec} (h : Silent raw key) : keySupplied raw key = false := by
  rw [keySupplied]
  split
  · rfl
  · next v hv =>
    obtain ⟨a, ha, hget⟩ := List.exists_of_findSome?_eq_some hv
    obtain ⟨hpolicy, hblank⟩ := h a ha v hget
    rw [hpolicy, hblank]
    rfl

variable {v : Raw}

theorem SpecKey.Accepts.not_blank (h : key.Accepts v) :
    (key.nullPolicy == .unsupplied && isBlank v) = false := by
  cases key with
  | solverParams | roleSettings | overrides => rfl
  | _ =>
    cases hb : isBlank v with
    | false => rw [Bool.and_false]
    | true =>
      rw [Bool.and_true, beq_eq_false_iff_ne]
      intro hp
      exact absurd (h hp) (by rw [hb]; decide)

theorem Says.keySupplied {raw : Spec} (h : Says raw key v) :
    Scenario.keySupplied raw key = true := by
  rw [Scenario.keySupplied, h.1]
  dsimp only
  rw [h.2.not_blank]
  rfl

/-- A payload that has a key under its own name says it. -/
theorem says_of_spelling {raw : Spec} (h : raw.get? key.spelling = some v) (hv : key.Accepts v) :
    Says raw key v := by
  obtain ⟨rest, hrest⟩ := key.aliases_eq
  refine ⟨?_, hv⟩
  rw [hrest, List.findSome?_cons, h]

/-- A key with one spelling is said under that. -/
theorem Says.value_eq {raw : Spec} (h : Says raw key v) (hkey : key.aliases = [key.spelling]) :
    raw.value key.spelling = v := by
  have hfirst := h.1
  rw [hkey, List.findSome?_cons] at hfirst
  cases hget : raw.get? key.spelling with
  | none =>
    rw [hget] at hfirst
    cases hfirst
  | some w =>
    rw [hget] at hfirst
    cases hfirst
    exact Spec.value_of_get? hget

/-- A key with two spellings is said under the first, or under the second alone. -/
theorem Says.pair {raw : Spec} {a b : String} (h : Says raw key v) (hkey : key.aliases = [a, b]) :
    raw.get? a = some v ∨ raw.get? a = none ∧ raw.get? b = some v := by
  have hfirst := h.1
  rw [hkey, List.findSome?_cons] at hfirst
  cases ha : raw.get? a with
  | some w =>
    rw [ha] at hfirst
    exact Or.inl hfirst
  | none =>
    rw [ha, List.findSome?_cons, List.findSome?_nil] at hfirst
    cases hb : raw.get? b with
    | some w =>
      rw [hb] at hfirst
      exact Or.inr ⟨rfl, hfirst⟩
    | none =>
      rw [hb] at hfirst
      cases hfirst

/-! ## The body -/

section

variable {T : PyText} {raw : Spec} {domain : String} {cooperation : Raw}

/-- **The body takes what the payload says.** -/
theorem Says.fromBody_eq {key : SpecKey} {v : Raw} (h : Says raw key v)
    (hcarry : key.carry = .carryIfAbsent) (hagents : key ≠ .agents) :
    fromBody T raw domain cooperation key = v := by
  cases key with
  | name | slug | domain | source | cooperation => cases hcarry
  | agents => exact absurd rfl hagents
  | simulationDays =>
    rw [fromBody]
    rcases h.pair rfl with hget | ⟨hnone, hget⟩
    · rw [hget]
      rfl
    · rw [hnone, Spec.value_of_get? hget]
      rfl
  | roleSettings =>
    obtain ⟨p, entries, rfl⟩ := h.2
    rw [fromBody, bodyRoleSettings]
    rcases h.pair rfl with hget | ⟨hnone, hget⟩
    · rw [Spec.value_of_get? hget]
      rfl
    · rw [Spec.value, hnone, Spec.value_of_get? hget]
      rfl
  | solverParams | overrides =>
    obtain ⟨p, entries, rfl⟩ := h.2
    have hvalue := h.value_eq rfl
    simp only [SpecKey.spelling] at hvalue
    simp only [fromBody, hvalue]
    rfl
  | _ => exact h.value_eq rfl

/-- A legacy profile is taken where `roleSettings` is no object. -/
theorem bodyRoleSettings_of_roleProfiles {p : String × Raw} {entries : List (String × Raw)}
    (hsettings : ∀ settings, raw.value "roleSettings" ≠ .dict settings)
    (h : raw.get? "roleProfiles" = some (.dict (p :: entries))) :
    bodyRoleSettings raw = .dict (p :: entries) := by
  rw [bodyRoleSettings]
  split
  · next settings hdict => exact absurd hdict (hsettings settings)
  · rw [Spec.value_of_get? h]
    rfl

/-! ### The agents -/

/-- The roles with agents, each with the legacy key of its count. -/
def agentRoles : List (String × String) :=
  [("truck", "numTrucks"), ("order", "numOrders"), ("facility", "numFacilities")]

/-- The fields of a role that are read. -/
def roleFields : List String := ["count", "policy", "orderCountUnit"]

theorem eq_null_of_isNull {v : Raw} (h : v.isNull = true) : v = .null := by
  cases v with
  | null => rfl
  | _ => cases h

theorem field_present {entries : List (String × Raw)} (h : (entries.map Prod.fst).Nodup)
    (f : String) : Raw.field (present entries) f = Raw.field entries f := by
  induction entries with
  | nil => rfl
  | cons p entries ih =>
    obtain ⟨key, v⟩ := p
    rw [List.map_cons, List.nodup_cons] at h
    have hrest := ih h.2
    rw [present] at hrest
    by_cases hv : v.isNull = true
    · obtain rfl := eq_null_of_isNull hv
      rw [present, List.filter_cons_of_neg (by simp [Raw.isNull]), hrest, Raw.field, Raw.field,
        Dict.lookupIn]
      split
      · next hkey =>
        subst hkey
        rw [Dict.lookupIn_eq_none.mpr h.1]
        rfl
      · rfl
    · rw [present, List.filter_cons_of_pos (by simpa using hv), Raw.field, Raw.field, Dict.lookupIn,
        Dict.lookupIn]
      split
      · rfl
      · exact hrest

/-- **The block of a role has what the payload says of that role**, and nothing else. -/
theorem field_roleBlock (raw : Spec) (role legacy f : String) :
    Raw.field (roleBlock raw role legacy).asDict f =
      Raw.field [("count", Raw.fieldD (rawRole raw role) "count" (raw.value legacy)),
        ("policy", dictOrNull (Raw.field (rawRole raw role) "policy")),
        ("orderCountUnit", Raw.field (rawRole raw role) "orderCountUnit")] f := by
  exact field_present (by simp) f

/-- The agents of the body, role by role. -/
theorem rawRole_of_agents {out : Spec}
    (h : out.get? "agents" = some (fromBody T raw domain cooperation .agents))
    {role legacy : String}
    (hrole : (role, legacy) ∈ agentRoles) :
    rawRole out role = (roleBlock raw role legacy).asDict := by
  rw [rawRole, Spec.value_of_get? h]
  rcases List.mem_cons.mp hrole with heq | hrole
  · obtain ⟨rfl, rfl⟩ := Prod.mk.inj heq
    rfl
  rcases List.mem_cons.mp hrole with heq | hrole
  · obtain ⟨rfl, rfl⟩ := Prod.mk.inj heq
    rfl
  rcases List.mem_cons.mp hrole with heq | hrole
  · obtain ⟨rfl, rfl⟩ := Prod.mk.inj heq
    rfl
  · cases hrole

theorem rawRole_of_agents_of_notMem {out : Spec}
    (h : out.get? "agents" = some (fromBody T raw domain cooperation .agents)) {role : String}
    (hrole : role ∉ agentRoles.map Prod.fst) : rawRole out role = [] := by
  have hnone : Dict.lookupIn role [("truck", roleBlock raw "truck" "numTrucks"),
      ("order", roleBlock raw "order" "numOrders"),
      ("facility", roleBlock raw "facility" "numFacilities")] = none :=
    Dict.lookupIn_eq_none.mpr hrole
  rw [rawRole, Spec.value_of_get? h, fromBody]
  dsimp only [Raw.asDict]
  rw [Raw.field, hnone]
  rfl

end

/-! ## What `assembleSpec` makes of a payload -/

/-- The agents of a role are what a payload says of them: nothing is carried over. -/
structure RoleSaid (raw : Spec) (role legacy : String) (block : List (String × Raw)) : Prop where
  count : Raw.field block "count" = Raw.fieldD (rawRole raw role) "count" (raw.value legacy)
  policy : ∀ policy, Raw.field (rawRole raw role) "policy" = .dict policy →
    Raw.field block "policy" = .dict policy
  unit : Raw.field block "orderCountUnit" = Raw.field (rawRole raw role) "orderCountUnit"
  unsaid : rawRole raw role = [] → raw.value legacy = .null → ∀ f, Raw.field block f = .null

/-- What `assembleSpec` makes of a payload and a saved specification. -/
structure Assembled (T : PyText) (raw : Spec) (domain : String) (saved out : Spec) : Prop where
  keys : out.keys = specKeys.map SpecKey.spelling
  unsaid : ∀ key, key.carry = .carryIfAbsent → Silent raw key →
    ∀ v, saved.get? key.spelling = some v → out.get? key.spelling = some v
  said : ∀ key v, key.carry = .carryIfAbsent → key ≠ .agents → Says raw key v →
    out.get? key.spelling = some v
  roleProfiles : (∀ settings, raw.value "roleSettings" ≠ .dict settings) → ∀ p entries,
    raw.get? "roleProfiles" = some (.dict (p :: entries)) →
      out.get? "roleSettings" = some (.dict (p :: entries))
  agents : ∀ v, Says raw .agents v → ∀ role legacy, (role, legacy) ∈ agentRoles →
    RoleSaid raw role legacy (rawRole out role)
  name : out.get? "name" = some (.str (specName T raw))
  slug : out.get? "slug" = some (.str (specSlug T raw))
  domain : out.get? "domain" = some (.str (specDomain T raw domain))
  source : out.get? "source" = some (.str "frontend")
  cooperation : PoolsAdded (raw.value "cooperation") (out.value "cooperation")

section

variable {T : PyText} {raw : Spec} {domain : String} {previous : Option Spec} {out : Spec}

theorem assembleSpec_eq_ok : assembleSpec T raw domain previous = .ok out ↔
    ∃ block, carryAuthoredPools T (raw.value "cooperation") (previousCooperation previous) =
        .ok block ∧
      Spec.ofKeys (specValue raw previous (fromBody T raw domain block)) = out := by
  rw [assembleSpec, bind_eq_ok]
  refine exists_congr fun block ↦ and_congr_right fun _ ↦ ?_
  exact ⟨Except.ok.inj, congrArg Except.ok⟩

theorem specValue_of_supplied {body : SpecKey → Raw} {key : SpecKey}
    (h : key.carry ≠ .carryIfAbsent ∨ keySupplied raw key = true) :
    specValue raw previous body key = body key := by
  rw [specValue, if_neg]
  rintro ⟨hcarry, hfalse⟩
  rcases h with h | h
  · exact h hcarry
  · rw [h] at hfalse
    cases hfalse

theorem specValue_of_silent {saved : Spec} {body : SpecKey → Raw} {key : SpecKey}
    (hcarry : key.carry = .carryIfAbsent) (h : keySupplied raw key = false) {v : Raw}
    (hv : saved.get? key.spelling = some v) : specValue raw (some saved) body key = v := by
  rw [specValue, if_pos ⟨hcarry, h⟩, Option.bind_some, hv, Option.getD_some]

/-- A payload with a legacy profile speaks of the settings of the roles. -/
theorem keySupplied_roleProfiles {v : Raw} (h : raw.get? "roleProfiles" = some v) :
    keySupplied raw .roleSettings = true := by
  rw [keySupplied, SpecKey.aliases, List.findSome?_cons, List.findSome?_cons, h]
  cases raw.get? "roleSettings" with
  | none => rfl
  | some w => rfl

theorem roleSaid_of_agents {block : Raw}
    (h : out.get? "agents" = some (fromBody T raw domain block .agents)) {role legacy : String}
    (hrole : (role, legacy) ∈ agentRoles) : RoleSaid raw role legacy (rawRole out role) := by
  rw [rawRole_of_agents h hrole]
  refine ⟨field_roleBlock raw role legacy "count", fun policy hpolicy ↦ ?_,
    field_roleBlock raw role legacy "orderCountUnit", fun hempty hlegacy f ↦ ?_⟩
  · rw [field_roleBlock, hpolicy]
    rfl
  · have hnull : ∀ key, Raw.field [] key = .null := fun _ ↦ rfl
    have hpresent : Raw.field (present [("count", .null), ("policy", .null),
        ("orderCountUnit", .null)]) f = Raw.field [("count", .null), ("policy", .null),
        ("orderCountUnit", .null)] f := field_present (by simp) f
    rw [field_roleBlock, hempty, hnull, hnull, Raw.fieldD, hlegacy]
    exact hpresent.symm

/-- **A save inherits what the payload is silent on and takes what it says.**  The saved
specification may have lost structures that are being emptied. -/
theorem assembled_of_assembleSpec {saved prev : Spec}
    (hprev : ∀ key : SpecKey, key ≠ .cooperation → prev.get? key.spelling = saved.get? key.spelling)
    (h : assembleSpec T raw domain (some prev) = .ok out) : Assembled T raw domain saved out := by
  obtain ⟨block, hblock, rfl⟩ := assembleSpec_eq_ok.mp h
  have hget : ∀ key : SpecKey, (Spec.ofKeys (specValue raw (some prev)
      (fromBody T raw domain block))).get? key.spelling =
      some (specValue raw (some prev) (fromBody T raw domain block) key) :=
    fun key ↦ Spec.get?_ofKeys _ key
  have hbody : ∀ key : SpecKey, key.carry ≠ .carryIfAbsent ∨ keySupplied raw key = true →
      (Spec.ofKeys (specValue raw (some prev) (fromBody T raw domain block))).get? key.spelling =
        some (fromBody T raw domain block key) :=
    fun key hkey ↦ by rw [hget, specValue_of_supplied hkey]
  refine
    { keys := ?_
      unsaid := fun key hcarry hsilent v hv ↦ ?_
      said := fun key v hcarry hagents hsays ↦ ?_
      roleProfiles := fun hsettings p entries hget ↦ ?_
      agents := fun v hsays role legacy hrole ↦ ?_
      name := hbody .name (Or.inl (by decide))
      slug := hbody .slug (Or.inl (by decide))
      domain := hbody .domain (Or.inl (by decide))
      source := hbody .source (Or.inl (by decide))
      cooperation := ?_ }
  · rw [Spec.ofKeys, Dict.keys, List.map_map]
    rfl
  · have hne : key ≠ .cooperation := by
      rintro rfl
      cases hcarry
    rw [hget, specValue_of_silent hcarry (keySupplied_of_silent hsilent)
      ((hprev key hne).trans hv)]
  · rw [hbody key (Or.inr hsays.keySupplied), hsays.fromBody_eq hcarry hagents]
  · have hsettings := hbody .roleSettings (Or.inr (keySupplied_roleProfiles hget))
    rw [SpecKey.spelling] at hsettings
    rw [hsettings, fromBody, bodyRoleSettings_of_roleProfiles ‹_› hget]
  · exact roleSaid_of_agents (hbody .agents (Or.inr hsays.keySupplied)) hrole
  · have hcooperation := hbody .cooperation (Or.inl (by decide))
    rw [SpecKey.spelling, fromBody] at hcooperation
    exact poolsAdded_of_carryAuthoredPools hblock

end

end OpenRide.Scenario
