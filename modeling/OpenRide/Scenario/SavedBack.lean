import OpenRide.Scenario.SavedKeys

/-!
# Editing and saving back

An edit assembles from the patch merged over the saved specification, so a key the patch is silent
on is said by the saved specification.  Whether that says the value it has depends on its form: an
empty object of overrides is read as null, an agent count under a legacy key is moved, structures of
one id hand pools to one another.  `Settled` is the form in which none of this happens, and the
form a compile writes (`Stages.settled_recipe`).

`edited_of_editSpec` says what an edit of a settled specification does key by key, and
`saves_respect_payload` collects this with what the other way to save does.
-/

namespace OpenRide.Scenario

open Lib Datagen

/-- A specification in the form a save writes. -/
structure Settled (T : PyText) (saved : Spec) : Prop where
  aliases : ∀ key : SpecKey, ∀ a ∈ key.aliases, a ≠ key.spelling → saved.get? a = none
  name : ∃ s, saved.get? "name" = some (.str s) ∧ pyStrip s = s
  slug : ∃ s, s ≠ "" ∧ saved.get? "slug" = some (.str s) ∧ pyStrip s = s
  objects : ∀ key ∈ [SpecKey.solverParams, .roleSettings, .overrides],
    saved.value key.spelling = .null ∨
      ∃ p entries, saved.value key.spelling = .dict (p :: entries)
  counts : ∀ role ∈ agentRoles.map Prod.fst,
    (Raw.field (rawRole saved role) "count").isNull = false
  policies : ∀ role, dictOrNull (Raw.field (rawRole saved role) "policy") =
    Raw.field (rawRole saved role) "policy"
  fields : ∀ role f, f ∉ roleFields → Raw.field (rawRole saved role) f = .null
  roles : ∀ role, role ∉ agentRoles.map Prod.fst → rawRole saved role = []
  cooperation : SettledBlock T (saved.value "cooperation")

/-! ## The merged specification -/

section

variable {T : PyText} {domain slug : String} {saved patch : Spec}

theorem get?_mergedSpec {key : String} (hslug : key ≠ "slug") (hdomain : key ≠ "domain") :
    (mergedSpec domain slug saved patch).get? key = (patch.get? key <|> saved.get? key) := by
  rw [mergedSpec, Dict.get?_set_ne _ _ hdomain, Dict.get?_set_ne _ _ hslug,
    Dict.get?_update_entries]

theorem value_mergedSpec_domain : (mergedSpec domain slug saved patch).value "domain" =
    .str domain :=
  Spec.value_of_get? (Dict.get?_set_self _ _ _)

theorem value_mergedSpec_slug : (mergedSpec domain slug saved patch).value "slug" = .str slug := by
  refine Spec.value_of_get? ?_
  rw [mergedSpec, Dict.get?_set_ne _ _ (by decide), Dict.get?_set_self]

/-- The spellings of a key that is carried over are spellings of no other. -/
theorem SpecKey.ne_of_mem_aliases {key : SpecKey} (hcarry : key.carry = .carryIfAbsent) {a : String}
    (ha : a ∈ key.aliases) : a ≠ "slug" ∧ a ≠ "domain" := by
  have hall : ∀ key ∈ specKeys, key.carry = .carryIfAbsent →
      ∀ a ∈ key.aliases, a ≠ "slug" ∧ a ≠ "domain" := by decide
  exact hall key key.mem_specKeys hcarry a ha

/-- A specification that reads like a patch over a saved one, as far as a key goes. -/
def ReadsOver (raw patch saved : Spec) (key : SpecKey) : Prop :=
  ∀ a ∈ key.aliases, raw.get? a = (patch.get? a <|> saved.get? a)

theorem readsOver_mergedSpec {key : SpecKey} (hcarry : key.carry = .carryIfAbsent) :
    ReadsOver (mergedSpec domain slug saved patch) patch saved key := fun _ ha ↦
  get?_mergedSpec (SpecKey.ne_of_mem_aliases hcarry ha).1 (SpecKey.ne_of_mem_aliases hcarry ha).2

theorem SpecKey.spelling_mem_aliases (key : SpecKey) : key.spelling ∈ key.aliases := by
  obtain ⟨rest, hrest⟩ := key.aliases_eq
  rw [hrest]
  exact List.mem_cons_self

end

/-! ## Keys the patch is silent on -/

section

variable {T : PyText} {raw patch saved : Spec} {domain : String} {block : Raw} {key : SpecKey}

/-- If the merged specification speaks a key the patch is silent on, then with the saved value. -/
theorem get?_of_silent_patch (hover : ReadsOver raw patch saved key) (hsilent : Silent patch key)
    (hsupplied : keySupplied raw key = true) :
    patch.get? key.spelling = none ∧ raw.get? key.spelling = saved.get? key.spelling := by
  have hread := hover key.spelling key.spelling_mem_aliases
  cases hp : patch.get? key.spelling with
  | none =>
    rw [hp] at hread
    exact ⟨rfl, hread⟩
  | some w =>
    obtain ⟨hpolicy, hblank⟩ := hsilent key.spelling key.spelling_mem_aliases w hp
    obtain ⟨rest, hrest⟩ := key.aliases_eq
    rw [hp] at hread
    rw [keySupplied, hrest, List.findSome?_cons, hread] at hsupplied
    dsimp only [Option.orElse_eq_orElse, Option.orElse] at hsupplied
    rw [hpolicy, hblank] at hsupplied
    cases hsupplied

/-- A key whose clear is spelled null is silent only when it is missing. -/
theorem Silent.get?_eq_none (h : Silent patch key) (hclears : key.nullPolicy = .clears) {a : String}
    (ha : a ∈ key.aliases) : patch.get? a = none := by
  cases hp : patch.get? a with
  | none => rfl
  | some v =>
    have hpolicy := (h a ha v hp).1
    rw [hclears] at hpolicy
    cases hpolicy

theorem objectOrNull_eq {v : Raw} (h : v = .null ∨ ∃ p entries, v = .dict (p :: entries)) :
    objectOrNull v = v := by
  rcases h with rfl | ⟨p, entries, rfl⟩
  · rfl
  · rfl

/-- The body of the saved value is the saved value. -/
theorem fromBody_of_settled (hs : Settled T saved) (hcarry : key.carry = .carryIfAbsent)
    (hagents : key ≠ .agents) (hover : ReadsOver raw patch saved key) (hsilent : Silent patch key)
    (hread : raw.get? key.spelling = saved.get? key.spelling) {v : Raw}
    (hv : saved.get? key.spelling = some v) : fromBody T raw domain block key = v := by
  have hraw := hread.trans hv
  have hobject : key ∈ [SpecKey.solverParams, .roleSettings, .overrides] → objectOrNull v = v := by
    intro hkey
    have hform := hs.objects key hkey
    rw [Spec.value_of_get? hv] at hform
    exact objectOrNull_eq hform
  cases key with
  | name | slug | domain | source | cooperation => cases hcarry
  | agents => exact absurd rfl hagents
  | simulationDays =>
    rw [SpecKey.spelling] at hraw
    rw [fromBody, hraw, Option.getD_some]
  | solverParams | overrides =>
    rw [SpecKey.spelling] at hraw
    rw [fromBody, Spec.value_of_get? hraw]
    exact hobject (by decide)
  | roleSettings =>
    have hlegacy := hover "roleProfiles" (by decide)
    rw [hsilent.get?_eq_none rfl (by decide), hs.aliases .roleSettings "roleProfiles" (by decide)
      (by decide)] at hlegacy
    rw [SpecKey.spelling] at hraw
    have hnone : raw.value "roleProfiles" = .null := by
      rw [Spec.value, hlegacy]
      rfl
    have hform := hs.objects .roleSettings (by decide)
    rw [Spec.value_of_get? hv] at hform
    rw [fromBody, bodyRoleSettings, Spec.value_of_get? hraw, hnone]
    rcases hform with rfl | ⟨p, entries, rfl⟩
    · rfl
    · rfl
  | _ => exact Spec.value_of_get? hraw

/-- **What the patch is silent on keeps its saved value.** -/
theorem specValue_of_silent_patch (hs : Settled T saved) {prev : Spec}
    (hprev : prev.get? key.spelling = saved.get? key.spelling)
    (hcarry : key.carry = .carryIfAbsent) (hagents : key ≠ .agents)
    (hover : ReadsOver raw patch saved key) (hsilent : Silent patch key) {v : Raw}
    (hv : saved.get? key.spelling = some v) :
    specValue raw (some prev) (fromBody T raw domain block) key = v := by
  cases hsup : keySupplied raw key with
  | false => exact specValue_of_silent hcarry hsup (hprev.trans hv)
  | true =>
    rw [specValue_of_supplied (Or.inr hsup)]
    exact fromBody_of_settled hs hcarry hagents hover hsilent
      (get?_of_silent_patch hover hsilent hsup).2 hv

/-- A key that is spelled nowhere is null. -/
theorem specValue_of_absent {prev : Spec} (hprev : prev.get? key.spelling = none)
    (hcarry : key.carry = .carryIfAbsent) (hagents : key ≠ .agents)
    (hraw : ∀ a ∈ key.aliases, raw.get? a = none) :
    specValue raw (some prev) (fromBody T raw domain block) key = .null := by
  have hnull : ∀ a ∈ key.aliases, raw.value a = .null := by
    intro a ha
    rw [Spec.value, hraw a ha]
    rfl
  have hbody : specValue raw (some prev) (fromBody T raw domain block) key =
      fromBody T raw domain block key := by
    rw [specValue]
    split
    · rw [Option.bind_some, hprev, Option.getD_none]
    · rfl
  rw [hbody]
  cases key with
  | name | slug | domain | source | cooperation => cases hcarry
  | agents => exact absurd rfl hagents
  | simulationDays =>
    rw [fromBody, hraw "simulationDays" (by decide), hnull "simulation_days" (by decide)]
    rfl
  | solverParams =>
    rw [fromBody, hnull "solverParams" (by decide)]
    rfl
  | overrides =>
    rw [fromBody, hnull "overrides" (by decide)]
    rfl
  | roleSettings =>
    rw [fromBody, bodyRoleSettings, hnull "roleSettings" (by decide),
      hnull "roleProfiles" (by decide)]
    rfl
  | _ => exact hnull _ (SpecKey.spelling_mem_aliases _)

/-- The agents the patch is silent on keep every field of every role. -/
theorem agents_of_silent_patch (hs : Settled T saved) {prev out : Spec}
    (hprev : prev.get? "agents" = saved.get? "agents")
    (hout : out.get? "agents" =
      some (specValue raw (some prev) (fromBody T raw domain block) .agents))
    (hover : ReadsOver raw patch saved .agents) (hsilent : Silent patch .agents) (role f : String) :
    Raw.field (rawRole out role) f = Raw.field (rawRole saved role) f := by
  cases hsup : keySupplied raw .agents with
  | false =>
    rw [specValue, if_pos ⟨rfl, hsup⟩, Option.bind_some, SpecKey.spelling, hprev] at hout
    cases hagents : saved.get? "agents" with
    | some v =>
      rw [hagents, Option.getD_some] at hout
      rw [rawRole, rawRole, Spec.value_of_get? hout, Spec.value_of_get? hagents]
    | none =>
      -- a settled specification has agents
      have hcount := hs.counts "truck" (by decide)
      rw [rawRole, Spec.value, hagents] at hcount
      cases hcount
  | true =>
    rw [specValue_of_supplied (Or.inr hsup)] at hout
    have hread : raw.get? "agents" = saved.get? "agents" :=
      (get?_of_silent_patch hover hsilent hsup).2
    have hraw : ∀ r, rawRole raw r = rawRole saved r := fun r ↦ by
      rw [rawRole, rawRole, Spec.value, Spec.value, hread]
    by_cases hrole : role ∈ agentRoles.map Prod.fst
    · obtain ⟨⟨r, legacy⟩, hmem, rfl⟩ := List.mem_map.mp hrole
      rw [rawRole_of_agents hout hmem, field_roleBlock, hraw, hs.policies]
      have hcount : Raw.fieldD (rawRole saved r) "count" (raw.value legacy) =
          Raw.field (rawRole saved r) "count" := by
        rw [Raw.fieldD, Raw.lookupIn_of_field rfl (hs.counts r hrole), Option.getD_some]
      rw [hcount]
      by_cases hf : f ∈ roleFields
      · rcases List.mem_cons.mp hf with rfl | hf
        · rfl
        rcases List.mem_cons.mp hf with rfl | hf
        · rfl
        obtain rfl := List.mem_singleton.mp hf
        rfl
      · rw [hs.fields r f hf, Raw.field, Dict.lookupIn_eq_none.mpr hf]
        rfl
    · rw [rawRole_of_agents_of_notMem hout hrole, hs.roles role hrole]

end

/-! ## What an edit makes of a patch -/

/-- The domain of a call, with its default. -/
def callDomain (domain : String) : String :=
  if domain = "" then "container-logistics-sim" else domain

/-- What an edit makes of a patch and a settled specification. -/
structure Edited (T : PyText) (domain slug : String) (saved patch out : Spec) : Prop where
  keys : out.keys = specKeys.map SpecKey.spelling
  unsaid : ∀ key, key.carry = .carryIfAbsent → key ≠ .agents → Silent patch key →
    ∀ v, saved.get? key.spelling = some v → out.get? key.spelling = some v
  unsaidAgents : Silent patch .agents →
    ∀ role f, Raw.field (rawRole out role) f = Raw.field (rawRole saved role) f
  said : ∀ key v, key.carry = .carryIfAbsent → key ≠ .agents → Says patch key v →
    patch.get? key.spelling = some v ∨ saved.get? key.spelling = none →
      out.get? key.spelling = some v
  roleProfiles : (∀ settings, (mergedSpec domain slug saved patch).value "roleSettings" ≠
      .dict settings) → ∀ p entries, patch.get? "roleProfiles" = some (.dict (p :: entries)) →
        out.get? "roleSettings" = some (.dict (p :: entries))
  agents : ∀ v, patch.get? "agents" = some v → isBlank v = false → ∀ role legacy,
    (role, legacy) ∈ agentRoles → RoleSaid patch role legacy (rawRole out role)
  unsaidName : patch.get? "name" = none → out.get? "name" = saved.get? "name"
  name : ∀ v, patch.get? "name" = some v → out.get? "name" = some (.str (pyStrip (T.strOrEmpty v)))
  slug : out.get? "slug" = some (.str (pyStrip slug))
  domain : out.get? "domain" = some (.str (callDomain domain))
  source : out.get? "source" = some (.str "frontend")
  unsaidCooperation : patch.get? "cooperation" = none →
    out.value "cooperation" = saved.value "cooperation"
  cooperation : ∀ v, patch.get? "cooperation" = some v → PoolsAdded v (out.value "cooperation")

section

variable {T : PyText} {domain slug : String} {saved patch out : Spec} {allowReset : Bool}

theorem get?_carriedPrevious (T : PyText) (allowReset : Bool) (incoming : Raw) (previous : Spec) :
    ∃ prev, carriedPrevious T (some previous) incoming allowReset = some prev ∧
      (∀ k, k ≠ "cooperation" → prev.get? k = previous.get? k) ∧
      (lostStructures T (previous.value "cooperation") incoming = [] ∨ allowReset = false →
        prev = previous) := by
  rw [carriedPrevious]
  split
  · next hreset =>
    rw [previousScopedToUntouchedStructures, Option.map_some]
    refine ⟨_, rfl, fun k hk ↦ ?_, fun h ↦ ?_⟩
    · by_cases hlost : lostStructures T (previous.value "cooperation") incoming = []
      · rw [if_pos hlost]
      · rw [if_neg hlost]
        split
        · exact Dict.get?_set_ne _ _ hk
        · rfl
    · rcases h with h | h
      · rw [if_pos h]
      · rw [hreset] at h
        cases h
  · exact ⟨previous, rfl, fun _ _ ↦ rfl, fun _ ↦ rfl⟩

theorem lostStructures_self (block : Raw) : lostStructures T block block = [] := by
  rw [lostStructures, List.filter_eq_nil_iff]
  intro sid hsid
  simpa using hsid

/-- The domain of a specification that has the domain of the call. -/
theorem specDomain_of_value {raw : Spec} (h : raw.value "domain" = .str domain) :
    specDomain T raw domain = callDomain domain := by
  rw [specDomain, h, callDomain]
  split
  · next hempty =>
    subst hempty
    rfl
  · next hne => rw [Raw.orElse_str hne, PyText.strOf]

/-- The slug of a specification that has one. -/
theorem specSlug_of_value {raw : Spec} (hslug : slug ≠ "") (h : raw.value "slug" = .str slug) :
    specSlug T raw = pyStrip slug := by
  rw [specSlug, h, Raw.orElse_str hslug, PyText.strOf]

theorem specName_of_value {raw : Spec} {s : String} (h : raw.value "name" = .str s)
    (hs : pyStrip s = s) : specName T raw = s := by
  rw [specName, h, strOrEmpty_str, hs]

/-- A key that a settled specification does not have is said by the patch alone. -/
theorem says_of_patch {raw : Spec} {key : SpecKey} {v : Raw} (hs : Settled T saved)
    (hover : ReadsOver raw patch saved key) (hnone : saved.get? key.spelling = none)
    (h : Says patch key v) : Says raw key v := by
  have hsaved : ∀ a ∈ key.aliases, saved.get? a = none := by
    intro a ha
    by_cases he : a = key.spelling
    · exact he ▸ hnone
    · exact hs.aliases key a ha he
  have hread : ∀ l : List String, (∀ a ∈ l, a ∈ key.aliases) →
      l.findSome? raw.get? = l.findSome? patch.get? := by
    intro l hl
    induction l with
    | nil => rfl
    | cons a l ih =>
      have ha := hl a List.mem_cons_self
      rw [List.findSome?_cons, List.findSome?_cons, ih fun b hb ↦ hl b (List.mem_cons_of_mem _ hb),
        hover a ha, hsaved a ha]
      cases patch.get? a with
      | none => rfl
      | some w => rfl
  exact ⟨(hread key.aliases fun _ ha ↦ ha).trans h.1, h.2⟩

theorem legacy_mem_aliases {role legacy : String} (h : (role, legacy) ∈ agentRoles) :
    legacy ∈ SpecKey.agents.aliases ∧ legacy ≠ SpecKey.agents.spelling := by
  have hall : ∀ p ∈ agentRoles, p.2 ∈ SpecKey.agents.aliases ∧ p.2 ≠ SpecKey.agents.spelling := by
    decide
  exact hall _ h

theorem RoleSaid.congr {raw raw' : Spec} {role legacy : String} {fields : List (String × Raw)}
    (h : RoleSaid raw role legacy fields) (hrole : rawRole raw role = rawRole raw' role)
    (hlegacy : raw.value legacy = raw'.value legacy) : RoleSaid raw' role legacy fields := by
  obtain ⟨hcount, hpolicy, hunit, hunsaid⟩ := h
  rw [hrole, hlegacy] at hcount
  rw [hrole] at hpolicy hunit hunsaid
  rw [hlegacy] at hunsaid
  exact ⟨hcount, hpolicy, hunit, hunsaid⟩

/-- **An edit of a settled specification** keeps what the patch is silent on and takes what it
says. -/
theorem edited_of_editSpec (hs : Settled T saved) (hslug : slug ≠ "")
    (h : editSpec T domain slug saved patch allowReset = .ok out) :
    Edited T domain slug saved patch out := by
  rw [editSpec] at h
  obtain ⟨prev, hcarried, hprev, hsame⟩ := get?_carriedPrevious T allowReset
    ((mergedSpec domain slug saved patch).value "cooperation") saved
  rw [hcarried] at h
  have hkey : ∀ key : SpecKey, key ≠ .cooperation →
      prev.get? key.spelling = saved.get? key.spelling :=
    fun key hne ↦ hprev _ fun he ↦ hne (SpecKey.spelling_injective he)
  have hout := assembled_of_assembleSpec hkey h
  obtain ⟨block, hblock, hspec⟩ := assembleSpec_eq_ok.mp h
  have hget : ∀ key : SpecKey, out.get? key.spelling =
      some (specValue (mergedSpec domain slug saved patch) (some prev)
        (fromBody T (mergedSpec domain slug saved patch) domain block) key) := by
    intro key
    rw [← hspec, Spec.get?_ofKeys]
  have hread : ∀ k, k ≠ "slug" → k ≠ "domain" →
      (mergedSpec domain slug saved patch).get? k = (patch.get? k <|> saved.get? k) :=
    fun k ↦ get?_mergedSpec
  have hname := hread "name" (by decide) (by decide)
  have hcoop := hread "cooperation" (by decide) (by decide)
  refine
    { keys := hout.keys
      unsaid := fun key hcarry hagents hsilent v hv ↦ ?_
      unsaidAgents := fun hsilent ↦ agents_of_silent_patch hs (hkey .agents (by decide))
        (hget .agents) (readsOver_mergedSpec rfl) hsilent
      said := fun key v hcarry hagents hsays hfirst ↦ ?_
      roleProfiles := fun hsettings p entries hp ↦ hout.roleProfiles hsettings p entries ?_
      agents := fun v hv hblank role legacy hrole ↦ ?_
      unsaidName := fun hnone ↦ ?_
      name := fun v hv ↦ ?_
      slug := ?_
      domain := ?_
      source := hout.source
      unsaidCooperation := fun hnone ↦ ?_
      cooperation := fun v hv ↦ ?_ }
  · have hne : key ≠ .cooperation := by
      rintro rfl
      cases hcarry
    rw [hget, specValue_of_silent_patch hs (hkey key hne) hcarry hagents
      (readsOver_mergedSpec hcarry) hsilent hv]
  · refine hout.said key v hcarry hagents ?_
    rcases hfirst with hfirst | hnone
    · refine says_of_spelling ?_ hsays.2
      rw [readsOver_mergedSpec hcarry _ key.spelling_mem_aliases, hfirst]
      rfl
    · exact says_of_patch hs (readsOver_mergedSpec hcarry) hnone hsays
  · rw [get?_mergedSpec (by decide) (by decide), hp]
    rfl
  · have hover : ReadsOver (mergedSpec domain slug saved patch) patch saved .agents :=
      readsOver_mergedSpec rfl
    have hmerged : (mergedSpec domain slug saved patch).get? "agents" = some v := by
      rw [hover "agents" (by decide), hv]
      rfl
    refine (hout.agents v (says_of_spelling hmerged fun _ ↦ hblank) role legacy hrole).congr ?_ ?_
    · rw [rawRole, rawRole, Spec.value_of_get? hmerged, Spec.value_of_get? hv]
    · obtain ⟨hmem, hne⟩ := legacy_mem_aliases hrole
      rw [Spec.value, Spec.value, hover legacy hmem, hs.aliases .agents legacy hmem hne]
      cases patch.get? legacy with
      | none => rfl
      | some w => rfl
  · obtain ⟨s, hsaved, hstrip⟩ := hs.name
    rw [hnone, hsaved] at hname
    rw [hout.name, hsaved, specName_of_value (Spec.value_of_get? hname) hstrip]
  · rw [hv] at hname
    rw [hout.name, specName, Spec.value_of_get? hname]
  · rw [hout.slug, specSlug_of_value hslug value_mergedSpec_slug]
  · rw [hout.domain, specDomain_of_value value_mergedSpec_domain]
  · have hincoming : (mergedSpec domain slug saved patch).value "cooperation" =
        saved.value "cooperation" := by
      rw [Spec.value, Spec.value, hcoop, hnone]
      rfl
    obtain rfl := hsame (Or.inl (by rw [hincoming, lostStructures_self]))
    rw [hincoming] at hblock
    obtain rfl := Except.ok.inj (hs.cooperation.carryAuthoredPools_self.symm.trans hblock)
    exact Spec.value_of_get? (hget .cooperation)
  · have hincoming : (mergedSpec domain slug saved patch).value "cooperation" = v := by
      refine Spec.value_of_get? ?_
      rw [hcoop, hv]
      rfl
    exact hincoming ▸ hout.cooperation

/-! ## Saving a specification back -/

/-- Every key has the value it was saved with, and every field of every role.  The domain is that
of the call, and the source is the frontend. -/
structure SavedBack (saved out : Spec) : Prop where
  keys : ∀ key : SpecKey, key ≠ .agents → key ≠ .domain → key ≠ .source →
    out.value key.spelling = saved.value key.spelling
  agents : ∀ role f, Raw.field (rawRole out role) f = Raw.field (rawRole saved role) f

/-- Assembling from what reads like the saved specification gives it back. -/
theorem savedBack_of_assembleSpec {raw : Spec} (hs : Settled T saved)
    (hread : ∀ key : SpecKey, key ≠ .domain → ∀ a ∈ key.aliases, raw.get? a = saved.get? a) :
    ∃ out, assembleSpec T raw domain (some saved) = .ok out ∧ SavedBack saved out := by
  have hvalue : ∀ key : SpecKey, key ≠ .domain → raw.value key.spelling =
    saved.value key.spelling :=
    fun key hkey ↦ by rw [Spec.value, Spec.value, hread key hkey _ key.spelling_mem_aliases]
  have hover : ∀ key : SpecKey, key ≠ .domain → ReadsOver raw Dict.empty saved key :=
    fun key hkey a ha ↦ hread key hkey a ha
  have hsilent : ∀ key, Silent Dict.empty key := fun key a _ v hv ↦ by cases hv
  have hblock : carryAuthoredPools T (raw.value "cooperation") (previousCooperation (some saved)) =
      .ok (saved.value "cooperation") := by
    have hcoop : raw.value "cooperation" = saved.value "cooperation" :=
      hvalue .cooperation (by decide)
    rw [hcoop]
    exact hs.cooperation.carryAuthoredPools_self
  refine ⟨_, assembleSpec_eq_ok.mpr ⟨_, hblock, rfl⟩, fun key hagents hdomain hsource ↦ ?_,
    fun role f ↦ agents_of_silent_patch hs rfl (Spec.get?_ofKeys _ .agents)
      (hover .agents (by decide)) (hsilent _) role f⟩
  refine Spec.value_of_get? ((Spec.get?_ofKeys _ key).trans (congrArg some ?_))
  by_cases hcarry : key.carry = .carryIfAbsent
  · cases hsaved : saved.get? key.spelling with
    | some v =>
      rw [Spec.value_of_get? hsaved]
      exact specValue_of_silent_patch hs rfl hcarry hagents (hover key hdomain) (hsilent key) hsaved
    | none =>
      have habsent : ∀ a ∈ key.aliases, raw.get? a = none := by
        intro a ha
        rw [hread key hdomain a ha]
        by_cases he : a = key.spelling
        · exact he ▸ hsaved
        · exact hs.aliases key a ha he
      rw [specValue_of_absent hsaved hcarry hagents habsent, Spec.value, hsaved]
      rfl
  · rw [specValue_of_supplied (Or.inl hcarry)]
    cases key with
    | domain => exact absurd rfl hdomain
    | source => exact absurd rfl hsource
    | cooperation => rfl
    | name =>
      obtain ⟨s, hname, hstrip⟩ := hs.name
      have hsaved := Spec.value_of_get? hname
      rw [fromBody, specName_of_value ((hvalue .name (by decide)).trans hsaved) hstrip]
      exact hsaved.symm
    | slug =>
      obtain ⟨s, hne, hslug, hstrip⟩ := hs.slug
      have hsaved := Spec.value_of_get? hslug
      rw [fromBody, specSlug_of_value hne ((hvalue .slug (by decide)).trans hsaved), hstrip]
      exact hsaved.symm
    | _ => exact absurd rfl hcarry

theorem SpecKey.ne_domain_of_mem_aliases {key : SpecKey} (hkey : key ≠ .domain) {a : String}
    (ha : a ∈ key.aliases) : a ≠ "domain" := by
  have hall : ∀ key ∈ specKeys, key ≠ .domain → ∀ a ∈ key.aliases, a ≠ "domain" := by decide
  exact hall key key.mem_specKeys hkey a ha

theorem carriedPrevious_self (saved : Spec) :
    carriedPrevious T (some saved) (saved.value "cooperation") allowReset = some saved := by
  obtain ⟨prev, hcarried, -, hsame⟩ := get?_carriedPrevious T allowReset
    (saved.value "cooperation") saved
  rw [hcarried, hsame (Or.inl (lostStructures_self _))]

theorem savedBack_of_generateSpec (hs : Settled T saved) :
    ∃ out, generateSpec T domain (some saved) saved allowReset = .ok out ∧ SavedBack saved out := by
  have hcoop : (generatePayload domain saved).value "cooperation" = saved.value "cooperation" := by
    rw [Spec.value, Spec.value, generatePayload, Dict.get?_set_ne _ _ (by decide)]
  rw [generateSpec]
  rw [hcoop, carriedPrevious_self]
  refine savedBack_of_assembleSpec hs fun key hkey a ha ↦ ?_
  rw [generatePayload, Dict.get?_set_ne _ _ (SpecKey.ne_domain_of_mem_aliases hkey ha)]

/-- An edit that says nothing new saves a settled specification as it was. -/
theorem savedBack_of_editSpec (hs : Settled T saved) (hslug : saved.get? "slug" = some (.str slug))
    (hpatch : ∀ k v, patch.get? k = some v → saved.get? k = some v) :
    ∃ out, editSpec T domain slug saved patch allowReset = .ok out ∧ SavedBack saved out := by
  have hmerged : ∀ k, k ≠ "domain" →
      (mergedSpec domain slug saved patch).get? k = saved.get? k := by
    intro k hk
    by_cases hkslug : k = "slug"
    · subst hkslug
      rw [mergedSpec, Dict.get?_set_ne _ _ (by decide), Dict.get?_set_self, hslug]
    · rw [get?_mergedSpec hkslug hk]
      cases hp : patch.get? k with
      | none => rfl
      | some v => exact (hpatch k v hp).symm
  have hcoop : (mergedSpec domain slug saved patch).value "cooperation" =
      saved.value "cooperation" := by
    rw [Spec.value, Spec.value, hmerged _ (by decide)]
  rw [editSpec]
  rw [hcoop, carriedPrevious_self]
  exact savedBack_of_assembleSpec hs fun key hkey a ha ↦
    hmerged a (SpecKey.ne_domain_of_mem_aliases hkey ha)

end

end OpenRide.Scenario
