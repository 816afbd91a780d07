import OpenRide.Datagen.CooperationGraph
import OpenRide.Datagen.Values

/-!
# Cooperation structures, saved and read back

A scenario is saved with its cooperation structures in authored form: the id and the edges of each,
and the pools where the author wrote pools.  `normalizeCooperation_toRaw` says that this form is
accepted again, also after the hauliers were normalised once more and some ids were replaced by
their slugs.  Two members whose ids have one slug are then one member, so edges and pools may
shrink, but they still agree, since the edges are the pairs of the pools before and after.
-/

namespace OpenRide.Datagen

open Lib

/-! ## The authored form -/

/-- `_raw_structure_entries`. -/
def rawStructureEntries (raw : Raw) : List Raw :=
  match raw with
  | .dict fields =>
    match Raw.field fields "structures" with
    | .list entries => entries
    | _ => []
  | .list (first :: rest) =>
    if first.isStringPair then [.list (first :: rest)] else first :: rest
  | _ => []

/-- Did the author write pools for this structure? -/
def hasAuthoredPools (entry : Raw) : Bool := !(Raw.field entry.asDict "pools").isNull

/-- The ids of the structures with authored pools among those from the `idx`-th on. -/
def authoredPoolIdsFrom (T : PyText) : ℕ → List Raw → List String → List String
  | _, [], _ => []
  | idx, entry :: rest, seen =>
    let base := match entry with
      | .dict fields => structureIdSlug T (Raw.field fields "id") s!"structure-{idx}"
      | _ => s!"structure-{idx}"
    let sid := freshId seen base
    let ids := authoredPoolIdsFrom T (idx + 1) rest (seen ++ [sid])
    if hasAuthoredPools entry then sid :: ids else ids

/-- `authored_pool_structure_ids`. -/
def authoredPoolStructureIds (T : PyText) (raw : Raw) : List String :=
  authoredPoolIdsFrom T 0 (rawStructureEntries raw) []

/-- An edge as the pair that is persisted. -/
def edgeRaw (e : String × String) : Raw := .list [.str e.1, .str e.2]

/-- A pool as the dictionary that is persisted. -/
def PoolEntry.toRaw (p : PoolEntry) : Raw :=
  .dict [("id", .str p.id), ("members", .list (p.members.map .str))]

/-- A structure as the dictionary that is persisted, with or without its pools. -/
def CoopStructure.toRaw (s : CoopStructure) (withPools : Bool) : Raw :=
  .dict ([("id", .str s.id), ("edges", .list (s.edges.map edgeRaw))] ++
    if withPools then [("pools", .list (s.pools.map PoolEntry.toRaw))] else [])

/-- A cooperation block as the dictionary that is persisted. -/
def Cooperation.toRaw (coop : Cooperation) (authoredPoolIds : List String) : Raw :=
  .dict [("active", .str coop.active),
    ("structures", .list (coop.structures.map fun s ↦ s.toRaw (s.id ∈ authoredPoolIds)))]

/-! ## Members, edges and pools read back -/

section

variable {T : PyText} {known : SortedSet String}

/-- The id a member is read back as. -/
@[irreducible] def memberSlug (m : String) : String := slug '_' m ""

theorem haulierSlug_str (m : String) : haulierSlug T (.str m) "" = memberSlug m := by
  have hm : T.strOrEmpty (.str m) = m := by
    rw [PyText.strOrEmpty]
    split
    · rfl
    · next h =>
      rw [Raw.truthy_str, not_not] at h
      exact h.symm
  rw [haulierSlug, hm, memberSlug]

theorem cooperationMember_str (whr : String) {m : String} (h : memberSlug m ∈ known) :
    cooperationMember T known whr (.str m) = .ok (memberSlug m) := by
  rw [cooperationMember]
  rw [haulierSlug_str, if_pos h]

/-- The edges of persisted pairs: the pairs of slugs that are not one and the same. -/
theorem edgesFrom_edgeRaw (whr : String) {es : List (String × String)}
    (h : ∀ e ∈ es, memberSlug e.1 ∈ known ∧ memberSlug e.2 ∈ known) (idx : ℕ) (acc : EdgeSet) :
    ∃ s, edgesFrom T known whr idx (es.map edgeRaw) acc = .ok s ∧
      ∀ e, e ∈ s.edges ↔ e ∈ acc.edges ∨ ∃ a ∈ es, memberSlug a.1 ≠ memberSlug a.2 ∧
        e = sortedPair (memberSlug a.1) (memberSlug a.2) := by
  induction es generalizing idx acc with
  | nil => exact ⟨acc, rfl, fun e ↦ by simp⟩
  | cons a es ih =>
    obtain ⟨h1, h2⟩ := h a List.mem_cons_self
    have hrest := ih (fun e he ↦ h e (List.mem_cons_of_mem _ he)) (idx + 1)
    have hread : edgesFrom T known whr idx ((a :: es).map edgeRaw) acc =
        edgesFrom T known whr (idx + 1) (es.map edgeRaw)
          (if memberSlug a.1 = memberSlug a.2 then acc
            else acc.link (memberSlug a.1) (memberSlug a.2)) := by
      rw [List.map_cons, edgeRaw, edgesFrom, Raw.pair?]
      dsimp only
      rw [cooperationMember_str _ h1, cooperationMember_str _ h2]
    rw [hread]
    by_cases he : memberSlug a.1 = memberSlug a.2
    · rw [if_pos he]
      obtain ⟨s, hs, hmem⟩ := hrest acc
      refine ⟨s, hs, fun e ↦ ?_⟩
      rw [hmem, List.exists_mem_cons_iff]
      simp [he]
    · rw [if_neg he]
      obtain ⟨s, hs, hmem⟩ := hrest (acc.link (memberSlug a.1) (memberSlug a.2))
      refine ⟨s, hs, fun e ↦ ?_⟩
      rw [hmem, List.exists_mem_cons_iff, EdgeSet.mem_link]
      simp only [ne_eq, he, not_false_eq_true, true_and]
      rw [or_assoc, or_left_comm]

theorem membersFrom_str (whr : String) {ms : List String} (h : ∀ m ∈ ms, memberSlug m ∈ known)
    (acc : SortedSet String) :
    ∃ s, membersFrom T known whr (ms.map .str) acc = .ok s ∧
      ∀ x, x ∈ s ↔ x ∈ acc ∨ ∃ m ∈ ms, x = memberSlug m := by
  induction ms generalizing acc with
  | nil => exact ⟨acc, rfl, fun x ↦ by simp⟩
  | cons m ms ih =>
    have hread : membersFrom T known whr ((m :: ms).map .str) acc =
        membersFrom T known whr (ms.map .str) (acc.insert (memberSlug m)) := by
      rw [List.map_cons, membersFrom, cooperationMember_str whr (h m List.mem_cons_self)]
    obtain ⟨s, hs, hmem⟩ := ih (fun m hm ↦ h m (List.mem_cons_of_mem _ hm))
      (acc.insert (memberSlug m))
    refine ⟨s, hread.trans hs, fun x ↦ ?_⟩
    rw [hmem, SortedSet.mem_insert, List.exists_mem_cons_iff, or_assoc, or_left_comm]

/-- Two different slugs of members of one pool. -/
def SlugPair (pools : List PoolEntry) (a b : String) : Prop :=
  ∃ p ∈ pools, (∃ x ∈ p.members, a = memberSlug x) ∧ ∃ y ∈ p.members, b = memberSlug y

variable {pools : List PoolEntry}

/-- The pools read back have the slugs of the members of each for its members. -/
theorem poolsFrom_toRaw (whr : String) (h : ∀ p ∈ pools, ∀ m ∈ p.members, memberSlug m ∈ known)
    (idx : ℕ) (seen : List String) (out : List PoolEntry) :
    ∃ out', poolsFrom T known whr idx (pools.map PoolEntry.toRaw) seen out = .ok out' ∧
      ∀ a b, a ≠ b → (CoMember out' a b ↔ CoMember out a b ∨ SlugPair pools a b) := by
  induction pools generalizing idx seen out with
  | nil => exact ⟨out, rfl, fun a b _ ↦ by simp [SlugPair]⟩
  | cons p pools ih =>
    have hih := ih fun q hq ↦ h q (List.mem_cons_of_mem _ hq)
    obtain ⟨members, hmembers, hmem⟩ :=
      membersFrom_str (T := T) s!"{whr} pool #{idx}" (h p List.mem_cons_self) SortedSet.empty
    have hmem : ∀ x, x ∈ members.toList ↔ ∃ m ∈ p.members, x = memberSlug m := by
      intro x
      rw [← SortedSet.mem_def, hmem]
      simp
    have hpair : ∀ a b, SlugPair (p :: pools) a b ↔
        (a ∈ members.toList ∧ b ∈ members.toList) ∨ SlugPair pools a b := by
      intro a b
      rw [SlugPair, List.exists_mem_cons_iff, hmem, hmem]
      rfl
    have hread : poolsFrom T known whr idx ((p :: pools).map PoolEntry.toRaw) seen out =
        if members.toList.length < 2 then
          poolsFrom T known whr (idx + 1) (pools.map PoolEntry.toRaw) seen out
        else
          let pid := freshId seen (authoredPoolId T (.str p.id) members.toList)
          poolsFrom T known whr (idx + 1) (pools.map PoolEntry.toRaw) (seen ++ [pid])
            (out ++ [⟨pid, members.toList⟩]) := by
      have hraw : ∀ whr, rawMembers whr (Raw.field
          [("id", .str p.id), ("members", .list (p.members.map .str))] "members") =
          .ok (p.members.map .str) := fun _ ↦ rfl
      have hid : Raw.field [("id", .str p.id), ("members", .list (p.members.map .str))] "id" =
          .str p.id := rfl
      rw [List.map_cons, PoolEntry.toRaw, poolsFrom]
      simp only [hraw, hmembers, hid]
    rw [hread]
    split
    · next hfew =>
      -- a pool that is left with one member has no two different slugs
      obtain ⟨out', hout', hco⟩ := hih (idx + 1) seen out
      refine ⟨out', hout', fun a b hne ↦ ?_⟩
      have hnot : ¬ (a ∈ members.toList ∧ b ∈ members.toList) := by
        rintro ⟨ha, hb⟩
        exact absurd (one_lt_length_of_mem hne ha hb) (by omega)
      rw [hco a b hne, hpair, or_iff_right hnot]
    · obtain ⟨out', hout', hco⟩ := hih (idx + 1)
        (seen ++ [freshId seen (authoredPoolId T (.str p.id) members.toList)])
        (out ++ [⟨freshId seen (authoredPoolId T (.str p.id) members.toList), members.toList⟩])
      refine ⟨out', hout', fun a b hne ↦ ?_⟩
      have happ : ∀ q, CoMember (out ++ [q]) a b ↔ CoMember out a b ∨ a ∈ q.members ∧
        b ∈ q.members := by
        intro q
        simp [CoMember, or_and_right, exists_or]
      rw [hco a b hne, hpair, happ, or_assoc]

theorem EdgeSet.eq_of_edges {s t : EdgeSet} (h : ∀ e, e ∈ s.edges ↔ e ∈ t.edges) : s = t := by
  refine SortedSet.ext fun x ↦ ?_
  have hx := h (ofLex x)
  rw [EdgeSet.mem_edges, EdgeSet.mem_edges, toLex_ofLex] at hx
  exact hx

theorem SlugPair.ne {a b : String} (h : SlugPair pools a b) (hne : a ≠ b) :
    ∃ x y, CoMember pools x y ∧ x ≠ y ∧ a = memberSlug x ∧ b = memberSlug y := by
  obtain ⟨p, hp, ⟨x, hx, rfl⟩, y, hy, rfl⟩ := h
  exact ⟨x, y, ⟨p, hp, hx, hy⟩, fun he ↦ hne (congrArg memberSlug he), rfl, rfl⟩

theorem CoMember.slugPair {x y : String} (h : CoMember pools x y) :
    SlugPair pools (memberSlug x) (memberSlug y) := by
  obtain ⟨p, hp, hx, hy⟩ := h
  exact ⟨p, hp, ⟨x, hx, rfl⟩, y, hy, rfl⟩

variable {old : SortedSet String}

/-- **The pairs of the slugs of the pools are the slugs of the pairs.** -/
theorem Compiled.mem_slugEdges {edges : List (String × String)} (h : Compiled old edges pools)
    (a b : String) :
    a < b ∧ SlugPair pools a b ↔ ∃ e ∈ edges, memberSlug e.1 ≠ memberSlug e.2 ∧
      (a, b) = sortedPair (memberSlug e.1) (memberSlug e.2) := by
  constructor
  · rintro ⟨hab, hpair⟩
    obtain ⟨x, y, hco, hxy, rfl, rfl⟩ := hpair.ne hab.ne
    refine ⟨sortedPair x y, (h.coMember_iff x y hxy).mp hco, ?_⟩
    rcases lt_or_gt_of_ne hxy with hlt | hlt
    · rw [sortedPair_of_lt hlt, sortedPair_of_lt hab]
      exact ⟨hab.ne, rfl⟩
    · rw [sortedPair_comm, sortedPair_of_lt hlt, sortedPair_comm, sortedPair_of_lt hab]
      exact ⟨hab.ne', rfl⟩
  · rintro ⟨⟨x, y⟩, he, hne, heq⟩
    have hxy := (h.goodEdges _ he).1
    have hco := (h.coMember_iff x y hxy.ne).mpr (by rw [sortedPair_of_lt hxy]; exact he)
    rcases lt_or_gt_of_ne hne with hlt | hlt
    · rw [sortedPair_of_lt hlt] at heq
      obtain ⟨rfl, rfl⟩ := Prod.mk.inj heq
      exact ⟨hlt, hco.slugPair⟩
    · rw [sortedPair_comm, sortedPair_of_lt hlt] at heq
      obtain ⟨rfl, rfl⟩ := Prod.mk.inj heq
      exact ⟨hlt, hco.symm.slugPair⟩

theorem coMember_perm {pools' : List PoolEntry} (h : pools'.Perm pools) (a b : String) :
    CoMember pools' a b ↔ CoMember pools a b := by
  refine exists_congr fun p ↦ and_congr_left fun _ ↦ h.mem_iff

/-! ## Structures read back -/

theorem normalizeEdges_edgeRaw (whr : String) {es : List (String × String)}
    (h : ∀ e ∈ es, memberSlug e.1 ∈ known ∧ memberSlug e.2 ∈ known) :
    ∃ s, normalizeEdges T known (.list (es.map edgeRaw)) whr = .ok s ∧
      ∀ e, e ∈ s.edges ↔ ∃ a ∈ es, memberSlug a.1 ≠ memberSlug a.2 ∧
        e = sortedPair (memberSlug a.1) (memberSlug a.2) := by
  obtain ⟨s, hs, hmem⟩ := edgesFrom_edgeRaw (T := T) whr h 0 SortedSet.empty
  refine ⟨s, hs, fun e ↦ ?_⟩
  rw [hmem, or_iff_right EdgeSet.mem_empty]

theorem normalizePools_toRaw (whr : String) (h : ∀ p ∈ pools, ∀ m ∈ p.members, memberSlug m ∈ known)
    :
    ∃ pools', normalizePools T known (.list (pools.map PoolEntry.toRaw)) whr = .ok pools' ∧
      ∀ a b, a ≠ b → (CoMember pools' a b ↔ SlugPair pools a b) := by
  obtain ⟨out, hout, hco⟩ := poolsFrom_toRaw (T := T) whr h 0 [] []
  refine ⟨sortedBy PoolEntry.id out, ?_, fun a b hne ↦ ?_⟩
  · simp only [normalizePools, hout]
  · have hnil : ¬ CoMember [] a b := by simp [CoMember]
    rw [coMember_perm (sortedBy_perm _ _), hco a b hne, or_iff_right hnil]

/-- A persisted structure compiles, with its pools or without. -/
theorem CoopStructure.WellFormed.compileEntry_toRaw {s : CoopStructure} (h : s.WellFormed old)
    (hold : ∀ m ∈ old, memberSlug m ∈ known) (idx : ℕ) (withPools : Bool) :
    ∃ authored, compileEntry T known idx (s.toRaw withPools) = .ok authored ∧
      authored.sid = structureIdSlug T (.str s.id) s!"structure-{idx}" := by
  have hedge : ∀ e ∈ s.edges, memberSlug e.1 ∈ known ∧ memberSlug e.2 ∈ known := by
    intro e he
    obtain ⟨-, h1, h2⟩ := h.compiled.goodEdges e he
    exact ⟨hold _ h1.1, hold _ h2.1⟩
  have hpool : ∀ p ∈ s.pools, ∀ m ∈ p.members, memberSlug m ∈ known :=
    fun p hp m hm ↦ hold m (h.compiled.goodPools.member p hp m hm).1
  obtain ⟨es, hes, hmem⟩ :=
    normalizeEdges_edgeRaw (T := T) s!"cooperation structure #{idx}" hedge
  cases withPools with
  | false =>
    refine ⟨⟨es.edges, derivePoolsFromEdges es.edges,
      structureIdSlug T (.str s.id) s!"structure-{idx}"⟩, ?_, by dsimp only⟩
    show compileEdges T known (.list (s.edges.map edgeRaw)) _ _ = _
    simp only [compileEdges, hes]
    rfl
  | true =>
    obtain ⟨ps, hps, hco⟩ :=
      normalizePools_toRaw (T := T) s!"cooperation structure #{idx}" hpool
    have hagree : deriveEdgesFromPools ps = es := by
      refine EdgeSet.eq_of_edges fun e ↦ ?_
      obtain ⟨a, b⟩ := e
      rw [mem_deriveEdgesFromPools, hmem, ← h.compiled.mem_slugEdges]
      exact and_congr_right fun hab ↦ hco a b hab.ne
    refine ⟨⟨es.edges, ps, structureIdSlug T (.str s.id) s!"structure-{idx}"⟩, ?_, by dsimp only⟩
    show compilePools T known (.list (s.pools.map PoolEntry.toRaw))
      (.list (s.edges.map edgeRaw)) _ _ = _
    simp only [compilePools, hps, hes, hagree]
    rfl

/-- The slug a structure id is read back as. -/
@[irreducible] def structureSlug (sid : String) : String := slug '-' sid ""

theorem structureIdSlug_str {sid : String} (h : HasSlugChar sid) (fallback : String) :
    structureIdSlug T (.str sid) fallback = structureSlug sid := by
  have hstr : T.strOrEmpty (.str sid) = sid := by
    rw [PyText.strOrEmpty, if_pos (Raw.truthy_str.mpr h.ne_empty)]
    rfl
  rw [structureIdSlug, hstr, structureSlug, h.slug_eq (by decide), h.slug_eq (by decide)]

variable {structures : List CoopStructure}

/-- The persisted structures compile, and the slug of each of their ids is the id of one. -/
theorem structuresFrom_toRaw (hold : ∀ m ∈ old, memberSlug m ∈ known)
    (hwell : ∀ s ∈ structures, s.WellFormed old) (hids : ∀ s ∈ structures, HasSlugChar s.id)
    (withPools : CoopStructure → Bool) (idx : ℕ) (seen : List String) (out : List CoopStructure)
    (hseen : ∀ x ∈ seen, x ∈ out.map CoopStructure.id) :
    ∃ out', structuresFrom T known idx (structures.map fun s ↦ s.toRaw (withPools s)) seen out =
        .ok out' ∧ (∀ s ∈ out, s ∈ out') ∧
      ∀ s ∈ structures, structureSlug s.id ∈ out'.map CoopStructure.id := by
  induction structures generalizing idx seen out with
  | nil => exact ⟨out, rfl, fun s hs ↦ hs, nofun⟩
  | cons s structures ih =>
    obtain ⟨authored, hauthored, hsid⟩ :=
      (hwell s List.mem_cons_self).compileEntry_toRaw (T := T) hold idx (withPools s)
    obtain ⟨components, hcomponents, -⟩ :=
      componentsOf_spec (compileEntry_compiled hauthored).goodEdges.mem_known
    rw [structureIdSlug_str (hids s List.mem_cons_self)] at hsid
    have hread : structuresFrom T known idx
        ((s :: structures).map fun s ↦ s.toRaw (withPools s)) seen out =
        structuresFrom T known (idx + 1) (structures.map fun s ↦ s.toRaw (withPools s))
          (seen ++ [freshId seen authored.sid]) (out ++
            [⟨freshId seen authored.sid, authored.edges, adjacencyOf authored.edges, components,
              authored.pools⟩]) := by
      rw [List.map_cons, structuresFrom]
      simp only [hauthored, hcomponents]
    rw [hread]
    obtain ⟨out', hout', hkept, hslugs⟩ := ih
      (fun t ht ↦ hwell t (List.mem_cons_of_mem _ ht))
      (fun t ht ↦ hids t (List.mem_cons_of_mem _ ht)) (idx + 1)
      (seen ++ [freshId seen authored.sid]) (out ++
        [⟨freshId seen authored.sid, authored.edges, adjacencyOf authored.edges, components,
          authored.pools⟩]) (by
        intro x hx
        rw [List.map_append]
        rcases List.mem_append.mp hx with hx | hx
        · exact List.mem_append_left _ (hseen x hx)
        · exact List.mem_append_right _ hx)
    have hmem : ∀ t ∈ out, t ∈ out' := fun t ht ↦ hkept t (List.mem_append_left _ ht)
    refine ⟨out', hout', hmem, fun t ht ↦ ?_⟩
    rcases List.mem_cons.mp ht with rfl | ht
    · rcases mem_or_freshId_eq seen authored.sid with hold' | hfresh
      · obtain ⟨u, hu, he⟩ := List.mem_map.mp (hseen _ hold')
        rw [← hsid, ← he]
        exact List.mem_map_of_mem (hmem u hu)
      · rw [← hsid, ← hfresh]
        exact List.mem_map_of_mem (hkept _ (List.mem_append_right _ (List.mem_singleton_self _)))
    · exact hslugs t ht

/-! ## The block read back -/

theorem hasSlugChar_structure (idx : ℕ) : HasSlugChar s!"structure-{idx}" := by
  have hlead : HasSlugChar "structure-" := ⟨'s', by decide, by decide⟩
  exact hlead.append _

variable {authored : AuthoredStructure}

theorem compileEdges_sid {rawEdges : Raw} {whr sid : String}
    (h : compileEdges T known rawEdges whr sid = .ok authored) : authored.sid = sid := by
  rw [compileEdges] at h
  split at h
  · cases h
  · cases h
    rfl

theorem compilePools_sid {rawPools rawEdges : Raw} {whr sid : String}
    (h : compilePools T known rawPools rawEdges whr sid = .ok authored) : authored.sid = sid := by
  rw [compilePools] at h
  split at h
  · cases h
  · dsimp only at h
    split at h
    · cases h
      rfl
    · split at h
      · cases h
      · split at h
        · cases h
          rfl
        · cases h

theorem compileEntry_hasSlugChar {idx : ℕ} {entry : Raw}
    (h : compileEntry T known idx entry = .ok authored) : HasSlugChar authored.sid := by
  cases entry with
  | dict fields =>
    have hsid : HasSlugChar (structureIdSlug T (Raw.field fields "id") s!"structure-{idx}") := by
      exact hasSlugChar_slug (hasSlugChar_structure idx)
    rw [compileEntry] at h
    split at h
    · rw [compileEdges_sid h]
      exact hsid
    · rw [compilePools_sid h]
      exact hsid
  | list pairs =>
    rw [compileEdges_sid h]
    exact hasSlugChar_structure idx
  | null | bool | int | float | str => cases h

theorem structuresFrom_hasSlugChar {idx : ℕ} {entries : List Raw} {seen : List String}
    {out : List CoopStructure} (hout : ∀ s ∈ out, HasSlugChar s.id)
    (h : structuresFrom T known idx entries seen out = .ok structures) :
    ∀ s ∈ structures, HasSlugChar s.id := by
  induction entries generalizing idx seen out with
  | nil => exact Except.ok.inj h ▸ hout
  | cons entry rest ih =>
    rw [structuresFrom] at h
    split at h
    · cases h
    · next authored ha =>
      split at h
      · cases h
      · refine ih (fun s hs ↦ ?_) h
        rcases List.mem_append.mp hs with hs | hs
        · exact hout s hs
        · rw [List.mem_singleton.mp hs]
          exact (compileEntry_hasSlugChar ha).freshId seen

/-- The structures of a block are those declared, possibly with one more. -/
theorem withBaseline_spec {declared : List CoopStructure}
    (h : withBaseline known declared = .ok structures) :
    (∀ s ∈ declared, s ∈ structures) ∧ structures ≠ [] ∧
      ∀ s ∈ structures, s ∈ declared ∨ HasSlugChar s.id := by
  rw [withBaseline] at h
  split at h
  · next hany =>
    cases h
    refine ⟨fun s hs ↦ hs, ?_, fun s hs ↦ Or.inl hs⟩
    rintro rfl
    cases hany
  · split at h
    · cases h
    · cases h
      refine ⟨fun s hs ↦ List.mem_cons_of_mem _ hs, List.cons_ne_nil _ _, fun s hs ↦ ?_⟩
      rcases List.mem_cons.mp hs with rfl | hs
      · right
        dsimp only
        split
        · exact ⟨'b', by decide, by decide⟩
        · exact ⟨'n', by decide, by decide⟩
      · exact Or.inl hs

theorem withBaseline_isOk (known : SortedSet String) (declared : List CoopStructure) :
    ∃ structures, withBaseline known declared = .ok structures := by
  have hnil : ∀ e ∈ ([] : List (String × String)), e.1 ∈ known.toList ∧ e.2 ∈ known.toList := by
    simp
  obtain ⟨components, hcomponents, -⟩ := componentsOf_spec hnil
  rw [withBaseline, hcomponents]
  split
  · exact ⟨_, rfl⟩
  · exact ⟨_, rfl⟩

theorem activeId_mem {activeRaw : Raw} {declared : List CoopStructure} {active : String}
    (hsub : ∀ s ∈ declared, s ∈ structures) (hne : structures ≠ [])
    (h : activeId T activeRaw declared structures = .ok active) :
    active ∈ structures.map CoopStructure.id := by
  have hwanted : ∀ (e : CooperationError) (wanted : String),
      (if wanted ∈ structures.map CoopStructure.id then Except.ok wanted else Except.error e) =
        Except.ok active → active ∈ structures.map CoopStructure.id := by
    intro e wanted h
    split at h
    · next hmem =>
      cases h
      exact hmem
    · cases h
  cases activeRaw with
  | null =>
    obtain ⟨s, rest, hs⟩ := List.exists_cons_of_ne_nil
      (List.append_ne_nil_of_right_ne_nil declared hne)
    have hmem : s ∈ declared ++ structures := hs ▸ List.mem_cons_self
    rw [activeId, hs] at h
    cases h
    refine List.mem_map_of_mem ?_
    exact (List.mem_append.mp hmem).elim (hsub s) id
  | bool b => cases h
  | int n =>
    rw [activeId] at h
    split at h
    · next s hs =>
      cases h
      split at hs
      · exact List.mem_map_of_mem (hsub s (List.mem_of_getElem? hs))
      · cases hs
    · cases h
  | float | str | list | dict => exact hwanted _ _ h

/-- What a compiled block is: well-formed structures with readable ids, one of them active. -/
theorem normalizeCooperation_settled {raw : Raw} {haulierIds : List String} {coop : Cooperation}
    (h : normalizeCooperation T raw haulierIds = .ok coop) :
    (∀ s ∈ coop.structures, HasSlugChar s.id) ∧
      coop.active ∈ coop.structures.map CoopStructure.id := by
  obtain ⟨entries, activeRaw, declared, -, hdeclared, hstructures, hactive⟩ :=
    normalizeCooperation_eq_ok h
  obtain ⟨hsub, hne, hids⟩ := withBaseline_spec hstructures
  have hreadable := structuresFrom_hasSlugChar (by simp) hdeclared
  exact ⟨fun s hs ↦ (hids s hs).elim (hreadable s) id, activeId_mem hsub hne hactive⟩

/-- **A persisted block is accepted again**, also when the ids of its hauliers were replaced by
their slugs, and whichever structures it has the pools of. -/
theorem normalizeCooperation_toRaw {raw : Raw} {haulierIds slugIds : List String}
    {coop : Cooperation} (h : normalizeCooperation T raw haulierIds = .ok coop)
    (hslugs : ∀ m ∈ haulierIds, memberSlug m ∈ slugIds) (hne : slugIds ≠ [])
    (authoredPoolIds : List String) :
    ∃ coop', normalizeCooperation T (coop.toRaw authoredPoolIds) slugIds = .ok coop' := by
  obtain ⟨hids, hactive⟩ := normalizeCooperation_settled h
  have hold : ∀ m ∈ SortedSet.ofList haulierIds, memberSlug m ∈ SortedSet.ofList slugIds :=
    fun m hm ↦ SortedSet.mem_ofList.mpr (hslugs m (SortedSet.mem_ofList.mp hm))
  obtain ⟨declared, hdeclared, -, hslug⟩ := structuresFrom_toRaw (T := T) hold
    (normalizeCooperation_wellFormed h) hids (fun s ↦ s.id ∈ authoredPoolIds) 0 [] [] (by simp)
  obtain ⟨structures, hstructures⟩ := withBaseline_isOk (SortedSet.ofList slugIds) declared
  obtain ⟨hsub, -, -⟩ := withBaseline_spec hstructures
  have hwanted : structureSlug coop.active ∈ structures.map CoopStructure.id := by
    obtain ⟨s, hs, he⟩ := List.mem_map.mp hactive
    obtain ⟨t, ht, he'⟩ := List.mem_map.mp (hslug s hs)
    rw [← he, ← he']
    exact List.mem_map_of_mem (hsub t ht)
  have hactiveSlug : HasSlugChar coop.active := by
    obtain ⟨s, hs, he⟩ := List.mem_map.mp hactive
    exact he ▸ hids s hs
  have hactiveId : activeId T (.str coop.active) declared structures =
      .ok (structureSlug coop.active) := by
    unfold activeId
    dsimp only
    rw [structureIdSlug_str hactiveSlug, if_pos hwanted]
  refine ⟨⟨structureSlug coop.active, structures⟩, ?_⟩
  have hempty : ¬ slugIds.isEmpty = true := by
    rw [List.isEmpty_iff]
    exact hne
  have hauthored : authoredStructures (coop.toRaw authoredPoolIds) =
      .ok (coop.structures.map fun s ↦ s.toRaw (s.id ∈ authoredPoolIds), .str coop.active) := rfl
  rw [normalizeCooperation, if_neg hempty]
  rw [hauthored]
  simp only [hdeclared, hstructures, hactiveId]

end

end OpenRide.Datagen
