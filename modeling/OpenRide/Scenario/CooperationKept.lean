import OpenRide.Datagen.CooperationPairs
import OpenRide.Scenario.PoolCarry

/-!
# Cooperation across a save

The block that is compiled after a save is the incoming one with pools handed on.  Its entries have
the ids of the incoming ones (`assignedIds_carried`), and pools that were handed on compile to what
they compiled to before (`normalizePools_again`).  So if the id of a structure is given to it in
both blocks, the structure compiled under that id is the one the client sent back, and what the
guard saw of that one decides whether it still cooperates.
-/

namespace OpenRide.Scenario

open Lib Datagen

section

variable {T : PyText}

/-! ## Pools that are handed on -/

theorem namedHaulier_eq_slug (v : Raw) : namedHaulier T v = slug '_' (T.strOrEmpty v) "" := rfl

theorem namedHaulier_strOf {v : Raw} (h : namedHaulier T v ≠ "") :
    namedHaulier T (.str (T.strOf v)) = namedHaulier T v := by
  rw [namedHaulier_eq_slug, namedHaulier_eq_slug, strOrEmpty_str, PyText.strOrEmpty]
  split
  · rfl
  · next hfalsy =>
    rw [namedHaulier_eq_slug, PyText.strOrEmpty, if_neg hfalsy] at h
    exact absurd (by decide +kernel) h

theorem authoredPoolId_str (v : Raw) (members : List String) :
    authoredPoolId T (.str (T.strOrEmpty v)) members = authoredPoolId T v members := by
  have hslug : authoredPoolId T (.str (T.strOrEmpty v)) members =
      slug '-' (T.strOrEmpty v) (derivedPoolId members) := by
    rw [authoredPoolId, poolIdSlug, strOrEmpty_str]
    exact Raw.noConfusion
  rw [hslug]
  cases v with
  | null =>
    have hnone : T.strOrEmpty .null = "" := rfl
    rw [authoredPoolId, hnone, slug]
    exact if_pos (by decide +kernel)
  | _ => rfl

variable {whr : String}

/-- What iterating over the members of a pool that was read yields. -/
theorem recordList_members {v : Raw} {ms : List Raw} (h : rawMembers whr v = .ok ms) :
    recordList (v.orElse (.list [])) = .ok ms := by
  rcases rawMembers_eq_ok h with ⟨rfl, rfl⟩ | rfl
  · rfl
  · rw [Raw.orElse]
    split
    · rfl
    · next hempty =>
      rw [Raw.truthy, Bool.not_eq_true, Bool.not_eq_false', List.isEmpty_iff] at hempty
      rw [hempty]
      rfl

variable {known known' : SortedSet String}

variable {whr' : String}

/-- The members of a pool that was handed on are the members it had. -/
theorem membersFrom_strOf {ms : List Raw} {s s' : SortedSet String} (hempty : "" ∉ known)
    (h : membersFrom T known whr ms SortedSet.empty = .ok s)
    (h' : membersFrom T known' whr' (ms.map fun m ↦ .str (T.strOf m)) SortedSet.empty = .ok s') :
    s' = s := by
  obtain ⟨hmem, hknown⟩ := mem_of_membersFrom h
  obtain ⟨hmem', -⟩ := mem_of_membersFrom h'
  have hsame : ∀ m ∈ ms, namedHaulier T (.str (T.strOf m)) = namedHaulier T m := fun m hm ↦
    namedHaulier_strOf fun he ↦ hempty (he ▸ hknown m hm)
  refine SortedSet.ext fun x ↦ ?_
  rw [hmem, hmem']
  simp only [List.mem_map, exists_exists_and_eq_and]
  refine or_congr_right (exists_congr fun m ↦ and_congr_right fun hm ↦ ?_)
  rw [hsame m hm]

variable {written : List Raw}

/-- **Pools that are handed on compile to what they compiled to before.** -/
theorem poolsFrom_again {idx idx' : ℕ} {carried : List Raw} {seen : List String}
    {out r r' : List PoolEntry} (hempty : "" ∉ known)
    (h : poolsFrom T known whr idx written seen out = .ok r)
    (hcarried : each (authoredPool T) (written.filterMap dictOf?) = .ok carried)
    (h' : poolsFrom T known' whr' idx' carried seen out = .ok r') : r' = r := by
  induction written generalizing idx idx' seen out carried with
  | nil =>
    cases hcarried
    exact (Except.ok.inj h').symm.trans (Except.ok.inj h)
  | cons entry rest ih =>
    cases entry with
    | dict fields =>
      obtain ⟨pool, hpool, hcarried⟩ := bind_eq_ok.mp hcarried
      obtain ⟨later, hlater, hcarried⟩ := bind_eq_ok.mp hcarried
      cases hcarried
      rw [poolsFrom] at h
      split at h
      · cases h
      · next ms hms =>
        rw [authoredPool, recordList_members hms, ok_bind] at hpool
        cases hpool
        split at h
        · cases h
        · next members hmembers =>
          have hfield : Raw.field [("id", Raw.str (T.strOrEmpty (Raw.field fields "id"))),
              ("members", .list (ms.map fun m ↦ .str (T.strOf m)))] "members" =
              .list (ms.map fun m ↦ .str (T.strOf m)) := rfl
          have hid : Raw.field [("id", Raw.str (T.strOrEmpty (Raw.field fields "id"))),
              ("members", .list (ms.map fun m ↦ .str (T.strOf m)))] "id" =
              .str (T.strOrEmpty (Raw.field fields "id")) := rfl
          rw [poolsFrom, hfield, hid] at h'
          dsimp only [rawMembers] at h'
          split at h'
          · cases h'
          · next members' hmembers' =>
            obtain rfl := membersFrom_strOf hempty hmembers hmembers'
            rw [authoredPoolId_str] at h'
            split at h
            · next hfew =>
              rw [if_pos hfew] at h'
              exact ih h hlater h'
            · next hfew =>
              rw [if_neg hfew] at h'
              exact ih h hlater h'
    | _ => cases h

theorem normalizePools_again {carried : List Raw} {pools pools' : List PoolEntry}
    (hempty : "" ∉ known) (h : normalizePools T known (.list written) whr = .ok pools)
    (hcarried : each (authoredPool T) (written.filterMap dictOf?) = .ok carried)
    (h' : normalizePools T known' (.list carried) whr' = .ok pools') : pools' = pools := by
  rw [normalizePools] at h h'
  split at h
  · cases h
  · next out hout =>
    split at h'
    · cases h'
    · next out' hout' =>
      rw [← Except.ok.inj h, ← Except.ok.inj h', poolsFrom_again hempty hout hcarried hout']

/-! ## The entries of a carried block -/

/-- The entries of a cooperation block that is an object. -/
def structureEntries (block : Raw) : List Raw :=
  match block with
  | .dict fields =>
    match Raw.field fields "structures" with
    | .list entries => entries
    | _ => []
  | _ => []

theorem cooperationStructures_eq (block : Raw) :
    cooperationStructures block = (structureEntries block).filterMap dictOf? := by
  cases block with
  | dict fields =>
    unfold cooperationStructures structureEntries
    dsimp only
    cases Raw.field fields "structures" <;> rfl
  | _ => rfl

variable {fields : List (String × Raw)}

theorem mem_cooperationStructures_iff {block : Raw} :
    fields ∈ cooperationStructures block ↔
      ∃ i : ℕ, (structureEntries block)[i]? = some (Raw.dict fields) := by
  rw [cooperationStructures_eq, mem_filterMap_dictOf?, List.mem_iff_getElem?]

/-- The entries of an object are what is compiled of it. -/
theorem authoredStructures_of_entries {block : Raw} {i : ℕ} {entry : Raw}
    (h : (structureEntries block)[i]? = some entry) :
    ∃ activeRaw, authoredStructures block = .ok (structureEntries block, activeRaw) := by
  cases block with
  | dict fields =>
    cases fields with
    | nil => simp [structureEntries, Raw.field, Dict.lookupIn] at h
    | cons p fields =>
      unfold structureEntries at h ⊢
      unfold authoredStructures
      dsimp only at h ⊢
      split at h
      · next entries hentries =>
        rw [hentries]
        exact ⟨_, rfl⟩
      · simp at h
  | _ => simp [structureEntries] at h

theorem structureEntries_carried {incoming previous block : Raw}
    (h : carryAuthoredPools T incoming previous = .ok block) :
    ∃ prevPools, prevPoolsFrom T (cooperationStructures previous) Dict.empty = .ok prevPools ∧
      structureEntries block = (structureEntries incoming).map (carryEntry T prevPools) := by
  obtain ⟨prevPools, hprev, h⟩ := bind_eq_ok.mp h
  refine ⟨prevPools, hprev, ?_⟩
  cases incoming with
  | dict fields =>
    dsimp only at h
    split at h
    · next entries hentries =>
      cases h
      simp only [structureEntries, hentries, Raw.field_setIn_self]
    · next hnone =>
      cases h
      unfold structureEntries
      dsimp only
      split
      · next entries hentries => exact absurd hentries (hnone entries)
      · rfl
  | _ =>
    cases h
    rfl

theorem askedId_carryEntry (prevPools : Dict String (List Raw)) (idx : ℕ) (entry : Raw) :
    askedId T idx (carryEntry T prevPools entry) = askedId T idx entry := by
  cases hdict : dictOf? entry with
  | none => rw [carryEntry_of_not_dict prevPools hdict]
  | some fields =>
    obtain rfl := dictOf?_eq_some.mp hdict
    rcases carryEntry_dict (T := T) prevPools fields with hsame | ⟨-, pools, -, hset⟩
    · rw [hsame]
    · rw [hset]
      unfold askedId
      dsimp only
      rw [Raw.field_setIn_ne _ _ (by decide)]

theorem assignedIds_carried (prevPools : Dict String (List Raw)) (entries : List Raw) :
    assignedIds T (entries.map (carryEntry T prevPools)) = assignedIds T entries := by
  suffices h : ∀ idx seen, assignedIdsFrom T idx (entries.map (carryEntry T prevPools)) seen =
      assignedIdsFrom T idx entries seen from h 0 []
  induction entries with
  | nil => exact fun _ _ ↦ rfl
  | cons entry rest ih =>
    intro idx seen
    rw [List.map_cons, assignedIdsFrom, assignedIdsFrom, askedId_carryEntry, ih]

/-! ## One structure across a save -/

/-- Every entry of a block with this id is given the slug of it: the id is not told apart from that
of another entry. -/
def KeepsOwnId (T : PyText) (block : Raw) (sid : String) : Prop :=
  ∀ (i : ℕ) fields, (structureEntries block)[i]? = some (Raw.dict fields) →
    structureId T fields = sid →
    (assignedIds T (structureEntries block))[i]? = some (structureSlug sid)

/-- An id that is kept is the id of one entry. -/
theorem KeepsOwnId.unique {block : Raw} {sid : String} (h : KeepsOwnId T block sid)
    {f g : List (String × Raw)} (hf : f ∈ cooperationStructures block)
    (hg : g ∈ cooperationStructures block) (hfid : structureId T f = sid)
    (hgid : structureId T g = sid) : f = g := by
  obtain ⟨i, hi⟩ := mem_cooperationStructures_iff.mp hf
  obtain ⟨j, hj⟩ := mem_cooperationStructures_iff.mp hg
  obtain ⟨hilt, hi'⟩ := List.getElem?_eq_some_iff.mp (h i f hi hfid)
  obtain ⟨hjlt, hj'⟩ := List.getElem?_eq_some_iff.mp (h j g hj hgid)
  obtain rfl := (nodup_assignedIds _).getElem_inj_iff.mp (hi'.trans hj'.symm)
  exact Raw.dict.inj (Option.some.inj (hi.symm.trans hj))

/-- The pools that are handed on under an id are those of its only structure. -/
theorem get?_prevPools {saved previous : Raw} {sid : String} (hown : KeepsOwnId T saved sid)
    (hsub : ∀ f ∈ cooperationStructures previous, f ∈ cooperationStructures saved)
    {prevPools : Dict String (List Raw)}
    (hprev : prevPoolsFrom T (cooperationStructures previous) Dict.empty = .ok prevPools)
    (hmem : fields ∈ cooperationStructures previous) (hid : structureId T fields = sid)
    (hne : sid ≠ "") (hwritten : Raw.field fields "pools" = .list written) :
    ∃ carried, prevPools.get? sid = some carried ∧
      each (authoredPool T) (written.filterMap dictOf?) = .ok carried := by
  have hsome := isSome_of_prevPoolsFrom hprev hne (Or.inr ⟨fields, hmem, hid, written, hwritten⟩)
  obtain ⟨carried, hcarried⟩ := Option.isSome_iff_exists.mp hsome
  rcases exists_of_prevPoolsFrom hprev hcarried with hempty | ⟨f, hf, hfid, hfpools⟩
  · cases hempty
  · obtain rfl := hown.unique (hsub f hf) (hsub fields hmem) hfid hid
    obtain ⟨written', hwritten', heach⟩ := authoredPools_eq_some hfpools
    obtain rfl := Raw.list.inj (hwritten'.symm.trans hwritten)
    exact ⟨carried, hcarried, heach⟩

/-- An entry that compiles with pools has those pools normalised, and the edges of these. -/
theorem compileEntry_of_pools {idx : ℕ} {authored : AuthoredStructure}
    (h : compileEntry T known idx (.dict fields) = .ok authored)
    (hwritten : Raw.field fields "pools" = .list written) :
    (∃ whr, normalizePools T known (.list written) whr = .ok authored.pools) ∧
      authored.edges = (deriveEdgesFromPools authored.pools).edges := by
  rw [compileEntry] at h
  rw [hwritten] at h
  obtain ⟨hpools, hedges, -⟩ := compilePools_eq_ok h
  exact ⟨⟨_, hpools⟩, hedges⟩

section

variable {saved incoming previous block : Raw} {ids ids' : List String}
  {before after : Cooperation}

/-- **The structure of an id across a save.**  Under an id that both blocks keep, the structure is
compiled again: with an edge if the client names two hauliers for it, and with the pools it had if
the client sends none. -/
theorem structure_across_save (hempty : "" ∉ ids)
    (hbefore : normalizeCooperation T saved ids = .ok before)
    (hafter : normalizeCooperation T block ids' = .ok after)
    (hcarry : carryAuthoredPools T incoming previous = .ok block)
    (hsub : ∀ f ∈ cooperationStructures previous, f ∈ cooperationStructures saved)
    {sid : String} (hne : sid ≠ "") (hown : KeepsOwnId T saved sid)
    (hown' : KeepsOwnId T incoming sid) {i j : ℕ} {fields f : List (String × Raw)}
    {s : CoopStructure} (hi : (structureEntries saved)[i]? = some (.dict fields))
    (hid : structureId T fields = sid) (hs : structureOf before (structureEntries saved) i = some s)
    (hmem : fields ∈ cooperationStructures previous)
    (hj : (structureEntries incoming)[j]? = some (.dict f)) (hfid : structureId T f = sid) :
    ∃ t, structureOf after (structureEntries incoming) j = some t ∧ t ∈ after.structures ∧
      t.id = s.id ∧ (NamesTwo T f → t.edges ≠ []) ∧
      (Raw.field f "pools" = .null → ∀ written, Raw.field fields "pools" = .list written →
        t.pools = s.pools ∧ t.edges = s.edges) := by
  obtain ⟨prevPools, hprev, hentries⟩ := structureEntries_carried hcarry
  obtain ⟨_, hauth⟩ := authoredStructures_of_entries hi
  obtain ⟨s', authored, hs', -, hcompiled, hedges, hpools, hsid⟩ :=
    exists_structureOf hbefore hauth hi
  obtain rfl := Option.some.inj (hs'.symm.trans hs)
  have hj' : (structureEntries block)[j]? = some (carryEntry T prevPools (.dict f)) := by
    rw [hentries, List.getElem?_map, hj]
    rfl
  obtain ⟨_, hauth'⟩ := authoredStructures_of_entries hj'
  obtain ⟨t, authored', ht, htmem, hcompiled', hedges', hpools', htid⟩ :=
    exists_structureOf hafter hauth' hj'
  have hlength : structureOf after (structureEntries incoming) j =
      structureOf after (structureEntries block) j := by
    rw [structureOf, structureOf, hentries, List.length_map]
  refine ⟨t, hlength.trans ht, htmem, ?_, fun hnames ↦ ?_, fun hnull written hwritten ↦ ?_⟩
  · rw [hentries, assignedIds_carried, hown' j f hj hfid] at htid
    rw [hown i fields hi hid] at hsid
    exact (Option.some.inj htid).symm.trans (Option.some.inj hsid)
  · rw [hedges']
    rcases carryEntry_dict (T := T) prevPools f with hsame | ⟨hnull, pools, -, hset⟩
    · rw [hsame] at hcompiled'
      exact ne_nil_of_namesTwo hcompiled' hnames
    · rw [hset] at hcompiled'
      refine ne_nil_of_namesTwo hcompiled' ?_
      rcases hnames with ⟨entries, x, y, hraw, hxy⟩ | ⟨pools', p, ms, x, y, hraw, -⟩
      · exact Or.inl ⟨entries, x, y, by rw [Raw.field_setIn_ne _ _ (by decide), hraw], hxy⟩
      · rw [hnull] at hraw
        cases hraw
  · obtain ⟨carried, hget, heach⟩ := get?_prevPools hown hsub hprev hmem hid hne hwritten
    rw [← hfid] at hget
    rw [carryEntry_of_get? hnull hget] at hcompiled'
    obtain ⟨⟨whr, hnorm⟩, hderived⟩ := compileEntry_of_pools hcompiled hwritten
    obtain ⟨⟨whr', hnorm'⟩, hderived'⟩ :=
      compileEntry_of_pools hcompiled' (Raw.field_setIn_self _ _ _)
    have hknown : "" ∉ SortedSet.ofList ids := fun h ↦ hempty (SortedSet.mem_ofList.mp h)
    have hsame := normalizePools_again hknown hnorm heach hnorm'
    rw [hpools, hpools', hedges, hedges', hderived, hderived', hsame]
    exact ⟨rfl, rfl⟩

end

/-! ## A block that is sent back -/

theorem carryEntry_empty (entry : Raw) : carryEntry T Dict.empty entry = entry := by
  cases entry with
  | dict fields =>
    rcases carryEntry_dict (T := T) Dict.empty fields with hsame | ⟨-, pools, hget, -⟩
    · exact hsame
    · cases hget
  | _ => rfl

/-- What is compiled of a carried block, in every form a block may have. -/
theorem authoredStructures_carried {incoming previous block activeRaw : Raw} {entries : List Raw}
    (h : carryAuthoredPools T incoming previous = .ok block)
    (hentries : authoredStructures incoming = .ok (entries, activeRaw)) :
    ∃ prevPools, authoredStructures block =
      .ok (entries.map (carryEntry T prevPools), activeRaw) := by
  obtain ⟨prevPools, -, ⟨fields, written, rfl, hwritten, rfl⟩ | ⟨rfl, -⟩⟩ :=
    carryAuthoredPools_eq_ok h
  · refine ⟨prevPools, ?_⟩
    have hset : Raw.field (Dict.setIn "structures"
        (.list (written.map (carryEntry T prevPools))) fields) "structures" =
        .list (written.map (carryEntry T prevPools)) := Raw.field_setIn_self _ _ _
    have hactive : Raw.field (Dict.setIn "structures"
        (.list (written.map (carryEntry T prevPools))) fields) "active" =
        Raw.field fields "active" := Raw.field_setIn_ne _ _ (by decide)
    obtain ⟨p, rest, hfields⟩ : ∃ p rest, Dict.setIn "structures"
        (.list (written.map (carryEntry T prevPools))) fields = p :: rest := by
      cases fields with
      | nil => cases hwritten
      | cons p rest => exact List.exists_cons_of_ne_nil (by rw [Dict.setIn]; split <;> simp)
    cases fields with
    | nil => cases hwritten
    | cons q fields =>
      unfold authoredStructures at hentries ⊢
      rw [hfields] at hset hactive ⊢
      dsimp only at hentries ⊢
      rw [hwritten] at hentries
      obtain ⟨rfl, rfl⟩ := Prod.mk.inj (Except.ok.inj hentries)
      rw [hset, hactive]
  · refine ⟨Dict.empty, ?_⟩
    rw [hentries, (List.map_congr_left fun e _ ↦ carryEntry_empty e).trans (List.map_id entries)]

/-- An entry with edges, with pools handed on to it, keeps its edges or does not compile. -/
theorem compileEntry_carried {idx : ℕ} {entry : Raw} {authored authored' : AuthoredStructure}
    (prevPools : Dict String (List Raw)) (h : compileEntry T known idx entry = .ok authored)
    (h' : compileEntry T known' idx (carryEntry T prevPools entry) = .ok authored')
    (hedges : authored.edges ≠ []) : authored'.edges = authored.edges := by
  cases entry with
  | dict fields =>
    rcases carryEntry_dict (T := T) prevPools fields with hsame | ⟨hnull, pools, -, hset⟩
    · rw [hsame] at h'
      exact compileEntry_known h h'
    · rw [hset] at h'
      rw [compileEntry, hnull] at h
      dsimp only at h
      rw [compileEdges] at h
      split at h
      · cases h
      · next s hs =>
        cases h
        have hsome : Raw.field fields "edges" ≠ .null := by
          intro hnone
          rw [hnone] at hs
          exact hedges (by rw [← Except.ok.inj hs]; rfl)
        rw [compileEntry, Raw.field_setIn_self, Raw.field_setIn_ne _ _ (by decide),
          Raw.field_setIn_ne _ _ (by decide)] at h'
        obtain ⟨-, -, hagree⟩ := compilePools_eq_ok h'
        obtain ⟨s', hs', hsame⟩ := hagree hsome
        rw [hsame, normalizeEdges_known hs hs']
  | _ => exact compileEntry_known h h'

/-- **A block that is sent back keeps every structure that cooperates**, with its id and its
edges. -/
theorem cooperating_of_same {saved previous block : Raw} {ids ids' : List String}
    {before after : Cooperation} (hbefore : normalizeCooperation T saved ids = .ok before)
    (hafter : normalizeCooperation T block ids' = .ok after)
    (hcarry : carryAuthoredPools T saved previous = .ok block) {s : CoopStructure}
    (hs : s ∈ before.structures) (hedges : s.edges ≠ []) :
    ∃ t ∈ after.structures, t.id = s.id ∧ t.edges = s.edges := by
  obtain ⟨entries, activeRaw, i, entry, hentries, hi, hof⟩ :=
    exists_entry_of_edges hbefore hs hedges
  obtain ⟨s', authored, hs', -, hcompiled, hsedges, -, hsid⟩ :=
    exists_structureOf hbefore hentries hi
  obtain rfl := Option.some.inj (hs'.symm.trans hof)
  obtain ⟨prevPools, hentries'⟩ := authoredStructures_carried hcarry hentries
  have hi' : (entries.map (carryEntry T prevPools))[i]? = some (carryEntry T prevPools entry) := by
    rw [List.getElem?_map, hi]
    rfl
  obtain ⟨t, authored', -, htmem, hcompiled', htedges, -, htid⟩ :=
    exists_structureOf hafter hentries' hi'
  rw [assignedIds_carried, hsid] at htid
  refine ⟨t, htmem, (Option.some.inj htid).symm, ?_⟩
  rw [hsedges] at hedges ⊢
  rw [htedges, compileEntry_carried prevPools hcompiled hcompiled' hedges]

end

end OpenRide.Scenario
