import OpenRide.Datagen.Cooperation

/-!
# The representations of a structure agree

Whichever form a structure was authored in, the edges and the pools compiled from it say the same:
two different hauliers are in some pool together just when the pair of them is an edge
(`Compiled.coMember_iff`).  From pools to edges this is a matter of taking all pairs; from edges to
pools it rests on ids, since the pools of two edges are told apart by their ids alone, and those
are joined from members in which no `+` occurs.

Partners and components are functions of the edges, and `GoodEdges.mem_partnersIn` and
`componentsOf_spec` say which.
-/

namespace OpenRide.Datagen

open Lib

/-! ## Members -/

/-- A haulier a structure may name: a known one, whose id can be part of a derived pool id. -/
def IsMember (known : SortedSet String) (a : String) : Prop := a ∈ known ∧ '+' ∉ a.toList

variable {T : PyText} {known : SortedSet String} {whr a : String}

theorem cooperationMember_isMember {value : Raw} (h : cooperationMember T known whr value = .ok a) :
    IsMember known a := by
  rw [cooperationMember] at h
  split at h
  · next hk =>
    obtain rfl := Except.ok.inj h
    exact ⟨hk, plus_notMem_haulierSlug T value⟩
  · cases h

/-! ## Edges -/

/-- The edge between two hauliers, whichever comes first. -/
def sortedPair (a b : String) : String × String := (min a b, max a b)

theorem sortedPair_comm (a b : String) : sortedPair a b = sortedPair b a := by
  rw [sortedPair, sortedPair, min_comm, max_comm]

variable {b : String}

theorem sortedPair_of_lt (h : a < b) : sortedPair a b = (a, b) := by
  rw [sortedPair, min_eq_left h.le, max_eq_right h.le]

variable {x : String}

theorem sortedPair_eq_iff {y : String} (hxy : x < y) :
    sortedPair a b = (x, y) ↔ a = x ∧ b = y ∨ a = y ∧ b = x := by
  rw [sortedPair, Prod.mk.injEq]
  rcases le_total a b with hab | hab
  · rw [min_eq_left hab, max_eq_right hab]
    refine ⟨Or.inl, fun h ↦ h.resolve_right ?_⟩
    rintro ⟨rfl, rfl⟩
    exact absurd hxy (not_lt.mpr hab)
  · rw [min_eq_right hab, max_eq_left hab]
    refine ⟨fun h ↦ Or.inr h.symm, fun h ↦ (h.resolve_left ?_).symm⟩
    rintro ⟨rfl, rfl⟩
    exact absurd hxy (not_lt.mpr hab)

variable {s : EdgeSet} {e : String × String}

theorem EdgeSet.mem_edges : e ∈ s.edges ↔ toLex e ∈ s := by
  rw [EdgeSet.edges, List.mem_map, SortedSet.mem_def]
  constructor
  · rintro ⟨x, hx, rfl⟩
    exact hx
  · exact fun h ↦ ⟨toLex e, h, rfl⟩

theorem EdgeSet.mem_link : e ∈ (s.link a b).edges ↔ e = sortedPair a b ∨ e ∈ s.edges := by
  rw [mem_edges, mem_edges, EdgeSet.link, SortedSet.mem_insert, sortedPair]
  exact Iff.rfl

theorem EdgeSet.mem_empty : ¬ e ∈ EdgeSet.edges (SortedSet.empty : EdgeSet) := by
  rw [mem_edges]
  exact SortedSet.notMem_empty _

/-- Every edge joins two different members, the smaller id first. -/
def GoodEdges (known : SortedSet String) (es : List (String × String)) : Prop :=
  ∀ e ∈ es, e.1 < e.2 ∧ IsMember known e.1 ∧ IsMember known e.2

theorem GoodEdges.link (hs : GoodEdges known s.edges) (hne : a ≠ b) (ha : IsMember known a)
    (hb : IsMember known b) : GoodEdges known (s.link a b).edges := by
  intro e he
  rcases EdgeSet.mem_link.mp he with rfl | he
  · rcases lt_or_gt_of_ne hne with hlt | hlt
    · rw [sortedPair_of_lt hlt]
      exact ⟨hlt, ha, hb⟩
    · rw [sortedPair_comm, sortedPair_of_lt hlt]
      exact ⟨hlt, hb, ha⟩
  · exact hs e he

variable {idx : ℕ} {entries : List Raw}

theorem edgesFrom_good {acc : EdgeSet} (hacc : GoodEdges known acc.edges)
    (h : edgesFrom T known whr idx entries acc = .ok s) : GoodEdges known s.edges := by
  induction entries generalizing idx acc with
  | nil => exact Except.ok.inj h ▸ hacc
  | cons entry rest ih =>
    rw [edgesFrom] at h
    split at h
    · cases h
    · split at h
      · cases h
      · next a ha =>
        split at h
        · cases h
        · next b hb =>
          refine ih ?_ h
          split
          · exact hacc
          · next hne =>
            exact hacc.link hne (cooperationMember_isMember ha) (cooperationMember_isMember hb)

variable {rawEdges : Raw}

theorem normalizeEdges_good (h : normalizeEdges T known rawEdges whr = .ok s) :
    GoodEdges known s.edges := by
  have hempty : GoodEdges known (EdgeSet.edges SortedSet.empty) :=
    fun e he ↦ absurd he EdgeSet.mem_empty
  cases rawEdges with
  | null => exact Except.ok.inj h ▸ hempty
  | list entries => exact edgesFrom_good hempty h
  | bool | int | float | str | dict => cases h

/-! ## Edges from pools -/

/-- Two hauliers are members of a common pool. -/
def CoMember (pools : List PoolEntry) (g h : String) : Prop :=
  ∃ p ∈ pools, g ∈ p.members ∧ h ∈ p.members

theorem mem_pairsOf {l : List String} (hl : l.Pairwise (· < ·)) :
    (a, b) ∈ pairsOf l ↔ a ∈ l ∧ b ∈ l ∧ a < b := by
  induction l with
  | nil => simp [pairsOf]
  | cons x l ih =>
    obtain ⟨hx, hl⟩ := List.pairwise_cons.mp hl
    rw [pairsOf, List.mem_append, ih hl, List.mem_map]
    constructor
    · rintro (⟨y, hy, he⟩ | ⟨ha, hb, hab⟩)
      · obtain ⟨rfl, rfl⟩ := Prod.mk.inj he
        exact ⟨List.mem_cons_self, List.mem_cons_of_mem _ hy, hx _ hy⟩
      · exact ⟨List.mem_cons_of_mem _ ha, List.mem_cons_of_mem _ hb, hab⟩
    · rintro ⟨ha, hb, hab⟩
      rcases List.mem_cons.mp ha with rfl | ha'
      · rcases List.mem_cons.mp hb with rfl | hb'
        · exact absurd hab (lt_irrefl _)
        · exact Or.inl ⟨b, hb', rfl⟩
      · rcases List.mem_cons.mp hb with rfl | hb'
        · exact absurd (hab.trans (hx a ha')) (lt_irrefl a)
        · exact Or.inr ⟨ha', hb', hab⟩

theorem mem_foldl_link {ps : List (String × String)} :
    e ∈ (ps.foldl (fun edges p ↦ EdgeSet.link edges p.1 p.2) s).edges ↔
      e ∈ s.edges ∨ ∃ p ∈ ps, e = sortedPair p.1 p.2 := by
  induction ps generalizing s with
  | nil => simp
  | cons p ps ih =>
    rw [List.foldl_cons, ih, EdgeSet.mem_link, List.exists_mem_cons_iff]
    tauto

variable {pools : List PoolEntry}

/-- **The edges of pools** join the members of each of them. -/
theorem mem_deriveEdgesFromPools :
    (a, b) ∈ (deriveEdgesFromPools pools).edges ↔ a < b ∧ CoMember pools a b := by
  suffices h : ∀ s : EdgeSet, (a, b) ∈ (pools.foldl (fun edges pool ↦
      (pairsOf (SortedSet.ofList pool.members).toList).foldl
        (fun edges p ↦ EdgeSet.link edges p.1 p.2) edges) s).edges ↔
      (a, b) ∈ s.edges ∨ a < b ∧ CoMember pools a b by
    rw [deriveEdgesFromPools, h]
    simp [EdgeSet.mem_empty]
  induction pools with
  | nil => simp [CoMember]
  | cons p pools ih =>
    intro s
    have hpair : (∃ q ∈ pairsOf (SortedSet.ofList p.members).toList,
        (a, b) = sortedPair q.1 q.2) ↔ a < b ∧ a ∈ p.members ∧ b ∈ p.members := by
      constructor
      · rintro ⟨⟨x, y⟩, hq, he⟩
        obtain ⟨hx, hy, hxy⟩ := (mem_pairsOf (SortedSet.ofList p.members).sorted).mp hq
        rw [sortedPair_of_lt hxy] at he
        obtain ⟨rfl, rfl⟩ := Prod.mk.inj he
        exact ⟨hxy, SortedSet.mem_ofList.mp hx, SortedSet.mem_ofList.mp hy⟩
      · rintro ⟨hab, ha, hb⟩
        refine ⟨(a, b), (mem_pairsOf (SortedSet.ofList p.members).sorted).mpr ⟨?_, ?_, hab⟩,
          (sortedPair_of_lt hab).symm⟩
        · exact SortedSet.mem_ofList.mpr ha
        · exact SortedSet.mem_ofList.mpr hb
    rw [List.foldl_cons, ih, mem_foldl_link, hpair]
    simp only [CoMember, List.exists_mem_cons_iff]
    tauto

/-! ## Authored pools -/

/-- The pools of a compiled structure: several sorted members each, under different ids. -/
structure GoodPools (known : SortedSet String) (pools : List PoolEntry) : Prop where
  ids_nodup : (pools.map PoolEntry.id).Nodup
  id_ne_empty : ∀ p ∈ pools, p.id ≠ ""
  sorted : ∀ p ∈ pools, p.members.Pairwise (· < ·)
  member : ∀ p ∈ pools, ∀ m ∈ p.members, IsMember known m

theorem GoodPools.nil (known : SortedSet String) : GoodPools known [] :=
  ⟨List.nodup_nil, by simp, by simp, by simp⟩

theorem GoodPools.perm {pools' : List PoolEntry} (h : GoodPools known pools)
    (hp : pools'.Perm pools) : GoodPools known pools' :=
  ⟨(hp.map _).nodup_iff.mpr h.ids_nodup, fun p hm ↦ h.id_ne_empty p (hp.mem_iff.mp hm),
    fun p hm ↦ h.sorted p (hp.mem_iff.mp hm), fun p hm ↦ h.member p (hp.mem_iff.mp hm)⟩

theorem membersFrom_isMember {ms : List Raw} {acc s : SortedSet String}
    (hacc : ∀ m ∈ acc, IsMember known m) (h : membersFrom T known whr ms acc = .ok s) :
    ∀ m ∈ s, IsMember known m := by
  induction ms generalizing acc with
  | nil => exact Except.ok.inj h ▸ hacc
  | cons m ms ih =>
    rw [membersFrom] at h
    split at h
    · cases h
    · next a ha =>
      refine ih (fun x hx ↦ ?_) h
      rcases SortedSet.mem_insert.mp hx with rfl | hx
      · exact cooperationMember_isMember ha
      · exact hacc x hx

theorem derivedPoolId_ne_empty (members : List String) : derivedPoolId members ≠ "" := by
  intro h
  have h' := congrArg String.toList h
  simp [derivedPoolId, derivedPoolPrefix] at h'

theorem poolIdSlug_ne_empty (T : PyText) (value : Raw) {fallback : String} (h : fallback ≠ "") :
    poolIdSlug T value fallback ≠ "" := by
  exact slug_ne_empty h

theorem authoredPoolId_ne_empty (T : PyText) (rawId : Raw) (members : List String) :
    authoredPoolId T rawId members ≠ "" := by
  cases rawId with
  | null => exact derivedPoolId_ne_empty members
  | bool | int | float | str | list | dict =>
    exact poolIdSlug_ne_empty T _ (derivedPoolId_ne_empty members)

theorem poolsFrom_good {seen : List String} {out : List PoolEntry}
    (hseen : seen = out.map PoolEntry.id) (hout : GoodPools known out)
    (h : poolsFrom T known whr idx entries seen out = .ok pools) : GoodPools known pools := by
  induction entries generalizing idx seen out with
  | nil => exact Except.ok.inj h ▸ hout
  | cons entry rest ih =>
    cases entry with
    | dict fields =>
      rw [poolsFrom] at h
      split at h
      · cases h
      · split at h
        · cases h
        · next members hm =>
          split at h
          · exact ih hseen hout h
          · have hfresh := freshId_notMem seen
              (authoredPoolId T (Raw.field fields "id") members.toList)
            refine ih (by rw [hseen]; simp) ⟨?_, ?_, ?_, ?_⟩ h
            · rw [List.map_append, ← hseen, List.map_singleton, ← List.concat_eq_append]
              exact (hseen ▸ hout.ids_nodup : seen.Nodup).concat hfresh
            · intro p hp
              rcases List.mem_append.mp hp with hp | hp
              · exact hout.id_ne_empty p hp
              · rw [List.mem_singleton.mp hp]
                exact freshId_ne_empty (authoredPoolId_ne_empty T _ _)
            · intro p hp
              rcases List.mem_append.mp hp with hp | hp
              · exact hout.sorted p hp
              · rw [List.mem_singleton.mp hp]
                exact members.sorted
            · intro p hp
              rcases List.mem_append.mp hp with hp | hp
              · exact hout.member p hp
              · rw [List.mem_singleton.mp hp]
                exact membersFrom_isMember (fun m hm ↦ absurd hm (SortedSet.notMem_empty m)) hm
    | null | bool | int | float | str | list => cases h

theorem normalizePools_good {rawPools : Raw} (h : normalizePools T known rawPools whr = .ok pools) :
    GoodPools known pools := by
  cases rawPools with
  | null => exact Except.ok.inj h ▸ GoodPools.nil known
  | list entries =>
    rw [normalizePools] at h
    split at h
    · cases h
    · next out ho =>
      rw [← Except.ok.inj h]
      exact (poolsFrom_good rfl (GoodPools.nil known) ho).perm (sortedBy_perm _ _)
  | bool | int | float | str | dict => cases h

/-! ## Pools from edges -/

theorem sortedBy_pair (h : a < b) : sortedBy id [a, b] = [a, b] := by
  simp [sortedBy, h.le]

theorem toList_ofList_pair (h : a < b) : (SortedSet.ofList [a, b]).toList = [a, b] := by
  simp [SortedSet.ofList, SortedSet.insertAll, SortedSet.insert, SortedSet.empty,
    SortedSet.insertIn, lt_asymm h, (ne_of_lt h).symm]

theorem derivedPoolId_pair (h : a < b) : derivedPoolId [a, b] = "p:" ++ (a ++ "+" ++ b) := by
  rw [derivedPoolId, sortedBy_pair h, derivedPoolPrefix]
  rfl

/-- **Two edges never derive the same pool id**: no member holds the `+` that joins them. -/
theorem derivedPoolId_pair_inj {y : String} (hab : a < b) (hxy : x < y) (ha : '+' ∉ a.toList)
    (hb : '+' ∉ b.toList) (h : derivedPoolId [a, b] = derivedPoolId [x, y]) : a = x ∧ b = y := by
  rw [derivedPoolId_pair hab, derivedPoolId_pair hxy] at h
  have hl := congrArg String.toList h
  simp only [String.toList_append, List.append_cancel_left_eq, List.append_assoc] at hl
  have hl' : a.toList ++ '+' :: b.toList = x.toList ++ '+' :: y.toList := hl
  obtain ⟨h1, -, h2⟩ := (List.append_cons_inj_of_notMem ha hb).mp hl'
  exact ⟨String.toList_inj.mp h1, String.toList_inj.mp h2⟩

/-- The pool of an edge. -/
def edgePool (e : String × String) : PoolEntry := ⟨derivedPoolId [e.1, e.2], [e.1, e.2]⟩

variable {es : List (String × String)}

theorem GoodEdges.edgePool_inj (hes : GoodEdges known es) {e' : String × String} (he : e ∈ es)
    (he' : e' ∈ es) (h : (edgePool e).id = (edgePool e').id) : e = e' := by
  obtain ⟨hlt, h1, h2⟩ := hes e he
  obtain ⟨h3, h4⟩ := derivedPoolId_pair_inj hlt (hes e' he').1 h1.2 h2.2 h
  exact Prod.ext h3 h4

/-- The dictionary `derive_pools_from_edges` collects its pools in. -/
theorem GoodEdges.edgePools_eq (hes : GoodEdges known es) :
    edgePools es = Dict.ofList (es.map fun e ↦ ((edgePool e).id, (edgePool e).members)) := by
  suffices h : ∀ d : Dict String (List String), (es.foldl (fun pools e ↦
      let members := (SortedSet.ofList [e.1, e.2]).toList
      if members.length < 2 then pools else pools.set (derivedPoolId members) members) d) =
      d.update (es.map fun e ↦ ((edgePool e).id, (edgePool e).members)) by
    exact h Dict.empty
  induction es with
  | nil => exact fun d ↦ rfl
  | cons e es ih =>
    intro d
    have hlt := (hes e List.mem_cons_self).1
    rw [List.foldl_cons, ih fun e' he' ↦ hes e' (List.mem_cons_of_mem _ he')]
    simp [Dict.update, toList_ofList_pair hlt, edgePool]

/-- **The pools of edges** are one for each edge, with its ends for members. -/
theorem GoodEdges.mem_derivePoolsFromEdges (hes : GoodEdges known es) {p : PoolEntry} :
    p ∈ derivePoolsFromEdges es ↔ ∃ e ∈ es, p = edgePool e := by
  have hfun : ∀ k v w, (k, v) ∈ es.map (fun e ↦ ((edgePool e).id, (edgePool e).members)) →
      (k, w) ∈ es.map (fun e ↦ ((edgePool e).id, (edgePool e).members)) → v = w := by
    intro k v w hv hw
    obtain ⟨e, he, heq⟩ := List.mem_map.mp hv
    obtain ⟨e', he', heq'⟩ := List.mem_map.mp hw
    obtain ⟨rfl, rfl⟩ := Prod.mk.inj heq
    obtain ⟨hid, rfl⟩ := Prod.mk.inj heq'
    rw [hes.edgePool_inj he he' hid.symm]
  rw [derivePoolsFromEdges, hes.edgePools_eq, List.mem_map]
  constructor
  · rintro ⟨⟨k, v⟩, hmem, rfl⟩
    rw [mem_sortedBy, Dict.mem_entries_iff, Dict.get?_ofList_iff hfun] at hmem
    obtain ⟨e, he, heq⟩ := List.mem_map.mp hmem
    obtain ⟨rfl, rfl⟩ := Prod.mk.inj heq
    exact ⟨e, he, rfl⟩
  · rintro ⟨e, he, rfl⟩
    refine ⟨((edgePool e).id, (edgePool e).members), ?_, rfl⟩
    rw [mem_sortedBy, Dict.mem_entries_iff, Dict.get?_ofList_iff hfun]
    exact List.mem_map.mpr ⟨e, he, rfl⟩

theorem GoodEdges.goodPools (hes : GoodEdges known es) :
    GoodPools known (derivePoolsFromEdges es) := by
  refine ⟨?_, fun p hp ↦ ?_, fun p hp ↦ ?_, fun p hp ↦ ?_⟩
  · rw [derivePoolsFromEdges, List.map_map]
    exact ((sortedBy_perm _ _).map _).nodup_iff.mpr (edgePools es).nodup
  · obtain ⟨e, -, rfl⟩ := hes.mem_derivePoolsFromEdges.mp hp
    exact derivedPoolId_ne_empty _
  · obtain ⟨e, he, rfl⟩ := hes.mem_derivePoolsFromEdges.mp hp
    exact List.pairwise_pair.mpr (hes e he).1
  · obtain ⟨e, he, rfl⟩ := hes.mem_derivePoolsFromEdges.mp hp
    intro m hm
    rcases List.mem_pair.mp hm with rfl | rfl
    · exact (hes e he).2.1
    · exact (hes e he).2.2

variable {h : String}

variable {g : String}

/-- Two different hauliers share the pool of an edge just when they are its ends. -/
theorem GoodEdges.coMember_iff (hes : GoodEdges known es) (hne : g ≠ h) :
    (∃ e ∈ es, g ∈ (edgePool e).members ∧ h ∈ (edgePool e).members) ↔ sortedPair g h ∈ es := by
  constructor
  · rintro ⟨⟨a, b⟩, he, hg, hh⟩
    have hpair : sortedPair g h = (a, b) := by
      rw [sortedPair_eq_iff (hes _ he).1]
      simp only [edgePool, List.mem_pair] at hg hh
      rcases hg with rfl | rfl <;> rcases hh with rfl | rfl
      · exact absurd rfl hne
      · exact Or.inl ⟨rfl, rfl⟩
      · exact Or.inr ⟨rfl, rfl⟩
      · exact absurd rfl hne
    rwa [hpair]
  · intro he
    refine ⟨sortedPair g h, he, ?_⟩
    rcases le_total g h with hle | hle <;> simp [edgePool, sortedPair, hle]

/-! ## Compiled structures -/

/-- What the compiler guarantees of the edges and the pools of a structure. -/
structure Compiled (known : SortedSet String) (edges : List (String × String))
    (pools : List PoolEntry) : Prop where
  goodEdges : GoodEdges known edges
  goodPools : GoodPools known pools
  coMember_iff : ∀ g h, g ≠ h → (CoMember pools g h ↔ sortedPair g h ∈ edges)

theorem GoodEdges.compiled (hes : GoodEdges known es) :
    Compiled known es (derivePoolsFromEdges es) := by
  refine ⟨hes, hes.goodPools, fun g h hne ↦ ?_⟩
  rw [← hes.coMember_iff hne, CoMember]
  constructor
  · rintro ⟨p, hp, hg, hh⟩
    obtain ⟨e, he, rfl⟩ := hes.mem_derivePoolsFromEdges.mp hp
    exact ⟨e, he, hg, hh⟩
  · rintro ⟨e, he, hg, hh⟩
    exact ⟨edgePool e, hes.mem_derivePoolsFromEdges.mpr ⟨e, he, rfl⟩, hg, hh⟩

theorem CoMember.symm (hc : CoMember pools g h) : CoMember pools h g := by
  obtain ⟨p, hp, hg, hh⟩ := hc
  exact ⟨p, hp, hh, hg⟩

theorem GoodPools.compiled (hp : GoodPools known pools) :
    Compiled known (deriveEdgesFromPools pools).edges pools := by
  refine ⟨?_, hp, fun g h hne ↦ ?_⟩
  · rintro ⟨a, b⟩ he
    obtain ⟨hab, p, hpm, ha, hb⟩ := mem_deriveEdgesFromPools.mp he
    exact ⟨hab, hp.member p hpm a ha, hp.member p hpm b hb⟩
  · rcases lt_or_gt_of_ne hne with hlt | hlt
    · rw [sortedPair_of_lt hlt, mem_deriveEdgesFromPools]
      exact ⟨fun hc ↦ ⟨hlt, hc⟩, fun hc ↦ hc.2⟩
    · rw [sortedPair_comm, sortedPair_of_lt hlt, mem_deriveEdgesFromPools]
      exact ⟨fun hc ↦ ⟨hlt, hc.symm⟩, fun hc ↦ hc.2.symm⟩

variable {authored : AuthoredStructure}

theorem compileEdges_compiled {sid : String}
    (h : compileEdges T known rawEdges whr sid = .ok authored) :
    Compiled known authored.edges authored.pools := by
  rw [compileEdges] at h
  split at h
  · cases h
  · next s hs =>
    cases h
    exact (normalizeEdges_good hs).compiled

theorem compilePools_compiled {rawPools : Raw} {sid : String}
    (h : compilePools T known rawPools rawEdges whr sid = .ok authored) :
    Compiled known authored.edges authored.pools := by
  rw [compilePools] at h
  split at h
  · cases h
  · next pools hp =>
    have hgood := (normalizePools_good hp).compiled
    dsimp only at h
    split at h
    · cases h
      exact hgood
    · split at h
      · cases h
      · split at h
        · cases h
          exact hgood
        · cases h

theorem compileEntry_compiled {entry : Raw} (h : compileEntry T known idx entry = .ok authored) :
    Compiled known authored.edges authored.pools := by
  cases entry with
  | dict fields =>
    rw [compileEntry] at h
    split at h
    · exact compileEdges_compiled h
    · exact compilePools_compiled h
  | list pairs => exact compileEdges_compiled h
  | null | bool | int | float | str => cases h

/-! ## Partners -/

theorem mem_addPartner {adj : Dict String (SortedSet String)} :
    x ∈ ((addPartner adj a b).get? h).getD SortedSet.empty ↔
      x ∈ (adj.get? h).getD SortedSet.empty ∨ h = a ∧ x = b := by
  rw [addPartner, Dict.get?_set]
  by_cases hha : h = a
  · subst hha
    simp [or_comm]
  · simp [hha]

theorem mem_partnerSets :
    x ∈ ((partnerSets es).get? h).getD SortedSet.empty ↔ (h, x) ∈ es ∨ (x, h) ∈ es := by
  suffices hall : ∀ adj : Dict String (SortedSet String),
      x ∈ ((es.foldl (fun adj e ↦ addPartner (addPartner adj e.1 e.2) e.2 e.1) adj).get? h).getD
        SortedSet.empty ↔
      x ∈ (adj.get? h).getD SortedSet.empty ∨ (h, x) ∈ es ∨ (x, h) ∈ es by
    rw [partnerSets, hall]
    simp
  induction es with
  | nil => simp
  | cons e es ih =>
    intro adj
    obtain ⟨a, b⟩ := e
    rw [List.foldl_cons, ih, mem_addPartner, mem_addPartner]
    simp only [List.mem_cons, Prod.mk.injEq]
    tauto

theorem get?_adjacencyOf (es : List (String × String)) (h : String) :
    (adjacencyOf es).get? h = ((partnerSets es).get? h).map SortedSet.toList := by
  have hfun : ∀ k v w,
      (k, v) ∈ (sortedBy Prod.fst (partnerSets es).entries).map (fun p ↦ (p.1, p.2.toList)) →
      (k, w) ∈ (sortedBy Prod.fst (partnerSets es).entries).map (fun p ↦ (p.1, p.2.toList)) →
      v = w := by
    intro k v w hv hw
    obtain ⟨⟨k₁, s₁⟩, h₁, he₁⟩ := List.mem_map.mp hv
    obtain ⟨⟨k₂, s₂⟩, h₂, he₂⟩ := List.mem_map.mp hw
    obtain ⟨rfl, rfl⟩ := Prod.mk.inj he₁
    obtain ⟨rfl, rfl⟩ := Prod.mk.inj he₂
    rw [mem_sortedBy, Dict.mem_entries_iff] at h₁ h₂
    rw [Option.some_inj.mp (h₁.symm.trans h₂)]
  ext v
  rw [adjacencyOf, Dict.get?_ofList_iff hfun, List.mem_map, Option.map_eq_some_iff]
  constructor
  · rintro ⟨⟨k, s⟩, hmem, he⟩
    obtain ⟨rfl, rfl⟩ := Prod.mk.inj he
    exact ⟨s, Dict.mem_entries_iff.mp (mem_sortedBy.mp hmem), rfl⟩
  · rintro ⟨s, hs, rfl⟩
    exact ⟨(h, s), mem_sortedBy.mpr (Dict.mem_entries_iff.mpr hs), rfl⟩

/-- The partners of a haulier: `adjacency.get(haulier_id, [])`. -/
def partnersIn (adjacency : Dict String (List String)) (h : String) : List String :=
  (adjacency.get? h).getD []

/-- **Partners are joined by an edge**, one way round or the other. -/
theorem mem_partnersIn_adjacencyOf :
    g ∈ partnersIn (adjacencyOf es) h ↔ (h, g) ∈ es ∨ (g, h) ∈ es := by
  rw [← mem_partnerSets, partnersIn, get?_adjacencyOf]
  cases (partnerSets es).get? h with
  | none => simp
  | some s => simp [SortedSet.mem_def]

theorem GoodEdges.mem_partnersIn (hes : GoodEdges known es) (hne : g ≠ h) :
    g ∈ partnersIn (adjacencyOf es) h ↔ sortedPair g h ∈ es := by
  rw [mem_partnersIn_adjacencyOf]
  rcases lt_or_gt_of_ne hne with hlt | hlt
  · rw [sortedPair_of_lt hlt]
    exact ⟨fun he ↦ he.resolve_left fun he ↦ absurd (hes _ he).1 (lt_asymm hlt), Or.inr⟩
  · rw [sortedPair_comm, sortedPair_of_lt hlt]
    exact ⟨fun he ↦ he.resolve_right fun he ↦ absurd (hes _ he).1 (lt_asymm hlt), Or.inl⟩

theorem GoodEdges.notMem_partnersIn_self (hes : GoodEdges known es) (h : String) :
    h ∉ partnersIn (adjacencyOf es) h := by
  rw [mem_partnersIn_adjacencyOf, or_self]
  exact fun he ↦ absurd (hes _ he).1 (lt_irrefl h)

/-! ## Components -/

theorem flatten_map_perm {f : List String → List String} (hf : ∀ l, (f l).Perm l)
    (ls : List (List String)) : (ls.map f).flatten.Perm ls.flatten := by
  induction ls with
  | nil => exact List.Perm.refl _
  | cons l ls ih => exact (hf l).append ih

/-- What the components of a graph are: they partition the ids, and two ids are in the same one
just when a path of edges joins them. -/
structure IsComponents (ids : List String) (es : List (String × String))
    (components : List (List String)) : Prop where
  partition : components.flatten.Perm ids
  ne_nil : ∀ c ∈ components, c ≠ []
  connected : ∀ x ∈ ids, ∀ y ∈ ids, (∃ c ∈ components, x ∈ c ∧ y ∈ c) ↔
    Relation.EqvGen (fun a b ↦ (a, b) ∈ es) x y

/-- **The union-find finds the components.** -/
theorem componentsOf_spec {ids : List String} (hes : ∀ e ∈ es, e.1 ∈ ids ∧ e.2 ∈ ids) :
    ∃ components, componentsOf es ids = some components ∧ IsComponents ids es components := by
  obtain ⟨parent, ρ, hall, hgroups, hρ⟩ :=
    UnionFind.components_spec (Nat.lt_succ_self ids.length) hes
  simp only [componentsOf, hall, hgroups]
  have hgroup : ∀ g ∈ (Dict.groupBy (fun x ↦ some (ρ x)) ids).values, g ≠ [] := by
    intro g hg
    obtain ⟨k, hk⟩ := Dict.mem_values_iff.mp hg
    exact Dict.ne_nil_of_get?_groupBy hk
  refine ⟨_, rfl, ?_, fun c hc ↦ ?_, fun x hx y hy ↦ ?_⟩
  · refine (sortedBy_perm _ _).flatten.trans ?_
    refine (flatten_map_perm (sortedBy_perm id) _).trans ?_
    simpa using Dict.flatten_values_groupBy (fun x ↦ some (ρ x)) ids
  · rw [mem_sortedBy, List.mem_map] at hc
    obtain ⟨g, hg, rfl⟩ := hc
    simpa using hgroup g hg
  · rw [← hρ]
    constructor
    · rintro ⟨c, hc, hxc, hyc⟩
      rw [mem_sortedBy, List.mem_map] at hc
      obtain ⟨g, hg, rfl⟩ := hc
      obtain ⟨k, hk⟩ := Dict.mem_values_iff.mp hg
      have hx' := (Dict.mem_of_get?_groupBy hk (mem_sortedBy.mp hxc)).2
      have hy' := (Dict.mem_of_get?_groupBy hk (mem_sortedBy.mp hyc)).2
      exact Option.some_inj.mp (hx'.trans hy'.symm)
    · intro hxy
      have hin : ∀ z ∈ ids, ρ z = ρ x →
          z ∈ ((Dict.groupBy (fun x ↦ some (ρ x)) ids).get? (ρ x)).getD [] := by
        intro z hz hzx
        rw [Dict.getD_groupBy, List.mem_filter]
        exact ⟨hz, by simp [hzx]⟩
      cases hk : (Dict.groupBy (fun x ↦ some (ρ x)) ids).get? (ρ x) with
      | none =>
        have hnil := hin x hx rfl
        rw [hk] at hnil
        exact absurd hnil List.not_mem_nil
      | some g =>
        rw [hk] at hin
        refine ⟨sortedBy id g, ?_, mem_sortedBy.mpr (hin x hx rfl),
          mem_sortedBy.mpr (hin y hy hxy.symm)⟩
        rw [mem_sortedBy]
        exact List.mem_map_of_mem (Dict.mem_values_iff.mpr ⟨_, hk⟩)

/-! ## The structures of a block -/

/-- What a compiled structure is: edges and pools that agree, with the partners and the components
of its edges. -/
structure CoopStructure.WellFormed (known : SortedSet String) (s : CoopStructure) : Prop where
  compiled : Compiled known s.edges s.pools
  adjacency : s.adjacency = adjacencyOf s.edges
  components : IsComponents known.toList s.edges s.components

theorem GoodEdges.mem_known (hes : GoodEdges known es) :
    ∀ e ∈ es, e.1 ∈ known.toList ∧ e.2 ∈ known.toList :=
  fun e he ↦ ⟨(hes e he).2.1.1, (hes e he).2.2.1⟩

theorem structuresFrom_wellFormed {seen : List String} {out structures : List CoopStructure}
    (hout : ∀ s ∈ out, s.WellFormed known)
    (h : structuresFrom T known idx entries seen out = .ok structures) :
    ∀ s ∈ structures, s.WellFormed known := by
  induction entries generalizing idx seen out with
  | nil => exact Except.ok.inj h ▸ hout
  | cons entry rest ih =>
    rw [structuresFrom] at h
    split at h
    · cases h
    · next authored ha =>
      have hc := compileEntry_compiled ha
      split at h
      · cases h
      · next components hcomp =>
        refine ih (fun s hs ↦ ?_) h
        rcases List.mem_append.mp hs with hs | hs
        · exact hout s hs
        · rw [List.mem_singleton.mp hs]
          obtain ⟨cs, hcs, hspec⟩ := componentsOf_spec hc.goodEdges.mem_known
          obtain rfl := Option.some_inj.mp (hcs.symm.trans hcomp)
          exact ⟨hc, rfl, hspec⟩

theorem withBaseline_wellFormed {declared structures : List CoopStructure}
    (hd : ∀ s ∈ declared, s.WellFormed known) (h : withBaseline known declared = .ok structures) :
    ∀ s ∈ structures, s.WellFormed known := by
  rw [withBaseline] at h
  split at h
  · exact Except.ok.inj h ▸ hd
  · split at h
    · cases h
    · next components hcomp =>
      rw [← Except.ok.inj h]
      intro s hs
      rcases List.mem_cons.mp hs with rfl | hs
      · have hempty : GoodEdges known [] := by simp [GoodEdges]
        obtain ⟨cs, hcs, hspec⟩ := componentsOf_spec hempty.mem_known
        obtain rfl := Option.some_inj.mp (hcs.symm.trans hcomp)
        exact ⟨hempty.compiled, rfl, hspec⟩
      · exact hd s hs

theorem normalizeCooperation_eq_ok {raw : Raw} {haulierIds : List String} {coop : Cooperation}
    (h : normalizeCooperation T raw haulierIds = .ok coop) :
    ∃ entries activeRaw declared, authoredStructures raw = .ok (entries, activeRaw) ∧
      structuresFrom T (SortedSet.ofList haulierIds) 0 entries [] [] = .ok declared ∧
      withBaseline (SortedSet.ofList haulierIds) declared = .ok coop.structures ∧
      activeId T activeRaw declared coop.structures = .ok coop.active := by
  rw [normalizeCooperation] at h
  split at h
  · cases h
  · dsimp only at h
    split at h
    · cases h
    · next entries activeRaw hauthored =>
      split at h
      · cases h
      · next declared hdeclared =>
        split at h
        · cases h
        · next structures hstructures =>
          split at h
          · cases h
          · next active hactive =>
            cases h
            exact ⟨entries, activeRaw, declared, hauthored, hdeclared, hstructures, hactive⟩

/-- **Every structure of a compiled block is well formed.** -/
theorem normalizeCooperation_wellFormed {raw : Raw} {haulierIds : List String} {coop : Cooperation}
    (h : normalizeCooperation T raw haulierIds = .ok coop) :
    ∀ s ∈ coop.structures, s.WellFormed (SortedSet.ofList haulierIds) := by
  obtain ⟨entries, activeRaw, declared, -, hdeclared, hstructures, -⟩ :=
    normalizeCooperation_eq_ok h
  exact withBaseline_wellFormed (structuresFrom_wellFormed (by simp) hdeclared) hstructures

end OpenRide.Datagen
