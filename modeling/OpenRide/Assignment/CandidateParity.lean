import OpenRide.Assignment.GridCells
import OpenRide.Assignment.Partitioned

/-!
# Candidate parity in round one

The pooled planner builds the candidates of a round over the union of the fleets that may serve an
order, so that an order seen by several companies does not draw several sets of them; its promise
is that the first round builds as many pairs as the partitioned planner builds in total.

Both planners go through the same orders, and for each of them through the same trucks: those of
its haulier and of the partners (`mem_carriers_iff_serves`).  They list these trucks differently,
the pooled one haulier by haulier, the partitioned one as the fleet is listed, and both cut the
list at `per_order` before the pair rule is applied.  A different listing moves trucks about inside
a grid cell only.  So the two totals differ exactly by what the cuts keep of the cells they go
through, and `candidate_parity_iff` says so; `parity_fails_at_the_cap` is a tick in which they do.
-/

namespace OpenRide.Assignment

open Lib Datagen PoolMarket

/-! ## What `OfferAll` makes visible -/

section Offers

variable {σ : Type} {ctx : PooledPlannerContext σ} {fb : FleetBook}
  {P : Award → Truck → Order → Prop}

/-- A contribution makes its order visible through the accepted pools, and nothing else. -/
theorem visible_contribute {m : PoolMarket} {oid h : String} {pids : List String}
    (hown : ∀ g, m.contributionOwner.get? oid = some g → g = h) {g x : String} :
    (m.contribute oid h pids).2.Visible g x ↔
      m.Visible g x ∨ x = oid ∧ ∃ pid ∈ m.accepted h pids, m.memberOf g pid = true := by
  have hmem : (m.contribute oid h pids).2.memberOf g = m.memberOf g :=
    funext (contribute_memberOf m oid h pids g)
  rw [visible_iff_getD, visible_iff_getD, hmem, contribute]
  have hok : ¬ (m.contributionOwner.get? oid ≠ none ∧ m.contributionOwner.get? oid ≠ some h) := by
    rintro ⟨hn, hs⟩
    obtain ⟨g', hg'⟩ := Option.ne_none_iff_exists'.mp hn
    exact hs (hown g' hg' ▸ hg')
  rw [if_neg hok]
  split
  · next hempty =>
    rw [List.isEmpty_iff] at hempty
    simp [hempty]
  · rw [Dict.get?_set]
    split
    · next hx =>
      rw [Option.getD_some, hx]
      simp only [SortedSet.mem_ofList, ← SortedSet.mem_def, List.mem_append, true_and]
      constructor
      · rintro ⟨pid, hp | hp, hm⟩
        · exact Or.inl ⟨pid, hp, hm⟩
        · exact Or.inr ⟨pid, hp, hm⟩
      · rintro (⟨pid, hp, hm⟩ | ⟨pid, hp, hm⟩)
        · exact ⟨pid, Or.inl hp, hm⟩
        · exact ⟨pid, Or.inr hp, hm⟩
    · next hx => simp [hx]

theorem accepted_congr {m m' : PoolMarket} (h : m'.pools = m.pools) (owner : String)
    (pids : List String) : m'.accepted owner pids = m.accepted owner pids := by
  rw [accepted, accepted, h]

theorem memberOf_congr {m m' : PoolMarket} (h : m'.pools = m.pools) (g pid : String) :
    m'.memberOf g pid = m.memberOf g pid := by
  rw [memberOf, memberOf, h]

theorem visible_contributeOrders {m₀ m : PoolMarket} (hm : Contributing P fb m₀ m) (h : String)
    (c : Dict String (List String)) {g x : String} :
    (contributeOrders fb h c m).Visible g x ↔ m.Visible g x ∨
      fb.ownerOf x = some h ∧ ∃ pids, c.get? x = some pids ∧
        ∃ pid ∈ m₀.accepted h pids, m₀.memberOf g pid = true := by
  have hrun : ∀ (ks : List String) (m : PoolMarket), Contributing P fb m₀ m →
      ((ks.foldl (fun m oid ↦ if fb.ownerOf oid = some h then
          (m.contribute oid h ((c.get? oid).getD [])).2 else m) m).Visible g x ↔
        m.Visible g x ∨ x ∈ ks ∧ fb.ownerOf x = some h ∧
          ∃ pid ∈ m₀.accepted h ((c.get? x).getD []), m₀.memberOf g pid = true) := by
    intro ks
    induction ks with
    | nil => simp
    | cons k ks ih =>
      intro m hm
      rw [List.foldl_cons]
      split
      · next hk =>
        rw [ih _ (hm.contribute hk _), visible_contribute fun g' hg' ↦
          Option.some_inj.mp ((hm.1.contributor k g' hg').symm.trans hk), or_assoc,
          List.mem_cons, accepted_congr hm.2.2]
        simp only [memberOf_congr hm.2.2]
        constructor
        · rintro (hv | ⟨rfl, hp⟩ | ⟨hx, hrest⟩)
          · exact Or.inl hv
          · exact Or.inr ⟨Or.inl rfl, hk, hp⟩
          · exact Or.inr ⟨Or.inr hx, hrest⟩
        · rintro (hv | ⟨rfl | hx, hrest⟩)
          · exact Or.inl hv
          · exact Or.inr (Or.inl ⟨rfl, hrest.2⟩)
          · exact Or.inr (Or.inr ⟨hx, hrest⟩)
      · next hk =>
        rw [ih m hm, List.mem_cons]
        constructor
        · rintro (hv | ⟨hx, hrest⟩)
          · exact Or.inl hv
          · exact Or.inr ⟨Or.inr hx, hrest⟩
        · rintro (hv | ⟨rfl | hx, hrest⟩)
          · exact Or.inl hv
          · exact absurd hrest.1 hk
          · exact Or.inr ⟨hx, hrest⟩
  rw [contributeOrders, hrun _ m hm, mem_sortedBy, Dict.mem_keys_iff]
  refine or_congr_right ⟨?_, ?_⟩
  · rintro ⟨⟨pids, hp⟩, how, hv⟩
    rw [hp, Option.getD_some] at hv
    exact ⟨how, pids, hp, hv⟩
  · rintro ⟨how, pids, hp, hv⟩
    exact ⟨⟨pids, hp⟩, how, by rw [hp]; exact hv⟩

/-- What a company of the pools of `m` makes visible to `g` when it offers everything. -/
def Offers (fb : FleetBook) (m : PoolMarket) (h g x : String) : Prop :=
  fb.ownerOf x = some h ∧ x ∈ (ownOrders h (fb.ordersOf h)).map Prod.fst ∧
    ∃ p ∈ m.pools.values, h ∈ p.members ∧ g ∈ p.members

theorem mem_poolsFor {m : PoolMarket} {h : String} {p : Pool} :
    p ∈ m.poolsFor h ↔ p ∈ m.pools.values ∧ h ∈ p.members := by
  rw [poolsFor, mem_sortedBy, List.mem_filter, decide_eq_true_eq]

theorem init_pool_id {pools : List Pool} {k : String} {p : Pool}
    (h : (init pools).pools.get? k = some p) : p.id = k := by
  obtain ⟨q, -, he⟩ := List.mem_map.mp (Dict.mem_of_get?_ofList h)
  obtain ⟨hk, rfl⟩ := Prod.mk.inj he
  exact hk

/-- All the pools of a company are accepted, and show its orders to their members. -/
theorem accepted_sortedPoolIds {pools : List Pool} {h g : String} :
    (∃ pid ∈ (init pools).accepted h (sortedPoolIds ((init pools).poolsFor h)),
        (init pools).memberOf g pid = true) ↔
      ∃ p ∈ (init pools).pools.values, h ∈ p.members ∧ g ∈ p.members := by
  constructor
  · rintro ⟨pid, hacc, hg⟩
    have hh := memberOf_of_mem_accepted hacc
    rw [memberOf] at hg hh
    cases hget : (init pools).pools.get? pid with
    | none => simp [hget] at hg
    | some p =>
      rw [hget] at hg hh
      exact ⟨p, Dict.mem_values_iff.mpr ⟨pid, hget⟩, of_decide_eq_true hh, of_decide_eq_true hg⟩
  · rintro ⟨p, hp, hh, hg⟩
    obtain ⟨k, hk⟩ := Dict.mem_values_iff.mp hp
    refine ⟨k, List.mem_filter.mpr ⟨?_, ?_⟩, ?_⟩
    · rw [sortedPoolIds, mem_sortedBy]
      exact List.mem_map.mpr ⟨p, mem_poolsFor.mpr ⟨hp, hh⟩, init_pool_id hk⟩
    · rw [hk]
      exact decide_eq_true hh
    · rw [memberOf, hk]
      exact decide_eq_true hg

theorem visible_contributeCompany (ho : ctx.offer = offerAll) {pools : List Pool}
    {st : PoolMarket × σ} (hm : Contributing P fb (init pools) st.1) (h : String) {g x : String} :
    (contributeCompany ctx fb st h).1.Visible g x ↔
      st.1.Visible g x ∨ Offers fb (init pools) h g x := by
  have hpools : st.1.poolsFor h = (init pools).poolsFor h := by
    rw [poolsFor, poolsFor, hm.2.2]
  have hnone : (¬ ∃ p, p ∈ (init pools).poolsFor h) ∨ fb.ordersOf h = [] →
      ¬ Offers fb (init pools) h g x := by
    rintro (hnp | hno) ⟨-, hx, p, hp, hh, -⟩
    · exact hnp ⟨p, mem_poolsFor.mpr ⟨hp, hh⟩⟩
    · rw [hno] at hx
      exact absurd hx List.not_mem_nil
  rw [contributeCompany, hpools, ho, offerAll]
  split
  · next hempty =>
    rw [Bool.or_eq_true, List.isEmpty_iff, List.isEmpty_iff] at hempty
    refine (or_iff_left (hnone (hempty.imp_left ?_))).symm
    rintro hnil ⟨p, hp⟩
    rw [hnil] at hp
    exact absurd hp List.not_mem_nil
  · dsimp only
    by_cases hp : (sortedPoolIds ((init pools).poolsFor h)).isEmpty = true
    · rw [if_pos hp]
      rw [visible_contributeOrders hm]
      rw [sortedPoolIds, List.isEmpty_iff, sortedBy_eq_nil, List.map_eq_nil_iff] at hp
      refine or_congr_right ⟨?_, fun hoff ↦ absurd hoff (hnone (Or.inl ?_))⟩
      · rintro ⟨-, pids, hc, -⟩
        cases hc
      · rintro ⟨p, hmem⟩
        rw [hp] at hmem
        exact absurd hmem List.not_mem_nil
    · rw [if_neg hp]
      rw [visible_contributeOrders hm, Offers]
      refine or_congr_right (and_congr_right fun _ ↦ ?_)
      simp only [get?_offered]
      constructor
      · rintro ⟨pids, ⟨hx, rfl⟩, hv⟩
        exact ⟨hx, accepted_sortedPoolIds.mp hv⟩
      · rintro ⟨hx, hv⟩
        exact ⟨_, ⟨hx, rfl⟩, accepted_sortedPoolIds.mpr hv⟩

/-- **What is visible once everything has been offered.** -/
theorem visible_contributeAll (ho : ctx.offer = offerAll) (pools : List Pool) (s : σ)
    {g x : String} : (contributeAll ctx fb (init pools) s).1.Visible g x ↔
      ∃ h ∈ fb.companyIds, Offers fb (init pools) h g x := by
  have hstart : ¬ (init pools).Visible g x := by
    rintro ⟨pids, hp, -⟩
    simp [init] at hp
  have hrun : ∀ (hs : List String) (st : PoolMarket × σ),
      Contributing (fun _ _ _ ↦ True) fb (init pools) st.1 →
      ((hs.foldl (contributeCompany ctx fb) st).1.Visible g x ↔
        st.1.Visible g x ∨ ∃ h ∈ hs, Offers fb (init pools) h g x) := by
    intro hs
    induction hs with
    | nil => simp
    | cons h hs ih =>
      intro st hst
      rw [List.foldl_cons, ih _ (contributeCompany_safe hst h), visible_contributeCompany ho hst,
        List.exists_mem_cons_iff, or_assoc]
  rw [contributeAll]
  split
  · next hempty =>
    refine iff_of_false hstart ?_
    rintro ⟨h, -, -, -, p, hp, -⟩
    rw [isEmpty, List.isEmpty_iff] at hempty
    rw [Dict.values, hempty] at hp
    exact absurd hp List.not_mem_nil
  · rw [hrun _ _ ⟨init_safe pools, rfl, rfl⟩]
    exact or_iff_right hstart

end Offers

/-! ## Who serves whom -/

/-- There is no structure, or it comes from a compiled cooperation block. -/
def CompiledStructure (coop : Option CoopStructure) : Prop :=
  ∀ s ∈ coop, ∃ T raw haulierIds block,
    normalizeCooperation T raw haulierIds = .ok block ∧ s ∈ block.structures

theorem mem_init_values {pools : List Pool}
    (hid : ∀ p ∈ pools, ∀ q ∈ pools, p.id = q.id → p = q) {p : Pool} :
    p ∈ (init pools).pools.values ↔ p ∈ pools := by
  rw [← mem_poolsById hid, poolsById, mem_sortedBy]
  rfl

/-- Pools read from a structure are told apart by their ids. -/
theorem poolsById_id_inj {pools : List Pool} {p q : Pool} (hp : p ∈ poolsById pools)
    (hq : q ∈ poolsById pools) (hpq : p.id = q.id) : p = q := by
  have hkey : ∀ r ∈ poolsById pools, (init pools).pools.get? r.id = some r := by
    intro r hr
    obtain ⟨k, hk⟩ := Dict.mem_values_iff.mp (mem_sortedBy.mp hr)
    obtain rfl := @init_pool_id pools _ _ hk
    exact hk
  exact Option.some_inj.mp ((hkey p hp).symm.trans (hpq ▸ hkey q hq))

/-- **The pools show an order to those who serve its haulier**, for the structure's adjacency. -/
theorem mayCarry_iff_serves {coop : Option CoopStructure} (hcoop : CompiledStructure coop)
    {g h : String} (hg : g ≠ "") (hh : h ≠ "") :
    mayCarry (marketPools coop) h g = true ↔ serves (shareAdjacency coop) g h = true := by
  rw [mayCarry, serves, decide_eq_true_eq, decide_eq_true_eq]
  cases coop with
  | none =>
    have hnil : marketPools none = [] := rfl
    rw [hnil]
    simp [init, shareAdjacency, partnersIn, Dict.ofList, Dict.update, Dict.values, Dict.empty,
      Dict.get?, Dict.lookupIn]
  | some s =>
    obtain ⟨T, raw, ids, block, hblock, hs⟩ := hcoop s rfl
    have hwf := normalizeCooperation_wellFormed hblock s hs
    by_cases hne : h = g
    · exact iff_of_true (Or.inl hne.symm) (Or.inl hne.symm)
    · have hid : ∀ p ∈ marketPools (some s), ∀ q ∈ marketPools (some s), p.id = q.id → p = q :=
        fun p hp q hq ↦ poolsById_id_inj hp hq
      have hshares : ((init (marketPools (some s))).pools.values.any fun p ↦
          h ∈ p.members ∧ g ∈ p.members) = true ↔ Shares (marketPools (some s)) h g := by
        simp only [List.any_eq_true, decide_eq_true_eq, mem_init_values hid, Shares]
      have hedges := hwf.compiled.goodEdges
      rw [hshares]
      refine or_congr Iff.rfl ?_
      rw [marketPools, shares_structureRaw hwf hne, hwf.compiled.coMember_iff h g hne,
        shareAdjacency, hwf.adjacency, hedges.mem_partnersIn hne]
      exact and_iff_left ⟨hh, hg⟩

/-- The members of a component are numbered alike. -/
theorem componentOf_get? {s : CoopStructure} (hnodup : s.components.flatten.Nodup)
    (hne : ¬ s.adjacency.entries.isEmpty = true) {c : List String} (hc : c ∈ s.components)
    (hlen : 1 < c.length) : ∃ idx, ∀ g ∈ c, (componentOf (some s)).get? g = some idx := by
  have hkeys : ((s.components.zipIdx.flatMap fun p ↦
      if 1 < p.1.length then p.1.map (·, p.2) else []).map Prod.fst).Nodup := by
    have hsub : ((s.components.zipIdx.flatMap fun p ↦
        if 1 < p.1.length then p.1.map (·, p.2) else []).map Prod.fst).Sublist
          s.components.flatten := by
      rw [List.map_flatMap, ← List.flatMap_id, ← List.zipIdx_map_fst 0 s.components,
        List.flatMap_map, List.zipIdx_map_fst]
      refine List.Sublist.flatMap_right _ fun p _ ↦ ?_
      split
      · rw [List.map_map]
        exact (List.map_id p.1).symm ▸ List.Sublist.refl _
      · exact List.nil_sublist _
    exact hnodup.sublist hsub
  rw [← List.zipIdx_map_fst 0 s.components] at hc
  obtain ⟨⟨c', idx⟩, hidx, rfl⟩ := List.mem_map.mp hc
  refine ⟨idx, fun g hg ↦ ?_⟩
  rw [componentOf, if_neg hne, Dict.get?_ofList hkeys]
  refine List.mem_flatMap.mpr ⟨(c', idx), hidx, ?_⟩
  rw [if_pos hlen]
  exact List.mem_map.mpr ⟨g, hg, rfl⟩

/-- Hauliers joined by an edge are filed in the same bucket. -/
theorem partitionKey_eq_of_serves {coop : Option CoopStructure} (hcoop : CompiledStructure coop)
    {g h : String} (hs : serves (shareAdjacency coop) g h = true) :
    partitionKey coop (some g) = partitionKey coop (some h) := by
  rw [serves, decide_eq_true_eq] at hs
  rcases hs with rfl | hpartner
  · rfl
  · cases coop with
    | none => exact absurd hpartner List.not_mem_nil
    | some s =>
      obtain ⟨T, raw, ids, block, hblock, hmem⟩ := hcoop s rfl
      obtain ⟨-, -, hirrefl, ⟨hpart, -⟩, hsame, -⟩ :=
        compiled_structures_agree T raw ids block hblock s hmem
      obtain ⟨c, hc, hhc, hgc⟩ := hsame h g hpartner
      have hne : ¬ s.adjacency.entries.isEmpty = true := by
        intro hempty
        have hget : s.adjacency.get? g = none := by
          rw [Dict.get?, List.isEmpty_iff.mp hempty]
          rfl
        rw [shareAdjacency, partnersIn, hget] at hpartner
        exact absurd hpartner List.not_mem_nil
      have hgh : g ≠ h := by
        rintro rfl
        exact hirrefl g hpartner
      obtain ⟨idx, hidx⟩ := componentOf_get? (hpart.nodup_iff.mpr (SortedSet.nodup _)) hne hc
        (one_lt_length_of_mem hgh hgc hhc)
      rw [partitionKey, partitionKey, Option.map_some, Option.map_some, hidx g hgc, hidx h hhc]

/-! ## The book of a tick -/

section Book

variable {candidates : List Truck} {orders : List Order}

theorem trucksOf_fileByHaulier (h : String) :
    (fileByHaulier candidates orders).trucksOf h = candidates.filter fun t ↦
      t.haulier = some h := by
  rw [FleetBook.trucksOf, fileByHaulier]
  split
  · next hh =>
    refine (List.filter_eq_nil_iff.mpr fun t _ ht ↦ ?_).symm
    exact haulierOf_ne_empty (of_decide_eq_true ht) hh
  · exact Dict.getD_groupBy _ _ _

theorem ordersOf_fileByHaulier (h : String) :
    (fileByHaulier candidates orders).ordersOf h = orders.filter fun o ↦ o.haulier = some h := by
  rw [FleetBook.ordersOf, fileByHaulier]
  split
  · next hh =>
    refine (List.filter_eq_nil_iff.mpr fun o _ ho ↦ ?_).symm
    exact haulierOf_ne_empty (of_decide_eq_true ho) hh
  · exact Dict.getD_groupBy _ _ _

theorem mem_ordersOf_fileByHaulier {h : String} {o : Order} :
    o ∈ (fileByHaulier candidates orders).ordersOf h ↔ o ∈ orders ∧ o.haulier = some h := by
  rw [ordersOf_fileByHaulier, List.mem_filter, decide_eq_true_eq]

theorem mem_trucksOf_fileByHaulier {h : String} {t : Truck} :
    t ∈ (fileByHaulier candidates orders).trucksOf h ↔ t ∈ candidates ∧ t.haulier = some h := by
  rw [trucksOf_fileByHaulier, List.mem_filter, decide_eq_true_eq]

theorem filedTrucks_fileByHaulier :
    ((fileByHaulier candidates orders).filedTrucks.map Prod.snd).Perm
      (candidates.filter fun t ↦ t.haulier.isSome) := by
  have hread : (fileByHaulier candidates orders).filedTrucks.map Prod.snd =
      (sortedBy id (Dict.groupBy Truck.haulier candidates).keys).flatMap fun h ↦
        ((Dict.groupBy Truck.haulier candidates).get? h).getD [] := by
    rw [FleetBook.filedTrucks, List.map_flatMap]
    refine List.flatMap_congr fun h _ ↦ ?_
    rw [List.map_map, Dict.getD_groupBy, trucksOf_fileByHaulier]
    exact List.map_id _
  exact hread ▸ Dict.flatMap_keys_groupBy _ _ (sortedBy_perm id _)

theorem filedOrders_fileByHaulier :
    ((fileByHaulier candidates orders).filedOrders.map Prod.snd).Perm
      (orders.filter fun o ↦ o.haulier.isSome) := by
  have hread : (fileByHaulier candidates orders).filedOrders.map Prod.snd =
      (sortedBy id (Dict.groupBy Order.haulier orders).keys).flatMap fun h ↦
        ((Dict.groupBy Order.haulier orders).get? h).getD [] := by
    rw [FleetBook.filedOrders, List.map_flatMap]
    refine List.flatMap_congr fun h _ ↦ ?_
    rw [List.map_map, Dict.getD_groupBy, ordersOf_fileByHaulier]
    exact List.map_id _
  exact hread ▸ Dict.flatMap_keys_groupBy _ _ (sortedBy_perm id _)

/-- Documents with distinct ids make a well-filed book. -/
theorem fileByHaulier_wellFiled (ht : (candidates.map Truck.entityId).Nodup)
    (ho : (orders.map Order.entityId).Nodup) : (fileByHaulier candidates orders).WellFiled where
  truckIds_nodup := by
    have hperm := (@filedTrucks_fileByHaulier candidates orders).map Truck.entityId
    rw [List.map_map] at hperm
    exact hperm.nodup_iff.mpr (ht.sublist (List.filter_sublist.map _))
  orderIds_nodup := by
    have hperm := (@filedOrders_fileByHaulier candidates orders).map Order.entityId
    rw [List.map_map] at hperm
    exact hperm.nodup_iff.mpr (ho.sublist (List.filter_sublist.map _))
  truck_haulier h t htm := (mem_trucksOf_fileByHaulier.mp htm).2

end Book

/-! ## The candidates of both planners, order by order -/

/-- The hauliers of the fleet that serve a haulier. -/
def servingHauliers (coop : Option CoopStructure) (candidates : List Truck)
    (orderHaulier : String) :
    SortedSet String :=
  SortedSet.ofList ((candidates.filterMap Truck.haulier).filter
    (serves (shareAdjacency coop) · orderHaulier))

/-- The trucks that may serve a haulier, haulier by haulier. -/
def fleetByHaulier (coop : Option CoopStructure) (candidates : List Truck)
    (orderHaulier : String) : List Truck :=
  (servingHauliers coop candidates orderHaulier).toList.flatMap fun h ↦
    candidates.filter fun t ↦ t.haulier = some h

/-- The candidates of an order over a fleet, under a pair rule. -/
def orderCandidates (P : AssignmentProfile) (allowed : PairAllowed) (fleet : List Truck)
    (o : Order) : List Pair :=
  (((reached P.facilityCenter P.spatialParams fleet o).take P.spatialParams.perOrder).filter
    (allowed · o)).map (·, o)

theorem mem_eligibleTrucks {coop : Option CoopStructure} {trucks : List Truck} {h : String}
    {t : Truck} : t ∈ eligibleTrucks coop trucks h ↔
      t ∈ trucks ∧ ∃ g, t.haulier = some g ∧ serves (shareAdjacency coop) g h = true := by
  rw [eligibleTrucks, List.mem_filter]
  refine and_congr_right fun _ ↦ ?_
  cases t.haulier <;> simp

/-- **The same trucks, listed haulier by haulier.** -/
theorem fleetByHaulier_perm (coop : Option CoopStructure) (candidates : List Truck) (h : String) :
    (fleetByHaulier coop candidates h).Perm (eligibleTrucks coop candidates h) := by
  have hkeys : (servingHauliers coop candidates h).toList.Perm
      (Dict.groupBy Truck.haulier (eligibleTrucks coop candidates h)).keys := by
    refine (List.perm_ext_iff_of_nodup (SortedSet.nodup _) (Dict.nodup _)).mpr fun g ↦ ?_
    rw [← Dict.keys, Dict.mem_keys_groupBy, ← SortedSet.mem_def, servingHauliers,
      SortedSet.mem_ofList, List.mem_filter, List.mem_filterMap]
    simp only [mem_eligibleTrucks]
    constructor
    · rintro ⟨⟨t, ht, hg⟩, hs⟩
      exact ⟨t, ⟨ht, g, hg, hs⟩, hg⟩
    · rintro ⟨t, ⟨ht, g', hg', hs⟩, hg⟩
      obtain rfl := Option.some_inj.mp (hg'.symm.trans hg)
      exact ⟨⟨t, ht, hg⟩, hs⟩
  have hread : fleetByHaulier coop candidates h =
      (servingHauliers coop candidates h).toList.flatMap fun g ↦
        ((Dict.groupBy Truck.haulier (eligibleTrucks coop candidates h)).get? g).getD [] := by
    refine List.flatMap_congr fun g hg ↦ ?_
    have hserves := (List.mem_filter.mp (SortedSet.mem_ofList.mp (SortedSet.mem_def.mpr hg))).2
    rw [Dict.getD_groupBy, eligibleTrucks, List.filter_filter]
    refine List.filter_congr fun t _ ↦ ?_
    by_cases ht : t.haulier = some g
    · simp [ht, hserves]
    · simp [ht]
  refine hread ▸ (Dict.flatMap_keys_groupBy _ _ hkeys).trans
    (List.Perm.of_eq (List.filter_eq_self.mpr fun t ht ↦ ?_))
  obtain ⟨-, g, hg, -⟩ := mem_eligibleTrucks.mp ht
  rw [hg]
  rfl

theorem length_orderCandidates (P : AssignmentProfile) (allowed : PairAllowed) (fleet : List Truck)
    (o : Order) : (orderCandidates P allowed fleet o).length =
      ((reachedBuckets P.facilityCenter P.spatialParams fleet o).flatten.take
        P.spatialParams.perOrder).countP (allowed · o) := by
  rw [orderCandidates, List.length_map, flatten_reachedBuckets, List.countP_eq_length_filter]

/-- Two pair rules that agree on a fleet build the same candidates from it. -/
theorem orderCandidates_congr {P : AssignmentProfile} {allowed allowed' : PairAllowed}
    {fleet : List Truck} {o : Order} (h : ∀ t ∈ fleet, allowed t o = allowed' t o) :
    orderCandidates P allowed fleet o = orderCandidates P allowed' fleet o := by
  exact congrArg _ (List.filter_congr fun t ht ↦
    h t (mem_reached.mp (List.mem_of_mem_take ht)).1)

/-- Between trucks and orders that serve each other both planners decide by feasibility alone. -/
theorem partitionedAllowed_of_serves {P : AssignmentProfile} {coop : Option CoopStructure}
    {t : Truck} {o : Order} {g h : String} (ht : t.haulier = some g) (ho : o.haulier = some h)
    (hs : serves (shareAdjacency coop) g h = true) :
    partitionedAllowed P coop t o = P.pairAllowedIgnoringHaulier t o := by
  rw [serves, decide_eq_true_eq] at hs
  rw [partitionedAllowed, AssignmentProfile.pairAllowed]
  by_cases hgh : g = h
  · have hmatch : haulierMatches t o = true := by
      rw [haulierMatches, ht, ho]
      exact decide_eq_true hgh
    rw [hmatch, if_pos rfl, Bool.true_and]
  · have hmatch : haulierMatches t o = false := by
      rw [haulierMatches, ht, ho]
      exact decide_eq_false hgh
    have hpartner := hs.resolve_left hgh
    have helig : shareEligible (shareAdjacency coop) t o = true := by
      rw [shareEligible, ht, ho]
      exact decide_eq_true ⟨hgh, hpartner⟩
    have hne : (shareAdjacency coop).entries.isEmpty = false := by
      rw [Bool.eq_false_iff]
      intro hempty
      rw [partnersIn, Dict.get?, List.isEmpty_iff.mp hempty] at hpartner
      exact absurd hpartner List.not_mem_nil
    rw [hmatch, helig, hne]
    rfl

/-- Reading the bucket of a haulier loses none of the trucks that may serve it. -/
theorem eligibleTrucks_bucket {coop : Option CoopStructure} (hcoop : CompiledStructure coop)
    (candidates : List Truck) {h : String} {key : PartitionKey}
    (hkey : partitionKey coop (some h) = some key) :
    eligibleTrucks coop (((truckBuckets coop candidates).get? key).getD []) h =
      eligibleTrucks coop candidates h := by
  rw [truckBuckets, Dict.getD_groupBy, eligibleTrucks, eligibleTrucks, List.filter_filter]
  refine List.filter_congr fun t _ ↦ ?_
  rw [Bool.and_eq_left_iff_imp]
  cases hg : t.haulier with
  | none => exact fun hs ↦ absurd hs Bool.false_ne_true
  | some g =>
    intro hs
    rw [partitionKey_eq_of_serves hcoop hs]
    exact decide_eq_true hkey

theorem bucketPairs_nil (P : AssignmentProfile) (coop : Option CoopStructure) (os : List Order) :
    bucketPairs P coop [] os = [] :=
  List.flatMap_eq_nil_iff.mpr fun _ _ ↦ rfl

/-- The candidates of an order over the fleets that serve its haulier, listed by `fleet`. -/
def servedCandidates (P : AssignmentProfile) (fleet : String → List Truck) (o : Order) :
    List Pair :=
  o.haulier.elim [] fun h ↦ orderCandidates P P.pairAllowedIgnoringHaulier (fleet h) o

theorem servedCandidates_none {P : AssignmentProfile} {fleet : String → List Truck} {o : Order}
    (ho : o.haulier.isSome = false) : servedCandidates P fleet o = [] := by
  rw [servedCandidates, Option.isNone_iff_eq_none.mp (Option.isSome_eq_false_iff.mp ho)]
  rfl

theorem bucketPairs_perm (P : AssignmentProfile) {coop : Option CoopStructure}
    (hcoop : CompiledStructure coop) (candidates : List Truck) {key : PartitionKey}
    {os : List Order} (hos : ∀ o ∈ os, partitionKey coop o.haulier = some key) :
    (bucketPairs P coop (((truckBuckets coop candidates).get? key).getD []) os).Perm
      (os.flatMap (servedCandidates P (eligibleTrucks coop candidates))) := by
  rw [← flatMap_filter_eq (fun o ↦ @servedCandidates_none P (eligibleTrucks coop candidates) o) os,
    bucketPairs]
  simp only [iterCandidatePairs_eq]
  refine @Dict.flatMap_entries_groupBy String Order _ Pair Order.haulier os
    (fun h ↦ orderCandidates P (partitionedAllowed P coop)
      (eligibleTrucks coop (((truckBuckets coop candidates).get? key).getD []) h))
    _ fun h o ho hh ↦ ?_
  rw [servedCandidates, hh, Option.elim_some, eligibleTrucks_bucket hcoop candidates
    (hh ▸ hos o ho)]
  refine orderCandidates_congr fun t ht ↦ ?_
  obtain ⟨-, g, hg, hs⟩ := mem_eligibleTrucks.mp ht
  exact partitionedAllowed_of_serves hg hh hs

/-- **The partitioned planner's candidates**, order by order. -/
theorem partitionedPairs_perm (P : AssignmentProfile) {coop : Option CoopStructure}
    (hcoop : CompiledStructure coop) (candidates : List Truck) (orders : List Order) :
    (partitionedPairs P coop candidates orders).Perm
      (orders.flatMap (servedCandidates P (eligibleTrucks coop candidates))) := by
  have hread : partitionedPairs P coop candidates orders =
      (orderBuckets coop orders).entries.flatMap fun b ↦
        bucketPairs P coop (((truckBuckets coop candidates).get? b.1).getD []) b.2 := by
    refine List.flatMap_congr fun b _ ↦ ?_
    cases (truckBuckets coop candidates).get? b.1 with
    | none => rw [Option.getD_none, bucketPairs_nil]
    | some ts => rfl
  have hnone : ∀ o : Order, (partitionKey coop o.haulier).isSome = false →
      servedCandidates P (eligibleTrucks coop candidates) o = [] := by
    intro o ho
    rw [partitionKey, Option.isSome_map] at ho
    exact servedCandidates_none ho
  rw [hread, ← flatMap_filter_eq hnone]
  refine (List.Perm.flatMap_left _ fun b hb ↦ bucketPairs_perm P hcoop candidates fun o ho ↦
    (Dict.mem_of_get?_groupBy (Dict.mem_entries_iff.mp hb) ho).2).trans ?_
  exact @Dict.flatMap_entries_groupBy PartitionKey Order _ Pair
    (fun o ↦ partitionKey coop o.haulier) orders
    (fun _ ↦ servedCandidates P (eligibleTrucks coop candidates)) _ fun _ _ _ _ ↦ rfl

/-! ## The candidates of the pooled planner -/

theorem contributeAll_free {σ : Type} (ctx : PooledPlannerContext σ) (fb : FleetBook)
    (pools : List Pool) (s : σ) :
    (∀ x, (contributeAll ctx fb (init pools) s).1.isOrderFree x = true) ∧
      ∀ x, (contributeAll ctx fb (init pools) s).1.isTruckFree x = true := by
  obtain ⟨hm, haw, -⟩ := @contributeAll_safe (fun _ _ _ ↦ True) fb σ ctx pools s
  have ho := hm.ledger.orders
  have ht := hm.ledger.trucks
  rw [haw, List.map_nil] at ho ht
  exact ⟨fun x ↦ by rw [isOrderFree, ho]; rfl, fun x ↦ by rw [isTruckFree, ht]; rfl⟩

theorem freeOrders_perm {fb : FleetBook} (hfb : fb.WellFiled) {m : PoolMarket}
    (hfree : ∀ x, m.isOrderFree x = true) :
    (freeOrders fb m).Perm (fb.filedOrders.map Prod.snd) := by
  refine (List.perm_ext_iff_of_nodup (freeOrders_nodup hfb m) ?_).mpr fun o ↦ ?_
  · refine List.Nodup.of_map Order.entityId ?_
    rw [List.map_map]
    exact hfb.orderIds_nodup
  · rw [mem_freeOrders hfb, List.mem_map]
    constructor
    · rintro ⟨⟨h, ho⟩, -⟩
      exact ⟨(h, o), FleetBook.mem_filedOrders.mpr ho, rfl⟩
    · rintro ⟨⟨h, o'⟩, ho, rfl⟩
      exact ⟨⟨h, FleetBook.mem_filedOrders.mp ho⟩, hfree _⟩

theorem mem_companyIds_of_mem_ordersOf {fb : FleetBook} {h : String} {o : Order}
    (ho : o ∈ fb.ordersOf h) : h ∈ fb.companyIds := by
  refine SortedSet.mem_def.mp (SortedSet.mem_ofList.mpr (List.mem_filter.mpr ⟨?_, ?_⟩))
  · refine List.mem_append_right _ (Dict.mem_keys_iff.mpr ?_)
    rw [FleetBook.ordersOf, if_neg (ne_empty_of_mem_ordersOf ho)] at ho
    cases hg : fb.ordersByHaulier.get? h with
    | none => exact absurd (hg ▸ ho) List.not_mem_nil
    | some os => exact ⟨os, rfl⟩
  · exact decide_eq_true (ne_empty_of_mem_ordersOf ho)

section FirstRound

variable {σ : Type} (R : Runtime σ) (P : AssignmentProfile) {coop : Option CoopStructure}
  (claim : ClaimPolicy σ) (arbitration : ArbitrationRule) {candidates : List Truck}
  {orders : List Order}

theorem usesSpatial_pooledContext (hu : P.useSpatial = true) (offer : OfferPolicy σ) :
    usesSpatial (pooledContext R P offer claim arbitration) = true := by
  rw [usesSpatial, pooledContext, hu]
  rfl

/-- The market the first round starts with when every company offers everything. -/
def openedMarket (coop : Option CoopStructure) (candidates : List Truck) (orders : List Order)
    (s : σ) : PoolMarket :=
  (contributeAll (pooledContext R P offerAll claim arbitration) (fileByHaulier candidates orders)
    (init (marketPools coop)) s).1

/-- The carriers of an order are the hauliers that serve its own. -/
theorem mem_carriers_iff_serves (hcoop : CompiledStructure coop)
    (hfb : (fileByHaulier candidates orders).WellFiled)
    (hid : ∀ o ∈ orders, ∃ oid, o.id = some oid ∧ oid ≠ "") {o : Order} {h g : String}
    (ho : o ∈ orders) (hh : o.haulier = some h) (hg : g ≠ "") (s : σ) :
    g ∈ (openedMarket R P claim arbitration coop candidates orders s).eligibleCarriers
        o.entityId h ↔ serves (shareAdjacency coop) g h = true := by
  have hoh := (@mem_ordersOf_fileByHaulier candidates orders h o).mpr ⟨ho, hh⟩
  have how := hfb.ownerOf_eq_some.mpr ⟨o, hoh, rfl⟩
  rw [mem_eligibleCarriers, openedMarket, visible_contributeAll rfl,
    ← mayCarry_iff_serves hcoop hg (haulierOf_ne_empty hh), mayCarry, decide_eq_true_eq]
  refine or_congr_right ⟨?_, fun hshare ↦ ⟨h, ?_, how, ?_, ?_⟩⟩
  · rintro ⟨h', -, how', -, p, hp, hmem⟩
    obtain rfl := Option.some_inj.mp (how.symm.trans how')
    exact List.any_eq_true.mpr ⟨p, hp, decide_eq_true hmem⟩
  · exact mem_companyIds_of_mem_ordersOf hoh
  · obtain ⟨oid, hoid, hne⟩ := hid o ho
    refine List.mem_map.mpr ⟨(oid, o), List.mem_filterMap.mpr ⟨o, hoh, ?_⟩, ?_⟩
    · rw [hoid]
      simp [hh]
    · rw [Order.entityId, hoid]
      rfl
  · obtain ⟨p, hp, hmem⟩ := List.any_eq_true.mp hshare
    exact ⟨p, hp, of_decide_eq_true hmem⟩

/-- In the first round the carriers of an order bring the fleet that serves it, haulier by
haulier. -/
theorem carriers_fleet (hcoop : CompiledStructure coop)
    (hfb : (fileByHaulier candidates orders).WellFiled)
    (hid : ∀ o ∈ orders, ∃ oid, o.id = some oid ∧ oid ≠ "") {o : Order} {h : String}
    (ho : o ∈ orders) (hh : o.haulier = some h) (s : σ) :
    ((openedMarket R P claim arbitration coop candidates orders s).eligibleCarriers
        o.entityId h).toList.flatMap (freeTrucks (fileByHaulier candidates orders)
          (openedMarket R P claim arbitration coop candidates orders s)) =
      fleetByHaulier coop candidates h := by
  have hfree : ∀ g, freeTrucks (fileByHaulier candidates orders)
      (openedMarket R P claim arbitration coop candidates orders s) g =
        candidates.filter fun t ↦ t.haulier = some g := by
    intro g
    rw [freeTrucks, openedMarket, ← @trucksOf_fileByHaulier candidates orders g]
    exact List.filter_eq_self.mpr fun t _ ↦ (contributeAll_free _ _ _ _).2 _
  have hdrop : ∀ g, decide (g ∈ candidates.filterMap Truck.haulier) = false →
      (candidates.filter fun t ↦ t.haulier = some g) = [] := by
    intro g hg
    refine List.filter_eq_nil_iff.mpr fun t ht hgt ↦ ?_
    exact of_decide_eq_false hg (List.mem_filterMap.mpr ⟨t, ht, of_decide_eq_true hgt⟩)
  rw [fleetByHaulier, funext hfree, ← flatMap_filter_eq hdrop]
  refine congrArg (List.flatMap _) ?_
  -- both are the sorted list of the hauliers with trucks that serve `h`
  refine congrArg SortedSet.toList (@SortedSet.ext _ _
    ⟨_, ((openedMarket R P claim arbitration coop candidates orders s).eligibleCarriers
      o.entityId h).sorted.filter _⟩ (servingHauliers coop candidates h) fun g ↦ ?_)
  rw [SortedSet.mem_def, List.mem_filter, ← SortedSet.mem_def, decide_eq_true_eq,
    servingHauliers, SortedSet.mem_ofList, List.mem_filter, and_comm]
  refine and_congr_right fun hg ↦ ?_
  obtain ⟨t, -, htg⟩ := List.mem_filterMap.mp hg
  exact mem_carriers_iff_serves R P claim arbitration hcoop hfb hid ho hh
    (haulierOf_ne_empty htg) s

/-- On the fleet that serves an order the carrier's rule is feasibility alone. -/
theorem allowedForCarrier_eq {offer : OfferPolicy σ} {t : Truck} {o : Order} {g : String}
    (ht : t.haulier = some g) :
    allowedForCarrier (pooledContext R P offer claim arbitration) t o =
      P.pairAllowedIgnoringHaulier t o := by
  rw [allowedForCarrier, ht]
  dsimp only
  rw [pairAllowedFor]
  split
  · next ho =>
    have hmatch : haulierMatches t o = true := by
      rw [haulierMatches, ht, ho]
      exact decide_eq_true rfl
    have hstrict : P.pairAllowed t o = P.pairAllowedIgnoringHaulier t o := by
      rw [AssignmentProfile.pairAllowed, hmatch, Bool.true_and]
    exact hstrict
  · rfl

theorem haulier_of_mem_fleetByHaulier {h : String} {t : Truck}
    (ht : t ∈ fleetByHaulier coop candidates h) : ∃ g, t.haulier = some g := by
  obtain ⟨-, g, hg, -⟩ :=
    mem_eligibleTrucks.mp ((fleetByHaulier_perm coop candidates h).mem_iff.mp ht)
  exact ⟨g, hg⟩

theorem haulier_of_mem_servedCandidates {o : Order} {p : Pair}
    (hp : p ∈ servedCandidates P (fleetByHaulier coop candidates) o) :
    p.1.haulier.isSome = true := by
  rw [servedCandidates] at hp
  cases ho : o.haulier with
  | none =>
    rw [ho] at hp
    exact absurd hp List.not_mem_nil
  | some h =>
    rw [ho, Option.elim_some, orderCandidates] at hp
    obtain ⟨t, ht, rfl⟩ := List.mem_map.mp hp
    obtain ⟨g, hg⟩ := haulier_of_mem_fleetByHaulier
      (mem_reached.mp (List.mem_of_mem_take (List.mem_filter.mp ht).1)).1
    exact Option.isSome_iff_exists.mpr ⟨g, hg⟩

section Groups

variable (hfb : (fileByHaulier candidates orders).WellFiled) {m : PoolMarket} {s : σ}
  (hm : openedMarket R P claim arbitration coop candidates orders s = m)
include hfb hm

/-- In the first round all orders of a haulier are free. -/
theorem freeOrders_openedMarket : (freeOrders (fileByHaulier candidates orders) m).Perm
    (orders.filter fun o ↦ o.haulier.isSome) :=
  (freeOrders_perm hfb (hm ▸ (contributeAll_free _ _ _ _).1)).trans filedOrders_fileByHaulier

variable (hcoop : CompiledStructure coop)
  (hid : ∀ o ∈ orders, ∃ oid, o.id = some oid ∧ oid ≠ "")
include hcoop hid

/-- The group of a free order looks at the fleets that serve its haulier. -/
theorem carriersOf_openedMarket {o : Order} (ho : o ∈ orders) {h : String}
    (hh : o.haulier = some h) : ∃ carriers,
      carriersOf (fileByHaulier candidates orders) m o = some carriers ∧
        carriers.toList.flatMap (freeTrucks (fileByHaulier candidates orders) m) =
          fleetByHaulier coop candidates h := by
  have how := hfb.ownerOf_eq_some.mpr ⟨o, mem_ordersOf_fileByHaulier.mpr ⟨ho, hh⟩, rfl⟩
  refine ⟨m.eligibleCarriers o.entityId h, ?_, ?_⟩
  · rw [carriersOf, how]
    dsimp only
    rw [if_neg (haulierOf_ne_empty hh)]
  · rw [← hm]
    exact carriers_fleet R P claim arbitration hcoop hfb hid ho hh s

/-- **The pooled planner's candidates of the first round**, order by order. -/
theorem buildRoundCandidates_perm :
    (buildRoundCandidates (pooledContext R P offerAll claim arbitration)
        (fileByHaulier candidates orders) (freeTrucks (fileByHaulier candidates orders) m)
        (freeOrders (fileByHaulier candidates orders) m) m).values.flatten.Perm
      (orders.flatMap (servedCandidates P (fleetByHaulier coop candidates))) := by
  have hfo := freeOrders_openedMarket R P claim arbitration hfb hm
  have hread : ∀ o ∈ freeOrders (fileByHaulier candidates orders) m, ∃ h carriers,
      o.haulier = some h ∧ carriersOf (fileByHaulier candidates orders) m o = some carriers ∧
        carriers.toList.flatMap (freeTrucks (fileByHaulier candidates orders) m) =
          fleetByHaulier coop candidates h := by
    intro o ho
    obtain ⟨hoo, hsome⟩ := List.mem_filter.mp (hfo.mem_iff.mp ho)
    obtain ⟨h, hh⟩ := Option.isSome_iff_exists.mp hsome
    obtain ⟨carriers, hc, hfleet⟩ :=
      carriersOf_openedMarket R P claim arbitration hfb hm hcoop hid hoo hh
    exact ⟨h, carriers, hh, hc, hfleet⟩
  have hgroup : ∀ carriers, ∀ o ∈ freeOrders (fileByHaulier candidates orders) m,
      carriersOf (fileByHaulier candidates orders) m o = some carriers →
        orderCandidates P (allowedForCarrier (pooledContext R P offerAll claim arbitration))
          (carriers.toList.flatMap (freeTrucks (fileByHaulier candidates orders) m)) o =
        servedCandidates P (fleetByHaulier coop candidates) o := by
    intro carriers o ho hc
    obtain ⟨h, carriers', hh, hc', hfleet⟩ := hread o ho
    obtain rfl := Option.some_inj.mp (hc.symm.trans hc')
    rw [hfleet, servedCandidates, hh, Option.elim_some]
    refine orderCandidates_congr fun t ht ↦ ?_
    obtain ⟨g, hg⟩ := haulier_of_mem_fleetByHaulier ht
    exact allowedForCarrier_eq R P claim arbitration hg
  have hsome : ∀ o ∈ freeOrders (fileByHaulier candidates orders) m,
      (carriersOf (fileByHaulier candidates orders) m o).isSome = true := by
    intro o ho
    obtain ⟨-, carriers, -, hc, -⟩ := hread o ho
    exact Option.isSome_iff_exists.mpr ⟨carriers, hc⟩
  rw [buildRoundCandidates]
  refine (Dict.flatten_values_groupBy _ _).trans ?_
  have hpairs : ((sortedBy SortedSet.toList (Dict.groupBy
        (carriersOf (fileByHaulier candidates orders) m)
        (freeOrders (fileByHaulier candidates orders) m)).keys).flatMap fun carriers ↦
          groupCandidates (pooledContext R P offerAll claim arbitration)
            (freeTrucks (fileByHaulier candidates orders) m) carriers
            (((Dict.groupBy (carriersOf (fileByHaulier candidates orders) m)
              (freeOrders (fileByHaulier candidates orders) m)).get? carriers).getD [])).Perm
      (orders.flatMap (servedCandidates P (fleetByHaulier coop candidates))) := by
    refine ((sortedBy_perm _ _).flatMap_right _).trans ?_
    rw [Dict.flatMap_keys _ fun carriers os ↦
      groupCandidates (pooledContext R P offerAll claim arbitration)
        (freeTrucks (fileByHaulier candidates orders) m) carriers os]
    simp only [groupCandidates, iterCandidatePairs_eq]
    refine (@Dict.flatMap_entries_groupBy (SortedSet String) Order _ Pair
      (carriersOf (fileByHaulier candidates orders) m)
      (freeOrders (fileByHaulier candidates orders) m)
      (fun carriers ↦ orderCandidates P
        (allowedForCarrier (pooledContext R P offerAll claim arbitration))
        (carriers.toList.flatMap (freeTrucks (fileByHaulier candidates orders) m)))
      (servedCandidates P (fleetByHaulier coop candidates)) hgroup).trans ?_
    rw [List.filter_eq_self.mpr hsome, ← flatMap_filter_eq (fun o ↦
      @servedCandidates_none P (fleetByHaulier coop candidates) o) orders]
    exact hfo.flatMap_right _
  refine (hpairs.filter _).trans (List.Perm.of_eq (List.filter_eq_self.mpr fun p hp ↦ ?_))
  obtain ⟨o, -, ho⟩ := List.mem_flatMap.mp hp
  exact haulier_of_mem_servedCandidates P ho

end Groups

end FirstRound

/-! ## Parity -/

/-- How many trucks of the cell the cap cuts through it keeps for an order that the pair rule lets
through; an order without a haulier has no trucks. -/
def cutAllowed (P : AssignmentProfile) (fleet : String → List Truck) (o : Order) : ℕ :=
  o.haulier.elim 0 fun h ↦
    (cutPart P.spatialParams.perOrder
      (reachedBuckets P.facilityCenter P.spatialParams (fleet h) o)).countP
        (P.pairAllowedIgnoringHaulier · o)

/-- For one order the two planners differ by what they keep of the cell the cap goes through. -/
theorem length_servedCandidates_add (P : AssignmentProfile) {fleet fleet' : String → List Truck}
    (hfleet : ∀ h, (fleet h).Perm (fleet' h)) (o : Order) :
    (servedCandidates P fleet o).length + cutAllowed P fleet' o =
      (servedCandidates P fleet' o).length + cutAllowed P fleet o := by
  rw [servedCandidates, servedCandidates, cutAllowed, cutAllowed]
  cases o.haulier with
  | none => rfl
  | some h =>
    rw [Option.elim_some, Option.elim_some, Option.elim_some, Option.elim_some,
      length_orderCandidates, length_orderCandidates]
    exact countP_take_flatten_add _ (reachedBuckets_perm (hfleet h)) _

/-! ## Positions without a cell -/

/-- `build_round_candidates`, whose first group with a position that has no cell raises. -/
def buildRoundCandidatesAt {σ : Type} (ctx : PooledPlannerContext σ) (fb : FleetBook)
    (m : PoolMarket) : Except PyExc (Dict String (List Pair)) := do
  let groups := Dict.groupBy (carriersOf fb m) (freeOrders fb m)
  let pairs ← each (fun carriers ↦
    allPairs (iterPairs ctx.facilityCenter ctx.spatialParams
      (carriers.toList.flatMap (freeTrucks fb m)) ((groups.get? carriers).getD [])
      (allowedForCarrier ctx))) (sortedBy SortedSet.toList groups.keys)
  return Dict.groupBy (fun p ↦ p.1.haulier) pairs.flatten

section PartitionedAt

variable (P : AssignmentProfile) (coop : Option CoopStructure)

/-- The candidate pairs `_solve_bucket` builds, if every position it looks up has a cell. -/
def bucketPairsAt (bucketTrucks : List Truck) (bucketOrders : List Order) :
    Except PyExc (List Pair) := do
  let pairs ← each (fun g ↦
    allPairs (iterPairs P.facilityCenter P.spatialParams (eligibleTrucks coop bucketTrucks g.1)
      g.2 (partitionedAllowed P coop))) (Dict.groupBy Order.haulier bucketOrders).entries
  return pairs.flatten

/-- All candidate pairs the partitioned path builds in a tick, if it builds them. -/
def partitionedPairsAt (candidates : List Truck) (orders : List Order) :
    Except PyExc (List Pair) := do
  let pairs ← each (fun b ↦
    match (truckBuckets coop candidates).get? b.1 with
    | none => .ok []
    | some bucketTrucks => bucketPairsAt P coop bucketTrucks b.2) (orderBuckets coop orders).entries
  return pairs.flatten

/-- The candidates of an order can be drawn from the fleets that serve its haulier. -/
def ServedDrawable (candidates : List Truck) (o : Order) : Prop :=
  ∀ h, o.haulier = some h →
    Drawable P.facilityCenter P.spatialParams (eligibleTrucks coop candidates h) o

variable {P} {coop} {candidates : List Truck} {orders : List Order}

theorem bucketPairsAt_eq_ok {bucketTrucks : List Truck} {bucketOrders : List Order}
    {ps : List Pair} : bucketPairsAt P coop bucketTrucks bucketOrders = .ok ps ↔
      (∀ o ∈ bucketOrders, ServedDrawable P coop bucketTrucks o) ∧
        ps = bucketPairs P coop bucketTrucks bucketOrders := by
  simp only [ServedDrawable]
  rw [bucketPairsAt, bind_eq_ok, ← Dict.forall_groupBy, bucketPairs, List.flatMap_def]
  simp only [each_eq_ok_iff fun g _ ps ↦ allPairs_eq_ok]
  constructor
  · rintro ⟨_, ⟨hall, rfl⟩, h⟩
    exact ⟨hall, (Except.ok.inj h).symm⟩
  · rintro ⟨hall, rfl⟩
    exact ⟨_, ⟨hall, rfl⟩, rfl⟩

/-- A bucket has all the trucks that its orders are drawn from. -/
theorem servedDrawable_bucket (hcoop : CompiledStructure coop) {key : PartitionKey} {o : Order}
    (hkey : partitionKey coop o.haulier = some key) :
    ServedDrawable P coop (((truckBuckets coop candidates).get? key).getD []) o ↔
      ServedDrawable P coop candidates o := by
  refine forall_congr' fun h ↦ forall_congr' fun hh ↦ ?_
  rw [eligibleTrucks_bucket hcoop candidates (hh ▸ hkey)]

/-- **When the partitioned planner has all its candidates.** -/
theorem partitionedPairsAt_eq_ok (hcoop : CompiledStructure coop) {ps : List Pair} :
    partitionedPairsAt P coop candidates orders = .ok ps ↔
      (∀ o ∈ orders, ServedDrawable P coop candidates o) ∧
        ps = partitionedPairs P coop candidates orders := by
  have hbucket : ∀ b ∈ (orderBuckets coop orders).entries, ∀ ps : List Pair,
      (match (truckBuckets coop candidates).get? b.1 with
        | none => .ok []
        | some bucketTrucks => bucketPairsAt P coop bucketTrucks b.2 : Except PyExc _) = .ok ps ↔
      (∀ o ∈ b.2, ServedDrawable P coop candidates o) ∧
        ps = match (truckBuckets coop candidates).get? b.1 with
          | none => []
          | some bucketTrucks => bucketPairs P coop bucketTrucks b.2 := by
    intro b hb ps
    have hdraw : (∀ o ∈ b.2, ServedDrawable P coop candidates o) ↔ ∀ o ∈ b.2,
        ServedDrawable P coop (((truckBuckets coop candidates).get? b.1).getD []) o := by
      refine forall_congr' fun o ↦ forall_congr' fun ho ↦ (servedDrawable_bucket hcoop ?_).symm
      exact (Dict.mem_of_get?_groupBy (Dict.mem_entries_iff.mp hb) ho).2
    rw [hdraw]
    cases (truckBuckets coop candidates).get? b.1 with
    | some ts => exact bucketPairsAt_eq_ok
    | none =>
      rw [Except.ok.injEq, eq_comm]
      exact (and_iff_right fun o ho h hh ↦ Or.inl rfl).symm
  have hall : (∀ o ∈ orders, ServedDrawable P coop candidates o) ↔
      ∀ b ∈ (orderBuckets coop orders).entries, ∀ o ∈ b.2, ServedDrawable P coop candidates o := by
    refine Iff.trans ?_ (@Dict.forall_groupBy _ _ _ _ _
      fun _ ↦ ServedDrawable P coop candidates).symm
    refine forall_congr' fun o ↦ forall_congr' fun ho ↦ ?_
    constructor
    · exact fun h _ _ ↦ h
    · intro h g hg
      exact h _ (by rw [partitionKey, hg, Option.map_some]) g hg
  rw [partitionedPairsAt, bind_eq_ok, hall, partitionedPairs, List.flatMap_def]
  simp only [each_eq_ok_iff hbucket]
  constructor
  · rintro ⟨_, ⟨hall, rfl⟩, h⟩
    exact ⟨hall, (Except.ok.inj h).symm⟩
  · rintro ⟨hall, rfl⟩
    exact ⟨_, ⟨hall, rfl⟩, rfl⟩

end PartitionedAt

/-- **When a round has all its candidates.** -/
theorem buildRoundCandidatesAt_eq_ok {σ : Type} {ctx : PooledPlannerContext σ} {fb : FleetBook}
    {m : PoolMarket} {d : Dict String (List Pair)} : buildRoundCandidatesAt ctx fb m = .ok d ↔
      (∀ o ∈ freeOrders fb m, ∀ carriers, carriersOf fb m o = some carriers →
        Drawable ctx.facilityCenter ctx.spatialParams
          (carriers.toList.flatMap (freeTrucks fb m)) o) ∧
        d = buildRoundCandidates ctx fb (freeTrucks fb m) (freeOrders fb m) m := by
  have hgroups : (∀ o ∈ freeOrders fb m, ∀ carriers, carriersOf fb m o = some carriers →
        Drawable ctx.facilityCenter ctx.spatialParams
          (carriers.toList.flatMap (freeTrucks fb m)) o) ↔
      ∀ carriers ∈ sortedBy SortedSet.toList
        (Dict.groupBy (carriersOf fb m) (freeOrders fb m)).keys,
        ∀ o ∈ ((Dict.groupBy (carriersOf fb m) (freeOrders fb m)).get? carriers).getD [],
          Drawable ctx.facilityCenter ctx.spatialParams
            (carriers.toList.flatMap (freeTrucks fb m)) o := by
    simp only [mem_sortedBy, Dict.mem_keys_groupBy, Dict.getD_groupBy, List.mem_filter,
      decide_eq_true_eq]
    constructor
    · exact fun h carriers _ o ho ↦ h o ho.1 carriers ho.2
    · exact fun h o ho carriers hc ↦ h carriers ⟨o, ho, hc⟩ o ⟨ho, hc⟩
  rw [buildRoundCandidatesAt, bind_eq_ok, hgroups, buildRoundCandidates, List.flatMap_def]
  simp only [each_eq_ok_iff fun carriers _ ps ↦ allPairs_eq_ok]
  constructor
  · rintro ⟨_, ⟨hall, rfl⟩, h⟩
    exact ⟨hall, (Except.ok.inj h).symm⟩
  · rintro ⟨hall, rfl⟩
    exact ⟨_, ⟨hall, rfl⟩, rfl⟩

section Parity

variable {σ : Type} (R : Runtime σ) (P : AssignmentProfile) {coop : Option CoopStructure}
  (hcoop : CompiledStructure coop) (claim : ClaimPolicy σ) (arbitration : ArbitrationRule)
  {candidates : List Truck} {orders : List Order}
  (ht : (candidates.map Truck.entityId).Nodup) (ho : (orders.map Order.entityId).Nodup)
  (hid : ∀ o ∈ orders, ∃ oid, o.id = some oid ∧ oid ≠ "") (s : σ)
include hcoop ht ho hid

/-- **When the first round has all its candidates**: just when the partitioned planner does. -/
theorem firstRound_eq_ok {d : Dict String (List Pair)} :
    buildRoundCandidatesAt (pooledContext R P offerAll claim arbitration)
        (fileByHaulier candidates orders)
        (openedMarket R P claim arbitration coop candidates orders s) = .ok d ↔
      (∀ o ∈ orders, ServedDrawable P coop candidates o) ∧
        d = buildRoundCandidates (pooledContext R P offerAll claim arbitration)
          (fileByHaulier candidates orders)
          (freeTrucks (fileByHaulier candidates orders)
            (openedMarket R P claim arbitration coop candidates orders s))
          (freeOrders (fileByHaulier candidates orders)
            (openedMarket R P claim arbitration coop candidates orders s))
          (openedMarket R P claim arbitration coop candidates orders s) := by
  have hfb := fileByHaulier_wellFiled ht ho
  rw [buildRoundCandidatesAt_eq_ok]
  generalize hm : openedMarket R P claim arbitration coop candidates orders s = m
  refine and_congr_left' ?_
  have hfo := freeOrders_openedMarket R P claim arbitration hfb hm
  constructor
  · intro h o hoo g hg
    obtain ⟨carriers, hc, hfleet⟩ :=
      carriersOf_openedMarket R P claim arbitration hfb hm hcoop hid hoo hg
    have hfree := hfo.mem_iff.mpr (List.mem_filter.mpr ⟨hoo, Option.isSome_iff_exists.mpr ⟨g, hg⟩⟩)
    exact (drawable_perm (fleetByHaulier_perm coop candidates g)).mp
      (hfleet ▸ h o hfree carriers hc)
  · intro h o hfree carriers hc
    obtain ⟨hoo, hsome⟩ := List.mem_filter.mp (hfo.mem_iff.mp hfree)
    obtain ⟨g, hg⟩ := Option.isSome_iff_exists.mp hsome
    obtain ⟨carriers', hc', hfleet⟩ :=
      carriersOf_openedMarket R P claim arbitration hfb hm hcoop hid hoo hg
    obtain rfl := Option.some_inj.mp (hc.symm.trans hc')
    exact hfleet ▸ (drawable_perm (fleetByHaulier_perm coop candidates g)).mpr (h o hoo g hg)

/-- The two totals, each with what the other planner's cap keeps. -/
theorem candidateCount_add {m : PoolMarket}
    (hm : openedMarket R P claim arbitration coop candidates orders s = m) :
    candidateCount (buildRoundCandidates (pooledContext R P offerAll claim arbitration)
        (fileByHaulier candidates orders) (freeTrucks (fileByHaulier candidates orders) m)
        (freeOrders (fileByHaulier candidates orders) m) m) +
      (orders.map (cutAllowed P (eligibleTrucks coop candidates))).sum =
    (partitionedPairs P coop candidates orders).length +
      (orders.map (cutAllowed P (fleetByHaulier coop candidates))).sum := by
  rw [candidateCount_eq,
    (buildRoundCandidates_perm R P claim arbitration (fileByHaulier_wellFiled ht ho) hm hcoop
      hid).length_eq,
    (partitionedPairs_perm P hcoop candidates orders).length_eq, List.length_flatMap,
    List.length_flatMap, ← List.sum_map_add, ← List.sum_map_add]
  exact congrArg List.sum (List.map_congr_left fun o _ ↦
    length_servedCandidates_add P (fleetByHaulier_perm coop candidates) o)

/-- **When round one is at parity.**  Where a position that is looked up has no cell both planners
raise.  Otherwise their totals are the same exactly when, over all orders, the caps keep equally
many pairs of the cells they go through from both listings of the fleets. -/
theorem candidate_parity_iff :
    (buildRoundCandidatesAt (pooledContext R P offerAll claim arbitration)
        (fileByHaulier candidates orders)
        (openedMarket R P claim arbitration coop candidates orders s)).toOption.map
          candidateCount =
      (partitionedPairsAt P coop candidates orders).toOption.map List.length ↔
    (∃ o ∈ orders, ¬ ServedDrawable P coop candidates o) ∨
      (orders.map (cutAllowed P (fleetByHaulier coop candidates))).sum =
        (orders.map (cutAllowed P (eligibleTrucks coop candidates))).sum := by
  have hround := @firstRound_eq_ok _ R P coop hcoop claim arbitration candidates orders ht ho hid s
  have hpart := @partitionedPairsAt_eq_ok P coop candidates orders hcoop
  by_cases hdraw : ∀ o ∈ orders, ServedDrawable P coop candidates o
  · have hadd := candidateCount_add R P hcoop claim arbitration ht ho hid s rfl
    rw [hround.mpr ⟨hdraw, rfl⟩, hpart.mpr ⟨hdraw, rfl⟩, or_iff_right fun ⟨o, hoo, h⟩ ↦
      h (hdraw o hoo)]
    simp only [Except.toOption, Option.map_some, Option.some_inj]
    omega
  · refine iff_of_true ?_ (Or.inl (by simpa using hdraw))
    have hnone : ∀ {α : Type} {x : Except PyExc α}, (∀ a, x ≠ .ok a) → x.toOption = none := by
      intro α x hx
      cases x with
      | ok a => exact absurd rfl (hx a)
      | error e => rfl
    rw [hnone fun d hd ↦ hdraw (hround.mp hd).1, hnone fun ps hps ↦ hdraw (hpart.mp hps).1]
    rfl

end Parity

/-! ## A tick where they differ -/

/-- The active structure of two hauliers joined by an edge. -/
def twoHauliers : Option CoopStructure :=
  match normalizeCooperation ⟨fun _ ↦ "", fun _ ↦ ""⟩ (.list [.list [.str "a", .str "b"]])
      ["a", "b"] with
  | .ok block => block.structures.find? fun s ↦ s.id = block.active
  | .error _ => none

theorem twoHauliers_compiled : CompiledStructure twoHauliers := by
  intro s hs
  rw [twoHauliers] at hs
  split at hs
  · next block hblock => exact ⟨_, _, _, block, hblock, List.mem_of_find?_eq_some hs⟩
  · cases hs

/-- One candidate for each order, and the truck of `b` fits no order. -/
def oneCandidate : AssignmentProfile where
  pairAllowedIgnoringHaulier t _ := t.entityId ≠ "tb"
  assignmentCost _ _ := .fin 1
  maxRounds := 1
  tickSeed := 0
  spatialParams := { perOrder := 1 }

/-- A truck of each of the two hauliers. -/
def truckOfA : Truck := { id := some "ta", haulierId := some "a" }

def truckOfB : Truck := { id := some "tb", haulierId := some "b" }

/-- An order of the first haulier. -/
def orderOfA : Order := { id := some "oa", haulierId := some "a" }

/-- **Parity fails at the cap**: the fleet lists the unfit truck first, and the cap leaves the
partitioned planner with this one alone. -/
theorem parity_fails_at_the_cap :
    (buildRoundCandidatesAt
        (pooledContext smallRuntime oneCandidate offerAll claimAllPlanned .lowestCost)
        (fileByHaulier [truckOfB, truckOfA] [orderOfA])
        (openedMarket smallRuntime oneCandidate claimAllPlanned .lowestCost twoHauliers
          [truckOfB, truckOfA] [orderOfA] ())).toOption.map candidateCount = some 1 ∧
      (partitionedPairsAt oneCandidate twoHauliers [truckOfB, truckOfA]
        [orderOfA]).toOption.map List.length = some 0 := by
  decide +kernel

/-- A grid of one degree, two candidates for each order, and one truck of `a` fits no order. -/
def twoCandidates : AssignmentProfile where
  pairAllowedIgnoringHaulier t _ := t.entityId ≠ "ta2"
  assignmentCost _ _ := .fin 1
  maxRounds := 1
  tickSeed := 0
  spatialParams := { cellDeg := .fin 1, perOrder := 2 }

/-- Three trucks in the cell of the orders and one in the cell beside it. -/
def crowdedCell : List Truck :=
  [placedTruck "tb" "b" (1 / 2), placedTruck "tb2" "b" (3 / 2), placedTruck "ta2" "a" (1 / 3),
    placedTruck "ta1" "a" (1 / 4)]

/-- An order of each haulier. -/
def ordersInCell : List Order := ["a", "b"].map fun h ↦ originOrderOf h h

/-- The cap keeps other trucks of the crowded cell in each listing, but equally many that fit. -/
theorem candidate_parity_iff_crowded :
    (buildRoundCandidatesAt
        (pooledContext smallRuntime twoCandidates offerAll claimAllPlanned .lowestCost)
        (fileByHaulier crowdedCell ordersInCell)
        (openedMarket smallRuntime twoCandidates claimAllPlanned .lowestCost twoHauliers
          crowdedCell ordersInCell ())).toOption.map candidateCount =
      (partitionedPairsAt twoCandidates twoHauliers crowdedCell
        ordersInCell).toOption.map List.length := by
  refine (candidate_parity_iff smallRuntime twoCandidates twoHauliers_compiled claimAllPlanned
    .lowestCost (by decide) (by decide) (fun o ho ↦ ?_) ()).mpr (Or.inr (by decide +kernel))
  rcases List.mem_map.mp ho with ⟨h, hh, rfl⟩
  exact ⟨h, rfl, by rintro rfl; revert hh; decide⟩

end OpenRide.Assignment
