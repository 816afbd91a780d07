import OpenRide.Assignment.Pools
import OpenRide.Datagen.CooperationGraph

/-!
# Reading the pools of a structure

At run time the market takes its pools from a compiled structure: from its `pools` when the key is
there, and from its `edges` in bundles compiled before there were pools.  The reader is defensive —
a malformed entry, an empty member, a pool of fewer than two is dropped, and of two pools with one
id the later wins — so what it returns is not what it is given.

On a compiled structure nothing of this bites but the empty member, and the two readings share the
same orders between the same hauliers (`compiled_structures_agree`).
-/

namespace OpenRide.Assignment

open Lib Datagen

/-! ## The reader -/

/-- A member that is a string and not empty. -/
def memberString : Raw → Option String
  | .str s => if s = "" then none else some s
  | _ => none

/-- `_pool_from_entry`. -/
def poolFromEntry : Raw → Option Pool
  | .dict entry =>
    match Raw.field entry "id", Raw.field entry "members" with
    | .str pid, .list ms =>
      let members := SortedSet.ofList (ms.filterMap memberString)
      if pid = "" ∨ members.toList.length < 2 then none else some ⟨pid, members⟩
    | _, _ => none
  | _ => none

/-- The pool of an edge, `none` for a malformed one. -/
def poolFromEdge : Raw → Option Pool
  | .list [.str a, .str b] =>
    if a = "" ∨ b = "" ∨ a = b then none else
      let members := SortedSet.ofList [a, b]
      some ⟨derivedPoolId members.toList, members⟩
  | _ => none

/-- Pools by id, a later one in the place of an earlier one, sorted by id. -/
def poolsById (pools : List Pool) : List Pool :=
  sortedBy Pool.id (Dict.ofList (pools.map fun p ↦ (p.id, p))).values

/-- `_pools_from_edges`. -/
def poolsFromEdges : Raw → List Pool
  | .list edges => poolsById (edges.filterMap poolFromEdge)
  | _ => []

/-- `pools_from_structure`. -/
def poolsFromStructure : Raw → List Pool
  | .dict fields =>
    match Raw.field fields "pools" with
    -- a list is authoritative even when it is empty
    | .list entries => poolsById (entries.filterMap poolFromEntry)
    | _ => poolsFromEdges (Raw.field fields "edges")
  | _ => []

/-! ## A compiled structure as it is written -/

/-- The fields of a compiled structure but its pools, as written. -/
def edgeFields (s : CoopStructure) : List (String × Raw) :=
  [("id", .str s.id),
   ("edges", .list (s.edges.map fun e ↦ .list [.str e.1, .str e.2])),
   ("adjacency", .dict (s.adjacency.entries.map fun p ↦ (p.1, .list (p.2.map .str)))),
   ("components", .list (s.components.map fun c ↦ .list (c.map .str)))]

/-- A pool as written. -/
def poolRaw (p : PoolEntry) : Raw :=
  .dict [("id", .str p.id), ("members", .list (p.members.map .str))]

/-- A compiled structure as written. -/
def structureRaw (s : CoopStructure) : Raw :=
  .dict (edgeFields s ++ [("pools", .list (s.pools.map poolRaw))])

/-- The same structure written without its pools. -/
def structureRawWithoutPools (s : CoopStructure) : Raw := .dict (edgeFields s)

/-! ## What the reader makes of it -/

/-- Two hauliers are members of a common pool of the market. -/
def Shares (pools : List Pool) (g h : String) : Prop :=
  ∃ p ∈ pools, g ∈ p.members ∧ h ∈ p.members

theorem mem_poolsById {pools : List Pool}
    (hid : ∀ p ∈ pools, ∀ q ∈ pools, p.id = q.id → p = q) {p : Pool} :
    p ∈ poolsById pools ↔ p ∈ pools := by
  have hfun : ∀ k v w, (k, v) ∈ pools.map (fun p ↦ (p.id, p)) →
      (k, w) ∈ pools.map (fun p ↦ (p.id, p)) → v = w := by
    intro k v w hv hw
    obtain ⟨p, hp, he⟩ := List.mem_map.mp hv
    obtain ⟨q, hq, he'⟩ := List.mem_map.mp hw
    obtain ⟨rfl, rfl⟩ := Prod.mk.inj he
    obtain ⟨hpq, rfl⟩ := Prod.mk.inj he'
    exact hid p hp q hq hpq.symm
  rw [poolsById, mem_sortedBy, Dict.mem_values_iff]
  constructor
  · rintro ⟨k, hk⟩
    obtain ⟨q, hq, he⟩ := List.mem_map.mp ((Dict.get?_ofList_iff hfun).mp hk)
    obtain ⟨-, rfl⟩ := Prod.mk.inj he
    exact hq
  · exact fun hp ↦ ⟨p.id, (Dict.get?_ofList_iff hfun).mpr (List.mem_map.mpr ⟨p, hp, rfl⟩)⟩

theorem mem_readMembers {ms : List String} {m : String} :
    m ∈ SortedSet.ofList ((ms.map Raw.str).filterMap memberString) ↔ m ∈ ms ∧ m ≠ "" := by
  rw [SortedSet.mem_ofList, List.mem_filterMap]
  constructor
  · rintro ⟨r, hr, he⟩
    obtain ⟨x, hx, rfl⟩ := List.mem_map.mp hr
    rw [memberString] at he
    split at he
    · cases he
    · next hne =>
      cases he
      exact ⟨hx, hne⟩
  · rintro ⟨hm, hne⟩
    exact ⟨.str m, List.mem_map_of_mem hm, by rw [memberString, if_neg hne]⟩

theorem poolFromEntry_poolRaw {e : PoolEntry} {p : Pool} (h : poolFromEntry (poolRaw e) = some p) :
    p.id = e.id ∧ ∀ m, m ∈ p.members ↔ m ∈ e.members ∧ m ≠ "" := by
  have hread : poolFromEntry (poolRaw e) =
      if e.id = "" ∨ (SortedSet.ofList
          ((e.members.map Raw.str).filterMap memberString)).toList.length < 2 then none
      else some ⟨e.id, SortedSet.ofList ((e.members.map Raw.str).filterMap memberString)⟩ := rfl
  rw [hread] at h
  split at h
  · cases h
  · cases h
    exact ⟨rfl, fun m ↦ mem_readMembers⟩

theorem exists_poolFromEntry {e : PoolEntry} (hid : e.id ≠ "") {g h : String} (hne : g ≠ h)
    (hg : g ∈ e.members ∧ g ≠ "") (hh : h ∈ e.members ∧ h ≠ "") :
    ∃ p, poolFromEntry (poolRaw e) = some p := by
  refine ⟨⟨e.id, SortedSet.ofList ((e.members.map Raw.str).filterMap memberString)⟩, ?_⟩
  have hlen := one_lt_length_of_mem hne (SortedSet.mem_def.mp (mem_readMembers.mpr hg))
    (SortedSet.mem_def.mp (mem_readMembers.mpr hh))
  exact if_neg (not_or.mpr ⟨hid, not_lt.mpr hlen⟩)

/-- **Reading the pools**: two hauliers share one just when they share a compiled one and neither
id is empty. -/
theorem shares_structureRaw {known : SortedSet String} {s : CoopStructure}
    (hs : s.WellFormed known) {g h : String} (hne : g ≠ h) :
    Shares (poolsFromStructure (structureRaw s)) g h ↔ CoMember s.pools g h ∧ g ≠ "" ∧ h ≠ "" := by
  have hgood := hs.compiled.goodPools
  have hread : poolsFromStructure (structureRaw s) =
      poolsById ((s.pools.map poolRaw).filterMap poolFromEntry) := rfl
  have hmem : ∀ p, p ∈ (s.pools.map poolRaw).filterMap poolFromEntry ↔
      ∃ e ∈ s.pools, poolFromEntry (poolRaw e) = some p := by
    simp [List.mem_filterMap]
  have hid : ∀ p ∈ (s.pools.map poolRaw).filterMap poolFromEntry,
      ∀ q ∈ (s.pools.map poolRaw).filterMap poolFromEntry, p.id = q.id → p = q := by
    intro p hp q hq hpq
    obtain ⟨e, he, hep⟩ := (hmem p).mp hp
    obtain ⟨e', he', heq⟩ := (hmem q).mp hq
    rw [(poolFromEntry_poolRaw hep).1, (poolFromEntry_poolRaw heq).1] at hpq
    obtain rfl := List.inj_on_of_nodup_map hgood.ids_nodup he he' hpq
    exact Option.some_inj.mp (hep.symm.trans heq)
  constructor
  · rintro ⟨p, hp, hgp, hhp⟩
    obtain ⟨e, he, hep⟩ := (hmem p).mp ((mem_poolsById hid).mp hp)
    obtain ⟨-, hms⟩ := poolFromEntry_poolRaw hep
    obtain ⟨hg, hg0⟩ := (hms g).mp hgp
    obtain ⟨hh, hh0⟩ := (hms h).mp hhp
    exact ⟨⟨e, he, hg, hh⟩, hg0, hh0⟩
  · rintro ⟨⟨e, he, hg, hh⟩, hg0, hh0⟩
    obtain ⟨p, hp⟩ := exists_poolFromEntry (hgood.id_ne_empty e he) hne ⟨hg, hg0⟩ ⟨hh, hh0⟩
    obtain ⟨-, hms⟩ := poolFromEntry_poolRaw hp
    exact ⟨p, (mem_poolsById hid).mpr ((hmem p).mpr ⟨e, he, hp⟩), (hms g).mpr ⟨hg, hg0⟩,
      (hms h).mpr ⟨hh, hh0⟩⟩

/-- The pool read from a compiled edge. -/
theorem poolFromEdge_of_lt {e : String × String} (hlt : e.1 < e.2) :
    poolFromEdge (.list [.str e.1, .str e.2]) =
      if e.1 = "" ∨ e.2 = "" then none
      else some ⟨(edgePool e).id, SortedSet.ofList (edgePool e).members⟩ := by
  have hread : poolFromEdge (.list [.str e.1, .str e.2]) =
      if e.1 = "" ∨ e.2 = "" ∨ e.1 = e.2 then none
      else some ⟨derivedPoolId (SortedSet.ofList [e.1, e.2]).toList, SortedSet.ofList [e.1, e.2]⟩ :=
    rfl
  rw [hread, toList_ofList_pair hlt]
  simp [ne_of_lt hlt, edgePool]

/-- **Reading the edges**: two hauliers share a pool just when they are joined by an edge and
neither id is empty. -/
theorem shares_structureRawWithoutPools {known : SortedSet String} {s : CoopStructure}
    (hs : s.WellFormed known) {g h : String} (hne : g ≠ h) :
    Shares (poolsFromStructure (structureRawWithoutPools s)) g h ↔
      sortedPair g h ∈ s.edges ∧ g ≠ "" ∧ h ≠ "" := by
  have hgood := hs.compiled.goodEdges
  have hread : poolsFromStructure (structureRawWithoutPools s) = poolsById
      ((s.edges.map fun e ↦ Raw.list [.str e.1, .str e.2]).filterMap poolFromEdge) := rfl
  have hmem : ∀ p, p ∈ (s.edges.map fun e ↦ Raw.list [.str e.1, .str e.2]).filterMap poolFromEdge ↔
      ∃ e ∈ s.edges, ¬ (e.1 = "" ∨ e.2 = "") ∧
        p = ⟨(edgePool e).id, SortedSet.ofList (edgePool e).members⟩ := by
    intro p
    rw [List.mem_filterMap]
    constructor
    · rintro ⟨r, hr, hp⟩
      obtain ⟨e, he, rfl⟩ := List.mem_map.mp hr
      rw [poolFromEdge_of_lt (hgood e he).1] at hp
      split at hp
      · cases hp
      · next h0 => exact ⟨e, he, h0, (Option.some_inj.mp hp).symm⟩
    · rintro ⟨e, he, h0, rfl⟩
      exact ⟨_, List.mem_map_of_mem he, by rw [poolFromEdge_of_lt (hgood e he).1, if_neg h0]⟩
  have hid : ∀ p ∈ (s.edges.map fun e ↦ Raw.list [.str e.1, .str e.2]).filterMap poolFromEdge,
      ∀ q ∈ (s.edges.map fun e ↦ Raw.list [.str e.1, .str e.2]).filterMap poolFromEdge,
        p.id = q.id → p = q := by
    intro p hp q hq hpq
    obtain ⟨e, he, -, rfl⟩ := (hmem p).mp hp
    obtain ⟨e', he', -, rfl⟩ := (hmem q).mp hq
    rw [hgood.edgePool_inj he he' hpq]
  rw [hread, ← hgood.coMember_iff hne]
  constructor
  · rintro ⟨p, hp, hgp, hhp⟩
    obtain ⟨e, he, h0, rfl⟩ := (hmem p).mp ((mem_poolsById hid).mp hp)
    rw [SortedSet.mem_ofList] at hgp hhp
    obtain ⟨h1, h2⟩ := not_or.mp h0
    have hne0 : ∀ m ∈ (edgePool e).members, m ≠ "" := by
      intro m hm
      rcases List.mem_pair.mp hm with rfl | rfl
      · exact h1
      · exact h2
    exact ⟨⟨e, he, hgp, hhp⟩, hne0 g hgp, hne0 h hhp⟩
  · rintro ⟨⟨e, he, hg, hh⟩, hg0, hh0⟩
    refine ⟨_, (mem_poolsById hid).mpr ((hmem _).mpr ⟨e, he, ?_, rfl⟩),
      SortedSet.mem_ofList.mpr hg, SortedSet.mem_ofList.mpr hh⟩
    simp only [edgePool, List.mem_pair] at hg hh
    rintro (h1 | h2)
    · rcases hg with rfl | rfl <;> rcases hh with rfl | rfl
      · exact hg0 h1
      · exact hg0 h1
      · exact hh0 h1
      · exact hne rfl
    · rcases hg with rfl | rfl <;> rcases hh with rfl | rfl
      · exact hne rfl
      · exact hh0 h2
      · exact hg0 h2
      · exact hg0 h2

/-! ## The four representations -/

/-- **Compiled cooperation structures agree with each other.**  In every structure of a compiled
block, two different hauliers are in a common pool, partners, or joined by an edge all at once;
partnership is symmetric and irreflexive; the components partition the hauliers, with partners in
the same one; and the market shares the same pairs whether it reads the pools or the edges, namely
the compiled ones (an empty id, which no authored haulier has, is dropped on both sides). -/
theorem compiled_structures_agree (T : PyText) (raw : Raw) (haulierIds : List String)
    (coop : Cooperation) (hcoop : normalizeCooperation T raw haulierIds = .ok coop) :
    ∀ s ∈ coop.structures,
      (∀ g h, g ≠ h →
        (CoMember s.pools g h ↔ g ∈ partnersIn s.adjacency h) ∧
        (g ∈ partnersIn s.adjacency h ↔ sortedPair g h ∈ s.edges)) ∧
      (∀ g h, g ∈ partnersIn s.adjacency h → h ∈ partnersIn s.adjacency g) ∧
      (∀ h, h ∉ partnersIn s.adjacency h) ∧
      (s.components.flatten.Perm (SortedSet.ofList haulierIds).toList ∧
        ∀ c ∈ s.components, c ≠ []) ∧
      (∀ g h, g ∈ partnersIn s.adjacency h → ∃ c ∈ s.components, g ∈ c ∧ h ∈ c) ∧
      ∀ g h, g ≠ h →
        (Shares (poolsFromStructure (structureRaw s)) g h ↔
          Shares (poolsFromStructure (structureRawWithoutPools s)) g h) ∧
        (Shares (poolsFromStructure (structureRaw s)) g h ↔
          CoMember s.pools g h ∧ g ≠ "" ∧ h ≠ "") := by
  intro s hmem
  have hs := normalizeCooperation_wellFormed hcoop s hmem
  have hedges := hs.compiled.goodEdges
  have hpartner : ∀ g h, g ≠ h → (g ∈ partnersIn s.adjacency h ↔ sortedPair g h ∈ s.edges) := by
    intro g h hne
    rw [hs.adjacency]
    exact hedges.mem_partnersIn hne
  have hirrefl : ∀ h, h ∉ partnersIn s.adjacency h := by
    intro h
    rw [hs.adjacency]
    exact hedges.notMem_partnersIn_self h
  refine ⟨fun g h hne ↦ ⟨?_, hpartner g h hne⟩, fun g h hg ↦ ?_, hirrefl,
    ⟨hs.components.partition, hs.components.ne_nil⟩, fun g h hg ↦ ?_, fun g h hne ↦ ⟨?_, ?_⟩⟩
  · rw [hpartner g h hne]
    exact hs.compiled.coMember_iff g h hne
  · rw [hs.adjacency, mem_partnersIn_adjacencyOf] at hg ⊢
    exact hg.symm
  · rw [hs.adjacency, mem_partnersIn_adjacencyOf] at hg
    rcases hg with he | he
    · obtain ⟨hh, hg⟩ := hedges.mem_known _ he
      exact (hs.components.connected g hg h hh).mpr (.symm _ _ (.rel _ _ he))
    · obtain ⟨hg, hh⟩ := hedges.mem_known _ he
      exact (hs.components.connected g hg h hh).mpr (.rel _ _ he)
  · rw [shares_structureRaw hs hne, shares_structureRawWithoutPools hs hne,
      hs.compiled.coMember_iff g h hne]
  · exact shares_structureRaw hs hne

/-- Four hauliers, three of them in a chain of two edges. -/
theorem compiled_structures_agree_small :
    ∃ coop, normalizeCooperation ⟨fun _ ↦ "", fun _ ↦ ""⟩
        (.list [.list [.str "a", .str "B"], .list [.str "c", .str "b"]]) ["d", "c", "b", "a"] =
          .ok coop ∧
      ∀ s ∈ coop.structures, CoMember s.pools "a" "b" ↔ "a" ∈ partnersIn s.adjacency "b" := by
  have hok : (normalizeCooperation ⟨fun _ ↦ "", fun _ ↦ ""⟩
      (.list [.list [.str "a", .str "B"], .list [.str "c", .str "b"]])
        ["d", "c", "b", "a"]).toOption.isSome = true := by
    decide +kernel
  cases hcoop : normalizeCooperation ⟨fun _ ↦ "", fun _ ↦ ""⟩
      (.list [.list [.str "a", .str "B"], .list [.str "c", .str "b"]]) ["d", "c", "b", "a"] with
  | error e => simp [hcoop, Except.toOption] at hok
  | ok coop =>
    exact ⟨coop, rfl, fun s hs ↦
      ((compiled_structures_agree _ _ _ coop hcoop s hs).1 "a" "b" (by decide)).1⟩

end OpenRide.Assignment
