import Mathlib.Data.String.Basic
import OpenRide.Assignment.Runtime
import OpenRide.Lib.Dict
import OpenRide.Lib.Sorted

/-!
# The pool market

`PoolMarket` is the custodian of one tick: which pools exist, which order was placed into which
pools and by whom, and which orders and trucks are already committed.  Its two mutators are
`contribute`, which records placements, and `commit`, which records an award and refuses to use an
order or a truck twice.

Whether a company may see an order is a fact about contributions alone, `Visible`, and the three
ways the code asks for it — `visiblePooledOrderIds`, `poolOfOrder`, `eligibleCarriers` — are
characterised by it.  `commit` never touches contributions, so visibility is fixed once the
contribution step of a tick is over.
-/

namespace OpenRide.Assignment

open Lib

/-- A pool and its members. -/
structure Pool where
  id : String
  members : SortedSet String
deriving DecidableEq

/-- A bid of a company for an order, with one truck. -/
structure Bid where
  haulierId : String
  orderId : String
  truckId : String
  costKm : Double
  poolId : Option String
  round : ℤ
deriving DecidableEq

/-- An award.  The owner is whatever `owner_of` returned, hence optional. -/
structure Award where
  orderId : String
  truckId : String
  carrierHaulierId : String
  ownerHaulierId : Option String
  costKm : Double
  poolId : Option String
  round : ℤ
deriving DecidableEq

/-- Pool membership, and the contribution and commit state of one tick. -/
structure PoolMarket where
  pools : Dict String Pool
  contributions : Dict String (List String)
  contributionOwner : Dict String String
  committedOrderIds : List String
  committedTruckIds : List String
  awards : List Award
deriving DecidableEq

namespace PoolMarket

/-- `PoolMarket(pools)`: a later pool overwrites an earlier one of the same id. -/
def init (pools : List Pool) : PoolMarket where
  pools := Dict.ofList (pools.map fun p ↦ (p.id, p))
  contributions := Dict.empty
  contributionOwner := Dict.empty
  committedOrderIds := []
  committedTruckIds := []
  awards := []

def isEmpty (m : PoolMarket) : Bool := m.pools.entries.isEmpty

/-- The pools a company belongs to, by id. -/
def poolsFor (m : PoolMarket) (haulierId : String) : List Pool :=
  sortedBy Pool.id (m.pools.values.filter fun p ↦ haulierId ∈ p.members)

def memberOf (m : PoolMarket) (haulierId poolId : String) : Bool :=
  match m.pools.get? poolId with
  | some pool => haulierId ∈ pool.members
  | none => false

/-! ## Contribution -/

/-- The placements of a contribution that are valid: the pool exists and the owner is in it. -/
def accepted (m : PoolMarket) (owner : String) (poolIds : List String) : List String :=
  poolIds.filter fun pid ↦
    match m.pools.get? pid with
    | none => false
    | some pool => owner ∈ pool.members

/-- Place an order into pools; the number of placements accepted, and the market after it. -/
def contribute (m : PoolMarket) (orderId owner : String) (poolIds : List String) :
    ℕ × PoolMarket :=
  if m.contributionOwner.get? orderId ≠ none ∧ m.contributionOwner.get? orderId ≠ some owner then
    (0, m)
  else if (m.accepted owner poolIds).isEmpty then (0, m)
  else
    ((m.accepted owner poolIds).length,
      { m with
        contributions := m.contributions.set orderId
          (SortedSet.ofList
            ((m.contributions.get? orderId).getD [] ++ m.accepted owner poolIds)).toList
        contributionOwner := m.contributionOwner.set orderId owner })

/-! ## Visibility -/

/-- Foreign orders placed into some pool the company belongs to. -/
def visiblePooledOrderIds (m : PoolMarket) (haulierId : String) : SortedSet String :=
  SortedSet.ofList <| (m.contributions.entries.filter fun p ↦
    m.contributionOwner.get? p.1 ≠ some haulierId ∧ p.2.any (m.memberOf haulierId)).map Prod.fst

/-- The least pool id through which the viewer sees the order. -/
def poolOfOrder (m : PoolMarket) (orderId viewer : String) : Option String :=
  (sortedBy id (((m.contributions.get? orderId).getD []).filter (m.memberOf viewer))).head?

/-- The hauliers permitted to carry an order: its owner and the members of its pools. -/
def eligibleCarriers (m : PoolMarket) (orderId owner : String) : SortedSet String :=
  ((m.contributions.get? orderId).getD []).foldl
    (fun s pid ↦ match m.pools.get? pid with
      | some pool => s.insertAll pool.members.toList
      | none => s)
    (SortedSet.ofList [owner])

def isContributed (m : PoolMarket) (orderId : String) : Bool :=
  !((m.contributions.get? orderId).getD []).isEmpty

/-- The company belongs to a pool the order was placed into. -/
def Visible (m : PoolMarket) (haulierId orderId : String) : Prop :=
  ∃ pids, m.contributions.get? orderId = some pids ∧ ∃ pid ∈ pids, m.memberOf haulierId pid = true

/-! ## Allocation -/

def isOrderFree (m : PoolMarket) (orderId : String) : Bool := orderId ∉ m.committedOrderIds

def isTruckFree (m : PoolMarket) (truckId : String) : Bool := truckId ∉ m.committedTruckIds

/-- Record an award, unless its order or its truck is committed. -/
def commit (m : PoolMarket) (a : Award) : Bool × PoolMarket :=
  if a.orderId ∈ m.committedOrderIds ∨ a.truckId ∈ m.committedTruckIds then (false, m) else
    (true, { m with
      committedOrderIds := m.committedOrderIds ++ [a.orderId]
      committedTruckIds := m.committedTruckIds ++ [a.truckId]
      awards := m.awards ++ [a] })

/-! ## What visibility means -/

variable {m : PoolMarket} {h o : String}

theorem visible_iff_getD :
    m.Visible h o ↔ ∃ pid ∈ (m.contributions.get? o).getD [], m.memberOf h pid = true := by
  rw [Visible]
  cases m.contributions.get? o with
  | none => simp
  | some pids => simp

instance (m : PoolMarket) (h o : String) : Decidable (m.Visible h o) :=
  decidable_of_iff _ visible_iff_getD.symm

theorem mem_visiblePooledOrderIds :
    o ∈ m.visiblePooledOrderIds h ↔ m.contributionOwner.get? o ≠ some h ∧ m.Visible h o := by
  rw [visiblePooledOrderIds, SortedSet.mem_ofList, List.mem_map, Visible]
  constructor
  · rintro ⟨⟨o', pids⟩, hp, rfl⟩
    rw [List.mem_filter, decide_eq_true_eq, List.any_eq_true] at hp
    exact ⟨hp.2.1, pids, Dict.mem_entries_iff.mp hp.1, hp.2.2⟩
  · rintro ⟨hne, pids, hp, hm⟩
    refine ⟨(o, pids), List.mem_filter.mpr ⟨Dict.mem_entries_iff.mpr hp, ?_⟩, rfl⟩
    rw [decide_eq_true_eq, List.any_eq_true]
    exact ⟨hne, hm⟩

theorem poolOfOrder_isSome : (m.poolOfOrder o h).isSome = true ↔ m.Visible h o := by
  rw [poolOfOrder, List.isSome_head?, visible_iff_getD, ne_eq, sortedBy_eq_nil,
    List.filter_eq_nil_iff]
  simp only [not_forall, not_not, exists_prop]

theorem mem_foldl_members {pids : List String} {s : SortedSet String} :
    h ∈ pids.foldl (fun s pid ↦ match m.pools.get? pid with
        | some pool => s.insertAll pool.members.toList
        | none => s) s ↔ h ∈ s ∨ ∃ pid ∈ pids, m.memberOf h pid = true := by
  induction pids generalizing s with
  | nil => simp
  | cons pid pids ih =>
    rw [List.foldl_cons, ih]
    cases hp : m.pools.get? pid with
    | none => simp [memberOf, hp]
    | some pool =>
      have hpid : m.memberOf h pid = true ↔ h ∈ pool.members := by
        rw [memberOf, hp]
        exact decide_eq_true_iff
      simp only [SortedSet.mem_insertAll, ← SortedSet.mem_def, List.exists_mem_cons_iff, hpid,
        or_assoc]

theorem mem_eligibleCarriers {owner : String} :
    h ∈ m.eligibleCarriers o owner ↔ h = owner ∨ m.Visible h o := by
  rw [eligibleCarriers, mem_foldl_members, visible_iff_getD, SortedSet.mem_ofList,
    List.mem_singleton]

/-! ## Contributions are the owner's -/

/-- Every placement was made by the recorded owner, who belongs to the pool. -/
def Coherent (m : PoolMarket) : Prop :=
  ∀ o pids, m.contributions.get? o = some pids →
    pids ≠ [] ∧ ∃ owner, m.contributionOwner.get? o = some owner ∧
      ∀ pid ∈ pids, m.memberOf owner pid = true

theorem init_coherent (pools : List Pool) : (init pools).Coherent := by
  intro o pids h
  simp [init] at h

theorem memberOf_of_mem_accepted {owner pid : String} {pids : List String}
    (h : pid ∈ m.accepted owner pids) : m.memberOf owner pid = true := by
  rw [accepted, List.mem_filter] at h
  rw [memberOf]
  cases hp : m.pools.get? pid with
  | none => rw [hp] at h; simp at h
  | some pool => rw [hp] at h; exact h.2

theorem contribute_pools (m : PoolMarket) (o h : String) (ps : List String) :
    (m.contribute o h ps).2.pools = m.pools := by
  rw [contribute]
  split
  · rfl
  · split <;> rfl

theorem contribute_awards (m : PoolMarket) (o h : String) (ps : List String) :
    (m.contribute o h ps).2.awards = m.awards ∧
      (m.contribute o h ps).2.committedOrderIds = m.committedOrderIds ∧
      (m.contribute o h ps).2.committedTruckIds = m.committedTruckIds := by
  rw [contribute]
  split
  · exact ⟨rfl, rfl, rfl⟩
  · split <;> exact ⟨rfl, rfl, rfl⟩

theorem contribute_memberOf (m : PoolMarket) (o h : String) (ps : List String) (g p : String) :
    (m.contribute o h ps).2.memberOf g p = m.memberOf g p := by
  rw [memberOf, memberOf, contribute_pools]

/-- What a contribution does to the book: nothing, or it adds placements the owner may make and
records the owner. -/
theorem contribute_cases (m : PoolMarket) (o h : String) (ps : List String) :
    (m.contribute o h ps).2 = m ∨
      ((m.contributionOwner.get? o = none ∨ m.contributionOwner.get? o = some h) ∧
        m.accepted h ps ≠ [] ∧
        (m.contribute o h ps).2.contributions = m.contributions.set o
          (SortedSet.ofList ((m.contributions.get? o).getD [] ++ m.accepted h ps)).toList ∧
        (m.contribute o h ps).2.contributionOwner = m.contributionOwner.set o h) := by
  rw [contribute]
  split
  · exact Or.inl rfl
  · next hr =>
    split
    · exact Or.inl rfl
    · next ha =>
      refine Or.inr ⟨?_, fun hc ↦ ha (by rw [hc]; rfl), rfl, rfl⟩
      by_cases hn : m.contributionOwner.get? o = none
      · exact Or.inl hn
      · exact Or.inr (not_not.mp fun hne ↦ hr ⟨hn, hne⟩)

theorem Coherent.contribute (hm : m.Coherent) (o h : String) (ps : List String) :
    (m.contribute o h ps).2.Coherent := by
  rcases contribute_cases m o h ps with he | ⟨hown, hacc, hc, ho⟩
  · rw [he]; exact hm
  intro x pids hx
  simp only [contribute_memberOf]
  rw [hc, Dict.get?_set] at hx
  rw [ho]
  split at hx
  · next hxo =>
    subst hxo
    cases hx
    obtain ⟨p, hp⟩ := List.exists_mem_of_ne_nil _ hacc
    refine ⟨List.ne_nil_of_mem (SortedSet.mem_ofList.mpr (List.mem_append_right _ hp)), h,
      Dict.get?_set_self _ _ _, fun pid hpid ↦ ?_⟩
    rcases List.mem_append.mp (SortedSet.mem_ofList.mp hpid) with hpid | hpid
    · cases hg : m.contributions.get? x with
      | none => rw [hg] at hpid; simp at hpid
      | some qs =>
        rw [hg] at hpid
        obtain ⟨-, owner, howner, hall⟩ := hm x qs hg
        rcases hown with hn | hs
        · rw [hn] at howner; simp at howner
        · rw [hs, Option.some_inj] at howner
          exact howner ▸ hall pid hpid
    · exact memberOf_of_mem_accepted hpid
  · next hxo =>
    rw [Dict.get?_set_ne _ _ hxo]
    exact hm x pids hx

theorem Coherent.contributionOwner_ne_none (hm : m.Coherent) (hv : m.Visible h o) :
    ∃ owner, m.contributionOwner.get? o = some owner := by
  obtain ⟨pids, hp, -⟩ := hv
  obtain ⟨-, owner, ho, -⟩ := hm o pids hp
  exact ⟨owner, ho⟩

/-! ## What a commit does -/

/-- A commit that goes through found its order and its truck free, and appends the award. -/
theorem commit_eq_true {a : Award} (h : (m.commit a).1 = true) :
    m.isOrderFree a.orderId = true ∧ m.isTruckFree a.truckId = true ∧
      (m.commit a).2 = { m with
        committedOrderIds := m.committedOrderIds ++ [a.orderId]
        committedTruckIds := m.committedTruckIds ++ [a.truckId]
        awards := m.awards ++ [a] } := by
  rw [commit] at h ⊢
  split at h
  · exact absurd h (by simp)
  · next hf =>
    rw [if_neg hf]
    obtain ⟨ho, ht⟩ := not_or.mp hf
    exact ⟨decide_eq_true ho, decide_eq_true ht, rfl⟩

theorem commit_of_free {a : Award} (ho : m.isOrderFree a.orderId = true)
    (ht : m.isTruckFree a.truckId = true) : (m.commit a).1 = true := by
  rw [isOrderFree, decide_eq_true_eq] at ho
  rw [isTruckFree, decide_eq_true_eq] at ht
  rw [commit, if_neg (not_or.mpr ⟨ho, ht⟩)]

theorem commit_eq_false {a : Award} (h : (m.commit a).1 = false) : (m.commit a).2 = m := by
  rw [commit] at h ⊢
  split at h
  · next hf => rw [if_pos hf]
  · exact absurd h (by simp)

/-- The part of a market that says who sees what. -/
def SameBook (m m' : PoolMarket) : Prop :=
  m'.pools = m.pools ∧ m'.contributions = m.contributions ∧
    m'.contributionOwner = m.contributionOwner

theorem SameBook.refl (m : PoolMarket) : SameBook m m := ⟨rfl, rfl, rfl⟩

theorem SameBook.trans {m₁ m₂ m₃ : PoolMarket} (h : SameBook m₁ m₂) (h' : SameBook m₂ m₃) :
    SameBook m₁ m₃ :=
  ⟨h'.1.trans h.1, h'.2.1.trans h.2.1, h'.2.2.trans h.2.2⟩

theorem commit_sameBook (m : PoolMarket) (a : Award) : SameBook m (m.commit a).2 := by
  rw [commit]
  split <;> exact ⟨rfl, rfl, rfl⟩

variable {m' : PoolMarket}

theorem SameBook.memberOf (h : SameBook m m') (g p : String) :
    m'.memberOf g p = m.memberOf g p := by
  rw [PoolMarket.memberOf, PoolMarket.memberOf, h.1]

theorem SameBook.visible (h : SameBook m m') {g : String} : m'.Visible g o ↔ m.Visible g o := by
  simp only [Visible, h.memberOf, h.2.1]

theorem SameBook.coherent (h : SameBook m m') (hm : m.Coherent) : m'.Coherent := by
  simp only [Coherent, h.memberOf, h.2.1, h.2.2]
  exact hm

/-! ## The ledger -/

/-- The committed ids are those of the awards, and no order and no truck is awarded twice. -/
structure Ledger (m : PoolMarket) : Prop where
  orders : m.committedOrderIds = m.awards.map Award.orderId
  trucks : m.committedTruckIds = m.awards.map Award.truckId
  orders_nodup : (m.awards.map Award.orderId).Nodup
  trucks_nodup : (m.awards.map Award.truckId).Nodup

theorem init_ledger (pools : List Pool) : (init pools).Ledger :=
  ⟨rfl, rfl, List.nodup_nil, List.nodup_nil⟩

/-- **No award is booked twice**: a commit keeps the ledger. -/
theorem Ledger.commit (hm : m.Ledger) (a : Award) : (m.commit a).2.Ledger := by
  cases h : (m.commit a).1 with
  | false => rw [commit_eq_false h]; exact hm
  | true =>
    obtain ⟨ho, ht, he⟩ := commit_eq_true h
    rw [isOrderFree, decide_eq_true_eq, hm.orders] at ho
    rw [isTruckFree, decide_eq_true_eq, hm.trucks] at ht
    rw [he]
    refine ⟨by simp [hm.orders], by simp [hm.trucks], ?_, ?_⟩
    · rw [List.map_append, List.map_singleton, ← List.concat_eq_append]
      exact hm.orders_nodup.concat ho
    · rw [List.map_append, List.map_singleton, ← List.concat_eq_append]
      exact hm.trucks_nodup.concat ht

theorem Ledger.contribute (hm : m.Ledger) (o h : String) (ps : List String) :
    (m.contribute o h ps).2.Ledger := by
  obtain ⟨ha, ho, ht⟩ := contribute_awards m o h ps
  exact ⟨by rw [ho, ha, hm.orders], by rw [ht, ha, hm.trucks], by rw [ha]; exact hm.orders_nodup,
    by rw [ha]; exact hm.trucks_nodup⟩

end PoolMarket

end OpenRide.Assignment
