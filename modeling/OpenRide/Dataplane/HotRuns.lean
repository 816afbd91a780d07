import OpenRide.Lib.Machine
import OpenRide.Dataplane.HotIdentity

/-!
# Identity over whole runs of the hot tier

A run has an identity while it is resident or parked: that of its slab, or the parked one.  Beside
the store a run of operations keeps, for each of its runs, the slots and the codes its frames have
shown (`Tier.seen`); they are forgotten when the run is neither resident nor parked any more.

Eviction and parking move an identity or forget it, and never change it.  An update, a merge into a
resident slab and the restoration of a parked identity extend it.  Only the creation of a slab from
an explicit seed replaces it, so what the frames have shown stands as long as such a seed honours it
for the runs that are parked (`identity_stable`).  `seed_relabels` is a run in which one does not.
-/

namespace OpenRide.Dataplane

open Lib

/-! ## The identity of a run -/

/-- The identity of a run that is resident or parked. -/
def HotStore.identityOf (s : HotStore) (runId : String) : Option RunIdentity :=
  match s.runs.get? runId with
  | some slab => some slab.identity
  | none => s.carryover.get? runId

variable {slab : RunSlab}

theorem identityOf_resident {s : HotStore} {r : String} (h : s.runs.get? r = some slab) :
    s.identityOf r = some slab.identity := by
  rw [HotStore.identityOf, h]

theorem identityOf_parked {s : HotStore} {r : String} (h : s.runs.get? r = none) :
    s.identityOf r = s.carryover.get? r := by
  rw [HotStore.identityOf, h]

/-- Every slab and every parked identity keeps its promises, and no run is both resident and
parked. -/
structure StoreOk (s : HotStore) : Prop where
  runs : ∀ r slab, s.runs.get? r = some slab → slab.Ok
  carryover : ∀ r id, s.carryover.get? r = some id → id.Ok
  disjoint : ∀ r slab, s.runs.get? r = some slab → s.carryover.get? r = none

variable {id : RunIdentity}

theorem StoreOk.identity {s : HotStore} (h : StoreOk s) {r : String}
    (hid : s.identityOf r = some id) : id.Ok := by
  cases hr : s.runs.get? r with
  | some slab =>
    rw [identityOf_resident hr, Option.some_inj] at hid
    exact hid ▸ (h.runs r slab hr).identity
  | none =>
    rw [identityOf_parked hr] at hid
    exact h.carryover r id hid

/-! ## Eviction -/

variable {cfg : HotConfig} {env : HotEnv} {s t : HotStore} {r : String}

/-- Slabs and identities may go, but none is new or different. -/
structure Shrinks (s t : HotStore) : Prop where
  runs : ∀ q slab, t.runs.get? q = some slab → s.runs.get? q = some slab
  identity : ∀ q id, t.identityOf q = some id → s.identityOf q = some id

theorem Shrinks.refl (s : HotStore) : Shrinks s s := ⟨fun _ _ h ↦ h, fun _ _ h ↦ h⟩

variable {u : HotStore}

theorem Shrinks.trans (h : Shrinks s t) (h' : Shrinks t u) : Shrinks s u :=
  ⟨fun q slab hq ↦ h.runs q slab (h'.runs q slab hq),
    fun q id hq ↦ h.identity q id (h'.identity q id hq)⟩

variable {q : String}

/-- A parked identity after an eviction was parked before, or is that of the evicted slab. -/
theorem carryover_evict (hr : s.runs.get? r = some slab)
    (hq : (s.evict cfg r).1.carryover.get? q = some id) :
    s.carryover.get? q = some id ∨ (q = r ∧ id = slab.identity) := by
  have hev : (s.evict cfg r).1.carryover =
      ({ s with runs := s.runs.erase r }.park cfg r slab).carryover := by
    simp only [HotStore.evict, hr]
  rw [hev, HotStore.park] at hq
  split at hq
  · exact Or.inl hq
  · have hq := Dict.get?_of_get?_dropOldest hq
    rw [Dict.get?_set] at hq
    split at hq
    · next he => exact Or.inr ⟨he, (Option.some_inj.mp hq).symm⟩
    · next he =>
      rw [Dict.get?_erase_ne _ he] at hq
      exact Or.inl hq

theorem runs_evict (hr : s.runs.get? r = some slab) : (s.evict cfg r).1.runs = s.runs.erase r := by
  simp only [HotStore.evict, hr]
  rw [HotStore.park]
  split <;> rfl

/-- No run is both resident and parked. -/
def HotStore.Apart (s : HotStore) : Prop :=
  ∀ r slab, s.runs.get? r = some slab → s.carryover.get? r = none

theorem evict_apart (h : s.Apart) (r : String) :
    (s.evict cfg r).1.Apart ∧ Shrinks s (s.evict cfg r).1 := by
  cases hr : s.runs.get? r with
  | none =>
    have heq : (s.evict cfg r).1 = s := by simp only [HotStore.evict, hr]
    rw [heq]
    exact ⟨h, Shrinks.refl s⟩
  | some slab =>
    have hruns : ∀ q sl, (s.evict cfg r).1.runs.get? q = some sl →
        q ≠ r ∧ s.runs.get? q = some sl := by
      intro q sl hq
      rw [runs_evict hr, Dict.get?_erase] at hq
      split at hq
      · cases hq
      · next hne => exact ⟨hne, hq⟩
    refine ⟨fun q sl hq ↦ ?_, fun q sl hq ↦ (hruns q sl hq).2, fun q id hq ↦ ?_⟩
    · obtain ⟨hne, hsl⟩ := hruns q sl hq
      cases hc : (s.evict cfg r).1.carryover.get? q with
      | none => rfl
      | some id =>
        rcases carryover_evict hr hc with hc | ⟨he, -⟩
        · rw [h q sl hsl] at hc
          cases hc
        · exact absurd he hne
    · cases hq' : (s.evict cfg r).1.runs.get? q with
      | some sl =>
        rw [identityOf_resident hq'] at hq
        rw [identityOf_resident (hruns q sl hq').2, hq]
      | none =>
        rw [identityOf_parked hq'] at hq
        rcases carryover_evict hr hq with hc | ⟨rfl, rfl⟩
        · cases hsq : s.runs.get? q with
          | none => rw [identityOf_parked hsq, hc]
          | some sl =>
            rw [h q sl hsq] at hc
            cases hc
        · exact identityOf_resident hr

theorem evictLru_apart (h : s.Apart) : (s.evictLru cfg).Apart ∧ Shrinks s (s.evictLru cfg) := by
  have hround : ∀ u : HotStore, u.Apart →
      (u.evictOldest cfg).Apart ∧ Shrinks u (u.evictOldest cfg) := by
    intro u hu
    rw [HotStore.evictOldest]
    split
    · exact ⟨hu, Shrinks.refl u⟩
    · next v _ => exact evict_apart hu v
  have hiter : ∀ n (u : HotStore), u.Apart → HotStore.Apart ((HotStore.evictOldest cfg)^[n] u) ∧
      Shrinks u ((HotStore.evictOldest cfg)^[n] u) := by
    intro n
    induction n with
    | zero => exact fun u hu ↦ ⟨hu, Shrinks.refl u⟩
    | succ n ih =>
      intro u hu
      obtain ⟨h1, h2⟩ := hround u hu
      obtain ⟨h3, h4⟩ := ih _ h1
      exact ⟨h3, h2.trans h4⟩
  exact hiter _ s h

theorem StoreOk.shrink (h : StoreOk s) (ht : t.Apart) (hs : Shrinks s t) : StoreOk t := by
  refine ⟨fun q slab hq ↦ h.runs q slab (hs.runs q slab hq), fun q id hq ↦ ?_, ht⟩
  refine h.identity (hs.identity q id ?_)
  cases hr : t.runs.get? q with
  | none => rw [identityOf_parked hr, hq]
  | some slab =>
    rw [ht q slab hr] at hq
    cases hq

theorem evict_ok (h : StoreOk s) (r : String) :
    StoreOk (s.evict cfg r).1 ∧ Shrinks s (s.evict cfg r).1 := by
  have hev : (s.evict cfg r).1.Apart ∧ Shrinks s (s.evict cfg r).1 := evict_apart h.disjoint r
  exact ⟨h.shrink hev.1 hev.2, hev.2⟩

theorem evictLru_ok (h : StoreOk s) : StoreOk (s.evictLru cfg) ∧ Shrinks s (s.evictLru cfg) := by
  have hev : (s.evictLru cfg).Apart ∧ Shrinks s (s.evictLru cfg) := evictLru_apart h.disjoint
  exact ⟨h.shrink hev.1 hev.2, hev.2⟩

/-- After the eviction loop no more runs are resident than the limit allows. -/
theorem evictLru_size (cfg : HotConfig) (s : HotStore) :
    (s.evictLru cfg).runs.size ≤ max cfg.maxRuns 1 := by
  have hround : ∀ u : HotStore, (u.evictOldest cfg).runs.size ≤ u.runs.size - 1 := by
    intro u
    rw [HotStore.evictOldest]
    split
    · next hv =>
      have hnil : u.runs.entries = [] := by
        rw [HotStore.victim, Option.map_eq_none_iff, List.head?_eq_none_iff, sortedBy_eq_nil] at hv
        exact hv
      rw [Dict.size, hnil]
      exact Nat.zero_le _
    · next v hv =>
      rw [HotStore.victim, Option.map_eq_some_iff] at hv
      obtain ⟨⟨q, slab⟩, hhead, rfl⟩ := hv
      have hmem : (q, slab) ∈ u.runs.entries := mem_sortedBy.mp (List.mem_of_head? hhead)
      have hget := Dict.mem_entries_iff.mp hmem
      rw [runs_evict hget]
      exact Nat.le_pred_of_lt (Dict.size_erase_lt hget)
  have hiter : ∀ n (u : HotStore),
      ((HotStore.evictOldest cfg)^[n] u).runs.size ≤ u.runs.size - n := by
    intro n
    induction n with
    | zero => exact fun u ↦ le_refl _
    | succ n ih =>
      intro u
      have := (ih (u.evictOldest cfg)).trans (Nat.sub_le_sub_right (hround u) n)
      rw [Function.iterate_succ_apply]
      omega
  have := hiter (s.runs.size - max cfg.maxRuns 1) s
  rw [HotStore.evictLru]
  omega

/-! ## What an operation does to identities -/

/-- An operation on a run: other identities stay or go, and the run's own is new, or related to the
old one. -/
structure Acts (R : RunIdentity → RunIdentity → Prop) (r : String) (s t : HotStore) : Prop where
  ok : StoreOk t
  others : ∀ q id, q ≠ r → t.identityOf q = some id → s.identityOf q = some id
  own : ∀ id', t.identityOf r = some id' → ∀ id, s.identityOf r = some id → R id id'

theorem Acts.shrink {R : RunIdentity → RunIdentity → Prop} (h : Acts R r s t) (hu : StoreOk u)
    (hs : Shrinks t u) : Acts R r s u :=
  ⟨hu, fun q id hne hq ↦ h.others q id hne (hs.identity q id hq),
    fun id' hid' id hid ↦ h.own id' (hs.identity r id' hid') id hid⟩

theorem Acts.of_shrinks (ht : StoreOk t) (hs : Shrinks s t) : Acts Extends r s t :=
  ⟨ht, fun q id _ hq ↦ hs.identity q id hq, fun id' hid' id hid ↦ by
    rw [hs.identity r id' hid', Option.some_inj] at hid
    exact hid ▸ Extends.refl _⟩

theorem runs_setSlab (s : HotStore) (r : String) (slab : RunSlab) (q : String) :
    (s.setSlab r slab).runs.get? q = if q = r then some slab else s.runs.get? q :=
  Dict.get?_set _ _ _ _

theorem setSlab_apart (h : s.Apart) (hr : s.runs.get? r = some slab) (slab' : RunSlab) :
    (s.setSlab r slab').Apart := by
  intro q sl hq
  rw [runs_setSlab] at hq
  split at hq
  · next he => exact he ▸ h r slab hr
  · exact h q sl hq

theorem identityOf_setSlab_ne (hne : q ≠ r) (s : HotStore) (slab : RunSlab) :
    (s.setSlab r slab).identityOf q = s.identityOf q := by
  rw [HotStore.identityOf, runs_setSlab, if_neg hne]
  rfl

theorem identityOf_setSlab_self (s : HotStore) (r : String) (slab : RunSlab) :
    (s.setSlab r slab).identityOf r = some slab.identity :=
  identityOf_resident (by rw [runs_setSlab, if_pos rfl])

theorem setSlab_acts {R : RunIdentity → RunIdentity → Prop} (h : StoreOk s) {slab' : RunSlab}
    (hr : s.runs.get? r = some slab) (hok : slab'.Ok) (hR : R slab.identity slab'.identity) :
    Acts R r s (s.setSlab r slab') := by
  refine ⟨⟨fun q sl hq ↦ ?_, h.carryover, setSlab_apart h.disjoint hr slab'⟩, fun q id hne hq ↦ ?_,
    fun id' hid' id hid ↦ ?_⟩
  · rw [runs_setSlab] at hq
    split at hq
    · exact Option.some_inj.mp hq ▸ hok
    · exact h.runs q sl hq
  · rw [identityOf_setSlab_ne hne] at hq
    exact hq
  · rw [identityOf_setSlab_self, Option.some_inj] at hid'
    rw [identityOf_resident hr, Option.some_inj] at hid
    exact hid ▸ hid' ▸ hR

/-- What a new slab made from a seed keeps of a parked identity. -/
def SeededFrom (seed : Seed) (id id' : RunIdentity) : Prop :=
  (∀ a, id'.agentToSlot.get? a =
    ((given seed.slotMap).getD id.agentToSlot).get? a) ∧
  ∀ x, id'.haulierToCode.get? x = ((given seed.haulierCodes).getD id.haulierToCode).get? x

theorem SeededFrom.extends {id' : RunIdentity} (h : SeededFrom {} id id') : Extends id id' :=
  ⟨fun a _ ha ↦ (h.1 a).trans ha, fun x _ hx ↦ (h.2 x).trans hx⟩

/-- A run that is not resident gets a slab. -/
def HotStore.seat (s : HotStore) (r : String) (slab : RunSlab) : HotStore :=
  { s with runs := s.runs.set r slab, carryover := s.carryover.erase r }

theorem runs_seat (s : HotStore) (r : String) (slab : RunSlab) (q : String) :
    (s.seat r slab).runs.get? q = if q = r then some slab else s.runs.get? q :=
  Dict.get?_set _ _ _ _

theorem carryover_seat (s : HotStore) (r : String) (slab : RunSlab) (q : String) :
    (s.seat r slab).carryover.get? q = if q = r then none else s.carryover.get? q :=
  Dict.get?_erase _ _ _

theorem seat_apart (h : s.Apart) (r : String) (slab : RunSlab) : (s.seat r slab).Apart := by
  intro q sl hq
  rw [runs_seat] at hq
  rw [carryover_seat]
  split
  · rfl
  · next hne =>
    rw [if_neg hne] at hq
    exact h q sl hq

theorem identityOf_seat_ne (hne : q ≠ r) (s : HotStore) (slab : RunSlab) :
    (s.seat r slab).identityOf q = s.identityOf q := by
  rw [HotStore.identityOf, runs_seat, carryover_seat, if_neg hne, if_neg hne]
  rfl

theorem identityOf_seat_self (s : HotStore) (r : String) (slab : RunSlab) :
    (s.seat r slab).identityOf r = some slab.identity :=
  identityOf_resident (by rw [runs_seat, if_pos rfl])

theorem createSlab_acts (h : StoreOk s) (hr : s.runs.get? r = none) {seed : Seed}
    (hseed : seed.Injective) (capacity : Option ℕ) :
    Acts (SeededFrom seed) r s (s.createSlab cfg env r capacity seed) := by
  obtain ⟨hok, hslot1, hslot2, hcode1, hcode2⟩ := newSlab_ok cfg env capacity hseed (h.carryover r)
  have hbefore : Acts (SeededFrom seed) r s
      (s.seat r (newSlab cfg env capacity seed (s.carryover.get? r))) := by
    refine ⟨⟨fun q sl hq ↦ ?_, fun q id hq ↦ ?_, seat_apart h.disjoint r _⟩, fun q id hne hq ↦ ?_,
      fun id' hid' id hid ↦ ?_⟩
    · rw [runs_seat] at hq
      split at hq
      · exact Option.some_inj.mp hq ▸ hok
      · exact h.runs q sl hq
    · rw [carryover_seat] at hq
      split at hq
      · cases hq
      · exact h.carryover q id hq
    · rw [identityOf_seat_ne hne] at hq
      exact hq
    · rw [identityOf_seat_self, Option.some_inj] at hid'
      rw [identityOf_parked hr] at hid
      subst hid'
      refine ⟨fun a ↦ ?_, fun x ↦ ?_⟩
      · cases hg : given seed.slotMap with
        | some m => exact hslot1 m hg a
        | none => exact congrArg (fun d ↦ Dict.get? d a) (hslot2 id hg hid)
      · cases hg : given seed.haulierCodes with
        | some m => exact hcode1 m hg x
        | none => exact congrArg (fun d ↦ Dict.get? d x) (hcode2 id hg hid)
  obtain ⟨hok', hshrink⟩ := evictLru_ok hbefore.ok
  exact hbefore.shrink hok' hshrink

theorem seed_empty_injective : Seed.Injective {} where
  slots _ h := nomatch h
  codes _ h := nomatch h

/-- Making a run resident without a seed keeps its identity. -/
theorem ensureRun_acts (h : StoreOk s) (r : String) :
    Acts Extends r s (s.ensureRun cfg env r none {}) := by
  rw [HotStore.ensureRun]
  split
  · next slab hr =>
    have hok := h.runs r slab hr
    exact setSlab_acts h hr ⟨hok.slots, hok.codes, hok.nActive, hok.capacity⟩ (Extends.refl _)
  · next hr =>
    have hacts : Acts (SeededFrom {}) r s (s.createSlab cfg env r none {}) :=
      createSlab_acts h hr seed_empty_injective none
    exact ⟨hacts.ok, hacts.others, fun id' hid' id hid ↦ (hacts.own id' hid' id hid).extends⟩

/-- An operation followed by a change of the run's slab that keeps what is there. -/
theorem Acts.setSlab (h : Acts Extends r s u) {slab' : RunSlab} (hr : u.runs.get? r = some slab)
    (hok : slab'.Ok) (hext : Extends slab.identity slab'.identity) :
    Acts Extends r s (u.setSlab r slab') := by
  have hset := setSlab_acts h.ok hr hok hext
  refine ⟨hset.ok, fun q id hne hq ↦ h.others q id hne (hset.others q id hne hq),
    fun id' hid' id hid ↦ ?_⟩
  have hmid := identityOf_resident hr
  exact (h.own _ hmid id hid).trans (hset.own id' hid' _ hmid)

/-! ## Runs -/

/-- One operation of the store. -/
inductive HotOp where
  | ensureRun (env : HotEnv) (runId : String) (capacity : Option ℕ) (seed : Seed)
  | slotFor (env : HotEnv) (runId agentId : String)
  | updatePosition (env : HotEnv) (runId : String) (r : Report)
  | snapshot (runId : String)
  | evict (runId : String)
  | seedRunIdentity (env : HotEnv) (runId : String) (seed : Seed)
  | rollbackFrameIdx (runId : String) (frameIdx : ℤ)

/-- The run an operation is about. -/
def HotOp.runId : HotOp → String
  | .ensureRun _ r _ _ => r
  | .slotFor _ r _ => r
  | .updatePosition _ r _ => r
  | .snapshot r => r
  | .evict r => r
  | .seedRunIdentity _ r _ => r
  | .rollbackFrameIdx r _ => r

/-- The identity an operation brings along. -/
def HotOp.seed : HotOp → Option Seed
  | .ensureRun _ _ _ seed => some seed
  | .seedRunIdentity _ _ seed => some seed
  | _ => none

/-- The store after an operation. -/
def HotOp.run (cfg : HotConfig) (s : HotStore) : HotOp → HotStore
  | .ensureRun env r capacity seed => s.ensureRun cfg env r capacity seed
  | .slotFor env r a => (s.slotFor cfg env r a).1
  | .updatePosition env r report => (s.updatePosition cfg env r report).1
  | .snapshot r => (s.snapshot r).1
  | .evict r => (s.evict cfg r).1
  | .seedRunIdentity env r seed => s.seedRunIdentity cfg env r seed
  | .rollbackFrameIdx r i => (s.rollbackFrameIdx r i).1

/-! ### The tier stays small -/

/-- No more runs are resident, and no more identities parked, than the limits allow. -/
structure HotStore.Bounded (cfg : HotConfig) (s : HotStore) : Prop where
  runs : s.runs.size ≤ max cfg.maxRuns 1
  carryover : s.carryover.size ≤ cfg.carryoverRuns

theorem carryover_size_evict (h : s.carryover.size ≤ cfg.carryoverRuns) (r : String) :
    (s.evict cfg r).1.carryover.size ≤ cfg.carryoverRuns := by
  rw [HotStore.evict]
  split
  · exact h
  · rw [HotStore.park]
    split
    · exact h
    · show (Dict.dropOldest _ _).entries.length ≤ _
      rw [Dict.dropOldest, List.length_drop, Dict.size]
      omega

namespace HotStore.Bounded

theorem evict (h : s.Bounded cfg) (r : String) : (s.evict cfg r).1.Bounded cfg := by
  refine ⟨?_, carryover_size_evict h.carryover r⟩
  cases hr : s.runs.get? r with
  | none => simpa only [HotStore.evict, hr] using h.runs
  | some slab =>
    rw [runs_evict hr]
    exact (Dict.size_erase_lt hr).le.trans h.runs

theorem createSlab (h : s.Bounded cfg) (r : String) (capacity : Option ℕ) (seed : Seed) :
    (s.createSlab cfg env r capacity seed).Bounded cfg := by
  refine ⟨evictLru_size cfg _, Function.Iterate.rec
    (fun u : HotStore ↦ u.carryover.size ≤ cfg.carryoverRuns) ?_ ?_ _⟩
  · exact (List.length_filter_le _ _).trans h.carryover
  · intro u hu
    rw [evictOldest]
    split
    · exact hu
    · exact carryover_size_evict hu _

theorem setSlab (h : s.Bounded cfg) (hr : s.runs.get? r = some slab) (slab' : RunSlab) :
    (s.setSlab r slab').Bounded cfg := by
  refine ⟨?_, h.carryover⟩
  rw [HotStore.setSlab, Dict.size_set, Dict.contains, hr]
  exact h.runs

theorem ensureRun (h : s.Bounded cfg) (r : String) (capacity : Option ℕ) (seed : Seed) :
    (s.ensureRun cfg env r capacity seed).Bounded cfg := by
  rw [HotStore.ensureRun]
  split
  · next hr => exact h.setSlab hr _
  · exact h.createSlab r capacity seed

/-- **Every operation keeps the limits.** -/
theorem run (h : s.Bounded cfg) (op : HotOp) : (op.run cfg s).Bounded cfg := by
  cases op with
  | ensureRun env r capacity seed => exact h.ensureRun r capacity seed
  | slotFor env r _ | updatePosition env r _ =>
    have hens : (s.ensureRun cfg env r none {}).Bounded cfg := h.ensureRun r none {}
    simp only [HotOp.run, slotFor, updatePosition]
    split
    · exact hens
    · next hr => exact hens.setSlab hr _
  | snapshot r =>
    simp only [HotOp.run, snapshot]
    split
    · exact h
    · next hr => exact h.setSlab hr _
  | evict r => exact h.evict r
  | seedRunIdentity env r seed =>
    simp only [HotOp.run, seedRunIdentity]
    split
    · exact h.createSlab r none seed
    · next hr => exact h.setSlab hr _
  | rollbackFrameIdx r i =>
    simp only [HotOp.run, rollbackFrameIdx]
    split
    · exact h
    · next hr =>
      split
      · exact h
      · exact h.setSlab hr _

end HotStore.Bounded

/-- **The hot tier stays small**, whatever is done to it. -/
theorem hotTier_bounded (cfg : HotConfig) (ops : List HotOp) :
    (ops.foldl (HotOp.run cfg) {}).Bounded cfg :=
  List.foldlRecOn ops _ ⟨Nat.zero_le _, Nat.zero_le _⟩ fun _ h op _ ↦ h.run op

/-- Agents with their slots, and hauliers with their codes. -/
structure Seen where
  agents : List (String × ℕ) := []
  hauliers : List (String × ℕ) := []
deriving DecidableEq

/-- An identity gives everything that was seen the slot or the code it was seen with. -/
structure Seen.Honoured (seen : Seen) (id : RunIdentity) : Prop where
  agents : ∀ e ∈ seen.agents, id.agentToSlot.get? e.1 = some e.2
  hauliers : ∀ e ∈ seen.hauliers, id.haulierToCode.get? e.1 = some e.2

/-- What a frame shows: the agents whose slot, and the hauliers whose code, is in a row. -/
def Frame.shows (f : Frame) (id : RunIdentity) : Seen where
  agents := id.agentToSlot.entries.filter fun e ↦ f.rows.any fun row ↦ row.slot = e.2
  hauliers := id.haulierToCode.entries.filter fun e ↦ f.rows.any fun row ↦ row.haulier = e.2

/-- What an operation shows. -/
def HotOp.shown (s : HotStore) : HotOp → Seen
  | .snapshot r =>
    match (s.snapshot r).2, s.identityOf r with
    | some f, some id => f.shows id
    | _, _ => {}
  | _ => {}

/-- The store, and what the frames of each run have shown. -/
structure Tier where
  store : HotStore
  seen : String → Seen

/-- What is seen after an operation; nothing of a run that is neither resident nor parked. -/
def Tier.seenAfter (t : Tier) (s : HotStore) (op : HotOp) (q : String) : Seen :=
  if (s.identityOf q).isSome then
    if q = op.runId then
      { agents := (t.seen q).agents ++ (op.shown t.store).agents
        hauliers := (t.seen q).hauliers ++ (op.shown t.store).hauliers }
    else t.seen q
  else {}

/-- The runs of the hot tier. -/
def hotTier (cfg : HotConfig) : Machine Tier HotOp where
  step t op := some { store := op.run cfg t.store, seen := t.seenAfter (op.run cfg t.store) op }

def Tier.start : Tier where
  store := {}
  seen _ := {}

/-- The maps an operation brings along are injective. -/
def HotOp.Injective (op : HotOp) : Prop := ∀ seed, op.seed = some seed → seed.Injective

/-- **The condition**: an explicit identity for a run that is not resident gives everything the
frames of that run have shown the slot or the code it was shown with. -/
def HonoursSeen (t : Tier) (op : HotOp) : Prop :=
  ∀ seed, op.seed = some seed → t.store.runs.get? op.runId = none →
    (∀ m, given seed.slotMap = some m →
      ∀ e ∈ (t.seen op.runId).agents, m.get? e.1 = some e.2) ∧
    ∀ m, given seed.haulierCodes = some m →
      ∀ e ∈ (t.seen op.runId).hauliers, m.get? e.1 = some e.2

/-- **What an operation does**: it extends the identity of its run, unless it creates its slab from
a seed. -/
theorem op_acts (h : StoreOk s) {op : HotOp} (hop : op.Injective) :
    Acts (fun id id' ↦ Extends id id' ∨
      ∃ seed, op.seed = some seed ∧ s.runs.get? op.runId = none ∧ SeededFrom seed id id')
      op.runId s (op.run cfg s) := by
  have hweak : ∀ {u : HotStore}, Acts Extends op.runId s u →
      Acts (fun id id' ↦ Extends id id' ∨
        ∃ seed, op.seed = some seed ∧ s.runs.get? op.runId = none ∧ SeededFrom seed id id')
        op.runId s u :=
    fun ha ↦ ⟨ha.ok, ha.others, fun id' hid' id hid ↦ Or.inl (ha.own id' hid' id hid)⟩
  have hseeded : ∀ {u : HotStore} {seed : Seed}, op.seed = some seed →
      s.runs.get? op.runId = none → Acts (SeededFrom seed) op.runId s u →
      Acts (fun id id' ↦ Extends id id' ∨
        ∃ seed, op.seed = some seed ∧ s.runs.get? op.runId = none ∧ SeededFrom seed id id')
        op.runId s u :=
    fun hs hr ha ↦ ⟨ha.ok, ha.others,
      fun id' hid' id hid ↦ Or.inr ⟨_, hs, hr, ha.own id' hid' id hid⟩⟩
  cases op with
  | ensureRun env r capacity seed =>
    simp only [HotOp.run, HotStore.ensureRun]
    split
    · next slab hr =>
      have hok := h.runs r slab hr
      exact hweak (setSlab_acts h hr ⟨hok.slots, hok.codes, hok.nActive, hok.capacity⟩
        (Extends.refl _))
    · next hr => exact hseeded rfl hr (createSlab_acts h hr (hop seed rfl) capacity)
  | slotFor env r a =>
    refine hweak ?_
    have hens : Acts Extends r s (s.ensureRun cfg env r none {}) := ensureRun_acts h r
    simp only [HotOp.run, HotStore.slotFor]
    split
    · exact hens
    · next slab hr =>
      have hok := hens.ok.runs r slab hr
      obtain ⟨h1, h2, -⟩ := slotFor_ok (s := { slab with lastUpdate := env.now })
        ⟨hok.slots, hok.codes, hok.nActive, hok.capacity⟩ a
      exact hens.setSlab hr h1 h2
  | updatePosition env r report =>
    refine hweak ?_
    have hens : Acts Extends r s (s.ensureRun cfg env r none {}) := ensureRun_acts h r
    simp only [HotOp.run, HotStore.updatePosition]
    split
    · exact hens
    · next slab hr =>
      have hok := hens.ok.runs r slab hr
      obtain ⟨h1, h2⟩ := update_ok (s := { slab with lastUpdate := env.now })
        ⟨hok.slots, hok.codes, hok.nActive, hok.capacity⟩ report
      exact hens.setSlab hr h1 h2
  | snapshot r =>
    refine hweak ?_
    simp only [HotOp.run, HotStore.snapshot]
    split
    · exact Acts.of_shrinks h (Shrinks.refl s)
    · next slab hr =>
      have hok := h.runs r slab hr
      exact setSlab_acts h hr ⟨hok.slots, hok.codes, hok.nActive, hok.capacity⟩
        ⟨fun _ _ hk ↦ hk, fun _ _ hk ↦ hk⟩
  | evict r =>
    obtain ⟨h1, h2⟩ := evict_ok h r
    exact hweak (Acts.of_shrinks h1 h2)
  | seedRunIdentity env r seed =>
    simp only [HotOp.run, HotStore.seedRunIdentity]
    split
    · next hr => exact hseeded rfl hr (createSlab_acts h hr (hop seed rfl) none)
    · next slab hr =>
      obtain ⟨h1, he1⟩ := mergeCodes_ok (h.runs r slab hr) (hop seed rfl).codes
      obtain ⟨h2, he2⟩ := mergeSlots_ok h1 (hop seed rfl).slots
      have hext := he1.trans he2
      exact hweak (setSlab_acts h hr ⟨h2.slots, h2.codes, h2.nActive, h2.capacity⟩
        ⟨hext.slots, hext.codes⟩)
  | rollbackFrameIdx r i =>
    refine hweak ?_
    simp only [HotOp.run, HotStore.rollbackFrameIdx]
    split
    · exact Acts.of_shrinks h (Shrinks.refl s)
    · next slab hr =>
      split
      · exact Acts.of_shrinks h (Shrinks.refl s)
      · have hok := h.runs r slab hr
        exact setSlab_acts h hr ⟨hok.slots, hok.codes, hok.nActive, hok.capacity⟩
          ⟨fun _ _ hk ↦ hk, fun _ _ hk ↦ hk⟩

theorem Seen.Honoured.extends {seen : Seen} {id' : RunIdentity} (h : seen.Honoured id)
    (he : Extends id id') : seen.Honoured id' :=
  ⟨fun e hm ↦ he.slots _ _ (h.agents e hm), fun e hm ↦ he.codes _ _ (h.hauliers e hm)⟩

theorem honoured_empty (id : RunIdentity) : Seen.Honoured {} id :=
  ⟨nofun, fun _ h ↦ absurd h List.not_mem_nil⟩

theorem shown_honoured (op : HotOp) (hid : s.identityOf op.runId = some id) :
    (op.shown s).Honoured id := by
  cases op with
  | snapshot r =>
    rw [HotOp.shown]
    split
    · next f id0 _ hid0 =>
      obtain rfl := Option.some_inj.mp (hid.symm.trans hid0)
      exact ⟨fun e he ↦ Dict.mem_entries_iff.mp (List.mem_filter.mp he).1,
        fun e he ↦ Dict.mem_entries_iff.mp (List.mem_filter.mp he).1⟩
    · exact honoured_empty id
  | _ => exact honoured_empty id

/-- The invariant: the identity of a run honours what its frames have shown. -/
structure TierOk (t : Tier) : Prop where
  store : StoreOk t.store
  unseen : ∀ q, t.store.identityOf q = none → t.seen q = {}
  seen : ∀ q id, t.store.identityOf q = some id → (t.seen q).Honoured id

theorem start_tierOk : TierOk Tier.start where
  store := ⟨fun _ _ h ↦ (nomatch h), fun _ _ h ↦ (nomatch h), fun _ _ h ↦ (nomatch h)⟩
  unseen _ _ := rfl
  seen _ _ h := nomatch h

theorem step_tierOk {t t' : Tier} {op : HotOp} (h : TierOk t) (hop : op.Injective)
    (hcond : HonoursSeen t op) (hstep : (hotTier cfg).step t op = some t') : TierOk t' := by
  cases hstep
  have hacts : Acts _ op.runId t.store (op.run cfg t.store) := op_acts h.store hop
  refine ⟨hacts.ok, fun q hq ↦ ?_, fun q id' hq ↦ ?_⟩
  · dsimp only at hq ⊢
    rw [Tier.seenAfter, hq]
    rfl
  · dsimp only at hq ⊢
    rw [Tier.seenAfter, hq, Option.isSome_some, if_pos rfl]
    split
    · next he =>
      subst he
      cases hid : t.store.identityOf op.runId with
      | none =>
        -- a run that starts has been shown in no frame
        have hshown : op.shown t.store = {} := by
          cases op with
          | snapshot r =>
            have hid : t.store.identityOf r = none := hid
            rw [HotOp.shown, hid]
            cases (t.store.snapshot r).2 <;> rfl
          | _ => rfl
        rw [h.unseen _ hid, hshown]
        exact honoured_empty id'
      | some id =>
        have hshown := shown_honoured op hid
        have hseen := h.seen _ id hid
        rcases hacts.own id' hq id hid with hext | ⟨seed, hseed, hr, hfrom⟩
        · have h1 := hseen.extends hext
          have h2 := hshown.extends hext
          refine ⟨fun e he ↦ ?_, fun e he ↦ ?_⟩
          · exact (List.mem_append.mp he).elim (h1.agents e) (h2.agents e)
          · exact (List.mem_append.mp he).elim (h1.hauliers e) (h2.hauliers e)
        · have hnone : op.shown t.store = {} := by
            cases op with
            | snapshot r => cases hseed
            | _ => rfl
          obtain ⟨hc1, hc2⟩ := hcond seed hseed hr
          rw [hnone]
          refine ⟨fun e he ↦ ?_, fun e he ↦ ?_⟩
          · have he := (List.mem_append.mp he).resolve_right List.not_mem_nil
            rw [hfrom.1]
            cases hg : given seed.slotMap with
            | some m => exact hc1 m hg e he
            | none => exact hseen.agents e he
          · have he := (List.mem_append.mp he).resolve_right List.not_mem_nil
            rw [hfrom.2]
            cases hg : given seed.haulierCodes with
            | some m => exact hc2 m hg e he
            | none => exact hseen.hauliers e he
    · next hne => exact h.seen q id' (hacts.others q id' hne hq)

/-- **Identity is stable in the hot tier**, in every run whose seeds are injective and honour what
the frames of a run have shown.  Of every run that is resident or parked, the slot map is injective
and inverse to the list of agents, the slots in use are active ones and fit into the arrays, the
codes below the overflow code are injective, and everything a frame has shown still has the slot or
the code it was shown with. -/
theorem identity_stable (cfg : HotConfig) (t : Tier)
    (h : (hotTier cfg).Reach (fun t op ↦ op.Injective ∧ HonoursSeen t op) Tier.start t)
    (run : String) :
    (∀ slab, t.store.runs.get? run = some slab → slab.nActive ≤ slab.capacity ∧
      ∀ a k, slab.agentToSlot.get? a = some k → k < slab.nActive) ∧
    ∀ id, t.store.identityOf run = some id →
      InjectiveMap id.agentToSlot ∧
      (∀ a k, id.agentToSlot.get? a = some k → id.slotToAgent[k]? = some a) ∧
      (∀ a k, id.slotToAgent[k]? = some a → a ≠ "" → id.agentToSlot.get? a = some k) ∧
      InjectiveCodes id.haulierToCode ∧
      (∀ e ∈ (t.seen run).agents, id.agentToSlot.get? e.1 = some e.2) ∧
      ∀ e ∈ (t.seen run).hauliers, id.haulierToCode.get? e.1 = some e.2 := by
  have hok : TierOk t := h.invariant start_tierOk fun _ _ _ hI hC hstep ↦
    step_tierOk hI hC.1 hC.2 hstep
  refine ⟨fun slab hslab ↦ ?_, fun id hid ↦ ?_⟩
  · have hs := hok.store.runs run slab hslab
    refine ⟨hs.capacity, fun a k ha ↦ ?_⟩
    rw [hs.nActive]
    exact hs.slots.lt ha
  · have hid' := hok.store.identity hid
    have hseen := hok.seen run id hid
    exact ⟨hid'.slots.injective, hid'.slots.agentAt, hid'.slots.slotOf,
      fun k k' v hv hk hk' ↦ hid'.codes.injective k k' v hv hk hk', hseen.agents, hseen.hauliers⟩

/-- A report of a truck of the haulier `H1`. -/
def reportOf (agent : String) : HotOp :=
  .updatePosition { now := 0 } "run"
    { agentId := agent, lng := .fin 0, lat := .fin 0, state := 1, haulierId := some "H1",
      simTimeMs := .fin 0 }

/-- The tier after some operations. -/
def tierAfter (ops : List HotOp) : Tier :=
  ops.foldl (fun t op ↦
    ((hotTier { maxRuns := 4, capacity := 2, carryoverRuns := 64 }).step t op).getD
    t) Tier.start

/-- The slot map of the run and what its frames have shown. -/
def slotsAndSeen (t : Tier) : List (String × ℕ) × List (String × ℕ) :=
  (((t.store.identityOf "run").map fun id ↦ id.agentToSlot.entries).getD [], (t.seen "run").agents)

/-- Two trucks in a frame; the run is parked, and restored by a report of a third truck. -/
def parkedAndRestored : List HotOp :=
  [reportOf "T1", reportOf "T2", .snapshot "run", .evict "run", reportOf "T3"]

theorem identity_stable_small :
    ∃ id, (tierAfter parkedAndRestored).store.identityOf "run" = some id ∧
      id.agentToSlot.get? "T1" = some 0 ∧ id.agentToSlot.get? "T2" = some 1 := by
  have hC : ∀ t op, op.seed = none → op.Injective ∧ HonoursSeen t op := by
    intro t op hop
    refine ⟨fun seed hs ↦ ?_, fun seed hs ↦ ?_⟩
    · exact absurd (hop.symm.trans hs) (Option.some_ne_none seed).symm
    · exact absurd (hop.symm.trans hs) (Option.some_ne_none seed).symm
  have hreach : (hotTier { maxRuns := 4, capacity := 2, carryoverRuns := 64 }).Reach
      (fun t op ↦ op.Injective ∧ HonoursSeen t op) Tier.start (tierAfter parkedAndRestored) :=
    Machine.reach_of_exec parkedAndRestored rfl fun t op hop ↦ hC t op (by
      simp only [parkedAndRestored, List.mem_cons, List.not_mem_nil, or_false] at hop
      obtain rfl | rfl | rfl | rfl | rfl := hop <;> rfl)
  obtain ⟨id, hid⟩ : ∃ id, (tierAfter parkedAndRestored).store.identityOf "run" = some id :=
    ⟨_, rfl⟩
  have hseen : ((tierAfter parkedAndRestored).seen "run").agents = [("T1", 0), ("T2", 1)] := by
    decide
  have hkept := ((identity_stable _ _ hreach "run").2 id hid).2.2.2.2.1
  rw [hseen] at hkept
  exact ⟨id, hid, hkept ("T1", 0) List.mem_cons_self,
    hkept ("T2", 1) (List.mem_cons_of_mem _ List.mem_cons_self)⟩

/-- A seed that is older than the parked identity: it does not know the second truck. -/
def olderSeed : HotOp :=
  .seedRunIdentity { now := 0 } "run" { slotMap := some (Dict.ofList [("T1", 0)]) }

/-- Two trucks in a frame; the run is parked and created again from the older seed.  The slot the
second truck was shown in goes to a third one. -/
theorem seed_relabels :
    slotsAndSeen (tierAfter [reportOf "T1", reportOf "T2", .snapshot "run", .evict "run"]) =
      ([("T1", 0), ("T2", 1)], [("T1", 0), ("T2", 1)]) ∧
    slotsAndSeen (tierAfter [reportOf "T1", reportOf "T2", .snapshot "run", .evict "run", olderSeed,
        reportOf "T3"]) =
      ([("T1", 0), ("T3", 1)], [("T1", 0), ("T2", 1)]) := by
  decide

end OpenRide.Dataplane
