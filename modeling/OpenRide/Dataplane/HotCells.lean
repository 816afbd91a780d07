import OpenRide.Dataplane.HotRuns

/-!
# What the cells of a slab show

A written cell of a slab shows its agent by its slot and its haulier by a code.  What an operation
does to the slab of a resident run (`Moves`): the identity is extended, and a cell that is written
afterwards was written before or is that of the report.  A run that becomes resident starts with no
cell written, so the written cells of a resident run always show an agent of its slot map and a
haulier of its book (`Labelled`), as long as the codes that are brought along are bytes.
-/

namespace OpenRide.Dataplane

open Lib

/-! ## One slab -/

/-- Every code fits into a cell. -/
def Bytes (d : Dict String ℕ) : Prop := ∀ h c, d.get? h = some c → c ≤ maxHaulierCode

/-- The haulier a report names. -/
def Report.named (r : Report) : Option String := r.haulierId.filter (· ≠ "")

/-- Every written cell shows an agent, and a haulier or none. -/
structure RunSlab.Labelled (s : RunSlab) : Prop where
  bytes : Bytes s.haulierToCode
  agent : ∀ (k : ℕ) (c : Cell), s.cells[k]? = some c → c.written = true →
    ∃ a, s.agentToSlot.get? a = some k
  haulier : ∀ (k : ℕ) (c : Cell), s.cells[k]? = some c → c.written = true →
    c.haulier = 0 ∨ ∃ h, s.haulierToCode.get? h = some c.haulier

/-- A cell shows what a report says. -/
structure Reported (r : Report) (s : RunSlab) (k : ℕ) (c : Cell) : Prop where
  agent : s.agentToSlot.get? r.agentId = some k
  anonymous : r.named = none → c.haulier = 0
  haulier : ∀ h, r.named = some h → ∃ code, s.haulierToCode.get? h = some code ∧
    c.haulier = code % 256

/-- The identity of a slab is extended, and its written cells are the old ones and that of the
report. -/
structure Moves (report : Option Report) (s s' : RunSlab) : Prop where
  identity : Extends s.identity s'.identity
  bytes : Bytes s.haulierToCode → Bytes s'.haulierToCode
  cells : ∀ (k : ℕ) (c : Cell), s'.cells[k]? = some c → c.written = true →
    s.cells[k]? = some c ∨ ∃ r ∈ report, Reported r s' k c

section Moves

variable {report : Option Report} {s s' t : RunSlab}

theorem Moves.same (hcells : s'.cells = s.cells) (hslots : s'.agentToSlot = s.agentToSlot)
    (hcodes : s'.haulierToCode = s.haulierToCode) : Moves report s s' where
  identity := ⟨fun k _ hk ↦ (congrArg (fun d ↦ Dict.get? d k) hslots).trans hk,
    fun k _ hk ↦ (congrArg (fun d ↦ Dict.get? d k) hcodes).trans hk⟩
  bytes hb := hcodes ▸ hb
  cells _ _ hc _ := Or.inl (hcells ▸ hc)

theorem Moves.trans (h : Moves none s t) (h' : Moves report t s') : Moves report s s' where
  identity := h.identity.trans h'.identity
  bytes hb := h'.bytes (h.bytes hb)
  cells k c hc hw := by
    rcases h'.cells k c hc hw with hold | hnew
    · rcases h.cells k c hold hw with hc | ⟨r, hr, -⟩
      · exact Or.inl hc
      · cases hr
    · exact Or.inr hnew

/-- **Labelled slabs stay labelled.** -/
theorem Moves.labelled (h : Moves report s s') (hs : s.Labelled) : s'.Labelled := by
  refine ⟨h.bytes hs.bytes, fun k c hc hw ↦ ?_, fun k c hc hw ↦ ?_⟩
  · rcases h.cells k c hc hw with hold | ⟨r, -, hr⟩
    · obtain ⟨a, ha⟩ := hs.agent k c hold hw
      exact ⟨a, h.identity.slots a k ha⟩
    · exact ⟨_, hr.agent⟩
  · rcases h.cells k c hc hw with hold | ⟨r, -, hr⟩
    · rcases hs.haulier k c hold hw with h0 | ⟨x, hx⟩
      · exact Or.inl h0
      · exact Or.inr ⟨x, h.identity.codes x _ hx⟩
    · cases hn : r.named with
      | none => exact Or.inl (hr.anonymous hn)
      | some x =>
        obtain ⟨code, hcode, hcell⟩ := hr.haulier x hn
        have hle : code ≤ 255 := h.bytes hs.bytes x code hcode
        rw [Nat.mod_eq_of_lt (by omega)] at hcell
        exact Or.inr ⟨x, hcell ▸ hcode⟩

/-- More room is not written. -/
theorem ensureCapacity_cells (s : RunSlab) (n k : ℕ) {c : Cell}
    (hc : (s.ensureCapacity n).cells[k]? = some c) (hw : c.written = true) :
    s.cells[k]? = some c := by
  rw [RunSlab.ensureCapacity] at hc
  split at hc
  · rw [RunSlab.grow] at hc
    rcases lt_or_ge k s.cells.length with hk | hk
    · rwa [List.getElem?_append_left hk] at hc
    · rw [List.getElem?_append_right hk] at hc
      have hmem := List.eq_of_mem_replicate (List.mem_of_getElem? hc)
      rw [hmem] at hw
      cases hw
  · exact hc

theorem slotFor_moves (h : s.Ok) (a : String) : Moves none s (s.slotFor a).1 := by
  obtain ⟨-, hext, -⟩ := slotFor_ok h a
  refine ⟨hext, fun hb ↦ ?_, fun k c hc hw ↦ Or.inl ?_⟩
  · have hcodes : (s.slotFor a).1.haulierToCode = s.haulierToCode := by
      rw [RunSlab.slotFor]
      split
      · rfl
      · exact congrArg RunIdentity.haulierToCode (ensureCapacity_identity s s.nActive).1
    exact hcodes ▸ hb
  · rw [RunSlab.slotFor] at hc
    split at hc
    · exact hc
    · exact ensureCapacity_cells s s.nActive k hc hw

theorem codeForHaulier_moves (h : s.Ok) (x : Option String) :
    Moves none s (s.codeForHaulier x).1 ∧
      (x.filter (· ≠ "") = none → (s.codeForHaulier x).2 = 0) ∧
      ∀ hid, x.filter (· ≠ "") = some hid →
        (s.codeForHaulier x).1.haulierToCode.get? hid = some (s.codeForHaulier x).2 := by
  obtain ⟨-, hext, -⟩ := codeForHaulier_ok h x
  have hbytes : ∀ (hid : String) (code : ℕ), code ≤ maxHaulierCode → Bytes s.haulierToCode →
      Bytes (s.haulierToCode.set hid code) := by
    intro hid code hle hb y c hy
    rw [Dict.get?_set] at hy
    split at hy
    · exact Option.some_inj.mp hy ▸ hle
    · exact hb y c hy
  refine ⟨⟨hext, fun hb ↦ ?_, fun k c hc _ ↦ Or.inl ?_⟩, fun hn ↦ ?_, fun hid hh ↦ ?_⟩
  · rw [RunSlab.codeForHaulier]
    split
    · exact hb
    · split
      · exact hb
      · split
        · exact hbytes _ _ (le_refl _) hb
        · next hle => exact hbytes _ _ (not_lt.mp hle) hb
  · rw [RunSlab.codeForHaulier] at hc
    split at hc
    · exact hc
    · split at hc
      · exact hc
      · split at hc <;> exact hc
  · rw [RunSlab.codeForHaulier, hn]
  · rw [RunSlab.codeForHaulier, hh]
    dsimp only
    cases hcode : s.haulierToCode.get? hid with
    | some code => exact hcode
    | none =>
      dsimp only
      split
      · exact Dict.get?_set_self _ _ _
      · exact Dict.get?_set_self _ _ _

/-- **A report** writes its own cell. -/
theorem update_moves (h : s.Ok) (r : Report) : Moves (some r) s (s.update r).1 := by
  obtain ⟨h1, -, hslot⟩ := slotFor_ok h r.agentId
  have hm1 := slotFor_moves h r.agentId
  obtain ⟨hm2, hanon, hnamed⟩ := codeForHaulier_moves h1 r.haulierId
  have hm := hm1.trans hm2
  refine ⟨⟨hm.identity.slots, hm.identity.codes⟩, hm.bytes, fun k c hc hw ↦ ?_⟩
  rw [RunSlab.update] at hc
  rw [List.getElem?_set] at hc
  split at hc
  · next hk =>
    split at hc
    · cases hc
      subst hk
      refine Or.inr ⟨r, rfl, ?_, fun hn ↦ ?_, fun x hx ↦ ?_⟩
      · exact hm2.identity.slots _ _ hslot
      · dsimp only
        rw [hanon hn]
      · exact ⟨_, hnamed x hx, rfl⟩
    · cases hc
  · rcases hm.cells k c hc hw with hold | ⟨x, hx, -⟩
    · exact Or.inl hold
    · cases hx

theorem mergeCodes_moves (h : s.Ok) {codes : Option (Dict String ℕ)}
    (hc : ∀ m, codes = some m → InjectiveCodes m) (hb : ∀ m, codes = some m → Bytes m) :
    Moves none s (s.mergeCodes codes) := by
  obtain ⟨-, hext⟩ := mergeCodes_ok h hc
  refine ⟨hext, fun hbook ↦ ?_, fun k c hcell _ ↦ Or.inl ?_⟩
  · rw [RunSlab.mergeCodes]
    split
    · exact hbook
    · next m hm =>
      rw [RunSlab.adoptHaulierCodes]
      split
      · exact hbook
      · intro x code hx
        rw [Dict.get?_update_entries] at hx
        cases hn : (nonClashing s.haulierToCode m).1.get? x with
        | none =>
          rw [hn] at hx
          exact hbook x code hx
        | some v =>
          rw [hn] at hx
          obtain rfl := Option.some_inj.mp hx
          exact hb m (given_eq_some hm) x v (Dict.get?_filter.mp hn).1
  · rw [RunSlab.mergeCodes] at hcell
    split at hcell
    · exact hcell
    · rw [RunSlab.adoptHaulierCodes] at hcell
      split at hcell <;> exact hcell

theorem adoptSlotMap_cells (s : RunSlab) (m : Dict String ℕ) (k : ℕ) {c : Cell}
    (hc : (s.adoptSlotMap m).cells[k]? = some c) (hw : c.written = true) :
    s.cells[k]? = some c := by
  rw [RunSlab.adoptSlotMap] at hc
  split at hc
  · exact hc
  · exact ensureCapacity_cells s _ k hc hw

theorem adoptSlotMap_codes (s : RunSlab) (m : Dict String ℕ) :
    (s.adoptSlotMap m).haulierToCode = s.haulierToCode := by
  rw [RunSlab.adoptSlotMap]
  split
  · rfl
  · exact congrArg RunIdentity.haulierToCode (ensureCapacity_identity s (highest m.values)).1

theorem mergeSlots_moves (h : s.Ok) {slotMap : Option (Dict String ℕ)}
    (hm : ∀ m, slotMap = some m → InjectiveMap m) : Moves none s (s.mergeSlots slotMap) := by
  obtain ⟨-, hext⟩ := mergeSlots_ok h hm
  refine ⟨hext, fun hbook ↦ ?_, fun k c hc hw ↦ Or.inl ?_⟩
  · rw [RunSlab.mergeSlots]
    split
    · exact hbook
    · dsimp only
      split
      · exact hbook
      · rw [adoptSlotMap_codes]
        exact hbook
  · rw [RunSlab.mergeSlots] at hc
    split at hc
    · exact hc
    · dsimp only at hc
      split at hc
      · exact hc
      · exact adoptSlotMap_cells s _ k hc hw

end Moves

/-! ## A new slab -/

/-- A seed whose maps are injective and whose codes are bytes. -/
structure Seed.Proper (seed : Seed) : Prop where
  injective : seed.Injective
  bytes : ∀ m, seed.haulierCodes = some m → Bytes m

theorem seed_empty_proper : Seed.Proper {} := ⟨seed_empty_injective, fun _ h ↦ by cases h⟩

theorem newSlab_unwritten (cfg : HotConfig) (env : HotEnv) (capacity : Option ℕ) (seed : Seed)
    (parked : Option RunIdentity) (k : ℕ) {c : Cell}
    (hc : (newSlab cfg env capacity seed parked).cells[k]? = some c) : c.written = false := by
  have hnew : ∀ n now, ∀ c : Cell, (RunSlab.new n now).cells[k]? = some c → c.written = false := by
    intro n now c hc
    rw [List.eq_of_mem_replicate (List.mem_of_getElem? hc)]
  have hslots : ∀ (s : RunSlab), (∀ c : Cell, s.cells[k]? = some c → c.written = false) →
      ∀ c : Cell, (s.initSlots seed.slotMap parked).cells[k]? = some c → c.written = false := by
    intro s hs c hc
    rw [Bool.eq_false_iff]
    intro hw
    unfold RunSlab.initSlots at hc
    split at hc
    · exact absurd hw (Bool.eq_false_iff.mp (hs c (adoptSlotMap_cells s _ k hc hw)))
    · refine absurd hw (Bool.eq_false_iff.mp (hs c ?_))
      have hold := ensureCapacity_cells _ _ k hc hw
      exact hold
    · exact absurd hw (Bool.eq_false_iff.mp (hs c hc))
  have hcodes : ∀ s : RunSlab, (s.initCodes seed.haulierCodes parked).cells = s.cells := by
    intro s
    unfold RunSlab.initCodes
    split
    · rw [RunSlab.adoptHaulierCodes]
      split <;> rfl
    · rfl
    · rfl
  have hcounters : ∀ s : RunSlab,
      (s.initCounters env seed.startFrameIdx parked).cells = s.cells := by
    intro s
    cases parked <;> rfl
  rw [newSlab, hcounters, hcodes] at hc
  exact hslots _ (hnew _ _) c hc

theorem initSlots_codes (s : RunSlab) (slotMap : Option (Dict String ℕ))
    (parked : Option RunIdentity) :
    (s.initSlots slotMap parked).haulierToCode = s.haulierToCode := by
  unfold RunSlab.initSlots
  split
  · exact adoptSlotMap_codes s _
  · exact congrArg RunIdentity.haulierToCode (ensureCapacity_identity _ _).1
  · rfl

theorem initCodes_slots (s : RunSlab) (haulierCodes : Option (Dict String ℕ))
    (parked : Option RunIdentity) :
    (s.initCodes haulierCodes parked).agentToSlot = s.agentToSlot := by
  unfold RunSlab.initCodes
  split
  · rw [RunSlab.adoptHaulierCodes]
    split <;> rfl
  · rfl
  · rfl

theorem newSlab_bytes (cfg : HotConfig) (env : HotEnv) (capacity : Option ℕ) {seed : Seed}
    (hseed : seed.Proper) {parked : Option RunIdentity}
    (hparked : ∀ id, parked = some id → Bytes id.haulierToCode) :
    Bytes (newSlab cfg env capacity seed parked).haulierToCode := by
  have hcodes : ∀ s : RunSlab, s.haulierToCode = Dict.empty →
      Bytes (s.initCodes seed.haulierCodes parked).haulierToCode := by
    intro s hs
    unfold RunSlab.initCodes
    split
    · next m hm =>
      rw [RunSlab.adoptHaulierCodes]
      split
      · rw [hs]
        exact fun h c hc ↦ absurd hc.symm (Option.some_ne_none c)
      · intro x code hx
        rw [Dict.get?_update_entries, hs] at hx
        cases hn : m.get? x with
        | none =>
          rw [hn] at hx
          exact absurd hx.symm (Option.some_ne_none code)
        | some v =>
          rw [hn] at hx
          exact Option.some_inj.mp hx ▸ hseed.bytes m (given_eq_some hm) x v hn
    · next id _ => exact hparked id rfl
    · rw [hs]
      exact fun h c hc ↦ absurd hc.symm (Option.some_ne_none c)
  have hcounters : ∀ s : RunSlab,
      (s.initCounters env seed.startFrameIdx parked).haulierToCode = s.haulierToCode := by
    intro s
    cases parked <;> rfl
  rw [newSlab, hcounters]
  exact hcodes _ ((initSlots_codes _ _ _).trans rfl)

/-! ## The slab of a run over an operation -/

/-- The codes of a run are bytes, resident or parked. -/
def HotStore.BytesAt (s : HotStore) (r : String) : Prop :=
  ∀ id, s.identityOf r = some id → Bytes id.haulierToCode

/-- The slots a new slab starts with: those brought along, or else the parked ones. -/
def startSlots (seed : Seed) (parked : Option RunIdentity) : Dict String ℕ :=
  (given seed.slotMap).getD ((parked.map RunIdentity.agentToSlot).getD Dict.empty)

/-- The codes a new slab starts with: those brought along, or else the parked ones. -/
def startCodes (seed : Seed) (parked : Option RunIdentity) : Dict String ℕ :=
  (given seed.haulierCodes).getD ((parked.map RunIdentity.haulierToCode).getD Dict.empty)

/-- A slab of which no cell is written, and what it starts with. -/
structure Fresh (seed : Seed) (parked : Option RunIdentity) (slab : RunSlab) : Prop where
  unwritten : ∀ (k : ℕ) (c : Cell), slab.cells[k]? = some c → c.written = false
  slots : ∀ a, slab.agentToSlot.get? a = (startSlots seed parked).get? a
  codes : ∀ x, slab.haulierToCode.get? x = (startCodes seed parked).get? x

/-- Without an identity a new slab starts empty. -/
theorem initSlots_none (s : RunSlab) {slotMap : Option (Dict String ℕ)} (h : given slotMap = none) :
    s.initSlots slotMap none = s := by
  unfold RunSlab.initSlots
  rw [h]

theorem initCodes_none (s : RunSlab) {codes : Option (Dict String ℕ)} (h : given codes = none) :
    s.initCodes codes none = s := by
  unfold RunSlab.initCodes
  rw [h]

theorem newSlab_fresh (cfg : HotConfig) (env : HotEnv) (capacity : Option ℕ) {seed : Seed}
    (hseed : seed.Injective) {parked : Option RunIdentity}
    (hparked : ∀ id, parked = some id → id.Ok) :
    Fresh seed parked (newSlab cfg env capacity seed parked) := by
  obtain ⟨-, hs1, hs2, hc1, hc2⟩ := newSlab_ok cfg env capacity hseed hparked
  refine ⟨fun k c hc ↦ newSlab_unwritten cfg env capacity seed parked k hc, fun a ↦ ?_,
    fun x ↦ ?_⟩
  · rw [startSlots]
    cases hg : given seed.slotMap with
    | some m => exact hs1 m hg a
    | none =>
      cases parked with
      | some id =>
        rw [hs2 id hg rfl]
        rfl
      | none =>
        have hempty : (newSlab cfg env capacity seed none).agentToSlot =
            (((RunSlab.new ((capacity.filter (· ≠ 0)).getD cfg.capacity) env.now).initSlots
              seed.slotMap none).initCodes seed.haulierCodes none).agentToSlot := rfl
        rw [hempty, initCodes_slots, initSlots_none _ hg]
        rfl
  · rw [startCodes]
    cases hg : given seed.haulierCodes with
    | some m => exact hc1 m hg x
    | none =>
      cases parked with
      | some id =>
        rw [hc2 id hg rfl]
        rfl
      | none =>
        have hempty : (newSlab cfg env capacity seed none).haulierToCode =
            (((RunSlab.new ((capacity.filter (· ≠ 0)).getD cfg.capacity) env.now).initSlots
              seed.slotMap none).initCodes seed.haulierCodes none).haulierToCode := rfl
        rw [hempty, initCodes_none _ hg, initSlots_codes]
        rfl

/-- The slab a run has in `t` comes from the one it has in `s`, or from a new one; the codes of the
run stay bytes. -/
structure Follows (r : String) (report : Option Report) (seed : Seed) (s t : HotStore) : Prop where
  slab : ∀ slab', t.runs.get? r = some slab' →
    (∃ slab, s.runs.get? r = some slab ∧ Moves report slab slab') ∨
    s.runs.get? r = none ∧ ∃ fresh : RunSlab, Fresh seed (s.carryover.get? r) fresh ∧
      (s.BytesAt r → Bytes fresh.haulierToCode) ∧ Moves report fresh slab'
  bytes : s.BytesAt r → t.BytesAt r

section Follows

variable {cfg : HotConfig} {env : HotEnv} {s t : HotStore} {r q : String}
  {report : Option Report} {seed : Seed}

theorem Follows.of_shrinks (h : Shrinks s t) : Follows r report seed s t where
  slab slab hslab := Or.inl ⟨slab, h.runs r slab hslab, Moves.same rfl rfl rfl⟩
  bytes hb id hid := hb id (h.identity r id hid)

theorem follows_setSlab {slab slab' : RunSlab} (hq : s.runs.get? q = some slab)
    (hm : q = r → Moves report slab slab') : Follows r report seed s (s.setSlab q slab') := by
  refine ⟨fun t ht ↦ ?_, fun hb id hid ↦ ?_⟩
  · rw [runs_setSlab] at ht
    split at ht
    · next he =>
      subst he
      cases ht
      exact Or.inl ⟨slab, hq, hm rfl⟩
    · exact Or.inl ⟨t, ht, Moves.same rfl rfl rfl⟩
  · by_cases he : r = q
    · subst he
      rw [identityOf_setSlab_self, Option.some_inj] at hid
      subst hid
      exact (hm rfl).bytes (hb _ (identityOf_resident hq))
    · rw [identityOf_setSlab_ne he] at hid
      exact hb id hid

theorem Follows.setSlab (h : Follows r none seed s t) {slab slab' : RunSlab}
    (hq : t.runs.get? q = some slab) (hm : q = r → Moves report slab slab') :
    Follows r report seed s (t.setSlab q slab') := by
  have hset : Follows r report seed t (t.setSlab q slab') := follows_setSlab hq hm
  refine ⟨fun u hu ↦ ?_, fun hb ↦ hset.bytes (h.bytes hb)⟩
  rcases hset.slab u hu with ⟨v, hv, hmoves⟩ | ⟨hnone, -⟩
  · rcases h.slab v hv with ⟨w, hw, hm'⟩ | ⟨hnone, fresh, h1, h2, hm'⟩
    · exact Or.inl ⟨w, hw, hm'.trans hmoves⟩
    · exact Or.inr ⟨hnone, fresh, h1, h2, hm'.trans hmoves⟩
  · rw [runs_setSlab] at hu
    split at hu
    · next he =>
      rw [← he, hnone] at hq
      cases hq
    · rw [hnone] at hu
      cases hu

theorem createSlab_follows (h : StoreOk s) (hq : s.runs.get? q = none) (hseed : seed.Proper)
    (capacity : Option ℕ) :
    Follows r report seed s (s.createSlab cfg env q capacity seed) := by
  have hshrinks : Shrinks (s.seat q (newSlab cfg env capacity seed (s.carryover.get? q)))
      (HotStore.evictLru cfg (s.seat q (newSlab cfg env capacity seed (s.carryover.get? q)))) :=
    (evictLru_apart (seat_apart h.disjoint q _)).2
  have hbytes : s.BytesAt q →
      Bytes (newSlab cfg env capacity seed (s.carryover.get? q)).haulierToCode :=
    fun hb ↦ newSlab_bytes cfg env capacity hseed fun id hid ↦
      hb id ((identityOf_parked hq).trans hid)
  refine ⟨fun slab hslab ↦ ?_, fun hb id hid ↦ ?_⟩
  · have hseat := hshrinks.runs r slab hslab
    rw [runs_seat] at hseat
    split at hseat
    · next he =>
      subst he
      cases hseat
      exact Or.inr ⟨hq, _, newSlab_fresh cfg env capacity hseed.injective (h.carryover r), hbytes,
        Moves.same rfl rfl rfl⟩
    · exact Or.inl ⟨slab, hseat, Moves.same rfl rfl rfl⟩
  · have hseat := hshrinks.identity r id hid
    by_cases he : r = q
    · subst he
      rw [identityOf_seat_self, Option.some_inj] at hseat
      subst hseat
      exact hbytes hb
    · rw [identityOf_seat_ne he] at hseat
      exact hb id hseat

theorem ensureRun_follows (h : StoreOk s) (hseed : seed.Proper) (capacity : Option ℕ) :
    Follows r report seed s (s.ensureRun cfg env q capacity seed) := by
  rw [HotStore.ensureRun]
  split
  · next slab hq => exact follows_setSlab hq fun _ ↦ Moves.same rfl rfl rfl
  · next hq => exact createSlab_follows h hq hseed capacity

/-- The identities an operation brings along are proper. -/
def HotOp.Proper (op : HotOp) : Prop := ∀ seed, op.seed = some seed → seed.Proper

theorem HotOp.Proper.injective {op : HotOp} (h : op.Proper) : op.Injective :=
  fun seed hs ↦ (h seed hs).injective

/-- What an operation reports of a run. -/
def HotOp.reportOn (r : String) : HotOp → Option Report
  | .updatePosition _ q report => if q = r then some report else none
  | _ => none

/-- **One operation** moves the slab of a resident run, evicts it, or creates one. -/
theorem op_follows (h : StoreOk s) {op : HotOp} (hop : op.Proper) (r : String) :
    Follows r (op.reportOn r) (op.seed.getD {}) s (op.run cfg s) := by
  have hens (env : HotEnv) (q : String) (report : Option Report) :
      Follows r report {} s (s.ensureRun cfg env q none {}) :=
    ensureRun_follows h seed_empty_proper none
  cases op with
  | ensureRun env q capacity seed => exact ensureRun_follows h (hop seed rfl) capacity
  | slotFor env q a =>
    have hok : StoreOk (s.ensureRun cfg env q none {}) := (ensureRun_acts h q).ok
    simp only [HotOp.run, HotStore.slotFor]
    split
    · exact hens env q none
    · next slab hq =>
      have hs := hok.runs q slab hq
      refine (hens env q none).setSlab hq fun _ ↦ ?_
      have hmoves : Moves none slab { slab with lastUpdate := env.now } := Moves.same rfl rfl rfl
      exact hmoves.trans (slotFor_moves (s := { slab with lastUpdate := env.now })
        ⟨hs.slots, hs.codes, hs.nActive, hs.capacity⟩ a)
  | updatePosition env q report =>
    have hok : StoreOk (s.ensureRun cfg env q none {}) := (ensureRun_acts h q).ok
    simp only [HotOp.run, HotStore.updatePosition]
    split
    · exact hens env q _
    · next slab hq =>
      have hs := hok.runs q slab hq
      refine (hens env q none).setSlab hq fun he ↦ ?_
      rw [HotOp.reportOn, if_pos he]
      have hmoves : Moves none slab { slab with lastUpdate := env.now } := Moves.same rfl rfl rfl
      exact hmoves.trans (update_moves (s := { slab with lastUpdate := env.now })
        ⟨hs.slots, hs.codes, hs.nActive, hs.capacity⟩ report)
  | snapshot q =>
    simp only [HotOp.run, HotStore.snapshot]
    split
    · exact Follows.of_shrinks (Shrinks.refl s)
    · next slab hq => exact follows_setSlab hq fun _ ↦ Moves.same rfl rfl rfl
  | evict q =>
    have hshrinks : Shrinks s (s.evict cfg q).1 := (evict_ok h q).2
    exact Follows.of_shrinks hshrinks
  | seedRunIdentity env q seed =>
    simp only [HotOp.run, HotStore.seedRunIdentity]
    split
    · next hq => exact createSlab_follows h hq (hop seed rfl) none
    · next slab hq =>
      have hok := h.runs q slab hq
      obtain ⟨hok1, -⟩ := mergeCodes_ok hok (hop seed rfl).injective.codes
      have hm1 := mergeCodes_moves hok (hop seed rfl).injective.codes (hop seed rfl).bytes
      have hm2 := hm1.trans (mergeSlots_moves hok1 (hop seed rfl).injective.slots)
      exact follows_setSlab hq fun _ ↦ hm2.trans (Moves.same rfl rfl rfl)
  | rollbackFrameIdx q i =>
    simp only [HotOp.run, HotStore.rollbackFrameIdx]
    split
    · exact Follows.of_shrinks (Shrinks.refl s)
    · next slab hq =>
      split
      · exact Follows.of_shrinks (Shrinks.refl s)
      · exact follows_setSlab hq fun _ ↦ Moves.same rfl rfl rfl

end Follows

end OpenRide.Dataplane
