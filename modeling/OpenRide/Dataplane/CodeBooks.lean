import OpenRide.Dataplane.FrameDensity

/-!
# The persisted code books

The threads of the service in any order, with restarts at any point and reads of `run_meta` that
fail at any time.  The book that is stored for a run is meant to be injective and never to change
what it says.

The invariant (`BooksOk`) ties the stored book to the hot tier: whatever identity a run has there,
resident or parked, keeps every slot and every code that is stored.  Between its first read and its
write a persist has books in hand, and these are kept by that identity too (`Storable`).  Then the
merge of the two books is the live one, which is injective, and a failed read before the merge does
no harm.

The invariant is lost in two ways.  A slab that is built without the stored book starts its codes
from 1 again: `code_shared` is a run in which the lookup of `restore_run_codes` fails once.  And a
persist whose books were read before another one wrote, or before the slab was built anew, writes
over what it has not seen: `haulier_dropped`.  `books_kept` says that there is no third way.
-/

namespace OpenRide.Dataplane

open Lib

/-- The row stored for a run. -/
def DataplaneService.metaRow (s : DataplaneService) (runId : String) : RunMeta :=
  (s.runMeta.get? runId).getD {}

/-- Every slot and every code of a row is one of an identity. -/
structure RunMeta.KeptBy (row : RunMeta) (id : RunIdentity) : Prop where
  codes : Keeps row.haulierCodes id.haulierToCode
  slots : Keeps row.slotMap id.agentToSlot

/-- Every slot and every code of a row is one of another. -/
structure RunMeta.LaterIs (row row' : RunMeta) : Prop where
  codes : Keeps row.haulierCodes row'.haulierCodes
  slots : Keeps row.slotMap row'.slotMap

theorem RunMeta.LaterIs.refl (row : RunMeta) : row.LaterIs row :=
  ⟨fun _ _ h ↦ h, fun _ _ h ↦ h⟩

theorem RunMeta.LaterIs.trans {a b c : RunMeta} (h : a.LaterIs b) (h' : b.LaterIs c) :
    a.LaterIs c :=
  ⟨fun k v hk ↦ h'.codes k v (h.codes k v hk), fun k v hk ↦ h'.slots k v (h.slots k v hk)⟩

/-- A row without a book. -/
def RunMeta.Blank (row : RunMeta) : Prop :=
  row.haulierCodes.entries = [] ∧ row.slotMap.entries = []

instance (row : RunMeta) : Decidable row.Blank := inferInstanceAs (Decidable (_ ∧ _))

theorem RunMeta.Blank.keptBy {row : RunMeta} (h : row.Blank) (id : RunIdentity) :
    row.KeptBy id := by
  have hall : ∀ (d e : Dict String ℕ), d.entries = [] → Keeps d e := by
    intro d e hd k v hk
    have hmem := Dict.mem_entries_iff.mpr hk
    rw [hd] at hmem
    exact absurd hmem List.not_mem_nil
  exact ⟨hall _ _ h.1, hall _ _ h.2⟩

/-- The stored books are injective, are kept by the identities of the hot tier, and say what they
said in `before`. -/
structure BooksOk (before : String → RunMeta) (s : DataplaneService) : Prop where
  store : StoreOk s.hot
  codes : ∀ r, InjectiveCodes (s.metaRow r).haulierCodes
  slots : ∀ r, InjectiveMap (s.metaRow r).slotMap
  kept : ∀ r id, s.hot.identityOf r = some id → (s.metaRow r).KeptBy id
  later : ∀ r, (before r).LaterIs (s.metaRow r)

section Kept

variable {cfg : HotConfig} {before : String → RunMeta} {s t : DataplaneService} {r : String}

theorem metaRow_congr (h : t.runMeta = s.runMeta) (r : String) : t.metaRow r = s.metaRow r := by
  rw [DataplaneService.metaRow, DataplaneService.metaRow, h]

/-- Nothing has happened to a run but new slots and codes. -/
structure Steady (r : String) (s t : DataplaneService) : Prop where
  row : t.metaRow r = s.metaRow r
  own : ∀ id', t.hot.identityOf r = some id' →
    ∃ id, s.hot.identityOf r = some id ∧ Extends id id'

/-- A step keeps the books, and all runs but one are steady. -/
structure Renews (before : String → RunMeta) (renewed : Option String) (s t : DataplaneService) :
    Prop where
  books : BooksOk before t
  steady : ∀ r, renewed ≠ some r → Steady r s t

variable {renewed : Option String}

theorem Renews.same (h : BooksOk before s) (hhot : t.hot = s.hot) (hmeta : t.runMeta = s.runMeta) :
    Renews before renewed s t := by
  have hrow := metaRow_congr hmeta
  refine ⟨⟨hhot ▸ h.store, fun r ↦ hrow r ▸ h.codes r, fun r ↦ hrow r ▸ h.slots r,
    fun r id hid ↦ ?_, fun r ↦ hrow r ▸ h.later r⟩, fun r _ ↦ ⟨hrow r, fun id' hid' ↦ ?_⟩⟩
  · rw [hhot] at hid
    exact hrow r ▸ h.kept r id hid
  · rw [hhot] at hid'
    exact ⟨id', hid', Extends.refl id'⟩

/-- What acts on the hot tier at a run keeps the books if the new identity of the run keeps the
stored one. -/
theorem Renews.acts {R : RunIdentity → RunIdentity → Prop} (h : BooksOk before s)
    (hmeta : t.runMeta = s.runMeta) (hacts : Acts R r s.hot t.hot)
    (hown : ∀ id', t.hot.identityOf r = some id' → (s.metaRow r).KeptBy id' ∧
      (renewed ≠ some r → ∃ id, s.hot.identityOf r = some id ∧ Extends id id')) :
    Renews before renewed s t := by
  have hrow := metaRow_congr hmeta
  refine ⟨⟨hacts.ok, fun r ↦ hrow r ▸ h.codes r, fun r ↦ hrow r ▸ h.slots r,
    fun q id hid ↦ ?_, fun r ↦ hrow r ▸ h.later r⟩, fun q hq ↦ ⟨hrow q, fun id' hid' ↦ ?_⟩⟩
  · rw [hrow]
    by_cases hq : q = r
    · subst hq
      exact (hown id hid).1
    · exact h.kept q id (hacts.others q id hq hid)
  · by_cases hqr : q = r
    · subst hqr
      exact (hown id' hid').2 hq
    · exact ⟨id', hacts.others q id' hqr hid', Extends.refl id'⟩

variable {row : RunMeta}

theorem RunMeta.KeptBy.extends {id id' : RunIdentity} (h : row.KeptBy id) (he : Extends id id') :
    row.KeptBy id' :=
  ⟨fun k v hk ↦ he.codes k v (h.codes k v hk), fun k v hk ↦ he.slots k v (h.slots k v hk)⟩

/-- An operation of the hot tier that brings no identity along. -/
theorem Renews.op (h : BooksOk before s) (cfg : HotConfig) (op : HotOp) (hseed : op.seed = none)
    (hhot : t.hot = op.run cfg s.hot) (hmeta : t.runMeta = s.runMeta)
    (hnew : s.hot.identityOf op.runId = none → ∀ id, t.hot.identityOf op.runId = some id →
      (s.metaRow op.runId).KeptBy id ∧ renewed = some op.runId) : Renews before renewed s t := by
  have hinj : op.Injective := fun seed hs ↦ by
    rw [hseed] at hs
    cases hs
  have hacts : Acts _ op.runId s.hot (op.run cfg s.hot) := op_acts h.store hinj
  rw [← hhot] at hacts
  refine Renews.acts h hmeta hacts fun id' hid' ↦ ?_
  cases hid : s.hot.identityOf op.runId with
  | none =>
    obtain ⟨hkept, hrenewed⟩ := hnew hid id' hid'
    exact ⟨hkept, fun hne ↦ absurd hrenewed hne⟩
  | some id =>
    rcases hacts.own id' hid' id hid with hext | ⟨seed, hs, -⟩
    · exact ⟨(h.kept _ id hid).extends hext, fun _ ↦ ⟨id, rfl, hext⟩⟩
    · rw [hseed] at hs
      cases hs

/-- An operation that gives no identity to a run the hot tier knows nothing of. -/
theorem Renews.look (h : BooksOk before s) (cfg : HotConfig) (op : HotOp) (hseed : op.seed = none)
    (hhot : t.hot = op.run cfg s.hot) (hmeta : t.runMeta = s.runMeta)
    (hnone : s.hot.identityOf op.runId = none → (op.run cfg s.hot).identityOf op.runId = none) :
    Renews before renewed s t := by
  refine Renews.op h cfg op hseed hhot hmeta fun hnew id hid ↦ ?_
  rw [hhot] at hid
  exact absurd ((hnone hnew).symm.trans hid) (Option.some_ne_none id).symm

theorem runs_none (hnone : s.hot.identityOf r = none) : s.hot.runs.get? r = none := by
  rw [Option.eq_none_iff_forall_ne_some]
  intro slab hslab
  rw [identityOf_resident hslab] at hnone
  cases hnone

theorem Renews.evict (h : BooksOk before s) (r : String)
    (hhot : t.hot = (s.hot.evict cfg r).1) (hmeta : t.runMeta = s.runMeta) :
    Renews before renewed s t := by
  refine Renews.look h cfg (.evict r) rfl hhot hmeta fun hnone ↦ ?_
  have hshrinks : Shrinks s.hot (s.hot.evict cfg r).1 := (evict_ok h.store r).2
  rw [Option.eq_none_iff_forall_ne_some]
  intro id hid
  exact absurd (hnone.symm.trans (hshrinks.identity r id hid)) (Option.some_ne_none id).symm

theorem Renews.snapshot (h : BooksOk before s) (r : String)
    (hhot : t.hot = (s.hot.snapshot r).1) (hmeta : t.runMeta = s.runMeta) :
    Renews before renewed s t := by
  refine Renews.look h { maxRuns := 0, capacity := 0, carryoverRuns := 0 } (.snapshot r) rfl hhot
    hmeta fun hnone ↦ ?_
  have hrun : s.hot.runs.get? r = none := runs_none hnone
  have hsame : s.hot.snapshot r = (s.hot, none) := by
    rw [HotStore.snapshot, hrun]
  exact (congrArg (fun p : HotStore × Option Frame ↦ p.1.identityOf r) hsame).trans hnone

theorem Renews.rollback (h : BooksOk before s) (r : String) (i : ℤ)
    (hhot : t.hot = (s.hot.rollbackFrameIdx r i).1) (hmeta : t.runMeta = s.runMeta) :
    Renews before renewed s t := by
  refine Renews.look h { maxRuns := 0, capacity := 0, carryoverRuns := 0 } (.rollbackFrameIdx r i)
    rfl hhot hmeta fun hnone ↦ ?_
  have hrun : s.hot.runs.get? r = none := runs_none hnone
  have hsame : s.hot.rollbackFrameIdx r i = (s.hot, false) := by
    rw [HotStore.rollbackFrameIdx, hrun]
  exact (congrArg (fun p : HotStore × Bool ↦ p.1.identityOf r) hsame).trans hnone

variable {env : HotEnv}

/-- A report that finds no identity of its run finds no stored book either. -/
theorem Renews.report (h : BooksOk before s) {report : Report}
    (hhot : t.hot = (s.hot.updatePosition cfg env r report).1) (hmeta : t.runMeta = s.runMeta)
    (hblank : s.hot.identityOf r = none → (s.metaRow r).Blank)
    (hrenewed : s.hot.identityOf r = none → renewed = some r) : Renews before renewed s t :=
  Renews.op h cfg (.updatePosition env r report) rfl hhot hmeta fun hnone id _ ↦
    ⟨(hblank hnone).keptBy id, hrenewed hnone⟩

/-! ## Putting a stored book back -/

theorem identityOf_createSlab (h : s.hot.Apart) {capacity : Option ℕ} {seed : Seed}
    {id : RunIdentity} (hid : (s.hot.createSlab cfg env r capacity seed).identityOf r = some id) :
    id = (newSlab cfg env capacity seed (s.hot.carryover.get? r)).identity := by
  have hseat : Shrinks (s.hot.seat r (newSlab cfg env capacity seed (s.hot.carryover.get? r)))
      (HotStore.evictLru cfg
        (s.hot.seat r (newSlab cfg env capacity seed (s.hot.carryover.get? r)))) :=
    (evictLru_apart (seat_apart h r _)).2
  have hself := hseat.identity r id hid
  rw [identityOf_seat_self, Option.some_inj] at hself
  exact hself.symm

theorem given_eq_none {d : Dict String ℕ} (h : given (some d) = none) : d.entries = [] := by
  rw [given, Option.filter_eq_none_iff] at h
  simpa using h d rfl

/-- A row whose maps are injective is an injective seed. -/
theorem seed_injective (hcodes : InjectiveCodes row.haulierCodes)
    (hslots : InjectiveMap row.slotMap) : row.seed.Injective where
  slots m hm := by
    obtain rfl := Option.some_inj.mp (given_eq_some hm)
    exact hslots
  codes m hm := by
    obtain rfl := Option.some_inj.mp (given_eq_some hm)
    exact hcodes

theorem newSlab_keeps (hcodes : InjectiveCodes row.haulierCodes) (hslots : InjectiveMap row.slotMap)
    {parked : Option RunIdentity} (hparked : ∀ id, parked = some id → id.Ok) :
    row.KeptBy (newSlab cfg env none row.seed parked).identity := by
  obtain ⟨-, hslot, -, hcode, -⟩ :=
    newSlab_ok cfg env none (seed_injective hcodes hslots) hparked
  have hgiven : ∀ d : Dict String ℕ, given (given (some d)) = given (some d) := by
    intro d
    rw [given, given, Option.filter_filter]
    simp only [Bool.and_self]
  have hblank : ∀ (d e : Dict String ℕ), given (some d) = none → Keeps d e := by
    intro d e hd k v hk
    have hmem := Dict.mem_entries_iff.mpr hk
    rw [given_eq_none hd] at hmem
    exact absurd hmem List.not_mem_nil
  refine ⟨?_, ?_⟩
  · cases hg : given (some row.haulierCodes) with
    | none => exact hblank _ _ hg
    | some m =>
      obtain rfl := Option.some_inj.mp (given_eq_some hg)
      exact fun k v hk ↦ (hcode _ ((hgiven _).trans hg) k).trans hk
  · cases hg : given (some row.slotMap) with
    | none => exact hblank _ _ hg
    | some m =>
      obtain rfl := Option.some_inj.mp (given_eq_some hg)
      exact fun k v hk ↦ (hslot _ ((hgiven _).trans hg) k).trans hk

/-- A seed that is not the stored row does no harm to a resident run. -/
theorem Renews.restore (h : BooksOk before s) {seed : Seed} (hinj : seed.Injective)
    (hstored : s.hot.runs.get? r = none → seed = (s.metaRow r).seed)
    (hrenewed : s.hot.runs.get? r = none → renewed = some r)
    (hhot : t.hot = s.hot.seedRunIdentity cfg env r seed) (hmeta : t.runMeta = s.runMeta) :
    Renews before renewed s t := by
  have hop : (HotOp.seedRunIdentity env r seed).Injective := fun seed' hs ↦
    Option.some_inj.mp hs ▸ hinj
  have hacts : Acts _ r s.hot (s.hot.seedRunIdentity cfg env r seed) := op_acts h.store hop
  rw [← hhot] at hacts
  refine Renews.acts h hmeta hacts fun id' hid' ↦ ?_
  cases hr : s.hot.runs.get? r with
  | none =>
    obtain rfl := hstored hr
    rw [hhot, HotStore.seedRunIdentity, hr] at hid'
    rw [identityOf_createSlab h.store.disjoint hid']
    exact ⟨newSlab_keeps (h.codes r) (h.slots r) (h.store.carryover r),
      fun hne ↦ absurd (hrenewed hr) hne⟩
  | some slab =>
    have hid := identityOf_resident hr
    rcases hacts.own id' hid' _ hid with hext | ⟨-, -, hnone, -⟩
    · exact ⟨(h.kept r _ hid).extends hext, fun _ ↦ ⟨_, hid, hext⟩⟩
    · rw [show s.hot.runs.get? r = none from hnone] at hr
      cases hr

/-! ## Storing a book -/

/-- The books that are about to be stored: empty, or injective, at least what is stored, and kept by
the identity in the hot tier. -/
structure Storable (s : DataplaneService) (r : String) (codes slots : Dict String ℕ) : Prop where
  codes : codes.entries = [] ∨ InjectiveCodes codes ∧ Keeps (s.metaRow r).haulierCodes codes ∧
    ∀ id, s.hot.identityOf r = some id → Keeps codes id.haulierToCode
  slots : slots.entries = [] ∨ InjectiveMap slots ∧ Keeps (s.metaRow r).slotMap slots ∧
    ∀ id, s.hot.identityOf r = some id → Keeps slots id.agentToSlot

variable {codes : Dict String ℕ}

/-- What one of the two maps of a row becomes. -/
theorem stored_map {row : Dict String ℕ} {Inj : Dict String ℕ → Prop} {Kept : Dict String ℕ → Prop}
    (hInj : ∀ d e : Dict String ℕ, (∀ k, d.get? k = e.get? k) → Inj d → Inj e)
    (hKept : ∀ d e : Dict String ℕ, (∀ k, d.get? k = e.get? k) → Kept d → Kept e)
    (hrow : Inj row ∧ Kept row) (h : codes.entries = [] ∨ Inj codes ∧ Keeps row codes ∧ Kept codes)
    :
    let stored := if codes.entries.isEmpty then row else sortedMap codes
    Inj stored ∧ Kept stored ∧ Keeps row stored := by
  split
  · exact ⟨hrow.1, hrow.2, fun _ _ hk ↦ hk⟩
  · next hne =>
    obtain ⟨hinj, hkeep, hkept⟩ := h.resolve_left fun he ↦ hne (List.isEmpty_iff.mpr he)
    have hsame : ∀ k, codes.get? k = (sortedMap codes).get? k :=
      fun k ↦ (get?_sortedMap codes k).symm
    exact ⟨hInj _ _ hsame hinj, hKept _ _ hsame hkept, fun k v hk ↦ hsame k ▸ hkeep k v hk⟩

theorem injectiveCodes_congr (d e : Dict String ℕ) (h : ∀ k, d.get? k = e.get? k)
    (hd : InjectiveCodes d) : InjectiveCodes e :=
  fun k k' v hv hk hk' ↦ hd k k' v hv ((h k).trans hk) ((h k').trans hk')

theorem injectiveMap_congr (d e : Dict String ℕ) (h : ∀ k, d.get? k = e.get? k)
    (hd : InjectiveMap d) : InjectiveMap e :=
  fun k k' v hk hk' ↦ hd k k' v ((h k).trans hk) ((h k').trans hk')

/-- The stored map, or nothing when the lookup fails, merged into the live one, or into nothing when
the run is not resident. -/
theorem merged_map {row live existing : Dict String ℕ} {Inj : Dict String ℕ → Prop}
    {Kept : Dict String ℕ → Prop} (hInj : ∀ d e : Dict String ℕ, (∀ k, d.get? k = e.get? k) →
      Inj d → Inj e)
    (hKept : ∀ d e : Dict String ℕ, (∀ k, d.get? k = e.get? k) → Kept d → Kept e)
    (hrow : Inj row ∧ Kept row) (hexisting : existing = row ∨ existing = Dict.empty)
    (hlive : live.entries = [] ∨ Inj live ∧ Keeps row live ∧ Kept live) :
    let codes := mergeCodeMap existing live
    codes.entries = [] ∨ Inj codes ∧ Keeps row codes ∧ Kept codes := by
  have hread : ∀ k, (mergeCodeMap existing live).get? k = (existing.get? k <|> live.get? k) :=
    fun k ↦ Dict.get?_update_entries live existing k
  rcases hlive with hempty | ⟨hinj, hkeep, hkept⟩
  · obtain rfl : live = Dict.empty := by
      cases live
      cases hempty
      rfl
    rcases hexisting with rfl | rfl
    · have hsame : ∀ k, existing.get? k = (mergeCodeMap existing Dict.empty).get? k := by
        intro k
        rw [hread]
        cases existing.get? k <;> rfl
      exact Or.inr ⟨hInj _ _ hsame hrow.1, fun k v hk ↦ hsame k ▸ hk, hKept _ _ hsame hrow.2⟩
    · exact Or.inl rfl
  · have hsub : Keeps existing live := by
      rcases hexisting with rfl | rfl
      · exact hkeep
      · exact fun k v hk ↦ absurd hk.symm (Option.some_ne_none v)
    have hsame : ∀ k, live.get? k = (mergeCodeMap existing live).get? k := by
      intro k
      rw [hread]
      cases he : existing.get? k with
      | none => rfl
      | some v => exact hsub k v he
    exact Or.inr ⟨hInj _ _ hsame hinj, fun k v hk ↦ hsame k ▸ hkeep k v hk,
      hKept _ _ hsame hkept⟩

theorem keeps_congr {f : RunIdentity → Dict String ℕ} {hot : HotStore} (d e : Dict String ℕ)
    (h : ∀ k, d.get? k = e.get? k) (hd : ∀ id, hot.identityOf r = some id → Keeps d (f id)) :
    ∀ id, hot.identityOf r = some id → Keeps e (f id) :=
  fun id hid k v hk ↦ hd id hid k v ((h k).trans hk)

/-- The stored book of a run is kept by what the hot tier has of it. -/
theorem BooksOk.codes_kept (h : BooksOk before s) (r : String) :
    InjectiveCodes (s.metaRow r).haulierCodes ∧
      ∀ id, s.hot.identityOf r = some id → Keeps (s.metaRow r).haulierCodes id.haulierToCode :=
  ⟨h.codes r, fun id hid ↦ (h.kept r id hid).codes⟩

theorem BooksOk.slots_kept (h : BooksOk before s) (r : String) :
    InjectiveMap (s.metaRow r).slotMap ∧
      ∀ id, s.hot.identityOf r = some id → Keeps (s.metaRow r).slotMap id.agentToSlot :=
  ⟨h.slots r, fun id hid ↦ (h.kept r id hid).slots⟩

variable {slots : Dict String ℕ}

/-- Nothing may be stored. -/
theorem storable_empty : Storable s r Dict.empty Dict.empty := ⟨Or.inl rfl, Or.inl rfl⟩

/-- The live book of a resident run may be stored. -/
theorem storable_codes (h : BooksOk before s) {slab : RunSlab}
    (hslab : s.hot.runs.get? r = some slab) : Storable s r slab.haulierToCode Dict.empty := by
  have hid := identityOf_resident hslab
  refine ⟨Or.inr ⟨(h.store.runs r slab hslab).codes.injective, (h.kept r _ hid).codes,
    fun id hid' ↦ ?_⟩, Or.inl rfl⟩
  rw [hid, Option.some_inj] at hid'
  exact hid' ▸ fun k v hk ↦ hk

/-- So may its slot map beside a book that may. -/
theorem Storable.slot_map (hcodes : Storable s r codes Dict.empty) (h : BooksOk before s)
    {slab : RunSlab} (hslab : s.hot.runs.get? r = some slab) :
    Storable s r codes slab.agentToSlot := by
  have hid := identityOf_resident hslab
  refine ⟨hcodes.codes, Or.inr ⟨(h.store.runs r slab hslab).slots.injective, (h.kept r _ hid).slots,
    fun id hid' ↦ ?_⟩⟩
  rw [hid, Option.some_inj] at hid'
  exact hid' ▸ fun k v hk ↦ hk

/-- **The merged books may be stored**, whether or not the stored ones could be read. -/
theorem merge_storable (h : BooksOk before s) (io : Io) (hbooks : Storable s r codes slots) :
    let existing := if io.reads then (s.runMeta.get? r).getD {} else {}
    Storable s r (mergeCodeMap existing.haulierCodes codes)
      (mergeCodeMap existing.slotMap slots) := by
  have hexisting : ∀ f : RunMeta → Dict String ℕ, f {} = Dict.empty →
      f (if io.reads then (s.runMeta.get? r).getD {} else {}) = f (s.metaRow r) ∨
        f (if io.reads then (s.runMeta.get? r).getD {} else {}) = Dict.empty := by
    intro f hf
    split
    · exact Or.inl rfl
    · exact Or.inr hf
  exact ⟨merged_map injectiveCodes_congr keeps_congr (h.codes_kept r)
      (hexisting RunMeta.haulierCodes rfl) hbooks.codes,
    merged_map injectiveMap_congr keeps_congr (h.slots_kept r)
      (hexisting RunMeta.slotMap rfl) hbooks.slots⟩

/-- What may be stored may still be stored after what leaves the run alone. -/
theorem Storable.steady (h : Storable s r codes slots) (hsteady : Steady r s t) :
    Storable t r codes slots where
  codes := h.codes.imp_right fun ⟨hinj, hrow, hkept⟩ ↦
    ⟨hinj, hsteady.row ▸ hrow, fun id' hid' k v hk ↦ by
      obtain ⟨id, hid, hext⟩ := hsteady.own id' hid'
      exact hext.codes k v (hkept id hid k v hk)⟩
  slots := h.slots.imp_right fun ⟨hinj, hrow, hkept⟩ ↦
    ⟨hinj, hsteady.row ▸ hrow, fun id' hid' k v hk ↦ by
      obtain ⟨id, hid, hext⟩ := hsteady.own id' hid'
      exact hext.slots k v (hkept id hid k v hk)⟩

/-- **Storing such books** keeps what is stored. -/
theorem Renews.store (h : BooksOk before s) {maxIdx : Option ℤ}
    (hok : Storable s r codes slots) (hhot : t.hot = s.hot)
    (hmeta : t.runMeta = s.runMeta.set r ((s.metaRow r).upsert codes slots maxIdx)) :
    Renews before (some r) s t := by
  have hrow : ∀ q, t.metaRow q =
      if q = r then (s.metaRow r).upsert codes slots maxIdx else s.metaRow q := by
    intro q
    rw [DataplaneService.metaRow, hmeta, Dict.get?_set]
    split
    · rw [Option.getD_some]
    · rfl
  obtain ⟨hc1, hc2, hc3⟩ :=
    stored_map injectiveCodes_congr keeps_congr (h.codes_kept r) hok.codes
  obtain ⟨hs1, hs2, hs3⟩ :=
    stored_map injectiveMap_congr keeps_congr (h.slots_kept r) hok.slots
  refine ⟨⟨hhot ▸ h.store, fun q ↦ ?_, fun q ↦ ?_, fun q id hid ↦ ?_, fun q ↦ ?_⟩,
    fun q hq ↦ ⟨?_, fun id' hid' ↦ ?_⟩⟩
  · rw [hrow]
    split
    · exact hc1
    · exact h.codes q
  · rw [hrow]
    split
    · exact hs1
    · exact h.slots q
  · rw [hhot] at hid
    rw [hrow]
    split
    · next hq =>
      subst hq
      exact ⟨hc2 id hid, hs2 id hid⟩
    · exact h.kept q id hid
  · rw [hrow]
    split
    · next hq =>
      subst hq
      exact (h.later q).trans ⟨hc3, hs3⟩
    · exact h.later q
  · rw [hrow, if_neg fun hqr ↦ hq (congrArg some hqr.symm)]
  · rw [hhot] at hid'
    exact ⟨id', hid', Extends.refl id'⟩

/-! ## One section -/

/-- The books a persist has in hand, and its run. -/
structure Books where
  runId : String
  codes : Dict String ℕ
  slots : Dict String ℕ

/-- The books a section was handed. -/
def Section.books : Section → Option Books
  | .persistSlots r _ codes => some ⟨r, codes, Dict.empty⟩
  | .persistMerge r _ codes slots => some ⟨r, codes, slots⟩
  | .persistCheck r _ codes slots => some ⟨r, codes, slots⟩
  | .persistWrite r codes slots _ => some ⟨r, codes, slots⟩
  | _ => none

/-- What a section was handed by the one before it. -/
def HandsOn (s : DataplaneService) : Section → Prop
  | .restoreLatch _ found => ∀ row ∈ found, row.seed.Injective
  | .restoreMaxIdx _ row => row.seed.Injective
  | .restoreSeed _ seed => seed.Injective
  | c => ∀ b ∈ c.books, Storable s b.runId b.codes b.slots

/-- The run whose row the section writes, or whose slab it builds with no regard to what the hot
tier may have of it. -/
def Section.renews (s : DataplaneService) : Section → Option String
  | .updatePosition r _ => if s.hot.identityOf r = none then some r else none
  | .restoreSeed r _ => if s.hot.runs.get? r = none then some r else none
  | .persistWrite r _ _ _ => some r
  | _ => none

/-- A slab that is built has the stored book of its run, if there is one. -/
def Restored (s : DataplaneService) : Section → Prop
  | .updatePosition r _ => s.hot.identityOf r = none → (s.metaRow r).Blank
  | .restoreSeed r seed => s.hot.runs.get? r = none → seed = (s.metaRow r).seed
  | _ => True

instance (s : DataplaneService) (c : Section) : Decidable (Restored s c) :=
  match c with
  | .updatePosition r _ =>
    inferInstanceAs (Decidable (s.hot.identityOf r = none → (s.metaRow r).Blank))
  | .restoreSeed r seed =>
    inferInstanceAs (Decidable (s.hot.runs.get? r = none → seed = (s.metaRow r).seed))
  | .finalizedCheck .. | .restoreCheck .. | .restoreLookup .. | .restoreLatch ..
  | .restoreMaxIdx .. | .noteUpdate .. | .liveSnapshot .. | .captureSnapshot ..
  | .captureWrite | .persistCodes .. | .persistSlots .. | .persistMerge .. | .persistCheck ..
  | .persistWrite .. | .persistSig .. | .markFinalized .. | .evictHot .. | .evictForget ..
  | .sweepKnown | .sweepResident .. | .sweepGone .. | .endTry => inferInstanceAs (Decidable True)

/-- The section that runs next builds no slab without the stored book, and no other section has
books in hand of the run it renews. -/
def InTurn (p : Process DataplaneService Section) : Move Call Io → Prop
  | .run i _ => ∀ c ∈ Sections.nextSection p i, Restored p.state c ∧
      ∀ d ∈ Sections.others p i, ∀ b ∈ d.books, c.renews p.state ≠ some b.runId
  | _ => True

instance (p : Process DataplaneService Section) (m : Move Call Io) : Decidable (InTurn p m) :=
  match m with
  | .call _ => inferInstanceAs (Decidable True)
  | .run i _ => inferInstanceAs (Decidable (∀ c ∈ Sections.nextSection p i, Restored p.state c ∧
      ∀ d ∈ Sections.others p i, ∀ b ∈ d.books, c.renews p.state ≠ some b.runId))
  | .restart => inferInstanceAs (Decidable True)

/-- A section keeps the books, leaves the other runs alone, and hands on what may be stored. -/
structure KeepsBooks (before : String → RunMeta) (s : DataplaneService) (c : Section)
    (out : Effect) : Prop where
  renews : Renews before (c.renews s) s out.state
  todo : ∀ d ∈ out.todo, HandsOn out.state d

variable {c : Section}

theorem keepsBooks_done (h : Renews before (c.renews s) s t) :
    KeepsBooks before s c (.next t []) := ⟨h, nofun⟩

theorem keepsBooks_raise (h : Renews before (c.renews s) s t) :
    KeepsBooks before s c (.raise t) := ⟨h, nofun⟩

theorem keepsBooks_one (h : Renews before (c.renews s) s t) {d : Section} (hd : HandsOn t d) :
    KeepsBooks before s c (.next t [d]) :=
  ⟨h, fun _ he ↦ List.mem_singleton.mp he ▸ hd⟩

theorem nothing_inHand {P : Books → Prop} : ∀ b ∈ (none : Option Books), P b := nofun

/-- Nothing in hand. -/
theorem keepsBooks_plain (h : Renews before (c.renews s) s t) {todo : List Section}
    (htodo : ∀ d ∈ todo, HandsOn t d) : KeepsBooks before s c (.next t todo) := ⟨h, htodo⟩

theorem handsOn_books {b : Books} (hc : c.books = some b)
    (hstorable : Storable s b.runId b.codes b.slots) : ∀ e ∈ c.books, Storable s e.runId e.codes
      e.slots :=
  fun e he ↦ by
    obtain rfl := Option.some_inj.mp (hc.symm.trans he)
    exact hstorable

/-- What a section was handed is good after what leaves its run alone. -/
theorem HandsOn.renews (hc : HandsOn s c) (h : Renews before renewed s t)
    (hapart : ∀ b ∈ c.books, renewed ≠ some b.runId) : HandsOn t c := by
  have hbooks : (∀ b ∈ c.books, Storable s b.runId b.codes b.slots) →
      ∀ b ∈ c.books, Storable t b.runId b.codes b.slots :=
    fun hs b hb ↦ (hs b hb).steady (h.steady _ (hapart b hb))
  cases c with
  | restoreLatch r found => exact hc
  | restoreMaxIdx r row => exact hc
  | restoreSeed r seed => exact hc
  | _ => exact hbooks hc

theorem captureSnapshot_keepsBooks (h : BooksOk before s) :
    KeepsBooks before s (.captureSnapshot r) (s.captureSnapshot r) := by
  rw [DataplaneService.captureSnapshot]
  split
  · exact keepsBooks_done (Renews.same h rfl rfl)
  · split
    · exact keepsBooks_done (Renews.same h rfl rfl)
    · next hot frame hsnap =>
      have hhot : hot = (s.hot.snapshot r).1 := by rw [hsnap]
      split
      · exact keepsBooks_done (Renews.snapshot h r hhot rfl)
      · refine keepsBooks_one ?_ ?_
        · exact Renews.snapshot h r hhot rfl
        · exact nothing_inHand

theorem captureWrite_keepsBooks (h : BooksOk before s) (io : Io) (c : Capturing) :
    KeepsBooks before s .captureWrite (s.captureWrite io c) := by
  rw [DataplaneService.captureWrite]
  split
  · exact keepsBooks_done (Renews.same h rfl rfl)
  · exact keepsBooks_raise (Renews.rollback h c.runId c.frame.frameIdx rfl rfl)

theorem updatePosition_keepsBooks (h : BooksOk before s) (io : Io) (report : Report)
    (hC : Restored s (.updatePosition r report)) :
    KeepsBooks before s (.updatePosition r report) (s.updatePosition cfg io r report) := by
  rw [DataplaneService.updatePosition]
  dsimp only
  split
  · exact keepsBooks_done (Renews.report h rfl rfl hC fun hnone ↦ if_pos hnone)
  · exact keepsBooks_raise (Renews.report h rfl rfl hC fun hnone ↦ if_pos hnone)

theorem persistCodes_keepsBooks (h : BooksOk before s) (force : Bool) :
    KeepsBooks before s (.persistCodes r force) (s.persistCodes r force) := by
  rw [DataplaneService.persistCodes]
  split
  · next slab hslab =>
    exact keepsBooks_one (Renews.same h rfl rfl) (handsOn_books rfl (storable_codes h hslab))
  · split
    · exact keepsBooks_one (Renews.same h rfl rfl) (handsOn_books rfl storable_empty)
    · exact keepsBooks_done (Renews.same h rfl rfl)

theorem persistSlots_keepsBooks (h : BooksOk before s) (force : Bool)
    (hok : Storable s r codes Dict.empty) :
    KeepsBooks before s (.persistSlots r force codes) (s.persistSlots r force codes) := by
  rw [DataplaneService.persistSlots]
  split
  · next slab hslab =>
    exact keepsBooks_one (Renews.same h rfl rfl) (handsOn_books rfl (hok.slot_map h hslab))
  · split
    · exact keepsBooks_one (Renews.same h rfl rfl) (handsOn_books rfl storable_empty)
    · exact keepsBooks_done (Renews.same h rfl rfl)

theorem persistCheck_keepsBooks (h : BooksOk before s) (force : Bool)
    (hok : Storable s r codes slots) :
    KeepsBooks before s (.persistCheck r force codes slots)
      (s.persistCheck r force codes slots) := by
  rw [DataplaneService.persistCheck]
  split
  · exact keepsBooks_done (Renews.same h rfl rfl)
  · exact keepsBooks_one (Renews.same h rfl rfl) (handsOn_books rfl hok)

theorem persistWrite_keepsBooks (h : BooksOk before s) (io : Io) {maxIdx : Option ℤ}
    (hok : Storable s r codes slots) :
    KeepsBooks before s (.persistWrite r codes slots maxIdx)
      (s.persistWrite io r codes slots maxIdx) := by
  rw [DataplaneService.persistWrite]
  split
  · refine keepsBooks_one ?_ ?_
    · exact Renews.store h hok rfl rfl
    · exact nothing_inHand
  · exact keepsBooks_raise (Renews.same h rfl rfl)

/-- A row that is found is an injective seed. -/
theorem BooksOk.found (h : BooksOk before s) (hrow : s.runMeta.get? r = some row) :
    row.seed.Injective := by
  have heq : s.metaRow r = row := by rw [DataplaneService.metaRow, hrow, Option.getD_some]
  exact heq ▸ seed_injective (h.codes r) (h.slots r)

/-- **One section** keeps the stored books. -/
theorem section_keepsBooks {io : Io} {out : Effect} (h : BooksOk before s) (hc : HandsOn s c)
    (hC : Restored s c) (hrun : c.run cfg s io = some out) : KeepsBooks before s c out := by
  cases c with
  | finalizedCheck r report =>
    obtain ⟨-, rfl⟩ := locked_eq_some hrun
    rw [DataplaneService.finalizedCheck]
    split
    · exact keepsBooks_done (Renews.same h rfl rfl)
    · exact keepsBooks_plain (Renews.same h rfl rfl) (by simp [HandsOn, Section.books])
  | restoreCheck r =>
    obtain ⟨-, rfl⟩ := locked_eq_some hrun
    rw [DataplaneService.restoreCheck]
    split
    · exact keepsBooks_done (Renews.same h rfl rfl)
    · exact keepsBooks_one (Renews.same h rfl rfl) nothing_inHand
  | restoreLookup r =>
    cases hrun
    rw [DataplaneService.restoreLookup]
    split
    · exact keepsBooks_one (Renews.same h rfl rfl) fun row hrow ↦ h.found hrow
    · exact keepsBooks_done (Renews.same h rfl rfl)
  | restoreLatch r found =>
    obtain ⟨-, rfl⟩ := locked_eq_some hrun
    cases hrow : found with
    | none => exact keepsBooks_done (Renews.same h rfl rfl)
    | some row =>
      refine keepsBooks_one ?_ ?_
      · exact Renews.same h rfl rfl
      · exact hc row hrow
  | restoreMaxIdx r row =>
    obtain ⟨-, rfl⟩ := locked_eq_some hrun
    rw [DataplaneService.restoreMaxIdx]
    split
    · exact keepsBooks_done (Renews.same h rfl rfl)
    · refine keepsBooks_one ?_ ?_
      · exact Renews.same h rfl rfl
      · exact hc
  | restoreSeed r seed =>
    cases hrun
    exact keepsBooks_done (Renews.restore h hc hC (fun hnone ↦ if_pos hnone) rfl rfl)
  | updatePosition r report =>
    cases hrun
    exact updatePosition_keepsBooks h io report hC
  | noteUpdate r =>
    obtain ⟨-, rfl⟩ := locked_eq_some hrun
    exact keepsBooks_done (Renews.same h rfl rfl)
  | liveSnapshot r =>
    cases hrun
    exact keepsBooks_done (Renews.snapshot h r rfl rfl)
  | captureSnapshot r =>
    obtain ⟨-, rfl⟩ := locked_eq_some hrun
    exact captureSnapshot_keepsBooks h
  | captureWrite =>
    obtain ⟨c, -, rfl⟩ := Option.map_eq_some_iff.mp hrun
    exact captureWrite_keepsBooks h io c
  | persistCodes r force =>
    cases hrun
    exact persistCodes_keepsBooks h force
  | persistSlots r force codes =>
    cases hrun
    exact persistSlots_keepsBooks h force (hc _ rfl)
  | persistMerge r force codes slots =>
    cases hrun
    exact keepsBooks_one (Renews.same h rfl rfl)
      (handsOn_books rfl (merge_storable h io (hc _ rfl)))
  | persistCheck r force codes slots =>
    obtain ⟨-, rfl⟩ := locked_eq_some hrun
    exact persistCheck_keepsBooks h force (hc _ rfl)
  | persistWrite r codes slots maxIdx =>
    cases hrun
    exact persistWrite_keepsBooks h io (hc _ rfl)
  | persistSig r sig =>
    obtain ⟨-, rfl⟩ := locked_eq_some hrun
    exact keepsBooks_done (Renews.same h rfl rfl)
  | markFinalized r =>
    obtain ⟨-, rfl⟩ := locked_eq_some hrun
    exact keepsBooks_done (Renews.same h rfl rfl)
  | evictHot r =>
    cases hrun
    refine keepsBooks_plain ?_ ?_
    · exact Renews.evict h r rfl rfl
    · dsimp only
      cases (s.hot.evict cfg r).2 <;> simp [HandsOn, Section.books]
  | evictForget r =>
    obtain ⟨-, rfl⟩ := locked_eq_some hrun
    exact keepsBooks_done (Renews.same h rfl rfl)
  | sweepKnown =>
    obtain ⟨-, rfl⟩ := locked_eq_some hrun
    exact keepsBooks_one (Renews.same h rfl rfl) nothing_inHand
  | sweepResident known =>
    have hrun : DataplaneService.sweepResident s io known = some out := hrun
    rw [DataplaneService.sweepResident] at hrun
    split at hrun
    · cases hrun
      exact keepsBooks_one (Renews.same h rfl rfl) nothing_inHand
    · cases hrun
  | sweepGone known runs =>
    obtain ⟨-, rfl⟩ := locked_eq_some hrun
    refine keepsBooks_plain ?_ fun d hd ↦ ?_
    · exact Renews.same h rfl rfl
    obtain ⟨q, -, hq⟩ := List.mem_flatMap.mp hd
    simp only [sweepOne, List.mem_cons, List.not_mem_nil, or_false] at hq
    rcases hq with rfl | rfl | rfl <;> exact nothing_inHand
  | endTry =>
    cases hrun
    exact keepsBooks_done (Renews.same h rfl rfl)

end Kept

/-! ## Runs -/

theorem program_handsOn (s : DataplaneService) (k : Call) : ∀ c ∈ k.program, HandsOn s c := by
  cases k <;> simp [Call.program, HandsOn, Section.books]

theorem handler_handsOn (s : DataplaneService) (c : Section) (l : List Section)
    (h : c.handler = some l) : ∀ d ∈ l, HandsOn s d := by
  cases c with
  | endTry =>
    cases h
    exact List.forall_mem_nil _
  | _ => cases h

theorem start_booksOk : BooksOk (fun _ ↦ {}) {} where
  store := start_tierOk.store
  codes _ _ _ _ _ h := absurd h.symm (Option.some_ne_none _)
  slots _ _ _ _ h := absurd h.symm (Option.some_ne_none _)
  kept _ id h := absurd h.symm (Option.some_ne_none id)
  later _ := RunMeta.LaterIs.refl _

theorem BooksOk.restarted {before : String → RunMeta} {s : DataplaneService}
    (h : BooksOk before s) : BooksOk before s.restarted where
  store := start_tierOk.store
  codes := h.codes
  slots := h.slots
  kept _ id hid := absurd hid.symm (Option.some_ne_none id)
  later := h.later

/-- The books are all right, and what is left of the procedures is handed what it needs. -/
def Booked (before : String → RunMeta) (p : Process DataplaneService Section) : Prop :=
  BooksOk before p.state ∧ ∀ c ∈ Sections.pending p, HandsOn p.state c

theorem Booked.reach {cfg : HotConfig} {before : String → RunMeta}
    {p q : Process DataplaneService Section} (h : Booked before p)
    (hreach : (captureService cfg).machine.Reach InTurn p q) : Booked before q := by
  refine Sections.keeps hreach h program_handsOn handler_handsOn
    (fun a i io c rest out hthread hok hhands hC hrun ↦ ?_) fun _ ht ↦ ht.restarted
  have hc := hhands c (Sections.mem_pending_of_thread hthread)
  have hnext : c ∈ Sections.nextSection a i := by
    rw [Sections.nextSection, hthread]
    rfl
  obtain ⟨hrestored, hapart⟩ := hC c hnext
  have hkeeps := section_keepsBooks hok hc hrestored hrun
  exact ⟨hkeeps.renews.books, hkeeps.todo, fun d hd ↦
    (hhands d (Sections.mem_pending_of_mem_others hd)).renews hkeeps.renews (hapart d hd)⟩

/-- **The stored haulier book of every run is injective below the overflow code, and what it says of
a haulier it says forever**, in every interleaving of reports, sweeps, terminals, evictions and
viewers, with restarts and failing reads and writes anywhere, in which every slab is built with the
stored book and no two persists of a run get in each other's way. -/
theorem books_kept (cfg : HotConfig) (p q : Process DataplaneService Section)
    (hp : (captureService cfg).machine.Reach InTurn (Sections.start {}) p)
    (hq : (captureService cfg).machine.Reach InTurn p q) (run : String) :
    InjectiveCodes (q.state.metaRow run).haulierCodes ∧
      Keeps (p.state.metaRow run).haulierCodes (q.state.metaRow run).haulierCodes := by
  have hstart : Booked (fun _ ↦ {}) (Sections.start {}) :=
    ⟨start_booksOk, fun _ h ↦ absurd h List.not_mem_nil⟩
  have hbooked : Booked (fun _ ↦ {}) p := hstart.reach hp
  have hsince : Booked p.state.metaRow p :=
    ⟨{ hbooked.1 with later := fun r ↦ RunMeta.LaterIs.refl _ }, hbooked.2⟩
  have hend : Booked p.state.metaRow q := hsince.reach hq
  exact ⟨hend.1.codes run, (hend.1.later run).codes⟩

/-- A report of a truck of a haulier. -/
def truckOf (haulierId : String) : Call :=
  .truckLoc "run"
    { agentId := haulierId, lng := .fin 0, lat := .fin 0, state := 1, haulierId := some haulierId,
      simTimeMs := .fin 0 }

/-- A truck reports, and the sweep stores its haulier. -/
def firstHaulier : List (Move Call Io) :=
  callThrough (truckOf "H1") 0 6 ++ callThrough .captureFrames 1 12

/-- After a restart a truck of another haulier reports, and the store answers no read. -/
def secondHaulier : List (Move Call Io) :=
  .restart :: .call (truckOf "H2") ::
    List.replicate 5 (.run 0 { reads := false, residents := ["run"] }) ++
    callThrough .captureFrames 1 12

/-- The same with the sweep under way before the truck is heard, and the terminal of the run in the
middle of the sweep. -/
def overlapping : List (Move Call Io) :=
  [.restart, .call (truckOf "H2"), .call .captureFrames, .call (.finalizeRun "run")] ++
    [0, 0, 0, 1, 0, 0, 0, 0, 0, 1, 1, 1, 1, 1, 1, 2, 1, 1, 1, 2, 2, 1, 2, 2, 2, 2, 2].map
      fun i ↦ .run i { residents := ["run"] }

/-- The stored book of the run, and what it is after some more moves. -/
def booksAlong (C : Process DataplaneService Section → Move Call Io → Prop)
    [∀ p m, Decidable (C p m)] (es es' : List (Move Call Io)) :
    Option (List (String × ℕ) × List (String × ℕ)) :=
  ((captureService fourRuns).machine.execWhen C (Sections.start {}) es).bind fun p ↦
    ((captureService fourRuns).machine.execWhen C p es').map fun q ↦
      ((p.state.metaRow "run").haulierCodes.entries, (q.state.metaRow "run").haulierCodes.entries)

theorem exists_of_booksAlong {C : Process DataplaneService Section → Move Call Io → Prop}
    [∀ p m, Decidable (C p m)] {es es' : List (Move Call Io)} {book book' : List (String × ℕ)}
    (h : booksAlong C es es' = some (book, book')) :
    ∃ p q, (captureService fourRuns).machine.Reach C (Sections.start {}) p ∧
      (captureService fourRuns).machine.Reach C p q ∧
      (p.state.metaRow "run").haulierCodes.entries = book ∧
      (q.state.metaRow "run").haulierCodes.entries = book' := by
  obtain ⟨p, hp, h⟩ := Option.bind_eq_some_iff.mp h
  obtain ⟨q, hq, hbooks⟩ := Option.map_eq_some_iff.mp h
  obtain ⟨hbook, hbook'⟩ := Prod.mk.inj hbooks
  exact ⟨p, q, Machine.reach_of_execWhen hp, Machine.reach_of_execWhen hq, hbook, hbook'⟩

/-- With the stored book put back the second haulier gets a code of its own. -/
theorem books_kept_two :
    ∃ p q : Process DataplaneService Section,
      (p.state.metaRow "run").haulierCodes.entries = [("H1", 1)] ∧
      (q.state.metaRow "run").haulierCodes.entries = [("H1", 1), ("H2", 2)] ∧
      InjectiveCodes (q.state.metaRow "run").haulierCodes ∧
      Keeps (p.state.metaRow "run").haulierCodes (q.state.metaRow "run").haulierCodes := by
  have hbooks : booksAlong InTurn firstHaulier overlapping =
      some ([("H1", 1)], [("H1", 1), ("H2", 2)]) := by decide
  obtain ⟨p, q, hp, hq, hbook, hbook'⟩ := exists_of_booksAlong hbooks
  obtain ⟨hinj, hkeep⟩ := books_kept fourRuns p q hp hq "run"
  exact ⟨p, q, hbook, hbook', hinj, hkeep⟩

/-- A lookup that fails once after a restart, and two hauliers share the code 1 in the stored
book. -/
theorem code_shared :
    ∃ (cfg : HotConfig) (p : Process DataplaneService Section),
      (captureService cfg).machine.Reach (fun _ _ ↦ True) (Sections.start {}) p ∧
        (p.state.metaRow "run").haulierCodes.entries = [("H1", 1), ("H2", 1)] ∧
        ¬ InjectiveCodes (p.state.metaRow "run").haulierCodes := by
  have hexec : (((captureService fourRuns).machine.exec (Sections.start {})
      (firstHaulier ++ secondHaulier)).map fun p ↦
        (p.state.metaRow "run").haulierCodes.entries) = some [("H1", 1), ("H2", 1)] := by
    decide
  obtain ⟨p, hp, hbook⟩ := Option.map_eq_some_iff.mp hexec
  refine ⟨fourRuns, p, Machine.reach_of_exec _ hp fun _ _ _ ↦ trivial, hbook, fun hinj ↦ ?_⟩
  have hread : ∀ e ∈ [("H1", 1), ("H2", 1)],
      (p.state.metaRow "run").haulierCodes.get? e.1 = some e.2 := fun e he ↦
    Dict.mem_entries_iff.mp (hbook ▸ he)
  have hsame : "H1" = "H2" := hinj "H1" "H2" 1 (by decide) (hread ("H1", 1) (by decide))
    (hread ("H2", 1) (by decide))
  exact absurd hsame (by decide)

/-- The terminal of the run has read the books when the second haulier reports, and writes them when
a sweep has stored that one too. -/
def writtenOver : List (Move Call Io) :=
  callThrough (.finalizeRun "run") 2 4 ++ callThrough (truckOf "H2") 3 4 ++
    callThrough .captureFrames 4 12

/-- Every slab is built with the stored book, but two persists overlap, and the code that one has
stored for the second haulier is dropped by the other. -/
theorem haulier_dropped :
    ∃ (cfg : HotConfig) (p q : Process DataplaneService Section),
      (captureService cfg).machine.Reach (Sections.When fun s _ c ↦ Restored s c)
        (Sections.start {}) p ∧
      (captureService cfg).machine.Reach (Sections.When fun s _ c ↦ Restored s c) p q ∧
      (p.state.metaRow "run").haulierCodes.entries = [("H1", 1), ("H2", 2)] ∧
      (q.state.metaRow "run").haulierCodes.entries = [("H1", 1)] := by
  have hbooks : booksAlong (Sections.When fun s _ c ↦ Restored s c) (firstHaulier ++ writtenOver)
      (List.replicate 2 (.run 2 { residents := ["run"] })) =
        some ([("H1", 1), ("H2", 2)], [("H1", 1)]) := by decide
  obtain ⟨p, q, h⟩ := exists_of_booksAlong hbooks
  exact ⟨fourRuns, p, q, h⟩

end OpenRide.Dataplane
