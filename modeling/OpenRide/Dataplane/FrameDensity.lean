import OpenRide.Dataplane.Capture
import OpenRide.Dataplane.HotRuns

/-!
# The stored frames of a run are dense

The indices of a run's stored frames are meant to be `0, 1, …` without a hole and without a
repetition.  The invariant that carries this (`DenseInv`) is about the frame counter of the hot
tier: in every identity of a run, resident or parked, it is the number of the indices taken, that
is of the frames stored and of the one being written (`Tracks`).

A section keeps the invariant unless it is one of those `DenseStep` names.  A viewer of a resident
run, and a capture that finds no written slot, take an index and store nothing.  A write that fails
when its run has been parked meanwhile cannot hand the index back.  A slab that is created with
neither a parked identity nor an answer from the store, or while a frame of its run is being
written, counts from too low an index.

`frames_dense` is the result for whole runs without such sections; `viewer_leaves_a_hole` is a run
with one viewer in it.
-/

namespace OpenRide.Dataplane

open Lib

variable {cfg : HotConfig} {env : HotEnv}

/-! ## The counters of the hot tier -/

/-- Of every run that is resident or parked, the frame counter is the given number. -/
structure Tracks (s : HotStore) (next : String → ℤ) : Prop where
  apart : s.Apart
  counter : ∀ r id, s.identityOf r = some id → id.frameCounter = next r

section Tracks

variable {s t : HotStore} {next next' : String → ℤ} {r : String}

theorem Tracks.shrink (h : Tracks s next) (ht : t.Apart) (hs : Shrinks s t) : Tracks t next :=
  ⟨ht, fun q id hq ↦ h.counter q id (hs.identity q id hq)⟩

theorem Tracks.resident (h : Tracks s next) {slab : RunSlab} (hr : s.runs.get? r = some slab) :
    slab.frameCounter = next r :=
  h.counter r _ (identityOf_resident hr)

theorem Tracks.setSlab (h : Tracks s next) {slab slab' : RunSlab}
    (hr : s.runs.get? r = some slab) (hne : ∀ q, q ≠ r → next' q = next q)
    (hself : slab'.frameCounter = next' r) : Tracks (s.setSlab r slab') next' := by
  refine ⟨setSlab_apart h.apart hr slab', fun q id hq ↦ ?_⟩
  by_cases he : q = r
  · subst he
    rw [identityOf_setSlab_self, Option.some_inj] at hq
    exact hq ▸ hself
  · rw [identityOf_setSlab_ne he] at hq
    rw [hne q he, h.counter q id hq]

theorem Tracks.evict (h : Tracks s next) (r : String) : Tracks (s.evict cfg r).1 next := by
  have hev : (s.evict cfg r).1.Apart ∧ Shrinks s (s.evict cfg r).1 := evict_apart h.apart r
  exact h.shrink hev.1 hev.2

/-- What the counter of a new slab starts from, besides a parked one. -/
def HotEnv.startIdx (env : HotEnv) (startFrameIdx : Option ℤ) : ℤ :=
  let seeded := max (env.seededFrameIdx.getD 0) 0
  startFrameIdx.elim seeded fun i ↦ max seeded (max i 0)

theorem newSlab_frameCounter (capacity : Option ℕ) (seed : Seed) (parked : Option RunIdentity) :
    (newSlab cfg env capacity seed parked).frameCounter =
      parked.elim (env.startIdx seed.startFrameIdx)
        fun id ↦ max (env.startIdx seed.startFrameIdx) id.frameCounter := by
  cases parked <;> rfl

/-- A run that is not resident gets a slab: the counter is right if a parked identity is there, or
else the start. -/
theorem Tracks.createSlab (h : Tracks s next) (hr : s.runs.get? r = none) {seed : Seed}
    (hle : env.startIdx seed.startFrameIdx ≤ next r)
    (hfresh : s.carryover.get? r = none → env.startIdx seed.startFrameIdx = next r)
    (capacity : Option ℕ) : Tracks (s.createSlab cfg env r capacity seed) next := by
  have hcounter : (newSlab cfg env capacity seed (s.carryover.get? r)).frameCounter = next r := by
    rw [newSlab_frameCounter]
    cases hp : s.carryover.get? r with
    | none => exact hfresh hp
    | some id =>
      have hid : id.frameCounter = next r := h.counter r id (by rw [identityOf_parked hr, hp])
      rw [Option.elim_some, hid]
      exact max_eq_right hle
  have hseat : Tracks (s.seat r (newSlab cfg env capacity seed (s.carryover.get? r))) next := by
    refine ⟨seat_apart h.apart r _, fun q id hq ↦ ?_⟩
    by_cases he : q = r
    · subst he
      rw [identityOf_seat_self, Option.some_inj] at hq
      exact hq ▸ hcounter
    · rw [identityOf_seat_ne he] at hq
      exact h.counter q id hq
  obtain ⟨ha, hs⟩ := evictLru_apart hseat.apart
  exact hseat.shrink ha hs

theorem update_frameCounter (slab : RunSlab) (report : Report) :
    (slab.update report).1.frameCounter = slab.frameCounter := by
  have hcap : ∀ (s : RunSlab) n, (s.ensureCapacity n).frameCounter = s.frameCounter := by
    intro s n
    rw [RunSlab.ensureCapacity]
    split <;> rfl
  have hslot : ∀ (s : RunSlab) a, (s.slotFor a).1.frameCounter = s.frameCounter := by
    intro s a
    rw [RunSlab.slotFor]
    split
    · rfl
    · exact hcap s _
  have hcode : ∀ (s : RunSlab) x, (s.codeForHaulier x).1.frameCounter = s.frameCounter := by
    intro s x
    rw [RunSlab.codeForHaulier]
    split
    · rfl
    · split
      · rfl
      · split <;> rfl
  exact (hcode _ _).trans (hslot _ _)

theorem Tracks.ensureRun (h : Tracks s next) (hle : env.startIdx none ≤ next r)
    (hfresh : s.runs.get? r = none → s.carryover.get? r = none → env.startIdx none = next r) :
    Tracks (s.ensureRun cfg env r none {}) next := by
  rw [HotStore.ensureRun]
  split
  · next slab hr =>
    have hslab := h.resident hr
    exact h.setSlab hr (fun _ _ ↦ rfl) hslab
  · next hr => exact h.createSlab hr hle (hfresh hr) none

theorem Tracks.updatePosition (h : Tracks s next) (hle : env.startIdx none ≤ next r)
    (hfresh : s.runs.get? r = none → s.carryover.get? r = none → env.startIdx none = next r)
    (report : Report) : Tracks (s.updatePosition cfg env r report).1 next := by
  have hens : Tracks (s.ensureRun cfg env r none {}) next := h.ensureRun hle hfresh
  simp only [HotStore.updatePosition]
  split
  · exact hens
  · next slab hr =>
    have hslab := hens.resident hr
    refine hens.setSlab hr (fun _ _ ↦ rfl) ?_
    rw [update_frameCounter]
    exact hslab

theorem merge_frameCounter (slab : RunSlab) (codes slots : Option (Dict String ℕ)) :
    ((slab.mergeCodes codes).mergeSlots slots).frameCounter = slab.frameCounter := by
  have hcodes : ∀ (s : RunSlab) c, (s.mergeCodes c).frameCounter = s.frameCounter := by
    intro s c
    rw [RunSlab.mergeCodes]
    split
    · rfl
    · rw [RunSlab.adoptHaulierCodes]
      split <;> rfl
  have hadopt : ∀ (s : RunSlab) m, (s.adoptSlotMap m).frameCounter = s.frameCounter := by
    intro s m
    rw [RunSlab.adoptSlotMap]
    split
    · rfl
    · simp only [RunSlab.ensureCapacity]
      split <;> rfl
  have hslots : ∀ (s : RunSlab) m, (s.mergeSlots m).frameCounter = s.frameCounter := by
    intro s m
    rw [RunSlab.mergeSlots]
    split
    · rfl
    · dsimp only
      split
      · rfl
      · exact hadopt s _
  exact (hslots _ _).trans (hcodes _ _)

theorem Tracks.seedRunIdentity (h : Tracks s next) {seed : Seed}
    (hstart : ∀ i ∈ seed.startFrameIdx, i ≤ next r)
    (hle : env.startIdx seed.startFrameIdx ≤ next r)
    (hfresh : s.runs.get? r = none → s.carryover.get? r = none →
      env.startIdx seed.startFrameIdx = next r) :
    Tracks (s.seedRunIdentity cfg env r seed) next := by
  rw [HotStore.seedRunIdentity]
  split
  · next hr => exact h.createSlab hr hle (hfresh hr) none
  · next slab hr =>
    refine h.setSlab hr (fun _ _ ↦ rfl) ?_
    rw [merge_frameCounter, h.resident hr]
    cases hs : seed.startFrameIdx with
    | none => rfl
    | some i => exact max_eq_left (hstart i hs)

theorem Tracks.snapshot (h : Tracks s next) {hot : HotStore} {frame : Frame}
    (hsnap : s.snapshot r = (hot, some frame)) :
    frame.frameIdx = next r ∧ Tracks hot (Function.update next r (next r + 1)) := by
  rw [HotStore.snapshot] at hsnap
  split at hsnap
  · cases hsnap
  · next slab hr =>
    obtain ⟨rfl, hframe⟩ := Prod.mk.inj hsnap
    cases hframe
    have hslab := h.resident hr
    refine ⟨hslab, h.setSlab hr (fun q hne ↦ Function.update_of_ne hne _ _) ?_⟩
    rw [Function.update_self, ← hslab]

theorem Tracks.rollbackFrameIdx (h : Tracks s next) {i : ℤ} (hnext : next r = i + 1)
    (hpark : s.carryover.get? r = none) :
    Tracks (s.rollbackFrameIdx r i).1 (Function.update next r i) := by
  rw [HotStore.rollbackFrameIdx]
  split
  · next hr =>
    refine ⟨h.apart, fun q id hq ↦ ?_⟩
    by_cases he : q = r
    · subst he
      rw [identityOf_parked hr, hpark] at hq
      cases hq
    · rw [Function.update_of_ne he]
      exact h.counter q id hq
  · next slab hr =>
    rw [if_neg (by rw [h.resident hr, hnext]; exact not_not_intro rfl)]
    refine h.setSlab hr (fun q hne ↦ Function.update_of_ne hne _ _) ?_
    rw [Function.update_self]

end Tracks

/-! ## The indices that are stored, and those that are taken -/

/-- `0, 1, …, n - 1`. -/
def firstIndices (n : ℕ) : List ℤ := (List.range n).map Nat.cast

theorem firstIndices_succ (n : ℕ) : firstIndices (n + 1) = firstIndices n ++ [(n : ℤ)] := by
  rw [firstIndices, List.range_succ, List.map_append]
  rfl

theorem mem_firstIndices {n : ℕ} {i : ℤ} : i ∈ firstIndices n ↔ 0 ≤ i ∧ i < n := by
  rw [firstIndices, List.mem_map]
  constructor
  · rintro ⟨k, hk, rfl⟩
    have := List.mem_range.mp hk
    omega
  · rintro ⟨h0, hn⟩
    exact ⟨i.toNat, List.mem_range.mpr (by omega), Int.toNat_of_nonneg h0⟩

theorem firstIndices_nodup (n : ℕ) : (firstIndices n).Nodup :=
  List.nodup_range.map Nat.cast_injective

section Service

variable {s : DataplaneService} {io : Io} {r : String}

/-- The number of the stored frames of a run. -/
def DataplaneService.stored (s : DataplaneService) (runId : String) : ℕ := (s.framesOf runId).length

/-- The number of the indices of a run that are taken: those of the stored frames, and that of the
frame being written. -/
def DataplaneService.taken (s : DataplaneService) (runId : String) : ℤ :=
  s.stored runId + if s.capturing.map Capturing.runId = some runId then 1 else 0

/-- The index after the highest stored one. -/
def DataplaneService.nextStored (s : DataplaneService) (runId : String) : ℤ :=
  (s.frameRange runId).elim 0 fun rng ↦ rng.2 + 1

theorem nextStored_eq {n : ℕ} (h : s.frameIndices r = firstIndices n) : s.nextStored r = n := by
  rw [DataplaneService.nextStored, DataplaneService.frameRange, h]
  cases n with
  | zero => rfl
  | succ n =>
    have hmax : (firstIndices (n + 1)).max? = some (n : ℤ) := by
      refine List.max?_eq_some_iff.mpr ⟨mem_firstIndices.mpr (by omega), fun b hb ↦ ?_⟩
      have := mem_firstIndices.mp hb
      omega
    have hmin : (firstIndices (n + 1)).min? = some (0 : ℤ) := by
      refine List.min?_eq_some_iff.mpr ⟨mem_firstIndices.mpr (by omega), fun b hb ↦ ?_⟩
      exact (mem_firstIndices.mp hb).1
    rw [hmax, hmin]
    rfl

/-- The answer of the store never exceeds the next index, and is the next index if there is one. -/
theorem seeded_eq {n : ℕ} (h : s.frameIndices r = firstIndices n) (answered : Bool) :
    max ((s.seedFrameIdx answered r).getD 0) 0 = if answered then (n : ℤ) else 0 := by
  rw [DataplaneService.seedFrameIdx]
  split
  · have hnext := nextStored_eq h
    rw [DataplaneService.nextStored] at hnext
    cases hrng : s.frameRange r with
    | none =>
      rw [hrng] at hnext
      exact hnext
    | some rng =>
      rw [hrng, Option.elim_some] at hnext
      rw [Option.map_some, Option.getD_some, hnext]
      exact max_eq_left (Int.natCast_nonneg n)
  · rfl

/-! ## The sections that keep the frames dense -/

/-- If the hot tier knows nothing of the run, no frame of it is being written, and the store or the
persisted identity knows the next index. -/
def SlabFresh (s : DataplaneService) (io : Io) (runId : String) (startFrameIdx : Option ℤ) : Prop :=
  s.hot.runs.get? runId = none → s.hot.carryover.get? runId = none →
    (∀ c ∈ s.capturing, c.runId ≠ runId) ∧
      (io.reads = true ∨ startFrameIdx.getD 0 = s.nextStored runId)

instance (s : DataplaneService) (io : Io) (runId : String) (startFrameIdx : Option ℤ) :
    Decidable (SlabFresh s io runId startFrameIdx) :=
  inferInstanceAs (Decidable (_ → _ → _))

/-- No index is lost and none is given twice. -/
def DenseStep (s : DataplaneService) (io : Io) : Section → Prop
  | .liveSnapshot r => s.hot.runs.get? r = none
  | .captureSnapshot r =>
    s.runCaptured.get? r = some (s.seqOf r) ∨ ∀ slab ∈ s.hot.runs.get? r, slab.rows ≠ []
  | .captureWrite => io.writes = false → ∀ c ∈ s.capturing, s.hot.carryover.get? c.runId = none
  | .restoreSeed r seed => SlabFresh s io r seed.startFrameIdx
  | .updatePosition r _ => SlabFresh s io r none
  | _ => True

instance (s : DataplaneService) (io : Io) (c : Section) : Decidable (DenseStep s io c) :=
  match c with
  | .liveSnapshot r => inferInstanceAs (Decidable (s.hot.runs.get? r = none))
  | .captureSnapshot r => inferInstanceAs (Decidable (s.runCaptured.get? r = some (s.seqOf r) ∨
      ∀ slab ∈ s.hot.runs.get? r, slab.rows ≠ []))
  | .captureWrite => inferInstanceAs (Decidable (io.writes = false →
      ∀ c ∈ s.capturing, s.hot.carryover.get? c.runId = none))
  | .restoreSeed r seed => inferInstanceAs (Decidable (SlabFresh s io r seed.startFrameIdx))
  | .updatePosition r _ => inferInstanceAs (Decidable (SlabFresh s io r none))
  | .finalizedCheck .. | .restoreCheck .. | .restoreLookup .. | .restoreLatch ..
  | .restoreMaxIdx .. | .noteUpdate .. | .persistCodes .. | .persistSlots .. | .persistMerge ..
  | .persistCheck .. | .persistWrite .. | .persistSig .. | .markFinalized .. | .evictHot ..
  | .evictForget .. | .sweepKnown | .sweepResident .. | .sweepGone .. | .endTry =>
    inferInstanceAs (Decidable True)

/-- The invariant: the stored frames of every run are dense, the hot tier counts the indices that
are taken, the frame being written has the next one, and no recorded index is higher than those
stored. -/
structure DenseInv (s : DataplaneService) : Prop where
  dense : ∀ r, s.frameIndices r = firstIndices (s.stored r)
  hot : Tracks s.hot s.taken
  writing : ∀ c ∈ s.capturing, c.frame.frameIdx = s.stored c.runId
  maxIdx : ∀ r, ∀ i ∈ s.runMaxFrameIdx.get? r, i < s.stored r
  runMeta : ∀ r, ∀ row ∈ s.runMeta.get? r, ∀ i ∈ row.maxFrameIdx, i < s.stored r

/-- What a section brings along was recorded from stored frames. -/
def SectionOk (s : DataplaneService) : Section → Prop
  | .restoreLatch r found => ∀ row ∈ found, ∀ i ∈ row.maxFrameIdx, i < s.stored r
  | .restoreMaxIdx r row => ∀ i ∈ row.maxFrameIdx, i < s.stored r
  | .restoreSeed r seed => ∀ i ∈ seed.startFrameIdx, i ≤ s.stored r
  | .persistWrite r _ _ maxIdx => ∀ i ∈ maxIdx, i < s.stored r
  | _ => True

/-- What was recorded stays within the stored frames when more of them are stored. -/
theorem SectionOk.mono {t : DataplaneService} (hle : ∀ r, s.stored r ≤ t.stored r) {c : Section}
    (h : SectionOk s c) : SectionOk t c := by
  have hcast : ∀ r, (s.stored r : ℤ) ≤ t.stored r := fun r ↦ Int.ofNat_le.mpr (hle r)
  cases c with
  | restoreLatch r found => exact fun row hrow i hi ↦ (h row hrow i hi).trans_le (hcast r)
  | restoreMaxIdx r row => exact fun i hi ↦ (h i hi).trans_le (hcast r)
  | restoreSeed r seed => exact fun i hi ↦ (h i hi).trans (hcast r)
  | persistWrite r codes slots maxIdx => exact fun i hi ↦ (h i hi).trans_le (hcast r)
  | _ => trivial

/-- A section keeps the invariant, and what it adds or finds still to run is right. -/
structure Sound (s : DataplaneService) (out : Effect) : Prop where
  inv : DenseInv out.state
  todo : ∀ c ∈ out.todo, SectionOk out.state c
  stored : ∀ r, s.stored r ≤ out.state.stored r

theorem sound_next {t : DataplaneService} {todo : List Section} (hinv : DenseInv t)
    (hstored : t.frames = s.frames) (htodo : ∀ c ∈ todo, SectionOk t c) :
    Sound s (.next t todo) := by
  refine ⟨hinv, htodo, fun r ↦ le_of_eq ?_⟩
  simp only [Outcome.state, DataplaneService.stored, DataplaneService.framesOf, hstored]

theorem sound_done {t : DataplaneService} (hinv : DenseInv t) (hstored : t.frames = s.frames) :
    Sound s (.next t []) :=
  sound_next hinv hstored fun _ h ↦ absurd h List.not_mem_nil

theorem sound_raise {t : DataplaneService} (hinv : DenseInv t) (hstored : t.frames = s.frames) :
    Sound s (.raise t) :=
  ⟨hinv, fun _ h ↦ absurd h List.not_mem_nil, (sound_done hinv hstored).stored⟩

/-- A change of the hot tier that keeps its counters. -/
theorem DenseInv.withHot (h : DenseInv s) {hot : HotStore} (hhot : Tracks hot s.taken) :
    DenseInv { s with hot := hot } :=
  ⟨h.dense, hhot, h.writing, h.maxIdx, h.runMeta⟩

theorem taken_of_idle (hidle : s.capturing = none) : s.taken = fun r ↦ (s.stored r : ℤ) := by
  funext r
  rw [DataplaneService.taken, hidle]
  exact Int.add_zero _

theorem stored_le_taken (s : DataplaneService) (r : String) : (s.stored r : ℤ) ≤ s.taken r := by
  rw [DataplaneService.taken]
  split <;> omega

/-- A new slab never starts above the indices taken. -/
theorem startIdx_le (h : DenseInv s) {startFrameIdx : Option ℤ}
    (hstart : ∀ i ∈ startFrameIdx, i ≤ s.stored r) :
    (s.hotEnv io r).startIdx startFrameIdx ≤ s.taken r := by
  have hseeded : max ((s.hotEnv io r).seededFrameIdx.getD 0) 0 ≤ (s.stored r : ℤ) := by
    refine (seeded_eq (h.dense r) io.reads).trans_le ?_
    split
    · exact le_refl _
    · exact Int.natCast_nonneg _
  refine le_trans ?_ (stored_le_taken s r)
  cases startFrameIdx with
  | none => exact hseeded
  | some i => exact max_le hseeded (max_le (hstart i rfl) (Int.natCast_nonneg _))

/-- A fresh slab starts at the next index. -/
theorem startIdx_fresh (h : DenseInv s) {startFrameIdx : Option ℤ}
    (hstart : ∀ i ∈ startFrameIdx, i ≤ s.stored r) (hfresh : SlabFresh s io r startFrameIdx)
    (hr : s.hot.runs.get? r = none) (hp : s.hot.carryover.get? r = none) :
    (s.hotEnv io r).startIdx startFrameIdx = s.taken r := by
  obtain ⟨hwriting, hknown⟩ := hfresh hr hp
  have htaken : s.taken r = s.stored r := by
    rw [DataplaneService.taken, if_neg, Int.add_zero]
    intro hc
    obtain ⟨c, hc, he⟩ := Option.map_eq_some_iff.mp hc
    exact hwriting c hc he
  have hseeded := seeded_eq (h.dense r) io.reads
  rw [nextStored_eq (h.dense r)] at hknown
  refine le_antisymm (startIdx_le h hstart) ?_
  rw [htaken]
  cases startFrameIdx with
  | none =>
    refine ge_of_eq ?_
    refine hseeded.trans ?_
    rcases hknown with hreads | hzero
    · rw [if_pos hreads]
    · split
      · rfl
      · exact hzero
  | some i =>
    rcases hknown with hreads | hi
    · refine le_trans (le_of_eq ?_) (le_max_left _ _)
      rw [if_pos hreads] at hseeded
      exact hseeded.symm
    · exact (ge_of_eq hi).trans ((le_max_left i 0).trans (le_max_right _ _))

/-! ## One section -/

theorem locked_eq_some {effect out : Effect} (h : s.locked effect = some out) :
    s.capturing = none ∧ out = effect := by
  rw [DataplaneService.locked] at h
  split at h
  · cases h
  · next hc => exact ⟨by simpa using hc, (Option.some_inj.mp h).symm⟩

theorem captureSnapshot_sound (h : DenseInv s) (hidle : s.capturing = none)
    (hC : DenseStep s io (.captureSnapshot r)) : Sound s (s.captureSnapshot r) := by
  rw [DataplaneService.captureSnapshot]
  split
  · exact sound_done h rfl
  · next hmoved =>
    have hrows := hC.resolve_left hmoved
    split
    · exact sound_done h rfl
    · next hot frame hsnap =>
      obtain ⟨hidx, hhot⟩ := h.hot.snapshot hsnap
      have hne : ¬ frame.rows.isEmpty = true := by
        rw [HotStore.snapshot] at hsnap
        split at hsnap
        · cases hsnap
        · next slab hr =>
          obtain ⟨-, hframe⟩ := Prod.mk.inj hsnap
          rw [← Option.some_inj.mp hframe, List.isEmpty_iff]
          exact hrows slab hr
      rw [if_neg hne]
      rw [taken_of_idle hidle] at hidx hhot
      refine sound_next ⟨h.dense, ?_, ?_, h.maxIdx, h.runMeta⟩ rfl ?_
      · -- the index of the frame in flight is the one that is taken now
        refine (?_ : DataplaneService.taken _ = _) ▸ hhot
        funext q
        by_cases he : q = r
        · subst he
          rw [Function.update_self]
          exact congrArg _ (if_pos rfl)
        · rw [Function.update_of_ne he]
          refine (congrArg _ (if_neg fun hq ↦ he ?_)).trans (Int.add_zero _)
          exact (Option.some_inj.mp hq).symm
      · intro c hc
        cases hc
        exact hidx
      · intro c hc
        obtain rfl := List.mem_singleton.mp hc
        trivial

variable {frame : Frame} {q : String}

theorem framesOf_append {t : DataplaneService} (ht : t.frames = s.frames ++ [(q, frame)])
    (r : String) : t.framesOf r = s.framesOf r ++ if q = r then [frame] else [] := by
  rw [DataplaneService.framesOf, ht, List.filter_append, List.map_append]
  congr 1
  by_cases he : q = r
  · rw [if_pos he, List.filter_cons_of_pos (by simpa using he)]
    rfl
  · rw [if_neg he, List.filter_cons_of_neg (by simpa using he)]
    rfl

theorem stored_append {t : DataplaneService} (ht : t.frames = s.frames ++ [(q, frame)]) (r : String)
    : t.stored r = s.stored r + if q = r then 1 else 0 := by
  rw [DataplaneService.stored, framesOf_append ht, List.length_append]
  split <;> rfl

theorem stored_le_append {t : DataplaneService} (ht : t.frames = s.frames ++ [(q, frame)])
    (r : String) : s.stored r ≤ t.stored r :=
  (stored_append ht r).symm ▸ Nat.le_add_right _ _

variable {c : Capturing}

/-- While a frame is being written, its index is the last one taken of its run. -/
theorem taken_writing (hcap : s.capturing = some c) (r : String) :
    s.taken r = s.stored r + if c.runId = r then 1 else 0 := by
  rw [DataplaneService.taken, hcap, Option.map_some]
  simp only [Option.some_inj]

/-- The frame with the next index is stored: what was in flight is stored now, and the number of the
indices taken is the same. -/
theorem DenseInv.store (h : DenseInv s) (hcap : s.capturing = some c) {t : DataplaneService}
    (hframes : t.frames = s.frames ++ [(c.runId, c.frame)]) (hhot : t.hot = s.hot)
    (hidle : t.capturing = none) (hmeta : t.runMeta = s.runMeta)
    (hmax : ∀ r, ∀ i ∈ t.runMaxFrameIdx.get? r, i ∈ s.runMaxFrameIdx.get? r ∨
      (r = c.runId ∧ i = c.frame.frameIdx))
    : DenseInv t := by
  have hidx : c.frame.frameIdx = s.stored c.runId := h.writing c hcap
  have hstored := fun r ↦ stored_append hframes r
  have hle : ∀ r, (s.stored r : ℤ) ≤ t.stored r := fun r ↦
    Int.ofNat_le.mpr (stored_le_append hframes r)
  refine ⟨fun r ↦ ?_, ?_, fun d hd ↦ ?_, fun r i hi ↦ ?_, fun r row hrow i hi ↦ ?_⟩
  · rw [DataplaneService.frameIndices, framesOf_append hframes, List.map_append, hstored]
    by_cases he : c.runId = r
    · subst he
      rw [if_pos rfl, if_pos rfl, firstIndices_succ, ← h.dense c.runId, List.map_cons,
        List.map_nil, hidx]
      rfl
    · rw [if_neg he, if_neg he, List.map_nil, List.append_nil]
      exact h.dense r
  · have htaken : t.taken = s.taken := by
      funext r
      rw [taken_of_idle hidle, taken_writing hcap]
      dsimp only
      rw [hstored]
      push_cast
      rfl
    rw [htaken, hhot]
    exact h.hot
  · rw [hidle] at hd
    cases hd
  · rcases hmax r i hi with hi | ⟨rfl, rfl⟩
    · exact (h.maxIdx r i hi).trans_le (hle r)
    · have := hstored c.runId
      rw [if_pos rfl] at this
      omega
  · rw [hmeta] at hrow
    exact (h.runMeta r row hrow i hi).trans_le (hle r)

theorem DenseInv.giveUp (h : DenseInv s) (hcap : s.capturing = some c)
    (hpark : s.hot.carryover.get? c.runId = none) :
    DenseInv { s with
      hot := (s.hot.rollbackFrameIdx c.runId c.frame.frameIdx).1
      capturing := none } := by
  have hidx : c.frame.frameIdx = s.stored c.runId := h.writing c hcap
  have hnext : s.taken c.runId = c.frame.frameIdx + 1 := by
    rw [taken_writing hcap, if_pos rfl, hidx]
  refine ⟨h.dense, ?_, fun d hd ↦ (by cases hd), h.maxIdx, h.runMeta⟩
  refine (?_ : DataplaneService.taken _ = _) ▸ h.hot.rollbackFrameIdx hnext hpark
  funext r
  by_cases he : c.runId = r
  · rw [← he, Function.update_self, hidx]
    rfl
  · rw [Function.update_of_ne fun hr ↦ he hr.symm, taken_writing hcap, if_neg he, Int.add_zero]
    rfl

theorem captureWrite_sound (h : DenseInv s) (hcap : s.capturing = some c)
    (hC : DenseStep s io .captureWrite) : Sound s (s.captureWrite io c) := by
  rw [DataplaneService.captureWrite]
  split
  · refine ⟨h.store hcap rfl rfl rfl rfl fun r i hi ↦ ?_, fun _ h ↦ absurd h List.not_mem_nil,
      fun r ↦ ?_⟩
    · change i ∈ (if _ then _ else _ : Dict String ℤ).get? r at hi
      split at hi
      · rw [Dict.get?_set] at hi
        split at hi
        · next he => exact Or.inr ⟨he, (Option.some_inj.mp hi).symm⟩
        · exact Or.inl hi
      · exact Or.inl hi
    · exact stored_le_append rfl r
  · next hfails => exact sound_raise (h.giveUp hcap (hC (by simpa using hfails) c hcap)) rfl

theorem restoreMaxIdx_sound (h : DenseInv s) {row : RunMeta}
    (hrow : ∀ i ∈ row.maxFrameIdx, i < s.stored r) : Sound s (s.restoreMaxIdx r row) := by
  refine sound_next ⟨h.dense, h.hot, h.writing, fun q i hi ↦ ?_, h.runMeta⟩ rfl fun c hc ↦ ?_
  · cases hm : row.maxFrameIdx with
    | none =>
      rw [hm] at hi
      exact h.maxIdx q i hi
    | some m =>
      rw [hm, Option.elim_some, Dict.get?_set] at hi
      split at hi
      · next he =>
        obtain rfl := Option.some_inj.mp hi
        exact he ▸ hrow m hm
      · exact h.maxIdx q i hi
  · split at hc
    · exact absurd hc List.not_mem_nil
    · obtain rfl := List.mem_singleton.mp hc
      intro i hi
      obtain ⟨m, hm, rfl⟩ := Option.map_eq_some_iff.mp hi
      exact hrow m hm

theorem restoreSeed_sound (h : DenseInv s) {seed : Seed}
    (hseed : ∀ i ∈ seed.startFrameIdx, i ≤ s.stored r)
    (hC : DenseStep s io (.restoreSeed r seed)) : Sound s (s.restoreSeed cfg io r seed) := by
  refine sound_done (h.withHot ?_) rfl
  exact h.hot.seedRunIdentity (fun i hi ↦ (hseed i hi).trans (stored_le_taken s r))
    (startIdx_le h hseed) (startIdx_fresh h hseed hC)

theorem updatePosition_sound (h : DenseInv s) {report : Report}
    (hC : DenseStep s io (.updatePosition r report)) :
    Sound s (s.updatePosition cfg io r report) := by
  have hnone : ∀ i ∈ (none : Option ℤ), i ≤ s.stored r := fun i hi ↦ by cases hi
  have hinv := h.withHot (h.hot.updatePosition (startIdx_le h hnone) (startIdx_fresh h hnone hC)
    report : Tracks (s.hot.updatePosition cfg (s.hotEnv io r) r report).1 s.taken)
  rw [DataplaneService.updatePosition]
  dsimp only
  split
  · exact sound_done hinv rfl
  · exact sound_raise hinv rfl

theorem liveSnapshot_sound (h : DenseInv s) (hC : DenseStep s io (.liveSnapshot r)) :
    Sound s (s.liveSnapshot r) := by
  have hsnap : (s.hot.snapshot r).1 = s.hot := by
    rw [HotStore.snapshot, show s.hot.runs.get? r = none from hC]
  refine sound_done (h.withHot ?_) rfl
  exact hsnap.symm ▸ h.hot

theorem persistWrite_sound (h : DenseInv s) {codes slots : Dict String ℕ} {maxIdx : Option ℤ}
    (hmax : ∀ i ∈ maxIdx, i < s.stored r) : Sound s (s.persistWrite io r codes slots maxIdx) := by
  rw [DataplaneService.persistWrite]
  split
  · refine sound_next ⟨h.dense, h.hot, h.writing, h.maxIdx, fun q row hrow i hi ↦ ?_⟩ rfl
      fun c hc ↦ ?_
    · change Dict.get? (Dict.set _ _ _) _ = _ at hrow
      rw [Dict.get?_set] at hrow
      split at hrow
      · next he =>
        cases hrow
        subst he
        rcases Option.or_eq_some_iff.mp hi with hi | ⟨-, hi⟩
        · exact hmax i hi
        · cases hold : s.runMeta.get? q with
          | none =>
            rw [hold] at hi
            cases hi
          | some old =>
            rw [hold] at hi
            exact h.runMeta q old hold i hi
      · exact h.runMeta q row hrow i hi
    · obtain rfl := List.mem_singleton.mp hc
      trivial
  · exact sound_raise h rfl

/-- **One section** keeps the invariant, and what it adds or finds still to run is right. -/
theorem section_sound {c : Section} {out : Effect} (h : DenseInv s) (hc : SectionOk s c)
    (hC : DenseStep s io c) (hrun : c.run cfg s io = some out) : Sound s out := by
  cases c with
  | finalizedCheck r report =>
    obtain ⟨-, rfl⟩ := locked_eq_some hrun
    rw [DataplaneService.finalizedCheck]
    split
    · exact sound_done h rfl
    · exact sound_next h rfl (by simp [SectionOk])
  | restoreCheck r =>
    obtain ⟨-, rfl⟩ := locked_eq_some hrun
    rw [DataplaneService.restoreCheck]
    split
    · exact sound_done h rfl
    · exact sound_next h rfl (by simp [SectionOk])
  | restoreLookup r =>
    cases hrun
    rw [DataplaneService.restoreLookup]
    split
    · refine sound_next h rfl fun c hc ↦ ?_
      obtain rfl := List.mem_singleton.mp hc
      exact fun row hrow ↦ h.runMeta r row hrow
    · exact sound_done h rfl
  | restoreLatch r found =>
    obtain ⟨-, rfl⟩ := locked_eq_some hrun
    refine sound_next ⟨h.dense, h.hot, h.writing, h.maxIdx, h.runMeta⟩ rfl fun d hd ↦ ?_
    cases found with
    | none => exact absurd hd List.not_mem_nil
    | some row =>
      obtain rfl := List.mem_singleton.mp hd
      exact hc row rfl
  | restoreMaxIdx r row =>
    obtain ⟨-, rfl⟩ := locked_eq_some hrun
    exact restoreMaxIdx_sound h hc
  | restoreSeed r seed =>
    cases hrun
    exact restoreSeed_sound h hc hC
  | updatePosition r report =>
    cases hrun
    exact updatePosition_sound h hC
  | noteUpdate r =>
    obtain ⟨-, rfl⟩ := locked_eq_some hrun
    exact sound_done ⟨h.dense, h.hot, h.writing, h.maxIdx, h.runMeta⟩ rfl
  | liveSnapshot r =>
    cases hrun
    exact liveSnapshot_sound h hC
  | captureSnapshot r =>
    obtain ⟨hidle, rfl⟩ := locked_eq_some hrun
    exact captureSnapshot_sound h hidle hC
  | captureWrite =>
    obtain ⟨c, hcap, rfl⟩ := Option.map_eq_some_iff.mp hrun
    exact captureWrite_sound h hcap hC
  | persistCodes r force =>
    cases hrun
    rw [DataplaneService.persistCodes]
    split
    · exact sound_next h rfl (by simp [SectionOk])
    · exact sound_next h rfl (by split <;> simp [SectionOk])
  | persistSlots r force codes =>
    cases hrun
    rw [DataplaneService.persistSlots]
    split
    · exact sound_next h rfl (by simp [SectionOk])
    · exact sound_next h rfl (by split <;> simp [SectionOk])
  | persistMerge r force codes slots =>
    cases hrun
    exact sound_next h rfl (by simp [SectionOk])
  | persistCheck r force codes slots =>
    obtain ⟨-, rfl⟩ := locked_eq_some hrun
    rw [DataplaneService.persistCheck]
    split
    · exact sound_done h rfl
    · refine sound_next h rfl fun c hc ↦ ?_
      obtain rfl := List.mem_singleton.mp hc
      exact h.maxIdx r
  | persistWrite r codes slots maxIdx =>
    cases hrun
    exact persistWrite_sound h hc
  | persistSig r sig =>
    obtain ⟨-, rfl⟩ := locked_eq_some hrun
    exact sound_done ⟨h.dense, h.hot, h.writing, h.maxIdx, h.runMeta⟩ rfl
  | markFinalized r =>
    obtain ⟨-, rfl⟩ := locked_eq_some hrun
    exact sound_done ⟨h.dense, h.hot, h.writing, h.maxIdx, h.runMeta⟩ rfl
  | evictHot r =>
    cases hrun
    exact sound_next (h.withHot (h.hot.evict r)) rfl (by
      split <;> simp [SectionOk])
  | evictForget r =>
    obtain ⟨-, rfl⟩ := locked_eq_some hrun
    exact sound_done ⟨h.dense, h.hot, h.writing, h.maxIdx, h.runMeta⟩ rfl
  | sweepKnown =>
    obtain ⟨-, rfl⟩ := locked_eq_some hrun
    exact sound_next h rfl (by simp [SectionOk])
  | sweepResident known =>
    have hrun : DataplaneService.sweepResident s io known = some out := hrun
    rw [DataplaneService.sweepResident] at hrun
    split at hrun
    · cases hrun
      exact sound_next h rfl (by simp [SectionOk])
    · cases hrun
  | sweepGone known runs =>
    obtain ⟨-, rfl⟩ := locked_eq_some hrun
    refine sound_next ⟨h.dense, h.hot, h.writing, h.maxIdx, h.runMeta⟩ rfl fun c hc ↦ ?_
    obtain ⟨q, -, hq⟩ := List.mem_flatMap.mp hc
    simp only [sweepOne, List.mem_cons, List.not_mem_nil, or_false] at hq
    rcases hq with rfl | rfl | rfl <;> trivial
  | endTry =>
    cases hrun
    exact sound_done h rfl

end Service

/-! ## Runs -/

/-- Indices `0, 1, …` without a hole, and each of them once. -/
def Dense (indices : List ℤ) : Prop :=
  indices.Nodup ∧ ∃ n : ℕ, ∀ i, i ∈ indices ↔ 0 ≤ i ∧ i < n

theorem firstIndices_dense (n : ℕ) : Dense (firstIndices n) :=
  ⟨firstIndices_nodup n, n, fun _ ↦ mem_firstIndices⟩

theorem start_denseInv : DenseInv {} where
  dense _ := rfl
  hot := ⟨fun _ _ h ↦ (by cases h), fun _ _ h ↦ (by cases h)⟩
  writing _ h := by cases h
  maxIdx _ _ h := by cases h
  runMeta _ _ h := by cases h

theorem restarted_denseInv {s : DataplaneService} (h : DenseInv s) : DenseInv s.restarted where
  dense := h.dense
  hot := ⟨fun _ _ h ↦ (by cases h), fun _ _ h ↦ (by cases h)⟩
  writing _ h := by cases h
  maxIdx _ _ h := by cases h
  runMeta := h.runMeta

/-- No procedure starts with anything recorded. -/
theorem program_sectionOk (s : DataplaneService) (k : Call) : ∀ c ∈ k.program, SectionOk s c := by
  cases k <;> simp [Call.program, SectionOk]

/-- Handling an exception takes no section. -/
theorem handler_sectionOk (s : DataplaneService) (c : Section) (l : List Section)
    (h : c.handler = some l) : ∀ d ∈ l, SectionOk s d := by
  cases c with
  | endTry =>
    cases h
    exact fun _ h ↦ absurd h List.not_mem_nil
  | _ => cases h

/-- **The stored frames of every run are dense**, in every interleaving of reports, sweeps, failed
writes, terminals, evictions, viewers and restarts in which no section takes an index for nothing,
loses one that was taken, or starts from too low a one. -/
theorem frames_dense (cfg : HotConfig) (p : Process DataplaneService Section)
    (h : (captureService cfg).machine.Reach (Sections.When DenseStep) (Sections.start {}) p)
    (run : String) : Dense (p.state.frameIndices run) := by
  have hinv : DenseInv p.state := by
    refine (Sections.keeps h (Q := SectionOk) ⟨start_denseInv, fun _ hc ↦
      absurd hc Sections.notMem_pending_start⟩ program_sectionOk handler_sectionOk
      (fun a i io c rest out hthread hinv hok hC hrun ↦ ?_)
      fun t ht ↦ restarted_denseInv ht).1
    have hc := hok c (Sections.mem_pending_of_thread hthread)
    have hsound := section_sound hinv hc (Sections.When.run hC hthread) hrun
    exact ⟨hsound.inv, hsound.todo, fun d hd ↦
      (hok d (Sections.mem_pending_of_mem_others hd)).mono hsound.stored⟩
  rw [hinv.dense run]
  exact firstIndices_dense _

/-- A call of a procedure in a thread of its own, and some of its sections. -/
def callThrough (call : Call) (thread sections : ℕ) : List (Move Call Io) :=
  .call call :: List.replicate sections (.run thread { residents := ["run"] })

/-- A report of a truck. -/
def truckAt (lng : ℤ) : Call :=
  .truckLoc "run"
    { agentId := "T1", lng := .fin lng, lat := .fin 0, state := 1, haulierId := none,
      simTimeMs := .fin 0 }

/-- A hot tier of four runs. -/
def fourRuns : HotConfig := { maxRuns := 4, capacity := 2, carryoverRuns := 64 }

/-- Two reports, each followed by a sweep. -/
def twoSweeps : List (Move Call Io) :=
  callThrough (truckAt 0) 0 6 ++ callThrough .captureFrames 1 12 ++ callThrough (truckAt 1) 2 4 ++
    callThrough .captureFrames 3 10

theorem frames_dense_two :
    ∃ p : Process DataplaneService Section, p.state.frameIndices "run" = [0, 1] ∧
      Dense (p.state.frameIndices "run") := by
  have hexec : (((captureService fourRuns).machine.execWhen (Sections.When DenseStep)
      (Sections.start {}) twoSweeps).map fun p ↦ p.state.frameIndices "run") = some [0, 1] := by
    decide
  obtain ⟨p, hp, hidx⟩ := Option.map_eq_some_iff.mp hexec
  exact ⟨p, hidx, frames_dense fourRuns p (Machine.reach_of_execWhen hp) "run"⟩

/-- The same with one poll of a viewer in between. -/
def viewerBetween : List (Move Call Io) :=
  callThrough (truckAt 0) 0 6 ++ callThrough .captureFrames 1 12 ++
    callThrough (.liveFrames "run") 2 1 ++ callThrough (truckAt 1) 3 4 ++
    callThrough .captureFrames 4 10

/-- One viewer of a live run, and the second frame is stored with the index 2. -/
theorem viewer_leaves_a_hole :
    ∃ (cfg : HotConfig) (p : Process DataplaneService Section),
      (captureService cfg).machine.Reach (fun _ _ ↦ True) (Sections.start {}) p ∧
        p.state.frameIndices "run" = [0, 2] ∧ ¬ Dense (p.state.frameIndices "run") := by
  have hexec : (((captureService fourRuns).machine.exec (Sections.start {}) viewerBetween).map
      fun p ↦ p.state.frameIndices "run") = some [0, 2] := by
    decide
  obtain ⟨p, hp, hidx⟩ := Option.map_eq_some_iff.mp hexec
  refine ⟨fourRuns, p, Machine.reach_of_exec viewerBetween hp fun _ _ _ ↦ trivial, hidx, ?_⟩
  rw [hidx]
  rintro ⟨-, n, hn⟩
  have h2 := (hn 2).mp (by decide)
  have h1 := (hn 1).mpr (by omega)
  exact absurd h1 (by decide)

end OpenRide.Dataplane
