import OpenRide.Dataplane.Archive
import OpenRide.Dataplane.CodeBooks

/-!
# Finalising a run, and finalising it again

`finalize_run` as one procedure: the flush of the buffered kpi rows, the gate, the last capture, the
code books and the status, the eviction, and the queue of dumps.  Four of its calls can fail.  A
failure of the flush, of the frame write or of the metadata write goes up to the consumer, which has
the terminal status delivered again; a failure of the metadata lookup is swallowed, and what is
written is the live book alone.

A failed flush drops its rows, and the consumer takes the points of their partitions back and blocks
them.  While they are blocked the gate refuses the run (`refused_again`), so the second delivery
makes up for the failure once the rows have been taken up again (`replayable`).

After a failed lookup the run is evicted, and the entries of the stored books that the live ones do
not have are lost; `replay_iff` says when that matters.
-/

namespace OpenRide.Dataplane

open Lib

/-! ## The procedure -/

/-- The columns of a `run_meta` row that are written and not read back. -/
structure StatusRow where
  status : Option String := none
  nTrucks : Option ℕ := none
deriving DecidableEq

/-- The service, and what `finalize_run` writes of a run besides. -/
structure ClosingService extends DataplaneService where
  statusRows : Dict String StatusRow := Dict.empty
  /-- `_dump_queue`. -/
  dumpQueue : List (String × String) := []
  /-- `_dump_queued`. -/
  dumpQueued : Dict String String := Dict.empty

/-- The primary key of `kpi_events`: run, metric and clock. -/
abbrev KpiKey := String × String × ℤ

/-- The service with what ingest has in hand. -/
structure FinalizeService extends ClosingService where
  /-- `_consumer`. -/
  consumer : Option Consumer := none
  /-- `_kpi_buffer`. -/
  kpiBuffer : List (KpiKey × Double) := []
  /-- The table `kpi_events`, without the times of ingestion. -/
  kpiEvents : Dict KpiKey Double := Dict.empty

/-- The calls of `finalize_run` that may fail. -/
inductive FinalizeCall where
  /-- `write_kpi_events`, after it has written the rows of some runs. -/
  | writeKpi (runs : ℕ)
  /-- `write_frame`. -/
  | writeFrame
  /-- `get_run_meta`. -/
  | readMeta
  /-- `upsert_run_meta`. -/
  | upsertMeta
deriving DecidableEq

/-- `capture_run`, and whether it returns. -/
def DataplaneService.captureRun (s : DataplaneService) (writes : Bool) (runId : String) :
    DataplaneService × Bool :=
  if s.runCaptured.get? runId = some (s.seqOf runId) then (s, true)
  else
    match s.hot.snapshot runId with
    | (_, none) => (s, true)
    | (hot, some frame) =>
      if frame.rows.isEmpty then
        ({ s with hot := hot, runCaptured := s.runCaptured.set runId (s.seqOf runId) }, true)
      else if writes then
        ({ s with
           hot := hot
           frames := s.frames ++ [(runId, frame)]
           runCaptured := s.runCaptured.set runId (s.seqOf runId)
           runMaxFrameIdx :=
             if (s.runMaxFrameIdx.get? runId).getD (-1) ≤ frame.frameIdx then
               s.runMaxFrameIdx.set runId frame.frameIdx
             else s.runMaxFrameIdx }, true)
      else ({ s with hot := (hot.rollbackFrameIdx runId frame.frameIdx).1 }, false)

/-- The live books of a run, empty when it is not resident. -/
def HotStore.liveBooks (s : HotStore) (runId : String) : Dict String ℕ × Dict String ℕ :=
  match s.runs.get? runId with
  | none => (Dict.empty, Dict.empty)
  | some slab => (slab.haulierToCode, slab.agentToSlot)

/-- The columns that are not read back: an empty slot map leaves the number of trucks. -/
def StatusRow.upsert (row : StatusRow) (status : String) (slots : Dict String ℕ) : StatusRow where
  status := some status
  nTrucks := if slots.entries.isEmpty then row.nTrucks else some slots.size

/-- `persist_run_meta` with a status, and whether it returns. -/
def ClosingService.persistRunMeta (s : ClosingService) (reads writes : Bool)
    (runId status : String) : ClosingService × Bool :=
  let (liveCodes, liveSlots) := s.hot.liveBooks runId
  let stored := (s.runMeta.get? runId).getD {}
  let existing := if reads then stored else {}
  let codes := mergeCodeMap existing.haulierCodes liveCodes
  let slots := mergeCodeMap existing.slotMap liveSlots
  if writes then
    ({ s with
       runMeta := s.runMeta.set runId (stored.upsert codes slots (s.runMaxFrameIdx.get? runId))
       statusRows := s.statusRows.set runId
         (((s.statusRows.get? runId).getD {}).upsert status slots)
       runMetaSig := s.runMetaSig.set runId (codes.size, slots.size) }, true)
  else (s, false)

/-- `evict_run`. -/
def ClosingService.evictRun (cfg : HotConfig) (s : ClosingService) (runId : String) :
    ClosingService :=
  let (hot, evicted) := s.hot.evict cfg runId
  if evicted then
    { s with
      hot := hot
      runUpdates := s.runUpdates.erase runId
      runCaptured := s.runCaptured.erase runId }
  else { s with hot := hot }

/-- `queue_dump`. -/
def ClosingService.queueDump (s : ClosingService) (runId reason : String) : ClosingService :=
  match s.dumpQueued.get? runId with
  | some old =>
    { s with dumpQueued := s.dumpQueued.set runId (if reason = "" then old else reason) }
  | none =>
    { s with
      dumpQueued := s.dumpQueued.set runId reason
      dumpQueue := s.dumpQueue ++ [(runId, reason)] }

/-- `finalize_run` behind its gate, when at most one of its calls fails, and whether it returns. -/
def ClosingService.closeRun (cfg : HotConfig) (s : ClosingService) (fails : Option FinalizeCall)
    (runId reason : String) : ClosingService × Bool :=
  match s.captureRun (fails ≠ some .writeFrame) runId with
  | (t, false) => ({ s with toDataplaneService := t }, false)
  | (t, true) =>
    match ClosingService.persistRunMeta { s with toDataplaneService := t }
        (fails ≠ some .readMeta) (fails ≠ some .upsertMeta) runId reason with
    | (u, false) => (u, false)
    | (u, true) =>
      let marked := { u with runFinalized := u.runFinalized ++ [runId] }
      ((marked.evictRun cfg runId).queueDump runId reason, true)

/-- The rows of `write_kpi_events`, by run; each run is inserted by itself. -/
def kpiGroups (rows : List (KpiKey × Double)) : List (List (KpiKey × Double)) :=
  (Dict.groupBy (fun row : KpiKey × Double ↦ some row.1.1) rows).values

/-- `kpi_events` after some groups were written. -/
def writeGroups (kpiEvents : Dict KpiKey Double) (groups : List (List (KpiKey × Double))) :
    Dict KpiKey Double :=
  groups.foldl Dict.update kpiEvents

/-- `flush_writes` of the service, and how it ends: the buffer is empty then in any case. -/
def FinalizeService.flushBuffer (s : FinalizeService) (fails : Option FinalizeCall) :
    FinalizeService × FlushOutcome :=
  let groups := kpiGroups s.kpiBuffer
  let taken := { s with kpiBuffer := [] }
  if s.kpiBuffer.isEmpty then (taken, .returned)
  else
    match fails with
    | some (.writeKpi runs) =>
      ({ taken with kpiEvents := writeGroups s.kpiEvents (groups.take runs) }, .raised)
    | _ => ({ taken with kpiEvents := writeGroups s.kpiEvents groups }, .returned)

/-- The flush of `finalize_run`, and whether it goes on: it asks the consumer for it if there is
one, which was given `flush_writes` of the service. -/
def FinalizeService.flushWrites (acfg : ArchiveConfig) (s : FinalizeService)
    (fails : Option FinalizeCall) : FinalizeService × Bool :=
  let (t, outcome) := s.flushBuffer fails
  match s.consumer with
  | none => (t, outcome = .returned)
  | some c =>
    let (consumer, ok) := c.flushWrites { acfg.toConsumerConfig with flushes := true } outcome
    ({ t with consumer := some consumer }, ok)

/-- Is a topic blocked, other than `run_status`? -/
def FinalizeService.ingestBlocked (acfg : ArchiveConfig) (s : FinalizeService) : Bool :=
  s.consumer.any fun c ↦ c.blockedElsewhere acfg ≠ []

/-- `finalize_run`, when at most one of its calls fails, and whether it returns. -/
def FinalizeService.finalizeRun (cfg : HotConfig) (acfg : ArchiveConfig) (s : FinalizeService)
    (fails : Option FinalizeCall) (runId reason : String) : FinalizeService × Bool :=
  match s.flushWrites acfg fails with
  | (t, false) => (t, false)
  | (t, true) =>
    if t.ingestBlocked acfg then (t, false)
    else
      let (closed, ok) := t.closeRun cfg fails runId reason
      ({ t with toClosingService := closed }, ok)

/-! ## The last capture -/

section Capture

variable {s t : DataplaneService} {r : String} {writes : Bool}

/-- A failed frame write hands the index back, and nothing has happened. -/
theorem rollback_snapshot {hot : HotStore} {frame : Frame} {s : HotStore}
    (h : s.snapshot r = (hot, some frame)) : (hot.rollbackFrameIdx r frame.frameIdx).1 = s := by
  rw [HotStore.snapshot] at h
  split at h
  · cases h
  · next slab hr =>
    obtain ⟨rfl, hframe⟩ := Prod.mk.inj h
    cases hframe
    rw [HotStore.rollbackFrameIdx, runs_setSlab, if_pos rfl]
    dsimp only
    rw [if_neg (not_not_intro rfl)]
    simp only [HotStore.setSlab, Dict.set_set, Nat.add_sub_cancel]
    rw [Dict.set_of_get? hr]

theorem captureRun_fails (h : s.captureRun writes r = (t, false)) : t = s := by
  rw [DataplaneService.captureRun] at h
  split at h
  · cases h
  · split at h
    · cases h
    · next hot frame hsnap =>
      split at h
      · cases h
      · split at h
        · cases h
        · obtain ⟨rfl, -⟩ := Prod.mk.inj h
          rw [rollback_snapshot hsnap]

/-- A capture that returns is not made a second time. -/
theorem captureRun_again (h : s.captureRun writes r = (t, true)) (writes' : Bool) :
    t.captureRun writes' r = (t, true) := by
  have hskip : ∀ u : DataplaneService, u.runCaptured.get? r = some (u.seqOf r) →
      u.captureRun writes' r = (u, true) := by
    intro u hu
    rw [DataplaneService.captureRun, if_pos hu]
  rw [DataplaneService.captureRun] at h
  split at h
  · next hsame =>
    obtain ⟨rfl, -⟩ := Prod.mk.inj h
    exact hskip s hsame
  · next hmoved =>
    split at h
    · next hot hsnap =>
      obtain ⟨rfl, -⟩ := Prod.mk.inj h
      rw [DataplaneService.captureRun, if_neg hmoved, hsnap]
    · split at h
      · obtain ⟨rfl, -⟩ := Prod.mk.inj h
        exact hskip _ (Dict.get?_set_self _ _ _)
      · split at h
        · obtain ⟨rfl, -⟩ := Prod.mk.inj h
          exact hskip _ (Dict.get?_set_self _ _ _)
        · cases h

/-- A capture that returns although the store takes no frame writes none. -/
theorem captureRun_unwritten (h : s.captureRun false r = (t, true)) :
    s.captureRun true r = (t, true) := by
  rw [DataplaneService.captureRun] at h ⊢
  split
  · next hsame => rwa [if_pos hsame] at h
  · next hmoved =>
    rw [if_neg hmoved] at h
    split
    · next hot hsnap => rwa [hsnap] at h
    · next hot frame hsnap =>
      rw [hsnap] at h
      dsimp only at h
      split
      · next hempty => rwa [if_pos hempty] at h
      · next hempty =>
        rw [if_neg hempty] at h
        cases h

theorem captureRun_returns (s : DataplaneService) (r : String) :
    (s.captureRun true r).2 = true := by
  rw [DataplaneService.captureRun]
  split
  · rfl
  · split
    · rfl
    · split <;> rfl

/-- What a capture that returns has done: at most one frame is stored, and if the run is resident
its positions are captured. -/
structure Captures (r : String) (s t : DataplaneService) : Prop where
  runMeta : t.runMeta = s.runMeta
  books : t.hot.liveBooks r = s.hot.liveBooks r
  resident : s.hot.runs.get? r ≠ none → t.hot.runs.get? r ≠ none
  frames : ∃ l : List Frame, l.length ≤ 1 ∧ t.frames = s.frames ++ l.map (r, ·)
  final : ∀ slab, s.hot.runs.get? r = some slab →
    s.runCaptured.get? r = some (s.seqOf r) ∨ slab.rows = [] ∨
      ∃ frame, frame.rows = slab.rows ∧ t.frames = s.frames ++ [(r, frame)]

theorem captureRun_captures (h : s.captureRun writes r = (t, true)) : Captures r s t := by
  have hnone : ∃ l : List Frame, l.length ≤ 1 ∧ s.frames = s.frames ++ l.map (r, ·) :=
    ⟨[], Nat.zero_le 1, (List.append_nil _).symm⟩
  have hsnap : ∀ hot frame, s.hot.snapshot r = (hot, some frame) →
      hot.liveBooks r = s.hot.liveBooks r ∧ hot.runs.get? r ≠ none ∧
        ∀ slab, s.hot.runs.get? r = some slab → frame.rows = slab.rows := by
    intro hot frame hsnap
    rw [HotStore.snapshot] at hsnap
    split at hsnap
    · cases hsnap
    · next slab hr =>
      obtain ⟨rfl, hframe⟩ := Prod.mk.inj hsnap
      cases hframe
      refine ⟨?_, ?_, fun slab' hr' ↦ ?_⟩
      · rw [HotStore.liveBooks, HotStore.liveBooks, runs_setSlab, if_pos rfl, hr]
      · rw [runs_setSlab, if_pos rfl]
        exact Option.some_ne_none _
      · rw [Option.some_inj.mp (hr.symm.trans hr')]
  rw [DataplaneService.captureRun] at h
  split at h
  · next hsame =>
    obtain ⟨rfl, -⟩ := Prod.mk.inj h
    exact ⟨rfl, rfl, id, hnone, fun _ _ ↦ Or.inl hsame⟩
  · split at h
    · next hot hnores =>
      obtain ⟨rfl, -⟩ := Prod.mk.inj h
      refine ⟨rfl, rfl, id, hnone, fun slab hr ↦ ?_⟩
      rw [HotStore.snapshot, hr] at hnores
      cases hnores
    · next hot frame hframe =>
      obtain ⟨hbooks, hres, hrows⟩ := hsnap hot frame hframe
      split at h
      · next hempty =>
        obtain ⟨rfl, -⟩ := Prod.mk.inj h
        refine ⟨rfl, hbooks, fun _ ↦ hres, hnone, fun slab hr ↦ Or.inr (Or.inl ?_)⟩
        exact (hrows slab hr).symm.trans (List.isEmpty_iff.mp hempty)
      · split at h
        · obtain ⟨rfl, -⟩ := Prod.mk.inj h
          exact ⟨rfl, hbooks, fun _ ↦ hres, ⟨[frame], le_refl 1, rfl⟩, fun slab hr ↦
            Or.inr (Or.inr ⟨frame, hrows slab hr, rfl⟩)⟩
        · cases h

/-- Nothing is captured of a run that is not resident. -/
theorem captureRun_absent (h : s.hot.runs.get? r = none) (writes : Bool) :
    s.captureRun writes r = (s, true) := by
  rw [DataplaneService.captureRun]
  split
  · rfl
  · rw [HotStore.snapshot, h]

end Capture

/-! ## The columns of the row -/

/-- What a write makes of one of the stored maps, when the lookup before it answers or does not. -/
def column (reads : Bool) (stored live : Dict String ℕ) : Dict String ℕ :=
  let merged := mergeCodeMap (if reads then stored else Dict.empty) live
  if merged.entries.isEmpty then stored else sortedMap merged

section Column

variable {stored live : Dict String ℕ}

theorem get?_mergeCodeMap (persisted live : Dict String ℕ) (k : String) :
    (mergeCodeMap persisted live).get? k = (persisted.get? k <|> live.get? k) :=
  Dict.get?_update_entries live persisted k

theorem entries_eq_nil_iff {d : Dict String ℕ} : d.entries = [] ↔ ∀ k, d.get? k = none := by
  refine ⟨fun h k ↦ ?_, fun h ↦ List.eq_nil_iff_forall_not_mem.mpr fun e he ↦ ?_⟩
  · refine Dict.get?_eq_none_iff.mpr ?_
    rw [Dict.keys, h]
    exact List.not_mem_nil
  · have hmem := Dict.mem_entries_iff.mp (show (e.1, e.2) ∈ d.entries from he)
    rw [h] at hmem
    cases hmem

/-- A map that was written with the lookup answered reads like the union. -/
theorem get?_column (k : String) :
    (column true stored live).get? k = (stored.get? k <|> live.get? k) := by
  rw [column, if_pos rfl]
  split
  · next hempty =>
    have hnone := entries_eq_nil_iff.mp (List.isEmpty_iff.mp hempty) k
    rw [get?_mergeCodeMap] at hnone
    cases hs : stored.get? k with
    | none =>
      rw [hs] at hnone
      exact hnone.symm
    | some v => rfl
  · rw [get?_sortedMap, get?_mergeCodeMap]

/-- Without an answer the live map is written, unless it is empty. -/
theorem get?_column_unread (k : String) : (column false stored live).get? k =
    if live.entries.isEmpty then stored.get? k else live.get? k := by
  have hmerge : mergeCodeMap Dict.empty live = live := rfl
  rw [column, if_neg Bool.false_ne_true, hmerge]
  split
  · rfl
  · exact get?_sortedMap live k

/-- Two maps that were written with the lookup answered are the same if they read the same. -/
theorem column_ext {stored' live' : Dict String ℕ}
    (h : ∀ k, (column true stored live).get? k = (column true stored' live').get? k) :
    column true stored live = column true stored' live' := by
  have hnone : ∀ {x y : Option ℕ}, (x <|> y) = none → x = none := by
    intro x y hxy
    cases x with
    | none => rfl
    | some v => cases hxy
  have hblank : ∀ d : Dict String ℕ, (∀ k, d.get? k = none) → d = Dict.empty := by
    rintro ⟨entries, nodup⟩ hd
    obtain rfl : entries = [] := entries_eq_nil_iff.mpr hd
    rfl
  have hsame : ∀ k, (mergeCodeMap stored live).get? k = (mergeCodeMap stored' live').get? k := by
    intro k
    rw [get?_mergeCodeMap, get?_mergeCodeMap, ← get?_column, ← get?_column, h]
  rw [column, column, if_pos rfl, if_pos rfl]
  by_cases hnil : (mergeCodeMap stored live).entries = []
  · have hall := entries_eq_nil_iff.mp hnil
    have hall' := fun k ↦ (hsame k).symm.trans (hall k)
    have hnil' := entries_eq_nil_iff.mpr hall'
    rw [if_pos (List.isEmpty_iff.mpr hnil), if_pos (List.isEmpty_iff.mpr hnil'),
      hblank stored fun k ↦ hnone ((get?_mergeCodeMap stored live k).symm.trans (hall k)),
      hblank stored' fun k ↦ hnone ((get?_mergeCodeMap stored' live' k).symm.trans (hall' k))]
  · have hnil' : (mergeCodeMap stored' live').entries ≠ [] := fun h0 ↦
      hnil (entries_eq_nil_iff.mpr fun k ↦ (hsame k).trans (entries_eq_nil_iff.mp h0 k))
    rw [if_neg (mt List.isEmpty_iff.mp hnil), if_neg (mt List.isEmpty_iff.mp hnil'),
      sortedMap_congr hsame]

/-- **A second write, of an empty map**, makes up for the first exactly if the lookup answered the
first time, or the live map was empty, or it had all that was stored. -/
theorem column_again (reads : Bool) :
    column true (column reads stored live) Dict.empty = column true stored live ↔
      (reads = false → live.entries = [] ∨ Keeps stored live) := by
  have hor : ∀ x : Option ℕ, (x <|> none) = x := by
    intro x
    cases x <;> rfl
  have hread : ∀ k, (column true (column reads stored live) Dict.empty).get? k =
      (column reads stored live).get? k := by
    intro k
    rw [get?_column, Dict.get?_empty, hor]
  cases reads with
  | true =>
    exact iff_of_true (column_ext hread) fun h ↦ absurd h.symm Bool.false_ne_true
  | false =>
    have hiff : column true (column false stored live) Dict.empty = column true stored live ↔
        ∀ k, (column false stored live).get? k = (stored.get? k <|> live.get? k) := by
      refine ⟨fun h k ↦ ?_, fun h ↦ column_ext fun k ↦ ?_⟩
      · rw [← hread, h, get?_column]
      · rw [hread, h, get?_column]
    rw [hiff]
    simp only [get?_column_unread]
    by_cases hempty : live.entries = []
    · refine iff_of_true (fun k ↦ ?_) fun _ ↦ Or.inl hempty
      rw [if_pos (List.isEmpty_iff.mpr hempty), entries_eq_nil_iff.mp hempty k, hor]
    · simp only [if_neg (mt List.isEmpty_iff.mp hempty)]
      refine ⟨fun h _ ↦ Or.inr fun k v hk ↦ ?_, fun h k ↦ ?_⟩
      · rw [h k, hk]
        rfl
      · cases hs : stored.get? k with
        | none => rfl
        | some v => exact (h trivial).resolve_left hempty k v hs

/-- The number of trucks that a write leaves, when the lookup answers. -/
theorem column_isEmpty : (column true stored live).entries.isEmpty =
    (mergeCodeMap stored live).entries.isEmpty := by
  have hiff : (column true stored live).entries = [] ↔ (mergeCodeMap stored live).entries = [] := by
    rw [entries_eq_nil_iff, entries_eq_nil_iff]
    simp only [get?_column, get?_mergeCodeMap]
  rw [Bool.eq_iff_iff, List.isEmpty_iff, List.isEmpty_iff, hiff]

theorem size_column : (column true stored live).size = (mergeCodeMap stored live).size := by
  refine (Dict.perm_of_get? fun k ↦ ?_).length_eq
  rw [get?_column, get?_mergeCodeMap]

end Column

/-! ## The delivery, and the delivery again -/

/-- What follows a capture that returned, when the metadata write succeeds. -/
def ClosingService.settle (cfg : HotConfig) (s : ClosingService) (reads : Bool)
    (runId reason : String) : ClosingService :=
  let persisted := (s.persistRunMeta reads true runId reason).1
  let marked := { persisted with runFinalized := persisted.runFinalized ++ [runId] }
  (marked.evictRun cfg runId).queueDump runId reason

/-- The service after a capture that returned. -/
def ClosingService.captured (s : ClosingService) (runId : String) : ClosingService :=
  { s with toDataplaneService := (s.captureRun true runId).1 }

section Delivery

variable {cfg : HotConfig} {s t : ClosingService} {r reason : String}

theorem closeRun_ok (s : ClosingService) :
    s.closeRun cfg none r reason = ((s.captured r).settle cfg true r reason, true) := by
  have hret := captureRun_returns s.toDataplaneService r
  have hdec : decide ((none : Option FinalizeCall) ≠ some .writeFrame) = true := rfl
  rw [ClosingService.closeRun, hdec,
    show s.captureRun true r = ((s.captureRun true r).1, true) from Prod.ext rfl hret]
  rfl

variable (cfg r reason) in
/-- The service after a delivery in which a call may have failed. -/
theorem closeRun_cases (s : ClosingService) (fails : Option FinalizeCall) :
    fails ≠ some .readMeta ∧ s.closeRun cfg fails r reason = (s, false) ∨
    fails ≠ some .readMeta ∧ s.closeRun cfg fails r reason = (s.captured r, false) ∨
    ∃ reads, (reads = false ↔ fails = some .readMeta) ∧
      s.closeRun cfg fails r reason = ((s.captured r).settle cfg reads r reason, true) := by
  have hret := captureRun_returns s.toDataplaneService r
  have hcapt : s.captureRun true r = ((s.captureRun true r).1, true) := Prod.ext rfl hret
  cases fails with
  | none => exact Or.inr (Or.inr ⟨true, by decide, closeRun_ok s⟩)
  | some call =>
    cases call with
    | writeKpi runs =>
      refine Or.inr (Or.inr ⟨true, iff_of_false Bool.noConfusion nofun, ?_⟩)
      have hdec : decide (some (FinalizeCall.writeKpi runs) ≠ some .writeFrame) = true := rfl
      rw [ClosingService.closeRun, hdec, hcapt]
      rfl
    | writeFrame =>
      have hdec : decide (some FinalizeCall.writeFrame ≠ some .writeFrame) = false := rfl
      rw [ClosingService.closeRun, hdec]
      cases hcap : s.captureRun false r with
      | mk u ok =>
        cases ok with
        | false =>
          obtain rfl := captureRun_fails hcap
          exact Or.inl ⟨by decide, rfl⟩
        | true =>
          refine Or.inr (Or.inr ⟨true, by decide, ?_⟩)
          rw [ClosingService.captured, captureRun_unwritten hcap]
          rfl
    | readMeta =>
      refine Or.inr (Or.inr ⟨false, by decide, ?_⟩)
      have hdec : decide (some FinalizeCall.readMeta ≠ some .writeFrame) = true := rfl
      rw [ClosingService.closeRun, hdec, hcapt]
      rfl
    | upsertMeta =>
      refine Or.inr (Or.inl ⟨by decide, ?_⟩)
      have hdec : decide (some FinalizeCall.upsertMeta ≠ some .writeFrame) = true := rfl
      rw [ClosingService.closeRun, hdec, hcapt]
      rfl

/-- The row that a write leaves. -/
def writtenRow (reads : Bool) (stored : RunMeta) (books : Dict String ℕ × Dict String ℕ)
    (maxIdx : Option ℤ) : RunMeta where
  haulierCodes := column reads stored.haulierCodes books.1
  slotMap := column reads stored.slotMap books.2
  maxFrameIdx := maxIdx.or stored.maxFrameIdx

/-- The columns that are not read back, after a write. -/
def writtenStatus (reads : Bool) (old : StatusRow) (stored : RunMeta) (slots : Dict String ℕ)
    (reason : String) : StatusRow :=
  old.upsert reason (mergeCodeMap (if reads then stored.slotMap else Dict.empty) slots)

/-- The queue of dumps after a run is queued. -/
def queued (queue : List (String × String)) (known : Dict String String) (r reason : String) :
    List (String × String) × Dict String String :=
  match known.get? r with
  | some old => (queue, known.set r (if reason = "" then old else reason))
  | none => (queue ++ [(r, reason)], known.set r reason)

/-- What is stored, what is queued and what is resident, after a delivery that returns. -/
structure Settled (cfg : HotConfig) (reads : Bool) (r reason : String) (s t : ClosingService) :
    Prop where
  frames : t.frames = s.frames
  runMeta : t.runMeta = s.runMeta.set r (writtenRow reads ((s.runMeta.get? r).getD {})
    (s.hot.liveBooks r) (s.runMaxFrameIdx.get? r))
  statusRows : t.statusRows = s.statusRows.set r (writtenStatus reads
    ((s.statusRows.get? r).getD {}) ((s.runMeta.get? r).getD {}) (s.hot.liveBooks r).2 reason)
  maxFrameIdx : t.runMaxFrameIdx = s.runMaxFrameIdx
  hot : t.hot = (s.hot.evict cfg r).1
  dumps : (t.dumpQueue, t.dumpQueued) = queued s.dumpQueue s.dumpQueued r reason

theorem settle_settled (s : ClosingService) (reads : Bool) :
    Settled cfg reads r reason s (s.settle cfg reads r reason) := by
  have hqueue : ∀ u : ClosingService,
      (u.queueDump r reason).toDataplaneService = u.toDataplaneService ∧
      (u.queueDump r reason).statusRows = u.statusRows ∧
      ((u.queueDump r reason).dumpQueue, (u.queueDump r reason).dumpQueued) =
        queued u.dumpQueue u.dumpQueued r reason := by
    intro u
    rw [ClosingService.queueDump, queued]
    split <;> exact ⟨rfl, rfl, rfl⟩
  have hevict : ∀ u : ClosingService,
      (u.evictRun cfg r).hot = (u.hot.evict cfg r).1 ∧ (u.evictRun cfg r).frames = u.frames ∧
      (u.evictRun cfg r).runMeta = u.runMeta ∧
      (u.evictRun cfg r).runMaxFrameIdx = u.runMaxFrameIdx ∧
      (u.evictRun cfg r).statusRows = u.statusRows ∧
      (u.evictRun cfg r).dumpQueue = u.dumpQueue ∧
      (u.evictRun cfg r).dumpQueued = u.dumpQueued := by
    intro u
    rw [ClosingService.evictRun]
    dsimp only
    split <;> exact ⟨rfl, rfl, rfl, rfl, rfl, rfl, rfl⟩
  have hpersist : (s.persistRunMeta reads true r reason).1.runMeta =
      s.runMeta.set r (writtenRow reads ((s.runMeta.get? r).getD {}) (s.hot.liveBooks r)
        (s.runMaxFrameIdx.get? r)) := by
    cases reads <;> rfl
  have hstatus : (s.persistRunMeta reads true r reason).1.statusRows =
      s.statusRows.set r (writtenStatus reads ((s.statusRows.get? r).getD {})
        ((s.runMeta.get? r).getD {}) (s.hot.liveBooks r).2 reason) := by
    cases reads <;> rfl
  obtain ⟨q1, q2, q3⟩ := hqueue (ClosingService.evictRun cfg
    { (s.persistRunMeta reads true r reason).1 with
      runFinalized := (s.persistRunMeta reads true r reason).1.runFinalized ++ [r] } r)
  obtain ⟨e1, e2, e3, e4, e5, e6, e7⟩ := hevict
    { (s.persistRunMeta reads true r reason).1 with
      runFinalized := (s.persistRunMeta reads true r reason).1.runFinalized ++ [r] }
  rw [e6, e7] at q3
  exact ⟨(congrArg DataplaneService.frames q1).trans e2,
    (congrArg DataplaneService.runMeta q1).trans (e3.trans hpersist),
    q2.trans (e5.trans hstatus), (congrArg DataplaneService.runMaxFrameIdx q1).trans e4,
    (congrArg DataplaneService.hot q1).trans e1, q3⟩

theorem evict_absent (hot : HotStore) (r : String) : (hot.evict cfg r).1.runs.get? r = none := by
  cases hr : hot.runs.get? r with
  | none => simp only [HotStore.evict, hr]
  | some slab => rw [runs_evict hr, Dict.get?_erase, if_pos rfl]

theorem evict_again (hot : HotStore) (r : String) :
    ((hot.evict cfg r).1.evict cfg r).1 = (hot.evict cfg r).1 := by
  have habsent : (hot.evict cfg r).1.runs.get? r = none := evict_absent hot r
  rw [HotStore.evict, habsent]

theorem queued_again (queue : List (String × String)) (known : Dict String String)
    (r reason : String) :
    queued (queued queue known r reason).1 (queued queue known r reason).2 r reason =
      queued queue known r reason := by
  have hback : ∀ (q : List (String × String)) (x : String),
      (reason ≠ "" → x = reason) →
      queued q (known.set r x) r reason = (q, known.set r x) := by
    intro q x hx
    rw [queued, Dict.get?_set_self]
    dsimp only
    rw [Dict.set_set]
    split
    · rfl
    · next hne => rw [hx hne]
  cases hk : known.get? r with
  | some old =>
    have hq : queued queue known r reason =
        (queue, known.set r (if reason = "" then old else reason)) := by rw [queued, hk]
    rw [hq]
    exact hback queue _ fun hne ↦ if_neg hne
  | none =>
    have hq : queued queue known r reason = (queue ++ [(r, reason)], known.set r reason) := by
      rw [queued, hk]
    rw [hq]
    exact hback _ reason fun _ ↦ rfl

/-- The live books of a run have all that is stored of it, or are empty. -/
def StoredKept (s : ClosingService) (r : String) : Prop :=
  let stored := (s.runMeta.get? r).getD {}
  ((s.hot.liveBooks r).1.entries = [] ∨ Keeps stored.haulierCodes (s.hot.liveBooks r).1) ∧
    ((s.hot.liveBooks r).2.entries = [] ∨ Keeps stored.slotMap (s.hot.liveBooks r).2)

/-- A second write finds the run evicted. -/
theorem row_again (reads : Bool) (stored : RunMeta) (books : Dict String ℕ × Dict String ℕ)
    (maxIdx : Option ℤ) :
    writtenRow true (writtenRow reads stored books maxIdx) (Dict.empty, Dict.empty) maxIdx =
        writtenRow true stored books maxIdx ↔
      (reads = false → (books.1.entries = [] ∨ Keeps stored.haulierCodes books.1) ∧
        (books.2.entries = [] ∨ Keeps stored.slotMap books.2)) := by
  have hmax : maxIdx.or (maxIdx.or stored.maxFrameIdx) = maxIdx.or stored.maxFrameIdx := by
    cases maxIdx <;> rfl
  rw [writtenRow, writtenRow, writtenRow, RunMeta.mk.injEq]
  rw [column_again, column_again, hmax]
  exact ⟨fun h hr ↦ ⟨h.1 hr, h.2.1 hr⟩, fun h ↦ ⟨fun hr ↦ (h hr).1, fun hr ↦ (h hr).2, rfl⟩⟩

theorem status_again {reads : Bool} {stored : RunMeta} {books : Dict String ℕ × Dict String ℕ}
    {maxIdx : Option ℤ} (old : StatusRow) (reason : String)
    (h : column true (column reads stored.slotMap books.2) Dict.empty =
      column true stored.slotMap books.2) :
    writtenStatus true (writtenStatus reads old stored books.2 reason)
        (writtenRow reads stored books maxIdx) Dict.empty reason =
      writtenStatus true old stored books.2 reason := by
  have htrucks : ∀ (o : StatusRow) (row live : Dict String ℕ),
      o.upsert reason (mergeCodeMap row live) =
        { status := some reason
          nTrucks := if (column true row live).entries.isEmpty then o.nTrucks
            else some (column true row live).size } := by
    intro o row live
    rw [StatusRow.upsert, column_isEmpty, size_column]
  -- with no slot stored in the end, there was none in the first write either
  have hnone : (column true stored.slotMap books.2).entries = [] →
      (writtenStatus reads old stored books.2 reason).nTrucks = old.nTrucks := by
    intro hempty
    have hall := entries_eq_nil_iff.mp hempty
    have hmerged : (mergeCodeMap (if reads then stored.slotMap else Dict.empty)
        books.2).entries = [] := by
      refine entries_eq_nil_iff.mpr fun k ↦ ?_
      have hk := hall k
      rw [get?_column] at hk
      rw [get?_mergeCodeMap]
      cases hs : stored.slotMap.get? k with
      | none =>
        rw [hs] at hk
        cases reads with
        | true => rwa [if_pos rfl, hs]
        | false => exact hk
      | some v =>
        rw [hs] at hk
        cases hk
    rw [writtenStatus, StatusRow.upsert, if_pos (List.isEmpty_iff.mpr hmerged)]
  calc writtenStatus true (writtenStatus reads old stored books.2 reason)
        (writtenRow reads stored books maxIdx) Dict.empty reason
      = { status := some reason
          nTrucks := if (column true stored.slotMap books.2).entries.isEmpty then
              (writtenStatus reads old stored books.2 reason).nTrucks
            else some (column true stored.slotMap books.2).size } := by
        rw [← h]
        exact htrucks _ _ _
    _ = { status := some reason
          nTrucks := if (column true stored.slotMap books.2).entries.isEmpty then old.nTrucks
            else some (column true stored.slotMap books.2).size } := by
        by_cases hempty : (column true stored.slotMap books.2).entries = []
        · rw [hnone hempty]
        · rw [if_neg (mt List.isEmpty_iff.mp hempty), if_neg (mt List.isEmpty_iff.mp hempty)]
    _ = writtenStatus true old stored books.2 reason := (htrucks old stored.slotMap books.2).symm

/-- After a delivery that was evicted, its final capture and its metadata are stored. -/
def EvictsLast (r reason : String) (s t : ClosingService) : Prop :=
  ∀ slab, s.hot.runs.get? r = some slab → t.hot.runs.get? r = none →
    (s.runCaptured.get? r = some (s.seqOf r) ∨ slab.rows = [] ∨
      ∃ frame, frame.rows = slab.rows ∧ t.frames = s.frames ++ [(r, frame)]) ∧
    ((t.statusRows.get? r).getD {}).status = some reason ∧
    (∀ h ∈ slab.haulierToCode.keys, h ∈ ((t.runMeta.get? r).getD {}).haulierCodes.keys) ∧
    ∀ a ∈ slab.agentToSlot.keys, a ∈ ((t.runMeta.get? r).getD {}).slotMap.keys

/-- Closed again after a first attempt, a run ends as it does when it is closed once; no frame is
stored twice, and no eviction comes before the final capture and the metadata. -/
structure ClosedAgain (r reason : String) (s first once again : ClosingService) : Prop where
  frames : again.frames = once.frames
  runMeta : again.runMeta = once.runMeta
  statusRows : again.statusRows = once.statusRows
  dumps : again.dumpQueue = once.dumpQueue ∧ again.dumpQueued = once.dumpQueued
  hot : again.hot = once.hot
  oneFrame : ∃ l : List Frame, l.length ≤ 1 ∧ again.frames = s.frames ++ l.map (r, ·)
  evicts : EvictsLast r reason s first ∧ EvictsLast r reason first again

theorem keys_column {reads : Bool} {stored live : Dict String ℕ} {k : String} (h : k ∈ live.keys) :
    k ∈ (column reads stored live).keys := by
  obtain ⟨v, hv⟩ := Dict.mem_keys_iff.mp h
  rw [Dict.mem_keys_iff]
  cases reads with
  | true =>
    rw [get?_column, hv]
    cases stored.get? k with
    | none => exact ⟨v, rfl⟩
    | some w => exact ⟨w, rfl⟩
  | false =>
    have hne : ¬ live.entries.isEmpty = true := fun he ↦ by
      rw [entries_eq_nil_iff.mp (List.isEmpty_iff.mp he) k] at hv
      cases hv
    rw [get?_column_unread, if_neg hne]
    exact ⟨v, hv⟩

theorem captured_captures (s : ClosingService) (r : String) :
    Captures r s.toDataplaneService (s.captured r).toDataplaneService :=
  captureRun_captures (Prod.ext rfl (captureRun_returns s.toDataplaneService r))

theorem captured_again (s : ClosingService) (r : String) :
    (s.captured r).captured r = s.captured r := by
  have hagain := captureRun_again
    (Prod.ext rfl (captureRun_returns s.toDataplaneService r) :
      s.captureRun true r = ((s.captureRun true r).1, true)) true
  rw [ClosingService.captured, ClosingService.captured, hagain]

theorem settle_evictsLast (s : ClosingService) (reads : Bool) :
    EvictsLast r reason s ((s.captured r).settle cfg reads r reason) := by
  have hcap := captured_captures s r
  have hset : Settled cfg reads r reason (s.captured r)
    ((s.captured r).settle cfg reads r reason) :=
    settle_settled (s.captured r) reads
  intro slab hr _
  have hbooks : (s.captured r).hot.liveBooks r = (slab.haulierToCode, slab.agentToSlot) := by
    rw [hcap.books, HotStore.liveBooks, hr]
  refine ⟨?_, ?_, fun h hh ↦ ?_, fun a ha ↦ ?_⟩
  · rw [hset.frames]
    exact hcap.final slab hr
  · rw [hset.statusRows, Dict.get?_set_self]
    rfl
  · rw [hset.runMeta, Dict.get?_set_self, hbooks]
    exact keys_column hh
  · rw [hset.runMeta, Dict.get?_set_self, hbooks]
    exact keys_column ha

theorem captured_evictsLast (s : ClosingService) : EvictsLast r reason s (s.captured r) := by
  intro slab hr hnone
  have hres := (captured_captures s r).resident (by rw [hr]; exact Option.some_ne_none slab)
  exact absurd hnone hres

theorem evictsLast_refl (s : ClosingService) : EvictsLast r reason s s := by
  intro slab hr hnone
  rw [hr] at hnone
  cases hnone

theorem once_evictsLast (s : ClosingService) :
    EvictsLast r reason s (s.closeRun cfg none r reason).1 := by
  rw [closeRun_ok]
  exact settle_evictsLast s true

variable (cfg r reason) in
/-- The second of two deliveries that return finds the run evicted. -/
theorem settle_again (c : ClosingService) (reads : Bool) :
    Settled cfg true r reason (c.settle cfg reads r reason)
      ((c.settle cfg reads r reason).closeRun cfg none r reason).1 ∧
    (c.settle cfg reads r reason).hot.liveBooks r = (Dict.empty, Dict.empty) := by
  have hset : Settled cfg reads r reason c (c.settle cfg reads r reason) := settle_settled c reads
  have habsent : (c.settle cfg reads r reason).hot.runs.get? r = none := by
    rw [hset.hot]
    exact evict_absent c.hot r
  have hsame : (c.settle cfg reads r reason).captured r = c.settle cfg reads r reason := by
    rw [ClosingService.captured, captureRun_absent habsent]
  refine ⟨?_, by rw [HotStore.liveBooks, habsent]⟩
  rw [closeRun_ok, hsame]
  exact settle_settled (c.settle cfg reads r reason) true

variable (cfg r reason) in
/-- **Two deliveries that return**, and one: they differ at most in the row. -/
theorem settle_twice (c : ClosingService) (reads : Bool) :
    let first := c.settle cfg reads r reason
    let again := (first.closeRun cfg none r reason).1
    let once := c.settle cfg true r reason
    let stored := (c.runMeta.get? r).getD {}
    let maxIdx := c.runMaxFrameIdx.get? r
    again.frames = once.frames ∧ again.hot = once.hot ∧
      (again.dumpQueue, again.dumpQueued) = (once.dumpQueue, once.dumpQueued) ∧
      again.runMeta = c.runMeta.set r (writtenRow true
        (writtenRow reads stored (c.hot.liveBooks r) maxIdx) (Dict.empty, Dict.empty) maxIdx) ∧
      once.runMeta = c.runMeta.set r (writtenRow true stored (c.hot.liveBooks r) maxIdx) ∧
      (again.runMeta = once.runMeta → again.statusRows = once.statusRows) := by
  have hfirst : Settled cfg reads r reason c (c.settle cfg reads r reason) := settle_settled c reads
  have honce : Settled cfg true r reason c (c.settle cfg true r reason) := settle_settled c true
  obtain ⟨hagain, hbooks⟩ := settle_again cfg r reason c reads
  have hrow : ((c.settle cfg reads r reason).closeRun cfg none r reason).1.runMeta =
      c.runMeta.set r (writtenRow true (writtenRow reads ((c.runMeta.get? r).getD {})
        (c.hot.liveBooks r) (c.runMaxFrameIdx.get? r)) (Dict.empty, Dict.empty)
        (c.runMaxFrameIdx.get? r)) := by
    rw [hagain.runMeta, hbooks, hfirst.maxFrameIdx, hfirst.runMeta, Dict.get?_set_self,
      Option.getD_some, Dict.set_set]
  refine ⟨hagain.frames.trans (hfirst.frames.trans honce.frames.symm), ?_, ?_, hrow, honce.runMeta,
    fun hsame ↦ ?_⟩
  · rw [hagain.hot, hfirst.hot, honce.hot]
    exact evict_again c.hot r
  · have hq1 : (c.settle cfg reads r reason).dumpQueue =
        (queued c.dumpQueue c.dumpQueued r reason).1 := congrArg Prod.fst hfirst.dumps
    have hq2 : (c.settle cfg reads r reason).dumpQueued =
        (queued c.dumpQueue c.dumpQueued r reason).2 := congrArg Prod.snd hfirst.dumps
    rw [hagain.dumps, honce.dumps, hq1, hq2, queued_again]
  · rw [hrow, honce.runMeta] at hsame
    have hrows := congrArg (fun d ↦ Dict.get? d r) hsame
    rw [Dict.get?_set_self, Dict.get?_set_self, Option.some_inj] at hrows
    have hslots := congrArg RunMeta.slotMap hrows
    rw [hagain.statusRows, hbooks, hfirst.statusRows, hfirst.runMeta, honce.statusRows,
      Dict.get?_set_self, Dict.get?_set_self, Option.getD_some, Option.getD_some, Dict.set_set,
      status_again _ reason hslots]

/-- A run that the first attempt has left alone. -/
theorem closedAgain_unchanged (s : ClosingService) :
    ClosedAgain r reason s s (s.closeRun cfg none r reason).1 (s.closeRun cfg none r reason).1 := by
  refine ⟨rfl, rfl, rfl, ⟨rfl, rfl⟩, rfl, ?_, evictsLast_refl s, once_evictsLast s⟩
  have hset : Settled cfg true r reason (s.captured r) _ := settle_settled (s.captured r) true
  rw [closeRun_ok, hset.frames]
  exact (captured_captures s r).frames

/-- A run that no attempt has closed. -/
theorem closedAgain_refl (s : ClosingService) : ClosedAgain r reason s s s s :=
  ⟨rfl, rfl, rfl, ⟨rfl, rfl⟩, rfl, ⟨[], Nat.zero_le 1, (List.append_nil _).symm⟩,
    evictsLast_refl s, evictsLast_refl s⟩

variable (cfg r reason) in
/-- Whichever call fails, the run closed again ends as it does without a failure, unless the failed
call is the metadata lookup and the live books do not have all that is stored. -/
theorem closeRun_again_iff (s : ClosingService) (fails : Option FinalizeCall) :
    ClosedAgain r reason s (s.closeRun cfg fails r reason).1 (s.closeRun cfg none r reason).1
      ((s.closeRun cfg fails r reason).1.closeRun cfg none r reason).1 ↔
    (fails = some .readMeta → StoredKept s r) := by
  have hcap := captured_captures s r
  have hunchanged : ClosedAgain r reason s s (s.closeRun cfg none r reason).1
    (s.closeRun cfg none r reason).1 := closedAgain_unchanged s
  rcases closeRun_cases cfg r reason s fails with
    ⟨hne, hfirst⟩ | ⟨hne, hfirst⟩ | ⟨reads, hreads, hfirst⟩
  · rw [hfirst]
    exact iff_of_true hunchanged fun h ↦ absurd h hne
  · have hsame : (s.captured r).closeRun cfg none r reason = s.closeRun cfg none r reason := by
      rw [closeRun_ok, closeRun_ok, captured_again]
    rw [hfirst]
    dsimp only
    rw [hsame]
    refine iff_of_true ⟨rfl, rfl, rfl, ⟨rfl, rfl⟩, rfl, hunchanged.oneFrame, captured_evictsLast s,
      ?_⟩ fun h ↦ absurd h hne
    rw [← hsame]
    exact once_evictsLast (s.captured r)
  · have hframes := hunchanged.oneFrame
    rw [hfirst]
    rw [closeRun_ok s] at hframes ⊢
    dsimp only at hframes ⊢
    obtain ⟨h1, h2, h3, hagain, honce, hstatus⟩ :=
      settle_twice cfg r reason (s.captured r) reads
    obtain ⟨h3, h4⟩ := Prod.mk.inj h3
    have hkept : StoredKept s r ↔ StoredKept (s.captured r) r := by
      rw [StoredKept, StoredKept, hcap.books, hcap.runMeta]
    have hrow : (((s.captured r).settle cfg reads r reason).closeRun cfg none r reason).1.runMeta
        = ((s.captured r).settle cfg true r reason).runMeta ↔
        (fails = some .readMeta → StoredKept s r) := by
      rw [hagain, honce, ← hreads, hkept, StoredKept, ← row_again]
      refine ⟨fun h ↦ ?_, fun h ↦ by rw [h]⟩
      have hget := congrArg (fun d ↦ Dict.get? d r) h
      rwa [Dict.get?_set_self, Dict.get?_set_self, Option.some_inj] at hget
    rw [← hrow]
    refine ⟨fun h ↦ h.runMeta, fun h ↦ ⟨h1, h, hstatus h, ⟨h3, h4⟩, h2, ?_,
      settle_evictsLast s reads, once_evictsLast _⟩⟩
    rw [h1]
    exact hframes

end Delivery

/-! ## The flush and the gate -/

/-- Does the failed call drop buffered rows? -/
def FinalizeService.DropsRows (s : FinalizeService) (fails : Option FinalizeCall) : Prop :=
  (∃ runs, fails = some (.writeKpi runs)) ∧ s.kpiBuffer ≠ []

/-- `kpi_events` with the buffer written. -/
def FinalizeService.kpiWritten (s : FinalizeService) : Dict KpiKey Double :=
  writeGroups s.kpiEvents (kpiGroups s.kpiBuffer)

/-- What a flush that returned leaves. -/
structure Flushed (acfg : ArchiveConfig) (s t : FinalizeService) : Prop where
  closing : t.toClosingService = s.toClosingService
  kpiBuffer : t.kpiBuffer = []
  kpiEvents : t.kpiEvents = s.kpiWritten
  blocked : t.ingestBlocked acfg = s.ingestBlocked acfg

/-- What the terminal finds when it is delivered again: the runs as the first delivery has left
them, the same rows of `kpi_events` to come, and ingest blocked only if it was blocked then. -/
structure Redelivered (acfg : ArchiveConfig) (s first t : FinalizeService) : Prop where
  closing : t.toClosingService = first.toClosingService
  kpiWritten : t.kpiWritten = s.kpiWritten
  blocked : t.ingestBlocked acfg = s.ingestBlocked acfg

/-- **A finalisation is replayable**: the terminal status delivered again after a delivery `first`
ends as it does when it is delivered once. -/
structure Replayable (r reason : String) (s first once again : FinalizeService) : Prop where
  closing : ClosedAgain r reason s.toClosingService first.toClosingService once.toClosingService
    again.toClosingService
  kpiEvents : again.kpiEvents = once.kpiEvents

section Gate

variable {cfg : HotConfig} {acfg : ArchiveConfig} {s t : FinalizeService}
  {fails : Option FinalizeCall} {r reason : String}

theorem not_dropsRows_none (s : FinalizeService) : ¬ s.DropsRows none :=
  fun ⟨⟨_, h⟩, _⟩ ↦ nomatch h

theorem flushBuffer_returns (h : ¬ s.DropsRows fails) : s.flushBuffer fails =
    ({ s with kpiBuffer := [], kpiEvents := s.kpiWritten }, .returned) := by
  rw [FinalizeService.kpiWritten]
  unfold FinalizeService.flushBuffer
  by_cases hempty : s.kpiBuffer = []
  · rw [if_pos (List.isEmpty_iff.mpr hempty), hempty]
    rfl
  · rw [if_neg (mt List.isEmpty_iff.mp hempty)]
    cases fails with
    | none => rfl
    | some call =>
      cases call with
      | writeKpi runs => exact absurd ⟨⟨runs, rfl⟩, hempty⟩ h
      | _ => rfl

theorem flushBuffer_raises (h : s.DropsRows fails) :
    ∃ t : FinalizeService, s.flushBuffer fails = (t, .raised) ∧
      t.toClosingService = s.toClosingService := by
  obtain ⟨⟨runs, rfl⟩, hne⟩ := h
  rw [FinalizeService.flushBuffer]
  dsimp only
  rw [if_neg (mt List.isEmpty_iff.mp hne)]
  exact ⟨_, rfl, rfl⟩

variable (acfg) in
/-- A flush that returns sets the floors, which the gate does not look at. -/
theorem flushWrites_returns (h : ¬ s.DropsRows fails) :
    ∃ t, s.flushWrites acfg fails = (t, true) ∧ Flushed acfg s t := by
  rw [FinalizeService.flushWrites, flushBuffer_returns h]
  dsimp only
  cases hc : s.consumer with
  | none =>
    refine ⟨_, rfl, rfl, rfl, rfl, ?_⟩
    rw [FinalizeService.ingestBlocked, FinalizeService.ingestBlocked, hc]
  | some c =>
    refine ⟨_, rfl, rfl, rfl, rfl, ?_⟩
    rw [FinalizeService.ingestBlocked, FinalizeService.ingestBlocked, hc]
    rfl

variable (acfg) in
theorem flushWrites_raises (h : s.DropsRows fails) :
    ∃ t, s.flushWrites acfg fails = (t, false) ∧ t.toClosingService = s.toClosingService := by
  obtain ⟨t, ht, hclosing⟩ := flushBuffer_raises h
  rw [FinalizeService.flushWrites, ht]
  dsimp only
  cases s.consumer with
  | none => exact ⟨t, rfl, hclosing⟩
  | some c => exact ⟨_, rfl, hclosing⟩

variable (cfg acfg fails r reason) in
/-- What the runs become behind the gate. -/
def FinalizeService.closed (s : FinalizeService) : ClosingService :=
  if s.ingestBlocked acfg then s.toClosingService
  else (s.toClosingService.closeRun cfg fails r reason).1

variable (cfg acfg r reason) in
/-- A delivery whose flush returns. -/
theorem finalizeRun_flushed (h : ¬ s.DropsRows fails) :
    (s.finalizeRun cfg acfg fails r reason).1.toClosingService =
        s.closed cfg acfg fails r reason ∧
      (s.finalizeRun cfg acfg fails r reason).1.kpiEvents = s.kpiWritten ∧
      (s.finalizeRun cfg acfg fails r reason).1.kpiBuffer = [] ∧
      (s.finalizeRun cfg acfg fails r reason).1.ingestBlocked acfg = s.ingestBlocked acfg := by
  obtain ⟨t, ht, hclosing, hbuffer, hkpi, hblocked⟩ := flushWrites_returns acfg h
  rw [FinalizeService.finalizeRun, ht, FinalizeService.closed, ← hblocked, ← hclosing]
  dsimp only
  split
  · exact ⟨rfl, hkpi, hbuffer, rfl⟩
  · exact ⟨rfl, hkpi, hbuffer, rfl⟩

/-- A delivery whose flush raises. -/
theorem finalizeRun_dropped (h : s.DropsRows fails) :
    (s.finalizeRun cfg acfg fails r reason).2 = false ∧
      (s.finalizeRun cfg acfg fails r reason).1.toClosingService = s.toClosingService := by
  obtain ⟨t, ht, hclosing⟩ := flushWrites_raises acfg h
  rw [FinalizeService.finalizeRun, ht]
  exact ⟨rfl, hclosing⟩

/-- While ingest is blocked nothing happens to a run. -/
theorem finalizeRun_refused (h : s.ingestBlocked acfg = true) :
    (s.finalizeRun cfg acfg fails r reason).2 = false ∧
      (s.finalizeRun cfg acfg fails r reason).1.toClosingService = s.toClosingService := by
  by_cases hdrops : s.DropsRows fails
  · exact finalizeRun_dropped hdrops
  · obtain ⟨t, ht, hclosing, -, -, hblocked⟩ := flushWrites_returns acfg hdrops
    rw [FinalizeService.finalizeRun, ht]
    dsimp only
    rw [if_pos (hblocked.trans h)]
    exact ⟨rfl, hclosing⟩

/-- Unless rows were dropped the terminal may be delivered again at once. -/
theorem redelivered_self (h : ¬ s.DropsRows fails) :
    Redelivered acfg s (s.finalizeRun cfg acfg fails r reason).1
      (s.finalizeRun cfg acfg fails r reason).1 := by
  obtain ⟨-, hkpi, hbuffer, hblocked⟩ := finalizeRun_flushed cfg acfg r reason h
  refine ⟨rfl, ?_, hblocked⟩
  rw [FinalizeService.kpiWritten, hkpi, hbuffer]
  rfl

/-- **When a finalisation is replayable**: whichever of its calls fails, the terminal status
delivered again ends as it does without a failure, unless the failed call is the metadata lookup and
the live books do not have all that is stored. -/
theorem replay_iff (h : Redelivered acfg s (s.finalizeRun cfg acfg fails r reason).1 t) :
    Replayable r reason s (s.finalizeRun cfg acfg fails r reason).1
      (s.finalizeRun cfg acfg none r reason).1 (t.finalizeRun cfg acfg none r reason).1 ↔
    (fails = some .readMeta → s.ingestBlocked acfg = true ∨ StoredKept s.toClosingService r) := by
  obtain ⟨honce, hkpi, -, -⟩ := finalizeRun_flushed cfg acfg r reason (not_dropsRows_none s)
  obtain ⟨hagain, hkpi', -, -⟩ := finalizeRun_flushed cfg acfg r reason (not_dropsRows_none t)
  have hrows : (t.finalizeRun cfg acfg none r reason).1.kpiEvents =
      (s.finalizeRun cfg acfg none r reason).1.kpiEvents := by
    rw [hkpi, hkpi', h.kpiWritten]
  have hclosing : Replayable r reason s (s.finalizeRun cfg acfg fails r reason).1
      (s.finalizeRun cfg acfg none r reason).1 (t.finalizeRun cfg acfg none r reason).1 ↔
      ClosedAgain r reason s.toClosingService
        (s.finalizeRun cfg acfg fails r reason).1.toClosingService
        (s.closed cfg acfg none r reason) (t.closed cfg acfg none r reason) := by
    rw [← honce, ← hagain]
    exact ⟨Replayable.closing, fun hc ↦ ⟨hc, hrows⟩⟩
  rw [hclosing, FinalizeService.closed, FinalizeService.closed, h.blocked, h.closing]
  by_cases hdrops : s.DropsRows fails
  · have hne : fails ≠ some .readMeta := by
      obtain ⟨⟨runs, rfl⟩, -⟩ := hdrops
      exact nofun
    rw [(finalizeRun_dropped hdrops).2]
    refine iff_of_true ?_ fun hread ↦ absurd hread hne
    split
    · exact closedAgain_refl _
    · exact closedAgain_unchanged _
  · obtain ⟨hfirst, -⟩ := finalizeRun_flushed cfg acfg r reason hdrops
    rw [hfirst, FinalizeService.closed]
    cases hblocked : s.ingestBlocked acfg with
    | true => exact iff_of_true (closedAgain_refl _) fun _ ↦ Or.inl rfl
    | false =>
      simp only [Bool.false_eq_true, if_false, false_or]
      exact closeRun_again_iff cfg r reason s.toClosingService fails

end Gate

/-- The topic `kpi`, whose rows are buffered. -/
def kpiTopic : ArchiveConfig := { flushes := true, flushTopics := ["kpi"], logical := id }

/-- A truck has reported, and a kpi record has been handled and not yet flushed. -/
def atTerminal : FinalizeService where
  toDataplaneService := (((captureService fourRuns).machine.exec (Sections.start {})
    (callThrough (truckOf "H1") 0 6)).map Process.state).getD {}
  consumer := some (({} : Consumer).noteOffset ("kpi", 0) 0 true)
  kpiBuffer := [(("run", "orders", 5), .fin 1)]

/-- The record whose row was dropped is redelivered and handled. -/
def FinalizeService.takesUp (s : FinalizeService) : FinalizeService :=
  { s with
    consumer := s.consumer.map fun c ↦ c.noteOffset ("kpi", 0) 0 true
    kpiBuffer := s.kpiBuffer ++ [(("run", "orders", 5), .fin 1)] }

end OpenRide.Dataplane
