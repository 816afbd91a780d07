import Mathlib.Data.String.Basic
import OpenRide.Lib.Threads
import OpenRide.Dataplane.HotStore

/-!
# Capturing frames

The part of the service that turns position reports into stored frames: a report updates the hot
tier, a sweep captures every resident run that moved, a terminal captures its run once more,
persists its code books and evicts it, and viewers of a live run take snapshots of their own.

The threads of the service share the run lock, the hot tier and the store.  A procedure is cut into
sections where it takes or releases one of them, so the sections of several threads can come in any
order; only `capture_run` holds the run lock across a write, and the frame it is writing is
`capturing`.  A restart keeps what is stored and nothing else.

Of the hot tier's frame counter three parties take: a capture, which hands the index back when the
write fails, a viewer, who does not, and the creation of a slab, which looks for the next index in
the store, in the persisted identity and in the parked one.
-/

namespace OpenRide.Dataplane

open Lib

/-! ## The state -/

/-- The columns of a `run_meta` row that are read back. -/
structure RunMeta where
  haulierCodes : Dict String ℕ := Dict.empty
  slotMap : Dict String ℕ := Dict.empty
  maxFrameIdx : Option ℤ := none

/-- A frame that `capture_run` is writing, and the number of updates it shows. -/
structure Capturing where
  runId : String
  seq : ℕ
  frame : Frame

/-- What the service remembers, and what is stored. -/
structure DataplaneService where
  hot : HotStore := {}
  runUpdates : Dict String ℕ := Dict.empty
  runCaptured : Dict String ℕ := Dict.empty
  runMaxFrameIdx : Dict String ℤ := Dict.empty
  runMetaSig : Dict String (ℕ × ℕ) := Dict.empty
  runRestored : List String := []
  runFinalized : List String := []
  /-- The frame of the `capture_run` that holds `_run_lock`. -/
  capturing : Option Capturing := none
  /-- The table `frames`. -/
  frames : List (String × Frame) := []
  /-- The table `run_meta`. -/
  runMeta : Dict String RunMeta := Dict.empty

/-- The stored frames of a run. -/
def DataplaneService.framesOf (s : DataplaneService) (runId : String) : List Frame :=
  (s.frames.filter fun e ↦ e.1 = runId).map Prod.snd

/-- The indices of the stored frames of a run. -/
def DataplaneService.frameIndices (s : DataplaneService) (runId : String) : List ℤ :=
  (s.framesOf runId).map Frame.frameIdx

/-- `frame_range`. -/
def DataplaneService.frameRange (s : DataplaneService) (runId : String) : Option (ℤ × ℤ) :=
  match (s.frameIndices runId).min?, (s.frameIndices runId).max? with
  | some lo, some hi => some (lo, hi)
  | _, _ => none

/-- `_seed_frame_idx`. -/
def DataplaneService.seedFrameIdx (s : DataplaneService) (answered : Bool) (runId : String) :
    Option ℤ :=
  if answered then (s.frameRange runId).map fun rng ↦ rng.2 + 1 else none

/-- What a section finds out from outside. -/
structure Io where
  now : ℤ := 0
  /-- Whether the store answers a read. -/
  reads : Bool := true
  /-- Whether the store takes a write. -/
  writes : Bool := true
  /-- The order in which the hot tier lists its runs. -/
  residents : List String := []
deriving DecidableEq

/-- The surroundings of an operation of the hot tier on a run. -/
def DataplaneService.hotEnv (s : DataplaneService) (io : Io) (runId : String) : HotEnv where
  now := io.now
  seededFrameIdx := s.seedFrameIdx io.reads runId

/-! ## Sections -/

/-- The sections of the procedures, with the variables they were left with. -/
inductive Section where
  | finalizedCheck (runId : String) (report : Report)
  | restoreCheck (runId : String)
  | restoreLookup (runId : String)
  | restoreLatch (runId : String) (found : Option RunMeta)
  | restoreMaxIdx (runId : String) (found : RunMeta)
  | restoreSeed (runId : String) (seed : Seed)
  | updatePosition (runId : String) (report : Report)
  | noteUpdate (runId : String)
  | liveSnapshot (runId : String)
  | captureSnapshot (runId : String)
  | captureWrite
  | persistCodes (runId : String) (force : Bool)
  | persistSlots (runId : String) (force : Bool) (codes : Dict String ℕ)
  | persistMerge (runId : String) (force : Bool) (codes slots : Dict String ℕ)
  | persistCheck (runId : String) (force : Bool) (codes slots : Dict String ℕ)
  | persistWrite (runId : String) (codes slots : Dict String ℕ) (maxIdx : Option ℤ)
  | persistSig (runId : String) (sig : ℕ × ℕ)
  | markFinalized (runId : String)
  | evictHot (runId : String)
  | evictForget (runId : String)
  | sweepKnown
  | sweepResident (known : List String)
  | sweepGone (known runs : List String)
  /-- The end of the `try` around one run of the sweep. -/
  | endTry

/-- What a section of the service leads to. -/
abbrev Effect := Outcome DataplaneService Section

/-- A section under `_run_lock`: it waits while a capture holds it. -/
def DataplaneService.locked (s : DataplaneService) (effect : Effect) : Option Effect :=
  if s.capturing.isSome then none else some effect

/-! ## `restore_run_codes` -/

/-- A run is looked up once. -/
def DataplaneService.restoreCheck (s : DataplaneService) (runId : String) : Effect :=
  if s.runMetaSig.contains runId ∨ runId ∈ s.runRestored then .next s []
  else .next s [.restoreLookup runId]

def DataplaneService.restoreLookup (s : DataplaneService) (io : Io) (runId : String) : Effect :=
  if io.reads then .next s [.restoreLatch runId (s.runMeta.get? runId)] else .next s []

def DataplaneService.restoreLatch (s : DataplaneService) (runId : String)
    (found : Option RunMeta) : Effect :=
  .next { s with runRestored := s.runRestored ++ [runId] }
    (found.elim [] fun row ↦ [.restoreMaxIdx runId row])

/-- The identity a `run_meta` row holds. -/
def RunMeta.seed (row : RunMeta) : Seed where
  startFrameIdx := row.maxFrameIdx.map (· + 1)
  slotMap := given (some row.slotMap)
  haulierCodes := given (some row.haulierCodes)

def DataplaneService.restoreMaxIdx (s : DataplaneService) (runId : String) (row : RunMeta) :
    Effect :=
  let maxFrameIdx := row.maxFrameIdx.elim s.runMaxFrameIdx (s.runMaxFrameIdx.set runId ·)
  .next { s with runMaxFrameIdx := maxFrameIdx }
    (if row.haulierCodes.entries.isEmpty ∧ row.slotMap.entries.isEmpty ∧ row.maxFrameIdx.isNone
      then [] else [.restoreSeed runId row.seed])

def DataplaneService.restoreSeed (cfg : HotConfig) (s : DataplaneService) (io : Io)
    (runId : String) (seed : Seed) : Effect :=
  .next { s with hot := s.hot.seedRunIdentity cfg (s.hotEnv io runId) runId seed } []

/-! ## `on_trip_geo`, for a truck position that is not malformed -/

def DataplaneService.finalizedCheck (s : DataplaneService) (runId : String) (report : Report) :
    Effect :=
  if runId ∈ s.runFinalized then .next s []
  else .next s [.restoreCheck runId, .updatePosition runId report, .noteUpdate runId]

def DataplaneService.updatePosition (cfg : HotConfig) (s : DataplaneService) (io : Io)
    (runId : String) (report : Report) : Effect :=
  let (hot, slot) := s.hot.updatePosition cfg (s.hotEnv io runId) runId report
  if slot.isSome then .next { s with hot := hot } [] else .raise { s with hot := hot }

def DataplaneService.noteUpdate (s : DataplaneService) (runId : String) : Effect :=
  .next { s with runUpdates := s.runUpdates.set runId ((s.runUpdates.get? runId).getD 0 + 1) } []

/-! ## `live_frames` -/

/-- One poll of a viewer. -/
def DataplaneService.liveSnapshot (s : DataplaneService) (runId : String) : Effect :=
  .next { s with hot := (s.hot.snapshot runId).1 } []

/-! ## `capture_run` -/

/-- The updates of a run. -/
def DataplaneService.seqOf (s : DataplaneService) (runId : String) : ℕ :=
  (s.runUpdates.get? runId).getD 0

/-- Up to the write: a run that has not moved, is not resident or has no written slot gives no
frame. -/
def DataplaneService.captureSnapshot (s : DataplaneService) (runId : String) : Effect :=
  if s.runCaptured.get? runId = some (s.seqOf runId) then .next s []
  else
    match s.hot.snapshot runId with
    | (_, none) => .next s []
    | (hot, some frame) =>
      if frame.rows.isEmpty then
        .next { s with hot := hot, runCaptured := s.runCaptured.set runId (s.seqOf runId) } []
      else
        .next { s with hot := hot, capturing := some ⟨runId, s.seqOf runId, frame⟩ }
          [.captureWrite]

/-- The write and what follows it. -/
def DataplaneService.captureWrite (s : DataplaneService) (io : Io) (c : Capturing) : Effect :=
  if io.writes then
    .next { s with
      frames := s.frames ++ [(c.runId, c.frame)]
      runCaptured := s.runCaptured.set c.runId c.seq
      runMaxFrameIdx :=
        if (s.runMaxFrameIdx.get? c.runId).getD (-1) ≤ c.frame.frameIdx then
          s.runMaxFrameIdx.set c.runId c.frame.frameIdx
        else s.runMaxFrameIdx
      capturing := none } []
  else
    .raise { s with
      hot := (s.hot.rollbackFrameIdx c.runId c.frame.frameIdx).1
      capturing := none }

/-! ## `persist_run_meta` -/

/-- The code book is read, if the run is resident; `force` is a write with a terminal status. -/
def DataplaneService.persistCodes (s : DataplaneService) (runId : String) (force : Bool) : Effect :=
  match s.hot.runs.get? runId with
  | some slab => .next s [.persistSlots runId force slab.haulierToCode]
  | none => .next s (if force then [.persistMerge runId force Dict.empty Dict.empty] else [])

def DataplaneService.persistSlots (s : DataplaneService) (runId : String) (force : Bool)
    (codes : Dict String ℕ) : Effect :=
  match s.hot.runs.get? runId with
  | some slab => .next s [.persistMerge runId force codes slab.agentToSlot]
  | none => .next s (if force then [.persistMerge runId force Dict.empty Dict.empty] else [])

/-- `_merge_code_map`: the persisted value wins. -/
def mergeCodeMap (persisted live : Dict String ℕ) : Dict String ℕ := live.update persisted.entries

def DataplaneService.persistMerge (s : DataplaneService) (io : Io) (runId : String) (force : Bool)
    (codes slots : Dict String ℕ) : Effect :=
  let existing := if io.reads then (s.runMeta.get? runId).getD {} else {}
  .next s [.persistCheck runId force (mergeCodeMap existing.haulierCodes codes)
    (mergeCodeMap existing.slotMap slots)]

/-- Nothing is written when the books have not grown. -/
def DataplaneService.persistCheck (s : DataplaneService) (runId : String) (force : Bool)
    (codes slots : Dict String ℕ) : Effect :=
  if force = false ∧ s.runMetaSig.get? runId = some (codes.size, slots.size) then .next s []
  else .next s [.persistWrite runId codes slots (s.runMaxFrameIdx.get? runId)]

/-- A code book as it is written: sorted by name. -/
def sortedMap (m : Dict String ℕ) : Dict String ℕ := Dict.ofList (sortedBy Prod.fst m.entries)

theorem get?_sortedMap (m : Dict String ℕ) (k : String) : (sortedMap m).get? k = m.get? k := by
  have hperm := sortedBy_perm Prod.fst m.entries
  refine Option.ext fun v ↦ ?_
  rw [sortedMap, Dict.get?_ofList ((hperm.map Prod.fst).nodup_iff.mpr m.nodup), hperm.mem_iff,
    Dict.mem_entries_iff]

/-- The order in which a book was filled does not matter. -/
theorem sortedMap_congr {m n : Dict String ℕ} (h : ∀ k, m.get? k = n.get? k) :
    sortedMap m = sortedMap n := by
  rw [sortedMap, sortedMap, sortedBy_eq_of_perm (Dict.perm_of_get? h) fun a ha b hb hab ↦ ?_]
  have hsame := Dict.mem_entries_iff.mp (show (a.1, a.2) ∈ m.entries from ha)
  rw [hab, Dict.mem_entries_iff.mp (show (b.1, b.2) ∈ m.entries from hb)] at hsame
  exact Prod.ext hab (Option.some_inj.mp hsame).symm

/-- `upsert_run_meta`: an empty map and an unknown index leave what is there. -/
def RunMeta.upsert (row : RunMeta) (codes slots : Dict String ℕ) (maxIdx : Option ℤ) : RunMeta where
  haulierCodes := if codes.entries.isEmpty then row.haulierCodes else sortedMap codes
  slotMap := if slots.entries.isEmpty then row.slotMap else sortedMap slots
  maxFrameIdx := maxIdx.or row.maxFrameIdx

def DataplaneService.persistWrite (s : DataplaneService) (io : Io) (runId : String)
    (codes slots : Dict String ℕ) (maxIdx : Option ℤ) : Effect :=
  if io.writes then
    let row := ((s.runMeta.get? runId).getD {}).upsert codes slots maxIdx
    .next { s with runMeta := s.runMeta.set runId row }
      [.persistSig runId (codes.size, slots.size)]
  else .raise s

def DataplaneService.persistSig (s : DataplaneService) (runId : String) (sig : ℕ × ℕ) : Effect :=
  .next { s with runMetaSig := s.runMetaSig.set runId sig } []

/-! ## `evict_run` and `capture_frames` -/

def DataplaneService.evictHot (cfg : HotConfig) (s : DataplaneService) (runId : String) : Effect :=
  let (hot, evicted) := s.hot.evict cfg runId
  .next { s with hot := hot } (if evicted then [.evictForget runId] else [])

/-- Some runs are no longer followed. -/
def DataplaneService.forget (s : DataplaneService) (runs : List String) : DataplaneService :=
  { s with
    runUpdates := runs.foldl (fun d r ↦ d.erase r) s.runUpdates
    runCaptured := runs.foldl (fun d r ↦ d.erase r) s.runCaptured }

/-- The resident runs are listed, in some order. -/
def DataplaneService.sweepResident (s : DataplaneService) (io : Io) (known : List String) :
    Option Effect :=
  if io.residents.Perm s.hot.runs.keys then some (.next s [.sweepGone known io.residents]) else none

/-- One run of the sweep. -/
def sweepOne (runId : String) : List Section :=
  [.captureSnapshot runId, .persistCodes runId false, .endTry]

/-- Known runs that left the hot tier are forgotten, and the resident ones captured. -/
def DataplaneService.sweepGone (s : DataplaneService) (known runs : List String) : Effect :=
  .next (s.forget (known.filter fun r ↦ r ∉ runs ∧ r ∉ s.runFinalized)) (runs.flatMap sweepOne)

/-! ## The machine -/

/-- What a section leads to. -/
def Section.run (cfg : HotConfig) (s : DataplaneService) (io : Io) : Section → Option Effect
  | .finalizedCheck r report => s.locked (s.finalizedCheck r report)
  | .restoreCheck r => s.locked (s.restoreCheck r)
  | .restoreLookup r => some (s.restoreLookup io r)
  | .restoreLatch r found => s.locked (s.restoreLatch r found)
  | .restoreMaxIdx r row => s.locked (s.restoreMaxIdx r row)
  | .restoreSeed r seed => some (s.restoreSeed cfg io r seed)
  | .updatePosition r report => some (s.updatePosition cfg io r report)
  | .noteUpdate r => s.locked (s.noteUpdate r)
  | .liveSnapshot r => some (s.liveSnapshot r)
  | .captureSnapshot r => s.locked (s.captureSnapshot r)
  | .captureWrite => s.capturing.map (s.captureWrite io)
  | .persistCodes r force => some (s.persistCodes r force)
  | .persistSlots r force codes => some (s.persistSlots r force codes)
  | .persistMerge r force codes slots => some (s.persistMerge io r force codes slots)
  | .persistCheck r force codes slots => s.locked (s.persistCheck r force codes slots)
  | .persistWrite r codes slots maxIdx => some (s.persistWrite io r codes slots maxIdx)
  | .persistSig r sig => s.locked (s.persistSig r sig)
  | .markFinalized r => s.locked (.next { s with runFinalized := s.runFinalized ++ [r] } [])
  | .evictHot r => some (s.evictHot cfg r)
  | .evictForget r => s.locked (.next (s.forget [r]) [])
  | .sweepKnown => s.locked (.next s [.sweepResident s.runUpdates.keys])
  | .sweepResident known => s.sweepResident io known
  | .sweepGone known runs => s.locked (s.sweepGone known runs)
  | .endTry => some (.next s [])

/-- The procedures a thread may call. -/
inductive Call where
  /-- `on_trip_geo` on a truck position. -/
  | truckLoc (runId : String) (report : Report)
  /-- `capture_frames`. -/
  | captureFrames
  /-- `finalize_run`, once the flush went through and no topic is blocked. -/
  | finalizeRun (runId : String)
  /-- `evict_run`. -/
  | evictRun (runId : String)
  /-- One poll of `live_frames`. -/
  | liveFrames (runId : String)

/-- The sections of a procedure. -/
def Call.program : Call → List Section
  | .truckLoc r report => [.finalizedCheck r report]
  | .captureFrames => [.sweepKnown]
  | .finalizeRun r => [.captureSnapshot r, .persistCodes r true, .markFinalized r, .evictHot r]
  | .evictRun r => [.evictHot r]
  | .liveFrames r => [.liveSnapshot r]

/-- An exception in the sweep ends the turn of its run. -/
def Section.handler : Section → Option (List Section)
  | .endTry => some []
  | _ => none

/-- What a new process finds. -/
def DataplaneService.restarted (s : DataplaneService) : DataplaneService where
  frames := s.frames
  runMeta := s.runMeta

/-- The procedures of the service. -/
def captureService (cfg : HotConfig) : Sections DataplaneService Call Section Io where
  program := Call.program
  run := Section.run cfg
  handler := Section.handler
  restart := DataplaneService.restarted

end OpenRide.Dataplane
