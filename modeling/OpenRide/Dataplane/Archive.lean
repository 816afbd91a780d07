import OpenRide.Lib.Threads
import OpenRide.Datagen.Slug
import OpenRide.Dataplane.Recovery

/-!
# Archiving runs

A run's frames, kpi rows and breakdown rows are copied from the working set into the archive, and a
summary of the run is written last.  A summary is *closed* when it says `complete`; an open one
keeps the run pending, so that the next sweep dumps it again.

Who decides that a dump closes the run:

* `dump_run` of the service, for the runs that were queued by `finalize_run`, leaves the summary
  open when some topic is blocked, and else says nothing;
* `reconcile` dumps every pending run and says nothing;
* `dump_run` of the archive, when nothing is said, asks the working set whether the run is
  terminal: `run_meta` has a status that is not one of a running run, or else the export state has.
  A breakdown read that fails leaves the summary open.

Beside the tables the state keeps what was written so far: every summary, with the topics that were
blocked at that moment.
-/

namespace OpenRide.Dataplane

open Lib

/-! ## The working set and the archive -/

/-- A run in the working set.  Of a frame only the index is kept, and of a row its key and when it
was ingested; the other columns are copied and never looked at. -/
structure WorkingRun where
  frames : List ℤ := []
  kpi : Dict String ℕ := Dict.empty
  breakdown : Dict String ℕ := Dict.empty
  /-- The columns of its `run_meta` row, as text. -/
  runMeta : Option (Dict String String) := none
  /-- `run_export_state.status`. -/
  exportStatus : Option String := none

/-- What ingest puts into the working set for a run: its tables, and columns of its `run_meta` row
other than the status. -/
structure RunRows where
  frames : List ℤ := []
  kpi : Dict String ℕ := Dict.empty
  breakdown : Dict String ℕ := Dict.empty
  columns : List (String × String) := []

/-- The run with other rows. -/
def WorkingRun.arrive (w : WorkingRun) (rows : RunRows) : WorkingRun :=
  { w with
    frames := rows.frames
    kpi := rows.kpi
    breakdown := rows.breakdown
    runMeta :=
      if rows.columns.isEmpty then w.runMeta
      else some ((w.runMeta.getD Dict.empty).update (rows.columns.filter fun e ↦ e.1 ≠ "status")) }

/-- A document of `dataplane_runs`, without the time it was written at. -/
structure Summary where
  frameCount : ℕ
  kpiCount : ℕ
  breakdownCount : ℕ
  frameMin : Option ℤ
  frameMax : Option ℤ
  complete : Bool
  reason : String
  breakdownReadFailed : Bool
  kpiMaxIngestedAt : Option ℕ
  breakdownMaxIngestedAt : Option ℕ
  /-- The columns of `run_meta` that are copied. -/
  fields : Dict String String

/-- The collections of a `MongoArchive`, by run. -/
structure MongoArchive where
  frames : Dict String (List ℤ) := Dict.empty
  kpi : Dict String (Dict String ℕ) := Dict.empty
  breakdown : Dict String (Dict String ℕ) := Dict.empty
  runs : Dict String Summary := Dict.empty

namespace MongoArchive

def framesOf (a : MongoArchive) (runId : String) : List ℤ := (a.frames.get? runId).getD []

def kpiOf (a : MongoArchive) (runId : String) : Dict String ℕ := (a.kpi.get? runId).getD Dict.empty

def breakdownOf (a : MongoArchive) (runId : String) : Dict String ℕ :=
  (a.breakdown.get? runId).getD Dict.empty

end MongoArchive

/-- `_NON_TERMINAL_STATUSES`. -/
def nonTerminalStatuses : List String :=
  ["running", "in_progress", "inprogress", "pending", "started"]

/-- `status and str(status).strip().lower() not in _NON_TERMINAL_STATUSES`. -/
def isTerminalStatus : Option String → Bool
  | none => false
  | some status =>
    status ≠ "" ∧ (Datagen.stripBy Datagen.isPySpace status.toList).flatMap Datagen.lowerChar ∉
      nonTerminalStatuses.map String.toList

/-- The status in the `run_meta` row. -/
def WorkingRun.status (w : WorkingRun) : Option String := w.runMeta.bind (·.get? "status")

/-- `_duck_watermark`: how far the working set has got; `none` is a count it could not tell. -/
structure Watermark where
  frameMax : Option ℤ := none
  kpiCount : Option ℕ := none
  breakdownCount : Option ℕ := none
deriving DecidableEq

def WorkingRun.watermark (w : WorkingRun) (answered : Bool) : Watermark :=
  if answered then
    { frameMax := w.frames.max?
      kpiCount := some w.kpi.size
      breakdownCount := some w.breakdown.size }
  else {}

/-- `_duck_max_ingested_at`. -/
def maxIngestedAt (rows : Dict String ℕ) (answered : Bool) : Option ℕ :=
  if answered then rows.values.max? else none

/-- `_already_whole`. -/
def alreadyWhole (expected : Option ℕ) (archived : ℕ) : Bool :=
  expected.any fun e ↦ 0 < archived ∧ e ≤ archived

/-- `_content_unchanged`. -/
def contentUnchanged : Option ℕ → Option ℕ → Bool
  | none, none => true
  | some archived, some duck => duck ≤ archived
  | _, _ => false

/-- Is a content watermark past the archived one? -/
def contentMoved (archived duck : Option ℕ) : Bool :=
  duck.any fun d ↦ archived.all (· < d)

/-- `_duck_moved_past`. -/
def duckMovedPast (w : WorkingRun) (answered : Bool) (summary : Summary) : Bool :=
  (w.watermark answered).frameMax.any (fun m ↦ summary.frameMax.all (· < m)) ∨
    (w.watermark answered).kpiCount.any (summary.kpiCount < ·) ∨
    (w.watermark answered).breakdownCount.any (summary.breakdownCount < ·) ∨
    contentMoved summary.kpiMaxIngestedAt (maxIngestedAt w.kpi answered) ∨
    contentMoved summary.breakdownMaxIngestedAt (maxIngestedAt w.breakdown answered)

/-- `run_is_terminal`, when the working set can be asked. -/
def WorkingRun.isTerminal (w : WorkingRun) (answered : Bool) : Bool :=
  answered ∧ (isTerminalStatus w.status ∨ isTerminalStatus w.exportStatus)

/-- `run_is_pending`. -/
def runIsPending (w : WorkingRun) (answered : Bool) : Option Summary → Bool
  | none => true
  | some summary =>
    duckMovedPast w answered summary ∨ (summary.complete = false ∧ w.isTerminal answered)

/-! ## The parts of a dump -/

/-- What a dump has found out so far. -/
structure DumpVars where
  runId : String
  reason : String
  /-- Does the summary close the run? -/
  terminal : Bool
  watermark : Watermark
  prior : Option Summary
  kpiWatermark : Option ℕ
  breakdownWatermark : Option ℕ
  breakdownReadFailed : Bool := false

/-- A frame the archive holds already is not stored again. -/
def insertFrame (l : List ℤ) (i : ℤ) : List ℤ := if i ∈ l then l else l ++ [i]

/-- The frames a dump sends: those after a dense prefix, or all of them. -/
def selectedFrames (archived frames : List ℤ) : List ℤ :=
  match archived.max? with
  | none => frames
  | some m => if (archived.length : ℤ) = m + 1 then frames.filter (m < ·) else frames

/-- The archive after a batch of frames. -/
def MongoArchive.writeFrames (a : MongoArchive) (runId : String) (frames : List ℤ) : MongoArchive :=
  { a with frames := a.frames.set runId (frames.foldl insertFrame (a.framesOf runId)) }

/-- The archive after a batch of kpi rows. -/
def MongoArchive.writeKpi (a : MongoArchive) (runId : String) (rows : List (String × ℕ)) :
    MongoArchive :=
  { a with kpi := a.kpi.set runId ((a.kpiOf runId).update rows) }

/-- The archive after a batch of breakdown rows. -/
def MongoArchive.writeBreakdown (a : MongoArchive) (runId : String) (rows : List (String × ℕ)) :
    MongoArchive :=
  { a with breakdown := a.breakdown.set runId ((a.breakdownOf runId).update rows) }

/-- Does the archive hold the kpi rows of the working set? -/
def DumpVars.kpiWhole (v : DumpVars) (a : MongoArchive) : Bool :=
  alreadyWhole v.watermark.kpiCount (a.kpiOf v.runId).size ∧
    contentUnchanged (v.prior.bind Summary.kpiMaxIngestedAt) v.kpiWatermark

/-- Does the archive hold the breakdown rows of the working set? -/
def DumpVars.breakdownWhole (v : DumpVars) (a : MongoArchive) : Bool :=
  alreadyWhole v.watermark.breakdownCount (a.breakdownOf v.runId).size ∧
    contentUnchanged (v.prior.bind Summary.breakdownMaxIngestedAt) v.breakdownWatermark

/-- `_SUMMARY_META_FIELDS`. -/
def summaryMetaFields : List String :=
  ["haulier_codes", "slot_map", "n_trucks", "status", "first_seen", "last_seen"]

/-- The columns of `run_meta` that go into a summary. -/
def summaryFields (row : Dict String String) : List (String × String) :=
  row.entries.filter fun e ↦ e.1 ∈ summaryMetaFields

/-- The summary a dump writes: a key it did not compute keeps its value. -/
def DumpVars.summary (v : DumpVars) (a : MongoArchive) (row : Dict String String) : Summary where
  frameCount := (a.framesOf v.runId).length
  kpiCount := (a.kpiOf v.runId).size
  breakdownCount := (a.breakdownOf v.runId).size
  frameMin := (a.framesOf v.runId).min?
  frameMax := (a.framesOf v.runId).max?
  complete := v.terminal
  reason := v.reason
  breakdownReadFailed := v.breakdownReadFailed
  kpiMaxIngestedAt := v.kpiWatermark.or ((a.runs.get? v.runId).bind Summary.kpiMaxIngestedAt)
  breakdownMaxIngestedAt :=
    (if v.breakdownReadFailed then none else v.breakdownWatermark).or
      ((a.runs.get? v.runId).bind Summary.breakdownMaxIngestedAt)
  fields := (((a.runs.get? v.runId).map Summary.fields).getD Dict.empty).update (summaryFields row)

/-! ## The service -/

/-- A consumer, and the logical names of its topics. -/
structure ArchiveConfig extends ConsumerConfig where
  logical : String → String

/-- A summary that was written, and the topics other than `run_status` blocked at that moment. -/
structure SummaryWrite where
  runId : String
  complete : Bool
  blocked : List String
deriving DecidableEq

/-- What ingest and the archive task share. -/
structure ArchiveService where
  consumer : Consumer := {}
  store : Dict String WorkingRun := Dict.empty
  archive : MongoArchive := {}
  dumpQueue : List (String × String) := []
  dumpQueued : Dict String String := Dict.empty
  written : List SummaryWrite := []

namespace ArchiveService

/-- The run in the working set. -/
def runOf (s : ArchiveService) (runId : String) : WorkingRun := (s.store.get? runId).getD {}

/-- The run in the working set, changed. -/
def setRun (s : ArchiveService) (runId : String) (w : WorkingRun) : ArchiveService :=
  { s with store := s.store.set runId w }

end ArchiveService

/-- The topics a consumer has blocked, without `run_status`, which carries no rows. -/
def Consumer.blockedElsewhere (cfg : ArchiveConfig) (c : Consumer) : List String :=
  (c.blockedTopics.map cfg.logical).filter (· ≠ "run_status")

/-- `list_run_ids`. -/
def ArchiveService.listRunIds (s : ArchiveService) : List String :=
  sortedBy id ((s.store.entries.filter fun e ↦ e.2.frames ≠ [] ∨ e.2.kpi.entries ≠ [] ∨
    e.2.breakdown.entries ≠ [] ∨ e.2.runMeta.isSome).map Prod.fst)

/-- What a section finds out from outside. -/
structure ArchiveIo where
  /-- Whether the working set answers a read. -/
  reads : Bool := true
  /-- Whether the working set takes a write. -/
  writes : Bool := true
  /-- Whether the archive can be reached. -/
  mongo : Bool := true
  /-- How many documents of a batch are written before the archive fails. -/
  done : ℕ := 0
  flush : FlushOutcome := .returned
deriving DecidableEq

/-! ## Sections -/

/-- The sections of the procedures, with the variables they were left with. -/
inductive DumpSection where
  | consume (op : ConsumerOp)
  | rowsArrive (runId : String) (rows : RunRows)
  | finalizeFlush
  | finalizeGate
  /-- `capture_run` may raise; what it stores arrives as rows. -/
  | finalizeCapture
  | finalizePersist (runId reason : String)
  | queueDump (runId reason : String)
  | drainNext
  | drainPop (runId : String)
  | dumpRun (runId reason : String)
  | dumpExported (runId : String)
  | dumpErrored (runId : String)
  /-- The end of the `try` of `dump_run`. -/
  | dumpTry (runId : String)
  | reconcileStart
  | sweepCandidates
  | sweepSummaries (candidates : List String)
  | sweepScan (candidates : List String) (summaries : Dict String Summary) (pending : List String)
  /-- The end of the `try` around one run of the sweep, or around the sweep. -/
  | sweepTry
  | archiveDump (runId reason : String) (complete : Option Bool)
  | probeMeta (runId reason : String)
  | probeExport (runId reason : String)
  | dumpFrames (runId reason : String) (terminal : Bool)
  | dumpWatermarks (runId reason : String) (terminal : Bool)
  | dumpKpi (v : DumpVars)
  | dumpBreakdown (v : DumpVars)
  | dumpSummary (v : DumpVars)

/-- What a section of the archive task or of ingest leads to. -/
abbrev DumpEffect := Outcome ArchiveService DumpSection

namespace ArchiveService

variable (cfg : ArchiveConfig) (s : ArchiveService) (io : ArchiveIo)

/-! ### `finalize_run` -/

def finalizeFlush : DumpEffect :=
  let (consumer, ok) := s.consumer.flushWrites cfg.toConsumerConfig io.flush
  if ok then .next { s with consumer := consumer } [] else .raise { s with consumer := consumer }

/-- A run is not finalized while ingest is blocked. -/
def finalizeGate : DumpEffect :=
  if s.consumer.blockedElsewhere cfg = [] then .next s [] else .raise s

/-- The status of the run is persisted. -/
def finalizePersist (runId reason : String) : DumpEffect :=
  if io.writes then
    let row := ((s.runOf runId).runMeta.getD Dict.empty).set "status" reason
    .next (s.setRun runId { s.runOf runId with runMeta := some row }) []
  else .raise s

/-- `queue_dump`. -/
def queueDump (runId reason : String) : DumpEffect :=
  match s.dumpQueued.get? runId with
  | some old =>
    .next { s with
      dumpQueued := s.dumpQueued.set runId (if reason = "" then old else reason) } []
  | none =>
    .next { s with
      dumpQueued := s.dumpQueued.set runId reason
      dumpQueue := s.dumpQueue ++ [(runId, reason)] } []

/-! ### `drain_dumps` and `dump_run` of the service -/

/-- The next run of the queue, if there is one. -/
def drainNext : DumpEffect :=
  match s.dumpQueue with
  | [] => .next s []
  | (runId, reason) :: _ => .next s [.dumpRun runId reason]

def drainPop (runId : String) : DumpEffect :=
  .next { s with
    dumpQueue := if (s.dumpQueue.head?.map Prod.fst) = some runId then s.dumpQueue.tail
      else s.dumpQueue
    dumpQueued := s.dumpQueued.erase runId } []

/-- A summary is left open while ingest is blocked.  Without an archive the queue waits. -/
def dumpRun (runId reason : String) : DumpEffect :=
  if io.mongo then
    .next s [.archiveDump runId reason
        (if s.consumer.blockedElsewhere cfg = [] then none else some false),
      .dumpExported runId, .drainPop runId, .drainNext, .dumpTry runId]
  else .next s []

/-- `_record_export_state`. -/
def recordExportState (runId status : String) : DumpEffect :=
  .next (if io.writes then s.setRun runId { s.runOf runId with exportStatus := some status } else s)
    []

/-! ### `reconcile` -/

/-- The runs that were pending are dumped one after the other. -/
def sweepDumps (pending : List String) : List DumpSection :=
  pending.flatMap fun r ↦ [.archiveDump r "sweep" none, .sweepTry]

/-- The candidates are looked at one after the other; a summary that was not there is looked up
again. -/
def sweepScan (candidates : List String) (summaries : Dict String Summary)
    (pending : List String) : DumpEffect :=
  match candidates with
  | [] => .next s (sweepDumps pending)
  | r :: rest =>
    if io.mongo ∨ (summaries.get? r).isSome then
      let summary := (summaries.get? r).or (s.archive.runs.get? r)
      .next s [.sweepScan rest summaries
        (if runIsPending (s.runOf r) io.reads summary then pending ++ [r] else pending)]
    else .raise s

/-! ### `dump_run` of the archive -/

/-- Who decides whether the summary closes the run. -/
def archiveDump (runId reason : String) (complete : Option Bool) : DumpEffect :=
  match complete with
  | some terminal => .next s [.dumpFrames runId reason terminal]
  | none => .next s [.probeMeta runId reason]

/-- `run_is_terminal`, as far as `run_meta` goes. -/
def probeMeta (runId reason : String) : DumpEffect :=
  if io.reads ∧ isTerminalStatus (s.runOf runId).status then .next s [.dumpFrames runId reason true]
  else .next s [.probeExport runId reason]

/-- `run_is_terminal`, as far as the export state goes. -/
def probeExport (runId reason : String) : DumpEffect :=
  .next s [.dumpFrames runId reason (io.reads ∧ isTerminalStatus (s.runOf runId).exportStatus)]

def dumpFrames (runId reason : String) (terminal : Bool) : DumpEffect :=
  let frames := selectedFrames (s.archive.framesOf runId) (s.runOf runId).frames
  if io.mongo ∧ io.reads then
    .next { s with archive := s.archive.writeFrames runId frames }
      [.dumpWatermarks runId reason terminal]
  else .raise { s with archive := s.archive.writeFrames runId (frames.take io.done) }

def dumpWatermarks (runId reason : String) (terminal : Bool) : DumpEffect :=
  if io.mongo then
    .next s [.dumpKpi
      { runId := runId, reason := reason, terminal := terminal
        watermark := (s.runOf runId).watermark io.reads
        prior := s.archive.runs.get? runId
        kpiWatermark := maxIngestedAt (s.runOf runId).kpi io.reads
        breakdownWatermark := maxIngestedAt (s.runOf runId).breakdown io.reads }]
  else .raise s

def dumpKpi (v : DumpVars) : DumpEffect :=
  let rows := (s.runOf v.runId).kpi.entries
  if v.kpiWhole s.archive then
    if io.mongo then .next s [.dumpBreakdown v] else .raise s
  else if io.reads = false then .raise s
  else if io.mongo then
    .next { s with archive := s.archive.writeKpi v.runId rows } [.dumpBreakdown v]
  else .raise { s with archive := s.archive.writeKpi v.runId (rows.take io.done) }

/-- A read that fails leaves the summary open. -/
def dumpBreakdown (v : DumpVars) : DumpEffect :=
  let rows := (s.runOf v.runId).breakdown.entries
  if v.breakdownWhole s.archive then
    if io.mongo then .next s [.dumpSummary v] else .raise s
  else if io.reads = false then
    if io.mongo then
      .next s [.dumpSummary { v with breakdownReadFailed := true, terminal := false }]
    else .raise s
  else if io.mongo then
    .next { s with archive := s.archive.writeBreakdown v.runId rows } [.dumpSummary v]
  else .raise { s with archive := s.archive.writeBreakdown v.runId (rows.take io.done) }

/-- The summary is written, and a failed read reported. -/
def dumpSummary (v : DumpVars) : DumpEffect :=
  if io.mongo then
    let row := if io.reads then (s.runOf v.runId).runMeta.getD Dict.empty else Dict.empty
    let t := { s with
      archive := { s.archive with runs := s.archive.runs.set v.runId (v.summary s.archive row) }
      written := s.written ++ [⟨v.runId, v.terminal, s.consumer.blockedElsewhere cfg⟩] }
    if v.breakdownReadFailed then .raise t else .next t []
  else .raise s

end ArchiveService

/-! ## The machine -/

/-- What a section leads to. -/
def DumpSection.run (cfg : ArchiveConfig) (s : ArchiveService) (io : ArchiveIo) :
    DumpSection → DumpEffect
  | .consume op => .next { s with consumer := s.consumer.run cfg.toConsumerConfig op } []
  | .rowsArrive r rows => .next (s.setRun r ((s.runOf r).arrive rows)) []
  | .finalizeFlush => s.finalizeFlush cfg io
  | .finalizeGate => s.finalizeGate cfg
  | .finalizeCapture => if io.writes then .next s [] else .raise s
  | .finalizePersist r reason => s.finalizePersist io r reason
  | .queueDump r reason => s.queueDump r reason
  | .drainNext => s.drainNext
  | .drainPop r => s.drainPop r
  | .dumpRun r reason => s.dumpRun cfg io r reason
  | .dumpExported r => s.recordExportState io r "exported"
  | .dumpErrored r => s.recordExportState io r "error"
  | .dumpTry _ => .next s []
  | .reconcileStart => .next s (if io.mongo then [.sweepCandidates, .sweepTry] else [])
  | .sweepCandidates => if io.reads then .next s [.sweepSummaries s.listRunIds] else .raise s
  | .sweepSummaries candidates =>
    if io.mongo then
      .next s [.sweepScan candidates (s.archive.runs.filter fun r _ ↦ r ∈ candidates) []]
    else .raise s
  | .sweepScan candidates summaries pending => s.sweepScan io candidates summaries pending
  | .sweepTry => .next s []
  | .archiveDump r reason complete => s.archiveDump r reason complete
  | .probeMeta r reason => s.probeMeta io r reason
  | .probeExport r reason => s.probeExport io r reason
  | .dumpFrames r reason terminal => s.dumpFrames io r reason terminal
  | .dumpWatermarks r reason terminal => s.dumpWatermarks io r reason terminal
  | .dumpKpi v => s.dumpKpi io v
  | .dumpBreakdown v => s.dumpBreakdown io v
  | .dumpSummary v => s.dumpSummary cfg io v

/-- The procedures a thread may call. -/
inductive DumpCall where
  /-- What ingest does to the consumer's book: a record is handled, a flush, a commit. -/
  | consume (op : ConsumerOp)
  /-- Ingest changes what the working set holds of a run. -/
  | rowsArrive (runId : String) (rows : RunRows)
  /-- `finalize_run`. -/
  | finalizeRun (runId reason : String)
  /-- `drain_dumps`. -/
  | drainDumps
  /-- `reconcile_once`. -/
  | reconcileOnce

/-- The sections of a procedure. -/
def DumpCall.program : DumpCall → List DumpSection
  | .consume op => [.consume op]
  | .rowsArrive r rows => [.rowsArrive r rows]
  | .finalizeRun r reason =>
    [.finalizeFlush, .finalizeGate, .finalizeCapture, .finalizePersist r reason,
      .queueDump r reason]
  | .drainDumps => [.drainNext]
  | .reconcileOnce => [.reconcileStart]

/-- A dump of the service that fails is recorded, one of the sweep is passed over. -/
def DumpSection.handler : DumpSection → Option (List DumpSection)
  | .dumpTry r => some [.dumpErrored r]
  | .sweepTry => some []
  | _ => none

/-- What a new process finds. -/
def ArchiveService.restarted (s : ArchiveService) : ArchiveService where
  store := s.store
  archive := s.archive
  written := s.written

/-- The procedures of ingest and of the archive task. -/
def archiveService (cfg : ArchiveConfig) :
    Sections ArchiveService DumpCall DumpSection ArchiveIo where
  program := DumpCall.program
  run s io c := some (c.run cfg s io)
  handler := DumpSection.handler
  restart := ArchiveService.restarted

end OpenRide.Dataplane
