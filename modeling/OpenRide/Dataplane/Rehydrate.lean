import OpenRide.Dataplane.FrameReplay
import OpenRide.Lib.Dict
import OpenRide.Lib.Transaction

/-!
# Pulling a run back from the archive

`rehydrate_run` fills the working set of a run from the durable archive, in three phases: guards,
reading the whole source into memory, and one transaction of local work.  Everything that can fail
outside the database fails in the second phase, before a transaction is open.

Two reads are not allowed to fail the call.  The summary is a probe: what it raises is swallowed,
and then the run comes back without its code books, status and first sight.  And a source that
answers the breakdown read with `None` leaves breakdown rows that are there alone.

`rehydrateRun_atomic` is what holds for every content of the database and of the source and every
failure; `summary_lost` is a run that comes back without its code book.
-/

namespace OpenRide.Dataplane.Rehydrate

open Lib Wire

/-! ## The tables -/

/-- A value of a column. -/
inductive Cell where
  | null
  | int (i : ℤ)
  | float (x : F64)
  | text (s : String)
  | flag (b : Bool)
  | timestamp (micros : ℤ)
deriving DecidableEq

structure KpiRow where
  metric : String
  value : F64
  simClock : ℤ
  ingestedAt : ℤ
deriving DecidableEq

/-- A row of `kpi_breakdown_rows`: its key and its other columns. -/
structure BreakdownRow where
  scope : String
  simClock : ℤ
  entityId : String
  columns : List (String × Cell)
deriving DecidableEq

structure ExportState where
  status : String
  rowCount : Option ℤ
  frameCount : Option ℤ
  exportedAt : ℤ
  error : Option String
deriving DecidableEq

/-- The tables; all but `frames` have a primary key. -/
structure Tables where
  frames : List StoredRow
  kpiEvents : Dict (String × String × ℤ) KpiRow
  breakdownRows : Dict (String × String × ℤ × String) BreakdownRow
  runMeta : Dict String (Dict String Cell)
  exportState : Dict String ExportState

/-- What `rehydrate_run` raises. -/
inductive RehydrateError where
  /-- `RunNotInStore`. -/
  | runNotInStore
  /-- `DuckStoreError` and the errors of the database. -/
  | store (text : String)
  /-- Whatever a reader of the source raises. -/
  | source (text : String)
  /-- What a conversion of Python raises. -/
  | python (text : String)
deriving DecidableEq

/-- `_RUN_META_COLUMNS`. -/
def runMetaColumns : List String :=
  ["first_seen", "last_seen", "status", "n_trucks", "max_frame_idx", "haulier_codes", "slot_map",
   "source", "run_name", "scenario_slug", "scenario_name"]

/-- The statements of a rehydrate.  The counts of an export state are converted when it is written,
which may raise. -/
inductive Stmt where
  | deleteFrames (runId : String)
  | deleteKpi (runId : String)
  | deleteBreakdown (runId : String)
  | insertFrames (rows : List StoredRow)
  | insertKpi (runId : String) (rows : List KpiRow)
  | insertBreakdown (runId : String) (rows : List BreakdownRow)
  | upsertRunMeta (runId : String) (fields : List (String × Cell))
  | setExportState (runId : String) (state : Except RehydrateError ExportState)

def kpiKey (runId : String) (r : KpiRow) : (String × String × ℤ) × KpiRow :=
  ((runId, r.metric, r.simClock), r)

def breakdownKey (runId : String) (r : BreakdownRow) :
    (String × String × ℤ × String) × BreakdownRow :=
  ((runId, r.scope, r.simClock, r.entityId), r)

/-- What a statement does.  An insert with a conflict updates all other columns, and of several rows
with one key the last wins. -/
def Stmt.effect : Stmt → Tables → Except RehydrateError Tables
  | .deleteFrames runId, t => .ok { t with frames := t.frames.filter (·.runId ≠ runId) }
  | .deleteKpi runId, t =>
    .ok { t with kpiEvents := t.kpiEvents.filter fun k _ ↦ k.1 ≠ runId }
  | .deleteBreakdown runId, t =>
    .ok { t with breakdownRows := t.breakdownRows.filter fun k _ ↦ k.1 ≠ runId }
  | .insertFrames rows, t => .ok { t with frames := t.frames ++ rows }
  | .insertKpi runId rows, t =>
    .ok { t with kpiEvents := t.kpiEvents.update (rows.map (kpiKey runId)) }
  | .insertBreakdown runId rows, t =>
    .ok { t with breakdownRows := t.breakdownRows.update (rows.map (breakdownKey runId)) }
  | .upsertRunMeta runId fields, t =>
    if fields.all fun f ↦ runMetaColumns.contains f.1 then
      let row := ((t.runMeta.get? runId).getD Dict.empty).update fields
      .ok { t with runMeta := t.runMeta.set runId row }
    else .error (.store "unknown run_meta column(s)")
  | .setExportState runId state, t =>
    state.map fun s ↦ { t with exportState := t.exportState.set runId s }

/-- The queries of the guards and of the breakdown read. -/
inductive Query where
  | frameCount
  | kpiCount
  | breakdownCount
  | breakdownKept
deriving DecidableEq

/-! ## The source -/

/-- What an iterator yields, and whether it raises in the end. -/
structure Reading (α : Type) where
  items : List α
  raises : Option String := none

/-- What a columnar reader answers: `None`, a mapping that cannot be used, or rows. -/
inductive Answer (α : Type) where
  | nothing
  | unusable
  | rows (l : List α)

structure Position where
  slot : UInt32
  lng : F64
  lat : F64
  state : UInt8
  haulier : UInt8
deriving DecidableEq

/-- A frame of the archive, row by row. -/
structure ArchivedFrame where
  frameIdx : UInt32
  simTimeMs : F64
  rows : List Position
deriving DecidableEq

/-- A breakdown row as it is archived; without all three of its key it cannot be addressed. -/
structure ArchivedBreakdown where
  scope : Option String
  simClock : Option ℤ
  entityId : Option String
  columns : List (String × Cell)

/-- The values of a summary. -/
inductive PyValue where
  | none
  | bool (b : Bool)
  | int (i : ℤ)
  | float (x : F64)
  | str (s : String)
  | datetime (utcMicros : ℤ)
  | container (json : String)
deriving DecidableEq

/-- What Python makes of such values.  `intOf` is `int(value)`: no integer where it raises
`TypeError` or `ValueError`, an error where it raises anything else. -/
structure Py where
  intOf : PyValue → Except String (Option ℤ)
  strOf : PyValue → String
  jsonOf : PyValue → Except String String
  truth : PyValue → Bool

/-- A `FrameSource`, with the optional readers it has. -/
structure Source where
  hasRun : Except String Bool
  frameDocs : Option (Reading ArchivedFrame)
  frames : Reading ArchivedFrame
  kpiColumns : Option (Except String (Answer KpiRow))
  kpiEvents : Reading (String × F64 × ℤ)
  breakdownColumns : Option (Except String (Answer BreakdownRow))
  breakdownRows : Option (Reading ArchivedBreakdown)
  summary : Option (Except String (Option (Dict String PyValue)))

/-! ## Reading the source -/

/-- `REHYDRATE_MAX_POSITION_ROWS`. -/
def maxPositionRows : ℕ := 20000000

/-- The frames that are not empty, unless there are too many rows. -/
def gatherFrames : ℕ → List ArchivedFrame → Except RehydrateError (List ArchivedFrame)
  | _, [] => .ok []
  | total, f :: fs =>
    if f.rows.length = 0 then gatherFrames total fs
    else if maxPositionRows < total + f.rows.length then
      .error (.store "refusing to materialise position rows")
    else do
      let rest ← gatherFrames (total + f.rows.length) fs
      return f :: rest

/-- An iterator that ends well. -/
def Reading.ended {α : Type} (r : Reading α) : Except RehydrateError Unit :=
  match r.raises with
  | some e => .error (.source e)
  | none => .ok ()

/-- `_read_frame_columns`. -/
def readFrameColumns (src : Source) : Except RehydrateError (List ArchivedFrame) := do
  let reading := src.frameDocs.getD src.frames
  let frames ← gatherFrames 0 reading.items
  reading.ended
  return frames

/-- `read_run_kpi_events`, with the time of the read. -/
def readKpiEvents (src : Source) (now : ℤ) : Except RehydrateError (List KpiRow) := do
  src.kpiEvents.ended
  return src.kpiEvents.items.map fun e ↦ ⟨e.1, e.2.1, e.2.2, now⟩

/-- `_read_kpi_columns`. -/
def readKpiColumns (src : Source) (now : ℤ) : Except RehydrateError (List KpiRow) :=
  match src.kpiColumns with
  | some (.error e) => .error (.source e)
  | some (.ok (.rows l)) => .ok l
  | some (.ok _) => readKpiEvents src now
  | none => readKpiEvents src now

/-- `_records_from_breakdown_rows`: a row that cannot be addressed is skipped. -/
def ArchivedBreakdown.record (r : ArchivedBreakdown) : Option BreakdownRow := do
  let scope ← r.scope
  let simClock ← r.simClock
  let entityId ← r.entityId
  return ⟨scope, simClock, entityId, r.columns⟩

/-- The other breakdown reader, if there is one. -/
def readBreakdownRows (src : Source) : Except RehydrateError (Option (List BreakdownRow)) :=
  match src.breakdownRows with
  | none => .ok none
  | some reading => do
    reading.ended
    return some (reading.items.filterMap ArchivedBreakdown.record)

/-- The rows of a run, of each table that is counted. -/
def Tables.held (t : Tables) (runId : String) : Query → ℕ
  | .frameCount => (t.frames.filter (·.runId = runId)).length
  | .kpiCount => (t.kpiEvents.filter fun k _ ↦ k.1 = runId).size
  | .breakdownCount => (t.breakdownRows.filter fun k _ ↦ k.1 = runId).size
  | .breakdownKept => (t.breakdownRows.filter fun k _ ↦ k.1 = runId).size

/-- A count, which the database may fail to answer. -/
def count (refused : Query → Option String) (t : Tables) (runId : String) (q : Query) :
    Except RehydrateError ℕ :=
  match refused q with
  | some e => .error (.store e)
  | none => .ok (t.held runId q)

/-- `_read_breakdown_columns`: `none` leaves the table alone. -/
def readBreakdownColumns (refused : Query → Option String) (src : Source) (t : Tables)
    (runId : String) : Except RehydrateError (Option (List BreakdownRow)) :=
  match src.breakdownColumns with
  | some (.error e) => .error (.source e)
  | some (.ok .nothing) => do
    let kept ← count refused t runId .breakdownKept
    if kept = 0 then .error (.store "could not read breakdown rows and the run holds none to keep")
    else return none
  | some (.ok (.rows l)) => .ok (some l)
  | some (.ok .unusable) => readBreakdownRows src
  | none => readBreakdownRows src

/-- `_run_summary`: a probe that fails is an empty summary. -/
def runSummary (src : Source) : Dict String PyValue :=
  match src.summary with
  | some (.ok (some summary)) => summary
  | _ => Dict.empty

/-- What `_summary_meta` makes of one key. -/
def summaryField (py : Py) (key : String) : PyValue → Except RehydrateError (Option Cell)
  | .none => .ok none
  | value =>
    if key = "n_trucks" then
      match py.intOf value with
      | .error e => .error (.python e)
      | .ok n => .ok (n.map Cell.int)
    else if key = "first_seen" then
      match value with
      | .datetime utc => .ok (some (.timestamp utc))
      | _ => .ok none
    else if key = "status" then .ok (some (.text (py.strOf value)))
    else
      match value with
      | .container _ =>
        match py.jsonOf value with
        | .error e => .error (.python e)
        | .ok text => .ok (some (.text text))
      | _ => .ok (some (.text (py.strOf value)))

/-- `_SUMMARY_META_KEYS`. -/
def summaryMetaKeys : List String :=
  ["haulier_codes", "slot_map", "n_trucks", "status", "first_seen"]

/-- `_summary_meta`. -/
def summaryMeta (py : Py) (summary : Dict String PyValue) :
    List String → Except RehydrateError (List (String × Cell))
  | [] => .ok []
  | key :: keys => do
    let field ← summaryField py key ((summary.get? key).getD .none)
    let rest ← summaryMeta py summary keys
    return (field.map fun cell ↦ (key, cell)).toList ++ rest

/-- Everything the source supplied. -/
structure Batch where
  frames : List ArchivedFrame
  kpi : List KpiRow
  breakdown : Option (List BreakdownRow)
  summary : Dict String PyValue
  fields : List (String × Cell)

/-- The second phase. -/
def readSource (py : Py) (refused : Query → Option String) (src : Source) (t : Tables)
    (runId : String) (now : ℤ) : Except RehydrateError Batch := do
  let frames ← readFrameColumns src
  let kpi ← readKpiColumns src now
  let breakdown ← readBreakdownColumns refused src t runId
  let summary := runSummary src
  let fields ← summaryMeta py summary summaryMetaKeys
  return { frames := frames, kpi := kpi, breakdown := breakdown, summary := summary,
           fields := fields }

/-! ## The transaction -/

/-- The rows a frame is stored as. -/
def ArchivedFrame.stored (runId : String) (f : ArchivedFrame) : List StoredRow :=
  f.rows.map fun p ↦ ⟨runId, f.frameIdx, f.simTimeMs, p.slot, p.lng, p.lat, p.state, p.haulier⟩

def Batch.rows (b : Batch) (runId : String) : List StoredRow :=
  b.frames.flatMap (ArchivedFrame.stored runId)

/-- The highest frame index. -/
def Batch.maxFrameIdx (b : Batch) : Cell :=
  match (b.frames.map fun f ↦ f.frameIdx.toNat).max? with
  | none => .null
  | some i => .int i

/-- The fields of `run_meta` that are written. -/
def Batch.meta (b : Batch) (now : ℤ) : List (String × Cell) :=
  b.fields ++ [("last_seen", .timestamp now), ("max_frame_idx", b.maxFrameIdx),
    ("source", .text "rehydrated")]

/-- `_as_int`. -/
def asInt (py : Py) (summary : Dict String PyValue) (key : String) :
    Except RehydrateError (Option ℤ) :=
  match summary.get? key with
  | none => .ok none
  | some .none => .ok none
  | some value =>
    match py.intOf value with
    | .error e => .error (.python e)
    | .ok n => .ok n

/-- What marks a run as exported. -/
def exported (py : Py) (summary : Dict String PyValue) (now : ℤ) :
    Except RehydrateError ExportState := do
  let rowCount ← asInt py summary "kpi_count"
  let frameCount ← asInt py summary "frame_count"
  return { status := "exported", rowCount := rowCount, frameCount := frameCount,
           exportedAt := now, error := none }

/-- The statements of the third phase: nothing is inserted from no rows. -/
def Batch.script (py : Py) (runId : String) (now : ℤ) (b : Batch) : List Stmt :=
  [.deleteFrames runId, .deleteKpi runId] ++
    (if b.breakdown.isSome then [.deleteBreakdown runId] else []) ++
    (if (b.rows runId).length = 0 then [] else [.insertFrames (b.rows runId)]) ++
    (if b.kpi.length = 0 then [] else [.insertKpi runId b.kpi]) ++
    (if (b.breakdown.getD []).length = 0 then []
      else [.insertBreakdown runId (b.breakdown.getD [])]) ++
    [.upsertRunMeta runId (b.meta now)] ++
    (if py.truth ((b.summary.get? "complete").getD .none) then
      [.setExportState runId (exported py b.summary now)]
    else [])

/-- The counts of a run are taken one after the other, up to the first that is not zero. -/
def holdsData (refused : Query → Option String) (t : Tables) (runId : String) :
    Except RehydrateError Bool := do
  let frames ← count refused t runId .frameCount
  if frames ≠ 0 then return true
  let kpi ← count refused t runId .kpiCount
  if kpi ≠ 0 then return true
  let breakdown ← count refused t runId .breakdownCount
  return breakdown ≠ 0

/-- The guard: a run that holds anything is left alone unless it is forced. -/
def alreadyHeld (refused : Query → Option String) (t : Tables) (runId : String) (force : Bool) :
    Except RehydrateError Bool :=
  if force then .ok false else holdsData refused t runId

/-- The first two phases: what is to be loaded, if anything. -/
def gatherRun (py : Py) (refused : Query → Option String) (src : Source) (runId : String)
    (force : Bool) (now : ℤ) (t : Tables) : Except RehydrateError (Option Batch) := do
  let held ← alreadyHeld refused t runId force
  if held then return none
  else
    match src.hasRun with
    | .error e => .error (.source e)
    | .ok false => .error .runNotInStore
    | .ok true => do
      let batch ← readSource py refused src t runId now
      return some batch

/-- `rehydrate_run`: what it returns, and the connection after it. -/
def rehydrateRun (py : Py) (refused : Query → Option String)
    (fault : Command Stmt → Option RehydrateError) (src : Source) (runId : String) (force : Bool)
    (now : ℤ) (c : Conn Tables) : Except RehydrateError ℕ × Conn Tables :=
  match gatherRun py refused src runId force now c.committed with
  | .error e => (.error e, c)
  | .ok none => (.ok 0, c)
  | .ok (some batch) =>
    match c.transact Stmt.effect fault (batch.script py runId now) with
    | (.error e, c) => (.error e, c)
    | (.ok _, c) => (.ok batch.frames.length, c)

/-! ## What it should do -/

/-- What was read is all that the source has.  Two readers are excused: a summary that cannot be
read counts as empty, and breakdown rows are left alone if the source has no way to supply them, or
answers that it cannot and the run holds some. -/
structure Supplied (src : Source) (t : Tables) (runId : String) (now : ℤ) (b : Batch) : Prop where
  frames : (src.frameDocs.getD src.frames).raises = none ∧
    b.frames = (src.frameDocs.getD src.frames).items.filter (·.rows.length ≠ 0)
  kpi : src.kpiColumns = some (.ok (.rows b.kpi)) ∨
    (∀ l, src.kpiColumns ≠ some (.ok (.rows l))) ∧ src.kpiEvents.raises = none ∧
      b.kpi = src.kpiEvents.items.map fun e ↦ ⟨e.1, e.2.1, e.2.2, now⟩
  breakdown : ∀ rows, b.breakdown = some rows →
    src.breakdownColumns = some (.ok (.rows rows)) ∨ ∃ reading, src.breakdownRows = some reading ∧
      reading.raises = none ∧ rows = reading.items.filterMap ArchivedBreakdown.record
  kept : b.breakdown = none →
    (src.breakdownColumns = some (.ok .nothing) ∧ t.held runId .breakdownKept ≠ 0) ∨
      (∀ l, src.breakdownColumns ≠ some (.ok (.rows l))) ∧ src.breakdownRows = none
  summary : src.summary = some (.ok (some b.summary)) ∨
    (∀ s, src.summary ≠ some (.ok (some s))) ∧ b.summary = Dict.empty

/-- The tables with a run replaced by what was read: its frames, KPI rows and, if they were
supplied, its breakdown rows are those of the source and no others, and its metadata is written.
All other runs are as they were. -/
structure Loaded (py : Py) (runId : String) (now : ℤ) (b : Batch) (t t' : Tables) : Prop where
  frames : t'.frames = t.frames.filter (·.runId ≠ runId) ++ b.rows runId
  kpiEvents : ∀ k, t'.kpiEvents.get? k =
    if k.1 ≠ runId then t.kpiEvents.get? k else (Dict.ofList (b.kpi.map (kpiKey runId))).get? k
  breakdownRows : ∀ rows, b.breakdown = some rows → ∀ k, t'.breakdownRows.get? k =
    if k.1 ≠ runId then t.breakdownRows.get? k
    else (Dict.ofList (rows.map (breakdownKey runId))).get? k
  breakdownKept : b.breakdown = none → t'.breakdownRows = t.breakdownRows
  runMeta : summaryMeta py b.summary summaryMetaKeys = .ok b.fields ∧
    t'.runMeta = t.runMeta.set runId
      (((t.runMeta.get? runId).getD Dict.empty).update (b.meta now))
  exportState : if py.truth ((b.summary.get? "complete").getD .none) then
      ∃ s, exported py b.summary now = .ok s ∧ t'.exportState = t.exportState.set runId s
    else t'.exportState = t.exportState

/-! ## Reading -/

section Reading

variable {py : Py} {refused : Query → Option String} {src : Source} {t : Tables} {runId : String}
  {now : ℤ} {b : Batch}

theorem gatherFrames_eq_ok {total : ℕ} {items kept : List ArchivedFrame}
    (h : gatherFrames total items = .ok kept) : kept = items.filter (·.rows.length ≠ 0) := by
  induction items generalizing total kept with
  | nil => exact (Except.ok.inj h).symm
  | cons f items ih =>
    rw [gatherFrames] at h
    split at h
    · next hempty => rw [ih h, List.filter_cons_of_neg (by simpa using hempty)]
    · next hrows =>
      split at h
      · cases h
      · obtain ⟨rest, hrest, hkept⟩ := bind_eq_ok.mp h
        rw [← Except.ok.inj hkept, ih hrest, List.filter_cons_of_pos (by simpa using hrows)]

theorem ended_eq_ok {α : Type} {r : Reading α} (h : r.ended = .ok ()) : r.raises = none := by
  rw [Reading.ended] at h
  split at h
  · cases h
  · next hnone => exact hnone

theorem readFrameColumns_eq_ok {frames : List ArchivedFrame}
    (h : readFrameColumns src = .ok frames) :
    (src.frameDocs.getD src.frames).raises = none ∧
      frames = (src.frameDocs.getD src.frames).items.filter (·.rows.length ≠ 0) := by
  obtain ⟨kept, hkept, h⟩ := bind_eq_ok.mp h
  obtain ⟨⟨⟩, hended, h⟩ := bind_eq_ok.mp h
  cases h
  exact ⟨ended_eq_ok hended, gatherFrames_eq_ok hkept⟩

theorem readKpiColumns_eq_ok {rows : List KpiRow} (h : readKpiColumns src now = .ok rows) :
    src.kpiColumns = some (.ok (.rows rows)) ∨
      (∀ l, src.kpiColumns ≠ some (.ok (.rows l))) ∧ src.kpiEvents.raises = none ∧
        rows = src.kpiEvents.items.map fun e ↦ ⟨e.1, e.2.1, e.2.2, now⟩ := by
  have hevents : readKpiEvents src now = .ok rows → src.kpiEvents.raises = none ∧
      rows = src.kpiEvents.items.map fun e ↦ ⟨e.1, e.2.1, e.2.2, now⟩ := by
    intro hread
    obtain ⟨⟨⟩, hended, hrows⟩ := bind_eq_ok.mp hread
    exact ⟨ended_eq_ok hended, (Except.ok.inj hrows).symm⟩
  rw [readKpiColumns] at h
  split at h
  · cases h
  · next l hcolumns =>
    cases h
    exact Or.inl hcolumns
  · next answer hother hcolumns =>
    refine Or.inr ⟨fun l hl ↦ ?_, hevents h⟩
    rw [hcolumns] at hl
    exact hother l (Except.ok.inj (Option.some_inj.mp hl))
  · next hcolumns =>
    refine Or.inr ⟨fun l hl ↦ ?_, hevents h⟩
    rw [hcolumns] at hl
    cases hl

/-- What the two breakdown readers say about the rows they answer. -/
theorem readBreakdownColumns_eq_ok {breakdown : Option (List BreakdownRow)}
    (h : readBreakdownColumns refused src t runId = .ok breakdown) :
    (∀ rows, breakdown = some rows →
      src.breakdownColumns = some (.ok (.rows rows)) ∨ ∃ reading, src.breakdownRows = some reading ∧
        reading.raises = none ∧ rows = reading.items.filterMap ArchivedBreakdown.record) ∧
    (breakdown = none →
      (src.breakdownColumns = some (.ok .nothing) ∧ t.held runId .breakdownKept ≠ 0) ∨
        (∀ l, src.breakdownColumns ≠ some (.ok (.rows l))) ∧ src.breakdownRows = none) := by
  have hrows : readBreakdownRows src = .ok breakdown →
      (∀ l, src.breakdownColumns ≠ some (.ok (.rows l))) →
      (∀ rows, breakdown = some rows → ∃ reading, src.breakdownRows = some reading ∧
        reading.raises = none ∧ rows = reading.items.filterMap ArchivedBreakdown.record) ∧
      (breakdown = none →
        (∀ l, src.breakdownColumns ≠ some (.ok (.rows l))) ∧ src.breakdownRows = none) := by
    intro hread hcolumns
    rw [readBreakdownRows] at hread
    split at hread
    · next hnone =>
      cases hread
      exact ⟨(fun rows hr ↦ by cases hr), fun _ ↦ ⟨hcolumns, hnone⟩⟩
    · next reading hsome =>
      obtain ⟨⟨⟩, hended, hread⟩ := bind_eq_ok.mp hread
      cases hread
      refine ⟨fun rows hr ↦ ⟨reading, hsome, ended_eq_ok hended, ?_⟩, fun hr ↦ by cases hr⟩
      exact (Option.some_inj.mp hr).symm
  rw [readBreakdownColumns] at h
  split at h
  · cases h
  · next hcolumns =>
    obtain ⟨kept, hcount, h⟩ := bind_eq_ok.mp h
    split at h
    · cases h
    · next hkept =>
      cases h
      refine ⟨(fun rows hr ↦ by cases hr), fun _ ↦ Or.inl ⟨hcolumns, ?_⟩⟩
      rw [count] at hcount
      split at hcount
      · cases hcount
      · rwa [Except.ok.inj hcount]
  · next l hcolumns =>
    cases h
    refine ⟨fun rows hr ↦ Or.inl ?_, fun hr ↦ by cases hr⟩
    rw [hcolumns, Option.some_inj.mp hr]
  · next hcolumns =>
    obtain ⟨hsome, hnone⟩ := hrows h fun l hl ↦ by rw [hcolumns] at hl; cases hl
    exact ⟨fun rows hr ↦ Or.inr (hsome rows hr), fun hr ↦ Or.inr (hnone hr)⟩
  · next hcolumns =>
    obtain ⟨hsome, hnone⟩ := hrows h fun l hl ↦ by rw [hcolumns] at hl; cases hl
    exact ⟨fun rows hr ↦ Or.inr (hsome rows hr), fun hr ↦ Or.inr (hnone hr)⟩

theorem runSummary_cases (src : Source) :
    src.summary = some (.ok (some (runSummary src))) ∨
      (∀ s, src.summary ≠ some (.ok (some s))) ∧ runSummary src = Dict.empty := by
  rw [runSummary]
  split
  · next hsummary => exact Or.inl hsummary
  · next hother => exact Or.inr ⟨hother, rfl⟩

/-- **Everything is read**, or the second phase fails. -/
theorem readSource_eq_ok (h : readSource py refused src t runId now = .ok b) :
    Supplied src t runId now b ∧ summaryMeta py b.summary summaryMetaKeys = .ok b.fields := by
  obtain ⟨frames, hframes, h⟩ := bind_eq_ok.mp h
  obtain ⟨kpi, hkpi, h⟩ := bind_eq_ok.mp h
  obtain ⟨breakdown, hbreakdown, h⟩ := bind_eq_ok.mp h
  obtain ⟨fields, hfields, h⟩ := bind_eq_ok.mp h
  cases h
  obtain ⟨hsome, hnone⟩ := readBreakdownColumns_eq_ok hbreakdown
  exact ⟨⟨readFrameColumns_eq_ok hframes, readKpiColumns_eq_ok hkpi, hsome, hnone,
    runSummary_cases src⟩, hfields⟩

theorem count_eq_ok {q : Query} {n : ℕ} (h : count refused t runId q = .ok n) :
    n = t.held runId q := by
  rw [count] at h
  split at h
  · cases h
  · exact (Except.ok.inj h).symm

/-- A run that is found to hold data holds some. -/
theorem holdsData_eq_ok (h : holdsData refused t runId = .ok true) :
    ∃ q, t.held runId q ≠ 0 := by
  obtain ⟨frames, hframes, h⟩ := bind_eq_ok.mp h
  split at h
  · next hne => exact ⟨_, count_eq_ok hframes ▸ hne⟩
  · obtain ⟨kpi, hkpi, h⟩ := bind_eq_ok.mp h
    split at h
    · next hne => exact ⟨_, count_eq_ok hkpi ▸ hne⟩
    · obtain ⟨breakdown, hbreakdown, h⟩ := bind_eq_ok.mp h
      have hne : breakdown ≠ 0 := of_decide_eq_true (Except.ok.inj h)
      exact ⟨_, count_eq_ok hbreakdown ▸ hne⟩

theorem gatherRun_eq_ok {force : Bool} {found : Option Batch}
    (h : gatherRun py refused src runId force now t = .ok found) :
    (found = none ∧ force = false ∧ ∃ q, t.held runId q ≠ 0) ∨
      ∃ b, found = some b ∧ readSource py refused src t runId now = .ok b := by
  obtain ⟨held, hheld, h⟩ := bind_eq_ok.mp h
  split at h
  · next hyes =>
    subst hyes
    cases h
    rw [alreadyHeld] at hheld
    split at hheld
    · cases hheld
    · next hforce => exact Or.inl ⟨rfl, Bool.eq_false_iff.mpr hforce, holdsData_eq_ok hheld⟩
  · split at h
    · cases h
    · cases h
    · obtain ⟨b, hb, h⟩ := bind_eq_ok.mp h
      exact Or.inr ⟨b, (Except.ok.inj h).symm, hb⟩

end Reading

/-! ## The effect of the transaction -/

section Effect

variable {py : Py} {t t' : Tables} {runId : String} {now : ℤ} {b : Batch}

theorem apply_insert {α : Type} {rows : List α} {insert : Stmt} {t t' : Tables}
    (hinsert : insert.effect t = .ok t') (hempty : rows = [] → t' = t) :
    Conn.applyAll Stmt.effect (if rows.length = 0 then [] else [insert]) t = .ok t' := by
  split
  · next hnone =>
    rw [hempty (List.eq_nil_of_length_eq_zero hnone)]
    rfl
  · rw [Conn.applyAll, hinsert]
    rfl

theorem apply_insertFrames (rows : List StoredRow) (t : Tables) :
    Conn.applyAll Stmt.effect (if rows.length = 0 then [] else [.insertFrames rows]) t =
      .ok { t with frames := t.frames ++ rows } :=
  apply_insert rfl fun hnone ↦ by rw [hnone, List.append_nil]

theorem apply_insertKpi (rows : List KpiRow) (t : Tables) :
    Conn.applyAll Stmt.effect (if rows.length = 0 then [] else [.insertKpi runId rows]) t =
      .ok { t with kpiEvents := t.kpiEvents.update (rows.map (kpiKey runId)) } :=
  apply_insert rfl fun hnone ↦ by
    rw [hnone]
    rfl

theorem apply_insertBreakdown (rows : List BreakdownRow) (t : Tables) :
    Conn.applyAll Stmt.effect (if rows.length = 0 then [] else [.insertBreakdown runId rows]) t =
      .ok { t with
        breakdownRows := t.breakdownRows.update (rows.map (breakdownKey runId)) } :=
  apply_insert rfl fun hnone ↦ by
    rw [hnone]
    rfl

/-- The metadata is written to columns that exist. -/
theorem meta_columns (h : summaryMeta py b.summary summaryMetaKeys = .ok b.fields) :
    (b.meta now).all (fun f ↦ runMetaColumns.contains f.1) = true := by
  have hkeys : ∀ (keys : List String) (fields : List (String × Cell)),
      summaryMeta py b.summary keys = .ok fields → ∀ f ∈ fields, f.1 ∈ keys := by
    intro keys
    induction keys with
    | nil =>
      intro fields hfields f hf
      rw [← Except.ok.inj hfields] at hf
      cases hf
    | cons key keys ih =>
      intro fields hfields f hf
      obtain ⟨field, -, hfields⟩ := bind_eq_ok.mp hfields
      obtain ⟨rest, hrest, hfields⟩ := bind_eq_ok.mp hfields
      rw [← Except.ok.inj hfields] at hf
      rcases List.mem_append.mp hf with hf | hf
      · rw [Option.mem_toList] at hf
        obtain ⟨cell, -, rfl⟩ := Option.map_eq_some_iff.mp hf
        exact List.mem_cons_self
      · exact List.mem_cons_of_mem _ (ih rest hrest f hf)
  rw [Batch.meta, List.all_append, Bool.and_eq_true, List.all_eq_true]
  refine ⟨fun f hf ↦ ?_, rfl⟩
  have hall : ∀ key ∈ summaryMetaKeys, runMetaColumns.contains key = true := by decide
  exact hall _ (hkeys _ _ h f hf)

theorem apply_deleteBreakdown (t : Tables) :
    Conn.applyAll Stmt.effect (if b.breakdown.isSome then [.deleteBreakdown runId] else []) t =
      .ok { t with
        breakdownRows := if b.breakdown.isSome then
            t.breakdownRows.filter fun k _ ↦ k.1 ≠ runId
          else t.breakdownRows } := by
  split <;> rfl

theorem apply_upsertRunMeta (hfields : summaryMeta py b.summary summaryMetaKeys = .ok b.fields)
    (t : Tables) :
    Conn.applyAll Stmt.effect [.upsertRunMeta runId (b.meta now)] t =
      .ok { t with
        runMeta := t.runMeta.set runId
          (((t.runMeta.get? runId).getD Dict.empty).update (b.meta now)) } := by
  rw [Conn.applyAll, Stmt.effect, if_pos (meta_columns hfields)]
  rfl

/-- A table by key, when the rows of a run were replaced. -/
theorem get?_replaced {β γ δ : Type} [DecidableEq β] (d : Dict (String × β) γ)
    (key : δ → (String × β) × γ) (hkey : ∀ r, (key r).1.1 = runId) (rows : List δ)
    (k : String × β) :
    ((d.filter fun k _ ↦ k.1 ≠ runId).update (rows.map key)).get? k =
      if k.1 ≠ runId then d.get? k else (Dict.ofList (rows.map key)).get? k := by
  have hkeys : ∀ e ∈ rows.map key, decide (e.1.1 ≠ runId) = false := by
    intro e he
    obtain ⟨r, -, rfl⟩ := List.mem_map.mp he
    exact decide_eq_false (not_not.mpr (hkey r))
  have hread := Dict.get?_filter_update (d := d) (p := fun k ↦ decide (k.1 ≠ runId)) hkeys k
  simpa only [decide_eq_true_eq] using hread

/-- **The statements** replace the run. -/
theorem loaded_of_script (hfields : summaryMeta py b.summary summaryMetaKeys = .ok b.fields)
    (h : Conn.applyAll Stmt.effect (b.script py runId now) t = .ok t') :
    Loaded py runId now b t t' := by
  have hdelete : Conn.applyAll Stmt.effect [.deleteFrames runId, .deleteKpi runId] t =
      .ok { t with
        frames := t.frames.filter (·.runId ≠ runId)
        kpiEvents := t.kpiEvents.filter fun k _ ↦ k.1 ≠ runId } := rfl
  rw [Batch.script] at h
  simp only [Conn.applyAll_append, hdelete, ok_bind, apply_deleteBreakdown, apply_insertFrames,
    apply_insertKpi, apply_insertBreakdown, apply_upsertRunMeta hfields] at h
  -- the export state is what is left, and touches nothing else
  have hrest : t' = { t with
      frames := t.frames.filter (·.runId ≠ runId) ++ b.rows runId
      kpiEvents := (t.kpiEvents.filter fun k _ ↦ k.1 ≠ runId).update (b.kpi.map (kpiKey runId))
      breakdownRows := (if b.breakdown.isSome then
          t.breakdownRows.filter fun k _ ↦ k.1 ≠ runId
        else t.breakdownRows).update ((b.breakdown.getD []).map (breakdownKey runId))
      runMeta := t.runMeta.set runId
        (((t.runMeta.get? runId).getD Dict.empty).update (b.meta now))
      exportState := t'.exportState } ∧
      if py.truth ((b.summary.get? "complete").getD .none) then
        ∃ s, exported py b.summary now = .ok s ∧ t'.exportState = t.exportState.set runId s
      else t'.exportState = t.exportState := by
    split at h
    · next hcomplete =>
      rw [if_pos hcomplete]
      cases hstate : exported py b.summary now with
      | error e =>
        rw [hstate] at h
        cases h
      | ok s =>
        rw [hstate] at h
        cases h
        exact ⟨rfl, s, rfl, rfl⟩
    · next hopen =>
      rw [if_neg hopen]
      cases h
      exact ⟨rfl, rfl⟩
  obtain ⟨htables, hexport⟩ := hrest
  refine ⟨congrArg Tables.frames htables, fun k ↦ ?_, fun rows hrows k ↦ ?_, fun hnone ↦ ?_,
    ⟨hfields, congrArg Tables.runMeta htables⟩, hexport⟩
  · rw [congrArg Tables.kpiEvents htables]
    exact get?_replaced t.kpiEvents (kpiKey runId) (fun _ ↦ rfl) b.kpi k
  · rw [congrArg Tables.breakdownRows htables, hrows]
    exact get?_replaced t.breakdownRows (breakdownKey runId) (fun _ ↦ rfl) rows k
  · rw [congrArg Tables.breakdownRows htables, hnone]
    rfl

end Effect

/-! ## All or nothing -/

/-- **Rehydrating is atomic.**  Either everything the source supplied is loaded, or every table is
as it was: because the run holds data already, or because the call raised. -/
theorem rehydrateRun_atomic (py : Py) (refused : Query → Option String)
    (fault : Command Stmt → Option RehydrateError) (src : Source) (runId : String) (force : Bool)
    (now : ℤ) (c : Conn Tables) :
    let out := rehydrateRun py refused fault src runId force now c
    (∃ b, Supplied src c.committed runId now b ∧ out.1 = .ok b.frames.length ∧
      Loaded py runId now b c.committed out.2.committed) ∨
    ((out.1 = .ok 0 ∧ force = false ∧ ∃ q, c.committed.held runId q ≠ 0) ∨
      ∃ e, out.1 = .error e) ∧ out.2.committed = c.committed := by
  intro out
  have hout : out = rehydrateRun py refused fault src runId force now c := rfl
  rw [rehydrateRun] at hout
  cases hgather : gatherRun py refused src runId force now c.committed with
  | error e =>
    rw [hgather] at hout
    rw [hout]
    exact Or.inr ⟨Or.inr ⟨e, rfl⟩, rfl⟩
  | ok found =>
    rcases gatherRun_eq_ok hgather with ⟨rfl, hforce, hheld⟩ | ⟨b, rfl, hread⟩
    · rw [hgather] at hout
      rw [hout]
      exact Or.inr ⟨Or.inl ⟨rfl, hforce, hheld⟩, rfl⟩
    · obtain ⟨hsupplied, hfields⟩ := readSource_eq_ok hread
      rw [hgather] at hout
      dsimp only at hout
      cases htransact : c.transact Stmt.effect fault (b.script py runId now) with
      | mk r c' =>
        rw [htransact] at hout
        rcases Conn.transact_spec _ _ htransact with ⟨rfl, happly⟩ | ⟨⟨e, rfl⟩, hsame⟩
        · rw [hout]
          exact Or.inl ⟨b, hsupplied, rfl, loaded_of_script hfields happly⟩
        · rw [hout]
          exact Or.inr ⟨Or.inr ⟨e, rfl⟩, hsame⟩

/-- Conversions of plain values. -/
def plainPy : Py where
  intOf
    | .int i => .ok (some i)
    | _ => .ok none
  strOf
    | .str s => s
    | _ => ""
  jsonOf
    | .container json => .ok json
    | _ => .ok ""
  truth v := v == .bool true

/-- An archive of one frame with its code book, and no breakdown rows. -/
def archived : Source where
  hasRun := .ok true
  frameDocs := none
  frames := { items := [⟨0, ⟨0⟩, [⟨0, ⟨0⟩, ⟨0⟩, 1, 1⟩]⟩] }
  kpiColumns := none
  kpiEvents := { items := [] }
  breakdownColumns := some (.ok (.rows []))
  breakdownRows := none
  summary := some (.ok (some (Dict.ofList [("haulier_codes", .container "codes")])))

/-- A run of one breakdown row. -/
def oneBreakdown : Tables where
  frames := []
  kpiEvents := Dict.empty
  breakdownRows := Dict.ofList [breakdownKey "run" ⟨"truck", 0, "T1", []⟩]
  runMeta := Dict.empty
  exportState := Dict.empty

/-- What a forced rehydrate leaves of a run that nothing else fails for: the number of its frame
rows, its code book, and its breakdown rows. -/
def rehydrated (src : Source) : ℕ × Option Cell × ℕ :=
  let out :=
    (rehydrateRun plainPy (fun _ ↦ none) (fun _ ↦ none) src "run" true 0 ⟨oneBreakdown, none⟩).2
  (out.committed.held "run" .frameCount,
    (out.committed.runMeta.get? "run").bind (·.get? "haulier_codes"),
    out.committed.held "run" .breakdownCount)

/-- With a summary that cannot be read the frames come back and the code book does not; and with
breakdown rows that cannot be read the frames come back and the old breakdown rows stay. -/
theorem summary_lost :
    rehydrated archived = (1, some (.text "codes"), 0) ∧
      rehydrated { archived with summary := some (.error "mongod went away") } = (1, none, 0) ∧
      rehydrated { archived with breakdownColumns := some (.ok .nothing) } =
        (1, some (.text "codes"), 1) := by
  decide

end OpenRide.Dataplane.Rehydrate
