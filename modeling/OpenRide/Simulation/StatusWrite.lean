import Mathlib.Data.List.Chain
import OpenRide.Datagen.Values
import OpenRide.Lib.Sorted

/-!
# Writing the status of a run

The runtime keeps a stub of the document of its run, just enough to address it, and writes the
status of the run with a PATCH to that document.  A write whose etag is stale is retried, at most
twice; any other failure ends it, and a write that failed leaves the stub as it was.

A write that succeeds replaces the stub by whatever the server answered.  The shape of the first
stub is checked (`assertRunRecordShape`), the shape of those that replace it is not.  So the writes
of a run go on just as long as the server answers with stubs of the document (`statusWrites_iff`);
after an answer without an id, the next write raises before it is guarded.
-/

namespace OpenRide.Simulation

open Lib Datagen

/-! ## Outcomes -/

/-- `StatusWrite`. -/
inductive StatusWrite where
  | ok
  | retriedOk
  | staleEtagExhausted
  | serverError
  | exception
deriving DecidableEq

namespace StatusWrite

/-- The value of the enumeration. -/
def value : StatusWrite → String
  | ok => "ok"
  | retriedOk => "retried_ok"
  | staleEtagExhausted => "stale_etag_exhausted"
  | serverError => "server_error"
  | exception => "exception"

/-- `succeeded`. -/
def succeeded : StatusWrite → Bool
  | ok | retriedOk => true
  | _ => false

end StatusWrite

/-! ## Stubs of a document -/

/-- `record[key]`. -/
def subscript (record : Raw) (key : String) : Except PyError Raw :=
  match record with
  | .dict entries =>
    match Dict.lookupIn key entries with
    | some value => .ok value
    | none => .error .keyError
  | _ => .error .typeError

/-- Why an answer is no stub of a document. -/
inductive ShapeError where
  | notADict (type : String)
  | missing (keys got : List String)
deriving DecidableEq

/-- `_assert_run_record_shape`. -/
def assertRunRecordShape (record : Raw) : Except ShapeError Raw :=
  match record with
  | .dict entries =>
    let missing := ["_id", "_etag"].filter fun key ↦ (Dict.lookupIn key entries).isNone
    if missing.isEmpty then .ok record
    else .error (.missing missing (sortedBy id (entries.map Prod.fst)))
  | _ => .error (.notADict record.typeName)

/-- What is enough to address the document with this id. -/
structure IsStub (docId record : Raw) : Prop where
  shape : assertRunRecordShape record = .ok record
  id : subscript record "_id" = .ok docId

theorem assertRunRecordShape_eq_ok {record : Raw} (h : assertRunRecordShape record = .ok record) :
    ∃ etag, subscript record "_etag" = .ok etag := by
  unfold assertRunRecordShape at h
  split at h
  · next entries =>
    have hetag : Dict.lookupIn "_etag" entries ≠ none := by
      intro hnone
      simp [hnone] at h
    obtain ⟨etag, hetag⟩ := Option.ne_none_iff_exists'.mp hetag
    exact ⟨etag, by simp [subscript, hetag]⟩
  · cases h

theorem IsStub.ne_null {docId record : Raw} (h : IsStub docId record) : record ≠ .null := by
  rintro rfl
  cases h.shape

/-! ## One write -/

/-- `STATUS_PATCH_MAX_ATTEMPTS`. -/
def statusPatchMaxAttempts : ℕ := 3

/-- What comes of a request: an exception, or an answer, whose body may be no JSON. -/
inductive HttpReply where
  | raised
  | response (statusCode : ℕ) (json : Option Raw)

/-- The status code of an answer. -/
def HttpReply.statusCode? : HttpReply → Option ℕ
  | raised => none
  | response statusCode _ => some statusCode

/-- A write: what is to be written, and what will come of its requests, of its `n`-th PATCH and of
the GET that follows it. -/
structure StatusUpdate where
  status : String
  executionTime : Raw := .int 0
  stepMetric : Option (List (String × Raw)) := none
  patch : ℕ → HttpReply
  refresh : ℕ → HttpReply

/-- The body of the PATCH: of a step metric its first entry only. -/
def StatusUpdate.data (u : StatusUpdate) : List (String × Raw) :=
  [("status", .str u.status), ("execution_time", u.executionTime)] ++
    match u.stepMetric with
    | some ((k, v) :: _) => [("step_metrics." ++ k, v)]
    | _ => []

/-- A request to the document with the id, and what came of it. -/
inductive HttpRequest where
  | patch (docId etag : Raw) (data : List (String × Raw)) (reply : HttpReply)
  | get (docId : Raw) (reply : HttpReply)

namespace HttpRequest

/-- The document a request is for. -/
def docId : HttpRequest → Raw
  | patch docId _ _ _ => docId
  | get docId _ => docId

/-- What came of a PATCH. -/
def patchReply? : HttpRequest → Option HttpReply
  | patch _ _ _ reply => some reply
  | get _ _ => none

end HttpRequest

/-- What came of the PATCHes among the requests. -/
def patchReplies (requests : List HttpRequest) : List HttpReply :=
  requests.filterMap HttpRequest.patchReply?

theorem patchReplies_patch_cons (docId etag : Raw) (data : List (String × Raw))
    (reply : HttpReply) (requests : List HttpRequest) :
    patchReplies (.patch docId etag data reply :: requests) = reply :: patchReplies requests := rfl

theorem patchReplies_get_cons (docId : Raw) (reply : HttpReply)
    (requests : List HttpRequest) :
    patchReplies (.get docId reply :: requests) = patchReplies requests := rfl

/-- The attempts at a PATCH from the `attempt`-th on, of which `left` are left: the record, the
outcome and the requests. -/
def patchLoop (u : StatusUpdate) (docId : Raw) :
    ℕ → ℕ → Raw → (Raw × StatusWrite) × List HttpRequest
  | 0, _, _ => ((.null, .staleEtagExhausted), [])
  | left + 1, attempt, etag =>
    let sent := HttpRequest.patch docId etag u.data (u.patch attempt)
    match u.patch attempt with
    | .raised => ((.null, .exception), [sent])
    | .response statusCode json =>
      if statusCode = 200 ∨ statusCode = 201 then
        match json with
        | some record => ((record, if attempt = 1 then .ok else .retriedOk), [sent])
        | none => ((.null, .exception), [sent])
      else if statusCode ≠ 412 then ((.null, .serverError), [sent])
      else if attempt = statusPatchMaxAttempts then ((.null, .staleEtagExhausted), [sent])
      else
        let asked := HttpRequest.get docId (u.refresh attempt)
        match u.refresh attempt with
        | .raised => ((.null, .exception), [sent, asked])
        | .response statusCode json =>
          if statusCode ≠ 200 then ((.null, .serverError), [sent, asked])
          else
            match json.map fun record ↦ subscript record "_etag" with
            | some (.ok etag) =>
              let rest := patchLoop u docId left (attempt + 1) etag
              (rest.1, sent :: asked :: rest.2)
            | _ => ((.null, .exception), [sent, asked])

/-! ## The runtime -/

/-- What the runtime knows of its document and of its writes. -/
structure RunStatus where
  runRecord : Raw
  statusWriteFailures : ℕ := 0
  statusWriteOutcomes : Dict String ℕ := Dict.empty
  consecutiveStatusWriteFailures : ℕ := 0

namespace RunStatus

/-- `update_status`.  The id is read before anything is guarded; the etag is not. -/
def updateStatus (s : RunStatus) (u : StatusUpdate) :
    Except PyError (Raw × StatusWrite) × List HttpRequest :=
  match subscript s.runRecord "_id" with
  | .error e => (.error e, [])
  | .ok docId =>
    match subscript s.runRecord "_etag" with
    | .error _ => (.ok (.null, .exception), [])
    | .ok etag =>
      let result := patchLoop u docId statusPatchMaxAttempts 1 etag
      (.ok result.1, result.2)

/-- `_record_status_write`. -/
def recordStatusWrite (s : RunStatus) (outcome : StatusWrite) : RunStatus :=
  let outcomes := s.statusWriteOutcomes.set outcome.value
    ((s.statusWriteOutcomes.get? outcome.value).getD 0 + 1)
  if outcome.succeeded then
    { s with statusWriteOutcomes := outcomes, consecutiveStatusWriteFailures := 0 }
  else
    { s with
      statusWriteOutcomes := outcomes
      statusWriteFailures := s.statusWriteFailures + 1
      consecutiveStatusWriteFailures := s.consecutiveStatusWriteFailures + 1 }

/-- `_apply_status_write`. -/
def applyStatusWrite (s : RunStatus) (result : Raw × StatusWrite) : RunStatus :=
  let s' := s.recordStatusWrite result.2
  if result.2.succeeded then { s' with runRecord := result.1 } else s'

/-- Write after write, until one raises. -/
def run (s : RunStatus) : List StatusUpdate → Except PyError RunStatus
  | [] => .ok s
  | u :: us =>
    match (s.updateStatus u).1 with
    | .error e => .error e
    | .ok result => (s.applyStatusWrite result).run us

end RunStatus

/-! ## What a write comes to -/

/-- How a write may end on the answer to its last PATCH: with no record, or with the record that was
answered. -/
inductive Settled (reply : HttpReply) : Raw × StatusWrite → Prop where
  | failed {outcome : StatusWrite} (h : outcome.succeeded = false) : Settled reply (.null, outcome)
  | accepted {statusCode : ℕ} {record : Raw} {outcome : StatusWrite}
      (code : statusCode = 200 ∨ statusCode = 201) (h : outcome.succeeded = true)
      (answer : reply = .response statusCode (some record)) : Settled reply (record, outcome)

/-- **One attempt**: it ends the write, or its etag was stale and there is another attempt. -/
theorem patchLoop_succ (u : StatusUpdate) (docId : Raw) (left attempt : ℕ) (etag : Raw) :
    (∃ requests, patchReplies requests = [] ∧
      (∀ r ∈ requests, r.docId = docId) ∧
      (patchLoop u docId (left + 1) attempt etag).2 =
        .patch docId etag u.data (u.patch attempt) :: requests ∧
      Settled (u.patch attempt) (patchLoop u docId (left + 1) attempt etag).1) ∨
    ((u.patch attempt).statusCode? = some 412 ∧ ∃ etag',
      patchLoop u docId (left + 1) attempt etag =
        ((patchLoop u docId left (attempt + 1) etag').1,
          .patch docId etag u.data (u.patch attempt) :: .get docId (u.refresh attempt) ::
            (patchLoop u docId left (attempt + 1) etag').2)) := by
  have hnone : ∀ r ∈ ([] : List HttpRequest), r.docId = docId := by simp
  have hasked : ∀ r ∈ [HttpRequest.get docId (u.refresh attempt)], r.docId = docId := by
    simp [HttpRequest.docId]
  rw [patchLoop]
  split
  · exact Or.inl ⟨[], rfl, hnone, rfl, .failed rfl⟩
  · next statusCode json hpatch =>
    split
    · next hcode =>
      cases json with
      | some record =>
        refine Or.inl ⟨[], rfl, hnone, rfl, .accepted hcode ?_ hpatch⟩
        split
        · rfl
        · rfl
      | none => exact Or.inl ⟨[], rfl, hnone, rfl, .failed rfl⟩
    · split
      · exact Or.inl ⟨[], rfl, hnone, rfl, .failed rfl⟩
      · next hstale =>
        split
        · exact Or.inl ⟨[], rfl, hnone, rfl, .failed rfl⟩
        · split
          · exact Or.inl ⟨_, rfl, hasked, rfl, .failed rfl⟩
          · split
            · exact Or.inl ⟨_, rfl, hasked, rfl, .failed rfl⟩
            · split
              · next etag' _ =>
                refine Or.inr ⟨?_, etag', rfl⟩
                rw [hpatch]
                exact congrArg some (not_not.mp hstale)
              · exact Or.inl ⟨_, rfl, hasked, rfl, .failed rfl⟩

/-- What came of the PATCHes of a write keeps to the rules: not too many, and no further one but
after a stale etag. -/
structure KeepsTrying (left : ℕ) (replies : List HttpReply) : Prop where
  bounded : replies.length ≤ left
  stale : replies.IsChain fun reply _ ↦ reply.statusCode? = some 412

/-- **Attempts are bounded, and follow a stale etag each.** -/
theorem patchLoop_keepsTrying (u : StatusUpdate) (docId : Raw) (left attempt : ℕ) (etag : Raw) :
    KeepsTrying left (patchReplies (patchLoop u docId left attempt etag).2) := by
  induction left generalizing attempt etag with
  | zero => exact ⟨by simp [patchLoop, patchReplies], by simp [patchLoop, patchReplies]⟩
  | succ left ih =>
    rcases patchLoop_succ u docId left attempt etag with
      ⟨requests, hrequests, -, heq, -⟩ | ⟨hstale, etag', heq⟩
    · have hone :
          patchReplies (patchLoop u docId (left + 1) attempt etag).2 = [u.patch attempt] := by
        rw [heq, patchReplies_patch_cons, hrequests]
      rw [hone]
      exact ⟨by simp, by simp⟩
    · have hrest := ih (attempt + 1) etag'
      have hcons : patchReplies (patchLoop u docId (left + 1) attempt etag).2 =
          u.patch attempt :: patchReplies (patchLoop u docId left (attempt + 1) etag').2 := by
        rw [heq, patchReplies_patch_cons, patchReplies_get_cons]
      rw [hcons]
      refine ⟨?_, List.isChain_cons.mpr ⟨fun _ _ ↦ hstale, hrest.stale⟩⟩
      have hbounded := hrest.bounded
      simp
      omega

/-- The requests of a write are for its document. -/
theorem docId_of_mem_patchLoop {u : StatusUpdate} {docId : Raw} {left attempt : ℕ} {etag : Raw} :
    ∀ r ∈ (patchLoop u docId left attempt etag).2, r.docId = docId := by
  induction left generalizing attempt etag with
  | zero => simp [patchLoop]
  | succ left ih =>
    rcases patchLoop_succ u docId left attempt etag with
      ⟨requests, -, hrequests, heq, -⟩ | ⟨-, etag', heq⟩
    · rw [heq]
      exact List.forall_mem_cons.mpr ⟨rfl, hrequests⟩
    · rw [heq]
      exact List.forall_mem_cons.mpr ⟨rfl, List.forall_mem_cons.mpr ⟨rfl, ih⟩⟩

/-- A write ends on the answer to one of its PATCHes. -/
theorem patchLoop_settled (u : StatusUpdate) (docId : Raw) (left attempt : ℕ) (etag : Raw) :
    ∃ n, Settled (u.patch n) (patchLoop u docId left attempt etag).1 := by
  induction left generalizing attempt etag with
  | zero => exact ⟨attempt, .failed rfl⟩
  | succ left ih =>
    rcases patchLoop_succ u docId left attempt etag with ⟨-, -, -, -, h⟩ | ⟨-, etag', heq⟩
    · exact ⟨attempt, h⟩
    · rw [heq]
      exact ih (attempt + 1) etag'

/-! ## Every write of a run -/

namespace RunStatus

/-- What a write owes to the run, if the runtime holds `s`. -/
structure Holds (docId : Raw) (s : RunStatus) (u : StatusUpdate) : Prop where
  /-- It comes back, with a record if it succeeded, and what is kept then is a stub again. -/
  returns : ∃ result, (s.updateStatus u).1 = .ok result ∧
    (result.1 ≠ .null ↔ result.2.succeeded = true) ∧
    IsStub docId (s.applyStatusWrite result).runRecord
  /-- At most three PATCHes, each but the first after a stale etag. -/
  attempts : KeepsTrying 3 (patchReplies (s.updateStatus u).2)
  /-- All requests are for the document. -/
  addressed : ∀ r ∈ (s.updateStatus u).2, r.docId = docId
  /-- A first PATCH goes out. -/
  issued : patchReplies (s.updateStatus u).2 ≠ []

/-- The records with which the PATCHes of a write may be answered lie in `B`. -/
def AnsweredFrom (B : Set Raw) (u : StatusUpdate) : Prop :=
  ∀ n statusCode record, u.patch n = .response statusCode (some record) →
    statusCode = 200 ∨ statusCode = 201 → record ∈ B

variable {docId : Raw} {B : Set Raw} {s : RunStatus} {u : StatusUpdate}

theorem updateStatus_of_isStub (hs : IsStub docId s.runRecord) (u : StatusUpdate) :
    ∃ etag, s.updateStatus u = (.ok (patchLoop u docId statusPatchMaxAttempts 1 etag).1,
      (patchLoop u docId statusPatchMaxAttempts 1 etag).2) := by
  obtain ⟨etag, hetag⟩ := assertRunRecordShape_eq_ok hs.shape
  refine ⟨etag, ?_⟩
  rw [updateStatus, hs.id]
  simp only [hetag]

theorem runRecord_applyStatusWrite (s : RunStatus) (result : Raw × StatusWrite) :
    (s.applyStatusWrite result).runRecord =
      if result.2.succeeded then result.1 else s.runRecord := by
  rw [applyStatusWrite, recordStatusWrite]
  split
  · rfl
  · rfl

/-- **One write**: where the server answers with stubs, a stub is kept. -/
theorem holds_of_isStub (hB : ∀ b ∈ B, IsStub docId b) (hs : IsStub docId s.runRecord)
    (hu : AnsweredFrom B u) : Holds docId s u := by
  obtain ⟨etag, heq⟩ := updateStatus_of_isStub hs u
  refine ⟨⟨_, congrArg Prod.fst heq, ?_⟩, ?_, ?_, ?_⟩
  · rw [runRecord_applyStatusWrite]
    obtain ⟨n, hsettled⟩ := patchLoop_settled u docId statusPatchMaxAttempts 1 etag
    generalize (patchLoop u docId statusPatchMaxAttempts 1 etag).1 = result at hsettled ⊢
    cases hsettled with
    | failed h => simpa [h] using hs
    | accepted hcode h hanswer =>
      have hstub := hB _ (hu n _ _ hanswer hcode)
      simpa [h, hstub.ne_null] using hstub
  · rw [heq]
    exact patchLoop_keepsTrying u docId _ _ _
  · rw [heq]
    exact docId_of_mem_patchLoop
  · rw [heq, statusPatchMaxAttempts]
    rcases patchLoop_succ u docId 2 1 etag with ⟨requests, -, -, h, -⟩ | ⟨-, etag', h⟩
    · simp [h, patchReplies_patch_cons]
    · simp [h, patchReplies_patch_cons]

/-- **All writes of a run**: where the server answers with stubs, none raises. -/
theorem run_of_isStub (hB : ∀ b ∈ B, IsStub docId b) {us : List StatusUpdate}
    (hs : IsStub docId s.runRecord) (hus : ∀ u ∈ us, AnsweredFrom B u) :
    ∃ s', s.run us = .ok s' ∧ IsStub docId s'.runRecord := by
  induction us generalizing s with
  | nil => exact ⟨s, rfl, hs⟩
  | cons u us ih =>
    obtain ⟨hu, hus⟩ := List.forall_mem_cons.mp hus
    obtain ⟨result, hresult, -, hstub⟩ := (holds_of_isStub hB hs hu).returns
    rw [run, hresult]
    exact ih hstub hus

/-- **Status writes hold in every run** just when every record the server accepts a PATCH with is a
stub of the document. -/
theorem statusWrites_iff (docId : Raw) (B : Set Raw) :
    (∀ s : RunStatus, IsStub docId s.runRecord →
      ∀ us u, (∀ u' ∈ us ++ [u], AnsweredFrom B u') →
        ∃ s', s.run us = .ok s' ∧ Holds docId s' u) ↔
      ∀ b ∈ B, IsStub docId b := by
  constructor
  · intro h b hb
    let first : RunStatus := { runRecord := .dict [("_id", docId), ("_etag", .null)] }
    let u : StatusUpdate := ⟨"", .int 0, none, fun _ ↦ .response 200 (some b), fun _ ↦ .raised⟩
    have hu : ∀ u' ∈ [] ++ [u], AnsweredFrom B u' := by
      intro u' hu' n statusCode record hanswer _
      obtain rfl : u' = u := by simpa using hu'
      cases hanswer
      exact hb
    obtain ⟨s', hs', hholds⟩ := h first ⟨rfl, rfl⟩ [] u hu
    cases hs'
    obtain ⟨result, hresult, -, hstub⟩ := hholds.returns
    cases hresult
    exact hstub
  · intro hB s hs us u hus
    have hbefore : ∀ u' ∈ us, AnsweredFrom B u' :=
      fun u' hu' ↦ hus u' (List.mem_append_left _ hu')
    obtain ⟨s', hs', hstub⟩ := run_of_isStub hB hs hbefore
    exact ⟨s', hs', holds_of_isStub hB hstub (hus u (by simp))⟩

/-! ### An answer without an id -/

/-- A runtime that knows its document. -/
def started : RunStatus := { runRecord := .dict [("_id", .str "run"), ("_etag", .str "0")] }

/-- A write that the server accepts with this body. -/
def acceptedWith (body : Raw) : StatusUpdate :=
  ⟨"In Progress", .int 1, none, fun _ ↦ .response 200 (some body), fun _ ↦ .raised⟩

/-- After an answer without an id the next write raises; and an answer of `null` is a success
without a record. -/
theorem id_lost :
    IsStub (.str "run") started.runRecord ∧
    (started.updateStatus (acceptedWith (.dict [("_status", .str "OK")]))).1 =
      .ok (.dict [("_status", .str "OK")], .ok) ∧
    started.run [acceptedWith (.dict [("_status", .str "OK")]), acceptedWith .null] =
      .error .keyError ∧
    (started.updateStatus (acceptedWith .null)).1 = .ok (.null, .ok) :=
  ⟨⟨rfl, rfl⟩, rfl, rfl, rfl⟩

end RunStatus

end OpenRide.Simulation
