import Mathlib.Data.List.TakeWhile
import OpenRide.Lib.BreakOff
import OpenRide.Lib.Dict
import OpenRide.Lib.Machine
import OpenRide.Lib.Sorted

/-!
# The export of a run's KPI rows

The sink keeps the rows of a run in DuckDB, one for each metric and clock, where a later value
replaces an earlier one.  At the end of the run they are copied into a Mongo collection that takes
one document for each key and refuses a second.

Whether the copy is up to date is judged by the number of rows, and a refused document counts as
copied.  So new rows are always caught up with, but a new value for a row that was copied never gets
there (`exported_really`).
-/

namespace OpenRide.KpiSink

open Lib

/-! ## The store -/

/-- `run_export_state`: was the last export a success, and of how many rows? -/
structure ExportState where
  exported : Bool
  rowCount : ℕ

/-- `DuckDbKpiStore`, as far as one run goes.  A row is kept under its clock and metric. -/
structure KpiStore (K V : Type) where
  rows : Dict K V := Dict.empty
  pending : List (K × V) := []
  exportState : Option ExportState := none

/-- What happens to the store between the exports of a run, and during them. -/
inductive StoreOp (K V : Type) where
  | enqueue (key : K) (value : V)
  | flush

/-- The settings of the sink. -/
structure SinkSettings where
  batchMaxRows : ℕ
  exportToMongo : Bool
  forceReexport : Bool
  batchSize : ℕ

variable {K V : Type} [LinearOrder K] {cfg : SinkSettings}

namespace KpiStore

variable (s : KpiStore K V)

/-- The rows with those still buffered. -/
def latest : Dict K V := s.rows.update s.pending

/-- `flush`. -/
def flush : KpiStore K V := { s with rows := s.latest, pending := [] }

/-- `enqueue`. -/
def enqueue (cfg : SinkSettings) (key : K) (value : V) : KpiStore K V :=
  let s := { s with pending := s.pending ++ [(key, value)] }
  if cfg.batchMaxRows ≤ s.pending.length then s.flush else s

def apply (cfg : SinkSettings) : StoreOp K V → KpiStore K V
  | .enqueue key value => s.enqueue cfg key value
  | .flush => s.flush

def applyAll (cfg : SinkSettings) (ops : List (StoreOp K V)) : KpiStore K V :=
  ops.foldl (fun s op ↦ s.apply cfg op) s

end KpiStore

/-! ## The collection -/

/-- How `insert_many` ends for a batch.  It goes through all documents, and some fail for another
reason than their key; or it raises `DuplicateKeyError`, and `insert_one` raises something else for
some of the documents; or it raises something else.  In the last two cases some documents are in. -/
inductive BatchOutcome (K : Type) where
  | answered (fails : K → Bool)
  | duplicateKey (stored fails : K → Bool)
  | raised (stored : K → Bool)

/-- One `insert_one` after the other, until one raises something else than `DuplicateKeyError`. -/
def insertOneByOne (fails : K → Bool) : List (K × V) → Dict K V → Attempted (Dict K V) Unit
  | [], docs => ⟨docs, some ()⟩
  | doc :: chunk, docs =>
    if fails doc.1 then ⟨docs, none⟩
    else insertOneByOne fails chunk (docs.setDefault doc.1 doc.2)

/-- One batch.  Documents whose key is taken are refused, and that is no error. -/
def insertBatch (outcome : BatchOutcome K) (chunk : List (K × V)) (docs : Dict K V) :
    Attempted (Dict K V) Unit :=
  match outcome with
  | .answered fails =>
    ⟨docs.setDefaults (chunk.filter fun doc ↦ !fails doc.1),
      if chunk.any fun doc ↦ fails doc.1 then none else some ()⟩
  | .duplicateKey stored fails =>
    insertOneByOne fails chunk (docs.setDefaults (chunk.filter fun doc ↦ stored doc.1))
  | .raised stored => ⟨docs.setDefaults (chunk.filter fun doc ↦ stored doc.1), none⟩

/-- The batches of `_insert_batches`. -/
def insertBatchesFrom (outcome : ℕ → BatchOutcome K) : ℕ → List (List (K × V)) → Dict K V →
    Attempted (Dict K V) Unit
  | _, [], docs => ⟨docs, some ()⟩
  | k, chunk :: chunks, docs =>
    (insertBatch (outcome k) chunk docs).andThen fun _ docs ↦
      insertBatchesFrom outcome (k + 1) chunks docs

/-- `_insert_batches`; `range` refuses a step of zero. -/
def insertBatches (cfg : SinkSettings) (outcome : ℕ → BatchOutcome K) (rows : List (K × V))
    (docs : Dict K V) : Attempted (Dict K V) Unit :=
  if cfg.batchSize = 0 then ⟨docs, none⟩
  else insertBatchesFrom outcome 0 (chunksOf cfg.batchSize rows) docs

/-! ## An export -/

/-- A run in the sink and in the collection, where a key has one document. -/
structure Sink (K V : Type) where
  store : KpiStore K V := {}
  docs : Dict K V := Dict.empty

/-- What goes on while `export_run` is at work: what happens to the store before the rows are
counted, before the state is looked up, before the rows are read, and before the new state is
written; and how the inserts end. -/
structure Surroundings (K V : Type) where
  counting : List (StoreOp K V) := []
  deciding : List (StoreOp K V) := []
  fetching : List (StoreOp K V) := []
  inserting : List (StoreOp K V) := []
  outcome : ℕ → BatchOutcome K := fun _ ↦ .answered fun _ ↦ false

/-- What `export_run` returns. -/
inductive ExportResult where
  | disabled
  | alreadyExported
  | exported
  | failed
deriving DecidableEq

namespace Sink

variable (s : Sink K V) (cfg : SinkSettings) (env : Surroundings K V)

/-- The store when the rows are counted. -/
def counted : KpiStore K V := (s.store.flush.applyAll cfg env.counting).flush

/-- The store when the export state is looked up. -/
def decided : KpiStore K V := ((s.counted cfg env).applyAll cfg env.deciding).flush

/-- The store when the rows are read. -/
def fetched : KpiStore K V := ((s.decided cfg env).applyAll cfg env.fetching).flush

/-- Is the last export taken to be good enough? -/
def upToDate : Bool :=
  match (s.decided cfg env).exportState with
  | some state =>
    state.exported && !cfg.forceReexport && (s.counted cfg env).rows.size ≤ state.rowCount
  | none => false

/-- `export_run`. -/
def exportRun : Sink K V × ExportResult :=
  if !cfg.exportToMongo then (s, .disabled)
  else if s.upToDate cfg env then ({ s with store := s.decided cfg env }, .alreadyExported)
  else
    let store := s.fetched cfg env
    if store.rows.entries = [] then
      ({ s with store := { store with exportState := some ⟨true, 0⟩ } }, .exported)
    else
      let inserted := insertBatches cfg env.outcome (sortedBy Prod.fst store.rows.entries) s.docs
      let store := store.applyAll cfg env.inserting
      match inserted.result with
      | some () =>
        ({ store := { store with exportState := some ⟨true, (s.counted cfg env).rows.size⟩ }
           docs := inserted.state }, .exported)
      | none =>
        ({ store := { store with exportState := some ⟨false, 0⟩ }
           docs := inserted.state }, .failed)

end Sink

/-- What happens to a run: something happens to its rows, or it is exported. -/
inductive SinkEvent (K V : Type) where
  | store (op : StoreOp K V)
  | exportRun (env : Surroundings K V)

/-- The sink of a run. -/
def sink (cfg : SinkSettings) : Machine (Sink K V) (SinkEvent K V) where
  step s
    | .store op => some { s with store := s.store.apply cfg op }
    | .exportRun env => some (s.exportRun cfg env).1

/-! ## The rows -/

/-- Everything bound in one dictionary is bound to the same value in another. -/
def Within (d e : Dict K V) : Prop := ∀ k v, d.get? k = some v → e.get? k = some v

/-- What arrives has no other value than the one known. -/
def Keeps (known : Dict K V) : StoreOp K V → Prop
  | .enqueue key value => ∀ v, known.get? key = some v → v = value
  | .flush => True

namespace KpiStore

variable {s : KpiStore K V}

theorem latest_enqueue (key : K) (value : V) :
    (s.enqueue cfg key value).latest = s.latest.set key value := by
  have hupdate : s.rows.update (s.pending ++ [(key, value)]) = s.latest.set key value :=
    List.foldl_append
  rw [enqueue]
  split <;> exact hupdate

theorem apply_exportState (op : StoreOp K V) : (s.apply cfg op).exportState = s.exportState := by
  cases op with
  | flush => rfl
  | enqueue key value =>
    rw [apply, enqueue]
    split <;> rfl

/-- What is known stays right as long as it is only confirmed. -/
theorem within_apply {known : Dict K V} {op : StoreOp K V} (h : Within known s.latest)
    (hop : Keeps known op) : Within known (s.apply cfg op).latest := by
  cases op with
  | flush => exact h
  | enqueue key value =>
    intro k v hk
    rw [apply, latest_enqueue, Dict.get?_set]
    split
    · next heq =>
      subst heq
      rw [hop v hk]
    · exact h k v hk

theorem size_apply (op : StoreOp K V) : s.latest.size ≤ (s.apply cfg op).latest.size := by
  cases op with
  | flush => exact le_refl _
  | enqueue key value =>
    rw [apply, latest_enqueue, Dict.size_set]
    split <;> omega

variable (ops : List (StoreOp K V))

theorem applyAll_exportState : (s.applyAll cfg ops).exportState = s.exportState := by
  induction ops generalizing s with
  | nil => rfl
  | cons op ops ih => exact ih.trans (apply_exportState op)

theorem size_applyAll : s.latest.size ≤ (s.applyAll cfg ops).latest.size := by
  induction ops generalizing s with
  | nil => exact le_refl _
  | cons op ops ih => exact (size_apply op).trans (ih (s := s.apply cfg op))

variable {ops}

theorem within_applyAll {known : Dict K V} (h : Within known s.latest)
    (hops : ∀ op ∈ ops, Keeps known op) : Within known (s.applyAll cfg ops).latest := by
  induction ops generalizing s with
  | nil => exact h
  | cons op ops ih =>
    exact ih (within_apply h (hops op List.mem_cons_self))
      fun op' hop' ↦ hops op' (List.mem_cons_of_mem _ hop')

theorem applyAll_flushes (hs : s.flush = s) (hops : ∀ op ∈ ops, op = .flush) :
    s.applyAll cfg ops = s := by
  induction ops with
  | nil => rfl
  | cons op ops ih =>
    rw [applyAll, List.foldl_cons, hops op List.mem_cons_self, apply, hs]
    exact ih fun op' hop' ↦ hops op' (List.mem_cons_of_mem _ hop')

end KpiStore

/-! ## The inserts -/

/-- Documents are only added, and what is added is among the rows. -/
structure Grows (docs : Dict K V) (rows : List (K × V)) (docs' : Dict K V) : Prop where
  kept : Within docs docs'
  source : ∀ k v, docs'.get? k = some v → docs.get? k = some v ∨ (k, v) ∈ rows

/-- Every row has a document. -/
def Covers (docs : Dict K V) (rows : List (K × V)) : Prop := ∀ r ∈ rows, docs.get? r.1 ≠ none

variable {docs docs' docs'' : Dict K V} {rows chunk : List (K × V)}

theorem Grows.refl (docs : Dict K V) (rows : List (K × V)) : Grows docs rows docs :=
  ⟨fun _ _ h ↦ h, fun _ _ ↦ Or.inl⟩

theorem Grows.trans (h : Grows docs rows docs') (h' : Grows docs' rows docs'') :
    Grows docs rows docs'' :=
  ⟨fun k v hk ↦ h'.kept k v (h.kept k v hk), fun k v hk ↦
      (h'.source k v hk).elim (h.source k v) Or.inr⟩

theorem Grows.covers (h : Grows docs rows docs') (hc : Covers docs chunk) : Covers docs' chunk := by
  intro r hr
  obtain ⟨v, hv⟩ := Option.ne_none_iff_exists'.mp (hc r hr)
  exact h.kept r.1 v hv ▸ Option.some_ne_none v

variable (docs) in
theorem grows_setDefault {doc : K × V} (hdoc : doc ∈ rows) :
    Grows docs rows (docs.setDefault doc.1 doc.2) ∧
      (docs.setDefault doc.1 doc.2).get? doc.1 ≠ none := by
  refine ⟨⟨fun k v hk ↦ ?_, fun k v hk ↦ ?_⟩, ?_⟩
  · rw [Dict.get?_setDefault]
    split
    · next heq => rw [← heq, hk, Option.getD_some]
    · exact hk
  · rw [Dict.get?_setDefault] at hk
    split at hk
    · next heq =>
      subst heq
      cases hget : docs.get? doc.1 with
      | some w => exact Or.inl (by rwa [hget] at hk)
      | none =>
        rw [hget] at hk
        exact Or.inr (Option.some.inj hk ▸ hdoc)
    · exact Or.inl hk
  · rw [Dict.get?_setDefault, if_pos rfl]
    exact Option.some_ne_none _

variable (docs) in
theorem grows_setDefaults (h : chunk ⊆ rows) :
    Grows docs rows (docs.setDefaults chunk) ∧ Covers (docs.setDefaults chunk) chunk := by
  induction chunk generalizing docs with
  | nil => exact ⟨Grows.refl docs rows, nofun⟩
  | cons doc chunk ih =>
    obtain ⟨hgrows, hdoc⟩ := grows_setDefault docs (h List.mem_cons_self)
    obtain ⟨hrest, hcovers⟩ := ih (docs.setDefault doc.1 doc.2) (List.subset_of_cons_subset h)
    refine ⟨hgrows.trans hrest, fun r hr ↦ ?_⟩
    rcases List.mem_cons.mp hr with rfl | hr
    · have hone : Covers (docs.setDefault r.1 r.2) [r] := fun _ h ↦ List.mem_singleton.mp h ▸ hdoc
      exact hrest.covers hone r List.mem_cons_self
    · exact hcovers r hr

theorem insertOneByOne_eq (fails : K → Bool) : insertOneByOne fails chunk docs =
    ⟨docs.setDefaults (chunk.takeWhile fun doc ↦ !fails doc.1),
      if chunk.any fun doc ↦ fails doc.1 then none else some ()⟩ := by
  induction chunk generalizing docs with
  | nil => rfl
  | cons doc chunk ih =>
    rw [insertOneByOne]
    cases hfails : fails doc.1 with
    | true => simp [hfails, Dict.setDefaults]
    | false =>
      rw [if_neg Bool.false_ne_true, ih, List.takeWhile_cons_of_pos (by rw [hfails]; rfl),
        List.any_cons, hfails, Bool.false_or]
      rfl

variable (docs) in
/-- **A batch** adds documents of its rows, all of them unless it raises. -/
theorem insertBatch_spec (outcome : BatchOutcome K) (h : chunk ⊆ rows) :
    Grows docs rows (insertBatch outcome chunk docs).state ∧
      ((insertBatch outcome chunk docs).result = some () →
        Covers (insertBatch outcome chunk docs).state chunk) := by
  have hnone {fails : K → Bool}
      (hok : (if chunk.any fun doc ↦ fails doc.1 then none else some ()) = some ()) :
      ∀ doc ∈ chunk, (!fails doc.1) = true := by
    simpa using hok
  have hfilter (p : K × V → Bool) : chunk.filter p ⊆ rows :=
      fun r hr ↦ h (List.mem_of_mem_filter hr)
  cases outcome with
  | answered fails =>
    obtain ⟨hgrows, hcovers⟩ := grows_setDefaults docs (hfilter fun doc ↦ !fails doc.1)
    refine ⟨hgrows, fun hok ↦ ?_⟩
    rw [List.filter_eq_self.mpr (hnone hok)] at hcovers
    rwa [insertBatch, List.filter_eq_self.mpr (hnone hok)]
  | duplicateKey stored fails =>
    have hstored := (grows_setDefaults docs (hfilter fun doc ↦ stored doc.1)).1
    rw [insertBatch, insertOneByOne_eq]
    obtain ⟨hgrows, hcovers⟩ := grows_setDefaults
      (docs.setDefaults (chunk.filter fun doc ↦ stored doc.1))
      (fun r hr ↦ h ((List.takeWhile_sublist fun doc : K × V ↦ !fails doc.1).subset hr))
    refine ⟨hstored.trans hgrows, fun hok ↦ ?_⟩
    rwa [List.takeWhile_eq_self_iff.mpr (hnone hok)] at hcovers ⊢
  | raised stored => exact ⟨(grows_setDefaults docs (hfilter _)).1, nofun⟩

variable (docs) in
theorem insertBatchesFrom_spec (outcome : ℕ → BatchOutcome K) (k : ℕ) {chunks : List (List (K × V))}
    (h : chunks.flatten ⊆ rows) :
    Grows docs rows (insertBatchesFrom outcome k chunks docs).state ∧
      ((insertBatchesFrom outcome k chunks docs).result = some () →
        Covers (insertBatchesFrom outcome k chunks docs).state chunks.flatten) := by
  induction chunks generalizing k docs with
  | nil => exact ⟨Grows.refl docs rows, fun _ _ hr ↦ absurd hr List.not_mem_nil⟩
  | cons chunk chunks ih =>
    rw [List.flatten_cons, List.append_subset] at h
    obtain ⟨hgrows, hcovers⟩ := insertBatch_spec docs (outcome k) h.1
    rw [insertBatchesFrom, Attempted.andThen]
    cases hresult : (insertBatch (outcome k) chunk docs).result with
    | none => exact ⟨hgrows, fun hsome ↦ by cases hsome⟩
    | some u =>
      obtain ⟨hrest, hcovers'⟩ := ih (insertBatch (outcome k) chunk docs).state (k + 1) h.2
      refine ⟨hgrows.trans hrest, fun hok r hr ↦ ?_⟩
      rcases List.mem_append.mp hr with hr | hr
      · exact hrest.covers (hcovers hresult) r hr
      · exact hcovers' hok r hr

/-- **The inserts** add documents of the rows, all of them unless they raise. -/
theorem insertBatches_spec (outcome : ℕ → BatchOutcome K) :
    Grows docs rows (insertBatches cfg outcome rows docs).state ∧
      ((insertBatches cfg outcome rows docs).result = some () →
        Covers (insertBatches cfg outcome rows docs).state rows) := by
  rw [insertBatches]
  split
  · exact ⟨Grows.refl docs rows, nofun⟩
  · next hsize =>
    have hflatten := flatten_chunksOf (Nat.pos_of_ne_zero hsize) rows
    have hspec := insertBatchesFrom_spec docs outcome 0 (hflatten ▸ List.Subset.refl rows)
    rwa [hflatten] at hspec

/-! ## What holds between exports -/

/-- Every document is up to date, and there are as many as the last export says. -/
structure Archived (s : Sink K V) : Prop where
  known : Within s.docs s.store.latest
  counted : ∀ state, s.store.exportState = some state → state.exported →
      state.rowCount ≤ s.docs.size

/-- No row changes the value of one that is in the collection, or on its way. -/
def ConfirmsExported (cfg : SinkSettings) (s : Sink K V) : SinkEvent K V → Prop
  | .store op => Keeps s.docs op
  | .exportRun env =>
    (∀ op ∈ env.counting ++ env.deciding ++ env.fetching, Keeps s.docs op) ∧
      ∀ op ∈ env.inserting, Keeps (s.fetched cfg env).rows op

/-- No row arrives during the call. -/
def Surroundings.Quiet (env : Surroundings K V) : Prop :=
  ∀ op ∈ env.counting ++ env.deciding ++ env.fetching ++ env.inserting, op = .flush

/-- The documents are the rows. -/
def SameRows (s : Sink K V) : Prop := ∀ k, s.docs.get? k = s.store.rows.get? k

/-- **An export that returns without an error has exported**: if no row arrived meanwhile, the
documents are the rows, one for each key. -/
def ReallyExported (cfg : SinkSettings) (s : Sink K V) (e : SinkEvent K V) (t : Sink K V) : Prop :=
  ∀ env, e = .exportRun env → env.Quiet → cfg.exportToMongo = true →
    (s.exportRun cfg env).2 ≠ .failed → SameRows t ∧ t.docs.keys.Nodup

theorem archived_empty : Archived ({} : Sink K V) :=
  ⟨fun _ _ h ↦ (nomatch h), nofun⟩

/-- As many documents as rows are all of them. -/
theorem sameRows_of_size {d : Dict K V} (h : Within docs d) (hsize : d.size ≤ docs.size) (k : K) :
    docs.get? k = d.get? k := by
  cases hdoc : docs.get? k with
  | some v => exact (h k v hdoc).symm
  | none =>
    refine (not_not.mp fun hrow ↦ Dict.get?_ne_none_of_size_le (fun x hx ↦ ?_) hsize hrow hdoc).symm
    obtain ⟨v, hv⟩ := Option.ne_none_iff_exists'.mp hx
    exact h x v hv ▸ Option.some_ne_none v

theorem size_le_of_covers {d : Dict K V} (h : Covers docs d.entries) : d.size ≤ docs.size := by
  have hkeys : d.keys ⊆ docs.keys := by
    intro k hk
    obtain ⟨r, hr, rfl⟩ := List.mem_map.mp hk
    exact Dict.mem_keys_iff.mpr (Option.ne_none_iff_exists'.mp (h r hr))
  have hlength := (List.subperm_of_subset d.nodup hkeys).length_le
  rwa [Dict.keys, List.length_map, List.length_map] at hlength

section Export

variable {s : Sink K V} {env : Surroundings K V}

/-- The documents are up to date when the rows are read. -/
theorem Archived.within_fetched (h : Archived s) (hC : ConfirmsExported cfg s (.exportRun env)) :
    Within s.docs (s.decided cfg env).latest ∧ Within s.docs (s.fetched cfg env).latest := by
  have hcounted : Within s.docs (s.counted cfg env).latest :=
    KpiStore.within_applyAll (s := s.store.flush) h.known fun op hop ↦
      hC.1 op (List.mem_append_left _ (List.mem_append_left _ hop))
  have hdecided : Within s.docs (s.decided cfg env).latest :=
    KpiStore.within_applyAll hcounted fun op hop ↦
      hC.1 op (List.mem_append_left _ (List.mem_append_right _ hop))
  exact ⟨hdecided, KpiStore.within_applyAll hdecided fun op hop ↦
    hC.1 op (List.mem_append_right _ hop)⟩

theorem decided_exportState : (s.decided cfg env).exportState = s.store.exportState :=
  (@KpiStore.applyAll_exportState K V _ cfg (s.counted cfg env) _).trans
    (@KpiStore.applyAll_exportState K V _ cfg s.store.flush _)

/-- Nothing happens to the rows while no row arrives. -/
theorem Surroundings.Quiet.fetched_eq (hq : env.Quiet) : s.decided cfg env = s.counted cfg env ∧
    s.fetched cfg env = s.counted cfg env ∧
      (s.fetched cfg env).applyAll cfg env.inserting = s.fetched cfg env := by
  simp only [Surroundings.Quiet, List.mem_append, or_imp, forall_and] at hq
  obtain ⟨⟨⟨-, hdeciding⟩, hfetching⟩, hinserting⟩ := hq
  have hdecided : s.decided cfg env = (s.counted cfg env).flush :=
    congrArg KpiStore.flush (KpiStore.applyAll_flushes rfl hdeciding)
  have hfetched : s.fetched cfg env = (s.decided cfg env).flush :=
    congrArg KpiStore.flush (KpiStore.applyAll_flushes rfl hfetching)
  exact ⟨hdecided, hfetched.trans hdecided, KpiStore.applyAll_flushes rfl hinserting⟩

theorem size_counted_le : (s.counted cfg env).rows.size ≤ (s.fetched cfg env).rows.size :=
  (KpiStore.size_applyAll (s := s.counted cfg env) env.deciding).trans
    (KpiStore.size_applyAll (s := s.decided cfg env) env.fetching)

theorem Archived.of_upToDate (h : Archived s) (hup : s.upToDate cfg env = true) :
    (s.counted cfg env).rows.size ≤ s.docs.size := by
  rw [Sink.upToDate, decided_exportState] at hup
  split at hup
  · next state hstate =>
    simp only [Bool.and_eq_true, decide_eq_true_eq] at hup
    exact hup.2.trans (h.counted state hstate hup.1.1)
  · cases hup

/-- **An export** leaves every document up to date, and the documents are the rows if it returns
without an error. -/
theorem Archived.exportRun (h : Archived s) (hC : ConfirmsExported cfg s (.exportRun env)) :
    Archived (s.exportRun cfg env).1 ∧ (env.Quiet → cfg.exportToMongo = true →
      (s.exportRun cfg env).2 ≠ .failed → SameRows (s.exportRun cfg env).1) := by
  obtain ⟨hdecided, hfetched⟩ := h.within_fetched hC
  rw [Sink.exportRun]
  split
  · next hdisabled => exact ⟨h, fun _ henabled ↦ by simp [henabled] at hdisabled⟩
  split
  · next hup =>
    refine ⟨⟨hdecided, fun state hstate ↦ h.counted state ?_⟩, fun hq _ _ ↦
      sameRows_of_size hdecided ?_⟩
    · rwa [← @decided_exportState K V _ cfg s env]
    · rw [hq.fetched_eq.1]
      exact h.of_upToDate hup
  dsimp only
  split
  · next hempty =>
    refine ⟨⟨hfetched, fun state hstate _ ↦ ?_⟩, fun _ _ _ ↦ sameRows_of_size hfetched ?_⟩
    · cases hstate
      exact Nat.zero_le _
    · show (s.fetched cfg env).rows.size ≤ _
      rw [Dict.size, hempty]
      exact Nat.zero_le _
  · obtain ⟨hgrows, hcovers⟩ := @insertBatches_spec K V _ cfg s.docs
      (sortedBy Prod.fst (s.fetched cfg env).rows.entries) env.outcome
    generalize insertBatches cfg env.outcome _ s.docs = inserted at hgrows hcovers ⊢
    -- what is inserted are rows, and what is in already agrees with them
    have hrows : Within inserted.state (s.fetched cfg env).rows := fun k v hk ↦
      (hgrows.source k v hk).elim (hfetched k v) fun hmem ↦
        Dict.mem_entries_iff.mp (mem_sortedBy.mp hmem)
    have hafter : Within inserted.state ((s.fetched cfg env).applyAll cfg env.inserting).latest :=
      fun k v hk ↦ KpiStore.within_applyAll (s := s.fetched cfg env) (fun _ _ hrow ↦ hrow) hC.2 k v
        (hrows k v hk)
    cases hresult : inserted.result with
    | none => exact ⟨⟨hafter,
      fun state hstate hexported ↦ by cases hstate; cases hexported⟩, by simp⟩
    | some u =>
      have hsize := size_le_of_covers fun r hr ↦ hcovers hresult r (mem_sortedBy.mpr hr)
      refine ⟨⟨hafter, fun state hstate _ ↦ ?_⟩, fun hq _ _ k ↦ ?_⟩
      · cases hstate
        exact size_counted_le.trans hsize
      · dsimp only
        rw [hq.fetched_eq.2.2]
        exact sameRows_of_size hrows hsize k

end Export

/-- **Every export that returns without an error has exported the run**, in every run in which no
row changes the value of one that was exported. -/
theorem exported_really (cfg : SinkSettings) (es : List (SinkEvent K V))
    (hC : (sink cfg).Along (fun s e _ ↦ ConfirmsExported cfg s e) {} es) :
    (sink cfg).Along (ReallyExported cfg) {} es := by
  refine Machine.Along.imp_of (fun s e t hI hC hstep ↦ ?_) archived_empty es hC
  cases e with
  | store op =>
    obtain rfl := Option.some.inj hstep
    refine ⟨nofun, KpiStore.within_apply hI.known hC, ?_⟩
    rw [KpiStore.apply_exportState]
    exact hI.counted
  | exportRun env =>
    obtain rfl := Option.some.inj hstep
    obtain ⟨hkept, hsame⟩ := hI.exportRun hC
    refine ⟨fun env' henv hq henabled hok ↦ ?_, hkept⟩
    cases henv
    exact ⟨hsame hq henabled hok, Dict.nodup _⟩

/-- The settings the sink comes with. -/
def defaultSettings : SinkSettings where
  batchMaxRows := 500
  exportToMongo := true
  forceReexport := false
  batchSize := 1000

instance (known : Dict ℕ ℕ) : DecidablePred (Keeps known)
  | .enqueue key value => inferInstanceAs (Decidable (∀ v ∈ known.get? key, v = value))
  | .flush => isTrue trivial

instance (s : Sink ℕ ℕ) : DecidablePred (ConfirmsExported defaultSettings s)
  | .store op => inferInstanceAs (Decidable (Keeps s.docs op))
  | .exportRun _ => inferInstanceAs (Decidable (_ ∧ _))

/-- A value is replaced before the first export, a row arrives during it, and a copied row comes
again before the second one. -/
theorem exported_once : (sink defaultSettings).Along (ReallyExported defaultSettings)
    ({} : Sink ℕ ℕ)
      [.store (.enqueue 2 7), .store (.enqueue 1 4), .store (.enqueue 1 5),
        .exportRun { inserting := [.enqueue 3 9] }, .store (.enqueue 2 7), .store .flush,
        .store (.enqueue 4 1), .exportRun {}] :=
  exported_really defaultSettings _ (by decide +kernel)

/-- A value that is replaced after the export stays as it was in the collection. -/
theorem replaced_value_is_not_exported : ¬ (sink defaultSettings).Along
    (ReallyExported defaultSettings) ({} : Sink ℕ ℕ)
      [.store (.enqueue 1 5), .exportRun {}, .store (.enqueue 1 6), .exportRun {}] := by
  intro h
  have hlast := ((((h _ rfl).2 _ rfl).2 _ rfl).2 _ rfl).1 {} rfl (by simp [Surroundings.Quiet]) rfl
    (by decide +kernel)
  have hdoc := hlast.1 1
  revert hdoc
  decide +kernel

end OpenRide.KpiSink
