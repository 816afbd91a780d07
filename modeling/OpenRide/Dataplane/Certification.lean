import OpenRide.Dataplane.Archive

/-!
# Closed summaries and blocked topics

A topic that is blocked holds rows that never reached the working set, so a summary that closes a
run while one is blocked declares a run archived that is not.  The service asks for the blocked
topics once, before a dump starts, and the sweep never does.

What goes wrong takes one of two steps (`Careful` excludes both): a dump about which nothing was
said finds its run terminal while a topic is blocked, or a topic becomes blocked while a dump that
is going to close its run is under way.  Without them no closed summary is ever written while a
topic is blocked (`never_certified_while_blocked`).  `sweep_closes_an_open_run` is the run that
takes the first: the summary the service left open is closed by the next sweep.
-/

namespace OpenRide.Dataplane

open Lib

variable {cfg : ArchiveConfig} {s : ArchiveService} {io : ArchiveIo}

/-! ## The steps that may go wrong -/

/-- The topics other than `run_status` that are blocked. -/
def ArchiveService.blocked (cfg : ArchiveConfig) (s : ArchiveService) : List String :=
  s.consumer.blockedElsewhere cfg

/-- A dump that is going to close its run. -/
def DumpSection.closing : DumpSection → Bool
  | .archiveDump _ _ complete => complete = some true
  | .dumpFrames _ _ terminal => terminal
  | .dumpWatermarks _ _ terminal => terminal
  | .dumpKpi v => v.terminal
  | .dumpBreakdown v => v.terminal
  | .dumpSummary v => v.terminal
  | _ => false

/-- A dump about which nothing was said finds its run terminal. -/
def DumpSection.findsTerminal (s : ArchiveService) (io : ArchiveIo) : DumpSection → Bool
  | .probeMeta r _ => io.reads ∧ isTerminalStatus (s.runOf r).status
  | .probeExport r _ => io.reads ∧ isTerminalStatus (s.runOf r).exportStatus
  | _ => false

/-- The consumer after a section, if it is one that changes its book. -/
def DumpSection.consumerAfter (cfg : ArchiveConfig) (s : ArchiveService) (io : ArchiveIo) :
    DumpSection → Option Consumer
  | .consume op => some (s.consumer.run cfg.toConsumerConfig op)
  | .finalizeFlush => some (s.consumer.flushWrites cfg.toConsumerConfig io.flush).1
  | _ => none

/-- No dump finds its run terminal while a topic is blocked, and no topic is blocked while a dump
that is going to close its run is under way. -/
def Careful (cfg : ArchiveConfig) (p : Process ArchiveService DumpSection) :
    Move DumpCall ArchiveIo → Prop
  | .run i io => ∀ c ∈ Sections.nextSection p i,
      (c.findsTerminal p.state io = true → p.state.blocked cfg = []) ∧
      ∀ consumer ∈ c.consumerAfter cfg p.state io,
        consumer.blockedElsewhere cfg = [] ∨ ∀ d ∈ Sections.pending p, d.closing = false
  | _ => True

instance (cfg : ArchiveConfig) (p : Process ArchiveService DumpSection)
    (m : Move DumpCall ArchiveIo) : Decidable (Careful cfg p m) :=
  match m with
  | .call _ => inferInstanceAs (Decidable True)
  | .run i io => inferInstanceAs (Decidable (∀ c ∈ Sections.nextSection p i,
      (c.findsTerminal p.state io = true → p.state.blocked cfg = []) ∧
      ∀ consumer ∈ c.consumerAfter cfg p.state io,
        consumer.blockedElsewhere cfg = [] ∨ ∀ d ∈ Sections.pending p, d.closing = false))
  | .restart => inferInstanceAs (Decidable True)

/-! ## What a section does -/

/-- What any section does to the consumer's book, to the summaries written and to the dumps that
are under way. -/
structure Effects (cfg : ArchiveConfig) (s : ArchiveService) (io : ArchiveIo) (c : DumpSection)
    (out : DumpEffect) : Prop where
  consumer : out.state.consumer = (c.consumerAfter cfg s io).getD s.consumer
  written : out.state.written = s.written ∨ ∃ v, c = .dumpSummary v ∧
    out.state.written = s.written ++ [⟨v.runId, v.terminal, s.blocked cfg⟩]
  closing : ∀ d ∈ out.todo, d.closing = true → c.closing = true ∨ c.findsTerminal s io = true

variable {c : DumpSection} {t : ArchiveService}

/-- A section that goes on with nothing that closes a run. -/
theorem effects_next {todo : List DumpSection}
    (hconsumer : t.consumer = (c.consumerAfter cfg s io).getD s.consumer)
    (hwritten : t.written = s.written) (htodo : ∀ d ∈ todo, d.closing = false) :
    Effects cfg s io c (.next t todo) :=
  ⟨hconsumer, Or.inl hwritten, fun d hd hclosing ↦
    absurd (hclosing.symm.trans (htodo d hd)) Bool.noConfusion⟩

theorem effects_raise (hconsumer : t.consumer = (c.consumerAfter cfg s io).getD s.consumer)
    (hwritten : t.written = s.written) : Effects cfg s io c (.raise t) :=
  ⟨hconsumer, Or.inl hwritten, fun _ hd ↦ absurd hd List.not_mem_nil⟩

theorem effects_dump {d : DumpSection}
    (hconsumer : t.consumer = (c.consumerAfter cfg s io).getD s.consumer)
    (hwritten : t.written = s.written)
    (hclosing : d.closing = true → c.closing = true ∨ c.findsTerminal s io = true) :
    Effects cfg s io c (.next t [d]) :=
  ⟨hconsumer, Or.inl hwritten, fun e he ↦ by
    obtain rfl := List.mem_singleton.mp he
    exact hclosing⟩

theorem nothing_closing : ∀ d ∈ ([] : List DumpSection), d.closing = false :=
  fun _ hd ↦ absurd hd List.not_mem_nil

/-- The dumps of a sweep have no verdict yet. -/
theorem sweepDumps_closing (pending : List String) :
    ∀ d ∈ ArchiveService.sweepDumps pending, d.closing = false := by
  intro d hd
  obtain ⟨r, -, hd⟩ := List.mem_flatMap.mp hd
  simp only [List.mem_cons, List.not_mem_nil, or_false] at hd
  obtain rfl | rfl := hd <;> rfl

/-- Nor has a dump of the service, unless it is to stay open. -/
theorem dumpRun_effects (r reason : String) :
    Effects cfg s io (.dumpRun r reason) (s.dumpRun cfg io r reason) := by
  rw [ArchiveService.dumpRun]
  split
  · refine effects_next rfl rfl fun d hd ↦ ?_
    simp only [List.mem_cons, List.not_mem_nil, or_false] at hd
    obtain rfl | rfl | rfl | rfl | rfl := hd
    · split <;> rfl
    all_goals rfl
  · exact effects_next rfl rfl nothing_closing

theorem dumpKpi_effects (v : DumpVars) : Effects cfg s io (.dumpKpi v) (s.dumpKpi io v) := by
  rw [ArchiveService.dumpKpi]
  split
  · split
    · exact effects_dump rfl rfl Or.inl
    · exact effects_raise rfl rfl
  · split
    · exact effects_raise rfl rfl
    · split
      · exact effects_dump rfl rfl Or.inl
      · exact effects_raise rfl rfl

theorem dumpBreakdown_effects (v : DumpVars) :
    Effects cfg s io (.dumpBreakdown v) (s.dumpBreakdown io v) := by
  rw [ArchiveService.dumpBreakdown]
  split
  · split
    · exact effects_dump rfl rfl Or.inl
    · exact effects_raise rfl rfl
  · split
    · split
      · exact effects_dump rfl rfl fun h ↦ absurd h Bool.noConfusion
      · exact effects_raise rfl rfl
    · split
      · exact effects_dump rfl rfl Or.inl
      · exact effects_raise rfl rfl

theorem dumpSummary_effects (v : DumpVars) :
    Effects cfg s io (.dumpSummary v) (s.dumpSummary cfg io v) := by
  rw [ArchiveService.dumpSummary]
  split
  · dsimp only
    split
    · exact ⟨rfl, Or.inr ⟨v, rfl, rfl⟩, fun d hd ↦ absurd hd List.not_mem_nil⟩
    · exact ⟨rfl, Or.inr ⟨v, rfl, rfl⟩, fun d hd ↦ absurd hd List.not_mem_nil⟩
  · exact effects_raise rfl rfl

/-- **What any section does**: it changes the consumer's book only as the consumer does, writes at
most the summary of a dump, and goes on with a dump that closes its run only if it was part of one
or has just found the run terminal. -/
theorem section_effects (c : DumpSection) : Effects cfg s io c (c.run cfg s io) := by
  cases c with
  | consume op => exact effects_next rfl rfl nothing_closing
  | rowsArrive r rows => exact effects_next rfl rfl nothing_closing
  | finalizeFlush =>
    simp only [DumpSection.run, ArchiveService.finalizeFlush]
    split
    · exact effects_next rfl rfl nothing_closing
    · exact effects_raise rfl rfl
  | finalizeGate =>
    simp only [DumpSection.run, ArchiveService.finalizeGate]
    split
    · exact effects_next rfl rfl nothing_closing
    · exact effects_raise rfl rfl
  | finalizeCapture =>
    simp only [DumpSection.run]
    split
    · exact effects_next rfl rfl nothing_closing
    · exact effects_raise rfl rfl
  | finalizePersist r reason =>
    simp only [DumpSection.run, ArchiveService.finalizePersist]
    split
    · exact effects_next rfl rfl nothing_closing
    · exact effects_raise rfl rfl
  | queueDump r reason =>
    simp only [DumpSection.run, ArchiveService.queueDump]
    split
    · exact effects_next rfl rfl nothing_closing
    · exact effects_next rfl rfl nothing_closing
  | drainNext =>
    simp only [DumpSection.run, ArchiveService.drainNext]
    split
    · exact effects_next rfl rfl nothing_closing
    · exact effects_dump rfl rfl fun h ↦ absurd h Bool.noConfusion
  | drainPop r => exact effects_next rfl rfl nothing_closing
  | dumpRun r reason => exact dumpRun_effects r reason
  | dumpExported r | dumpErrored r =>
    simp only [DumpSection.run, ArchiveService.recordExportState]
    split
    · exact effects_next rfl rfl nothing_closing
    · exact effects_next rfl rfl nothing_closing
  | dumpTry r => exact effects_next rfl rfl nothing_closing
  | reconcileStart =>
    refine effects_next rfl rfl fun d hd ↦ ?_
    split at hd
    · simp only [List.mem_cons, List.not_mem_nil, or_false] at hd
      obtain rfl | rfl := hd <;> rfl
    · exact absurd hd List.not_mem_nil
  | sweepCandidates =>
    simp only [DumpSection.run]
    split
    · exact effects_dump rfl rfl fun h ↦ absurd h Bool.noConfusion
    · exact effects_raise rfl rfl
  | sweepSummaries candidates =>
    simp only [DumpSection.run]
    split
    · exact effects_dump rfl rfl fun h ↦ absurd h Bool.noConfusion
    · exact effects_raise rfl rfl
  | sweepScan candidates summaries pending =>
    simp only [DumpSection.run, ArchiveService.sweepScan]
    split
    · exact effects_next rfl rfl (sweepDumps_closing pending)
    · split
      · exact effects_dump rfl rfl fun h ↦ absurd h Bool.noConfusion
      · exact effects_raise rfl rfl
  | sweepTry => exact effects_next rfl rfl nothing_closing
  | archiveDump r reason complete =>
    cases complete with
    | none => exact effects_dump rfl rfl fun h ↦ absurd h Bool.noConfusion
    | some terminal =>
      refine effects_dump rfl rfl fun h ↦ Or.inl ?_
      have hterminal : terminal = true := h
      rw [hterminal]
      rfl
  | probeMeta r reason =>
    simp only [DumpSection.run, ArchiveService.probeMeta]
    split
    · next hfound => exact effects_dump rfl rfl fun _ ↦ Or.inr (decide_eq_true hfound)
    · exact effects_dump rfl rfl fun h ↦ absurd h Bool.noConfusion
  | probeExport r reason => exact effects_dump rfl rfl Or.inr
  | dumpFrames r reason terminal =>
    simp only [DumpSection.run, ArchiveService.dumpFrames]
    split
    · exact effects_dump rfl rfl Or.inl
    · exact effects_raise rfl rfl
  | dumpWatermarks r reason terminal =>
    simp only [DumpSection.run, ArchiveService.dumpWatermarks]
    split
    · exact effects_dump rfl rfl Or.inl
    · exact effects_raise rfl rfl
  | dumpKpi v => exact dumpKpi_effects v
  | dumpBreakdown v => exact dumpBreakdown_effects v
  | dumpSummary v => exact dumpSummary_effects v

/-! ## Runs -/

/-- No closed summary was written while a topic was blocked. -/
def NeverCertified (s : ArchiveService) : Prop :=
  ∀ w ∈ s.written, w.complete = true → w.blocked = []

/-- A dump that is going to close its run is under way only while nothing is blocked. -/
def ClosesUnblocked (cfg : ArchiveConfig) (s : ArchiveService) (c : DumpSection) : Prop :=
  c.closing = true → s.blocked cfg = []

theorem program_closesUnblocked (s : ArchiveService) (k : DumpCall) :
    ∀ c ∈ k.program, ClosesUnblocked cfg s c := by
  cases k <;> simp [DumpCall.program, ClosesUnblocked, DumpSection.closing]

theorem handler_closesUnblocked (s : ArchiveService) (c : DumpSection) (l : List DumpSection)
    (h : c.handler = some l) : ∀ d ∈ l, ClosesUnblocked cfg s d := by
  cases c with
  | dumpTry r =>
    cases h
    simp [ClosesUnblocked, DumpSection.closing]
  | sweepTry =>
    cases h
    exact fun d hd ↦ absurd hd List.not_mem_nil
  | _ => cases h

/-- A section that changes the consumer's book asks for no status. -/
theorem consumerAfter_eq_none (h : c.findsTerminal s io = true) :
    c.consumerAfter cfg s io = none := by
  cases c with
  | probeMeta r reason => rfl
  | probeExport r reason => rfl
  | _ => cases h

/-- A summary is written with the verdict of its dump. -/
theorem Effects.neverCertified {out : DumpEffect} (he : Effects cfg s io c out)
    (h : NeverCertified s) (hc : ClosesUnblocked cfg s c) : NeverCertified out.state := by
  intro w hw hcomplete
  rcases he.written with heq | ⟨v, rfl, heq⟩
  · exact h w (heq ▸ hw) hcomplete
  · rw [heq] at hw
    rcases List.mem_append.mp hw with hw | hw
    · exact h w hw hcomplete
    · obtain rfl := List.mem_singleton.mp hw
      exact hc hcomplete

/-- **No run is certified while ingest is blocked**, in every interleaving of ingest, finalizations,
dumps of the service, sweeps and restarts in which no dump without a verdict of its caller finds its
run terminal while a topic is blocked, and no topic is blocked while a dump that is going to close
its run is under way. -/
theorem never_certified_while_blocked (cfg : ArchiveConfig) (p : Process ArchiveService DumpSection)
    (h : (archiveService cfg).machine.Reach (Careful cfg) (Sections.start {}) p) :
    ∀ w ∈ p.state.written, w.complete = true → w.blocked = [] := by
  refine (Sections.keeps h (P := NeverCertified) (Q := ClosesUnblocked cfg)
    ⟨fun _ hw ↦ absurd hw List.not_mem_nil, fun _ hc ↦ absurd hc Sections.notMem_pending_start⟩
    program_closesUnblocked handler_closesUnblocked
    (fun a i io c rest out hthread hinv hok hC hrun ↦ ?_) fun t ht ↦ ht).1
  obtain rfl := Option.some_inj.mp hrun
  have hcareful := hC c (by
    rw [Sections.nextSection, hthread]
    rfl)
  have hmem := Sections.mem_pending_of_thread hthread
  have hc := hok c hmem
  have heffects : Effects cfg a.state io c (c.run cfg a.state io) := section_effects c
  refine ⟨heffects.neverCertified hinv hc, ?_⟩
  cases hafter : c.consumerAfter cfg a.state io with
  | none =>
    have hblocked : (c.run cfg a.state io).state.blocked cfg = a.state.blocked cfg := by
      rw [ArchiveService.blocked, heffects.consumer, hafter]
      rfl
    refine ⟨fun d hd hclosing ↦ ?_, fun d hd hclosing ↦ ?_⟩
    · rw [hblocked]
      exact (heffects.closing d hd hclosing).elim hc hcareful.1
    · rw [hblocked]
      exact hok d (Sections.mem_pending_of_mem_others hd) hclosing
  | some consumer =>
    have hblocked : (c.run cfg a.state io).state.blocked cfg = consumer.blockedElsewhere cfg := by
      rw [ArchiveService.blocked, heffects.consumer, hafter]
      rfl
    rcases hcareful.2 consumer hafter with hfree | hnone
    · exact ⟨fun _ _ _ ↦ hblocked.trans hfree, fun _ _ _ ↦ hblocked.trans hfree⟩
    · refine ⟨fun d hd hclosing ↦ ?_, fun d hd hclosing ↦ ?_⟩
      · rcases heffects.closing d hd hclosing with hcl | hfound
        · exact absurd (hcl.symm.trans (hnone c hmem)) Bool.noConfusion
        · rw [consumerAfter_eq_none hfound] at hafter
          cases hafter
      · exact absurd (hclosing.symm.trans (hnone d (Sections.mem_pending_of_mem_others hd)))
          Bool.noConfusion

/-- A procedure in a thread of its own, and some of its sections. -/
def inThread (thread : ℕ) (call : DumpCall) (sections : ℕ) : List (Move DumpCall ArchiveIo) :=
  .call call :: List.replicate sections (.run thread {})

/-- A service that buffers kpi rows. -/
def kpiConfig : ArchiveConfig where
  flushes := true
  flushTopics := ["kpi"]
  logical := id

/-- A kpi row arrives, and its run completes. -/
def completedRun : List (Move DumpCall ArchiveIo) :=
  inThread 0 (.rowsArrive "run" { kpi := Dict.ofList [("m1", 1)] }) 1 ++
    inThread 1 (.finalizeRun "run" "completed") 5

theorem never_certified_while_blocked_small :
    ∃ p : Process ArchiveService DumpSection, p.state.written = [⟨"run", true, []⟩] ∧
      ∀ w ∈ p.state.written, w.complete = true → w.blocked = [] := by
  have hexec : (((archiveService kpiConfig).machine.execWhen (Careful kpiConfig)
      (Sections.start {}) (completedRun ++ inThread 2 .drainDumps 13)).map
        fun p ↦ p.state.written) = some [⟨"run", true, []⟩] := by
    decide
  obtain ⟨p, hp, hwritten⟩ := Option.map_eq_some_iff.mp hexec
  exact ⟨p, hwritten, never_certified_while_blocked kpiConfig p (Machine.reach_of_execWhen hp)⟩

/-- Before the queue is drained the next kpi record cannot be written. -/
def blockedThenSwept : List (Move DumpCall ArchiveIo) :=
  completedRun ++ inThread 2 (.consume (.handle (some (("kpi", 0), 5)) .raised)) 1 ++
    inThread 3 .drainDumps 12 ++ inThread 4 .reconcileOnce 14

/-- The service leaves the summary open because `kpi` is blocked; the sweep closes it. -/
theorem sweep_closes_an_open_run :
    ∃ (cfg : ArchiveConfig) (p : Process ArchiveService DumpSection),
      (archiveService cfg).machine.Reach (fun _ _ ↦ True) (Sections.start {}) p ∧
        p.state.written = [⟨"run", false, ["kpi"]⟩, ⟨"run", true, ["kpi"]⟩] ∧
        ¬ ∀ w ∈ p.state.written, w.complete = true → w.blocked = [] := by
  have hexec : (((archiveService kpiConfig).machine.exec (Sections.start {})
      blockedThenSwept).map fun p ↦ p.state.written) =
        some [⟨"run", false, ["kpi"]⟩, ⟨"run", true, ["kpi"]⟩] := by
    decide
  obtain ⟨p, hp, hwritten⟩ := Option.map_eq_some_iff.mp hexec
  refine ⟨kpiConfig, p, Machine.reach_of_exec blockedThenSwept hp fun _ _ _ ↦ trivial, hwritten,
    fun hall ↦ ?_⟩
  rw [hwritten] at hall
  exact absurd (hall ⟨"run", true, ["kpi"]⟩ (by decide) rfl) (by decide)

end OpenRide.Dataplane
