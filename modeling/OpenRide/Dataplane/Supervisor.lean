import Mathlib.Algebra.Order.Ring.Rat
import Mathlib.Logic.Function.Basic
import OpenRide.Lib.Machine

/-!
# Supervised tasks

A supervised task is a function that runs on a thread of its own, again and again, and a record of
how it is doing.  A runner that hangs cannot be killed: the watchdog starts another generation of
it, and the old one runs on until it notices.  All generations share the record, under a lock, and
each looks whether it is the current one before it writes.

The runner is cut into its sections here, one for each time it takes the lock, reads the clock or
looks at the stop event, so that anything may happen in between.  `superseded_inert` says what a
superseded generation can still do, which is nothing that is reported.
-/

namespace OpenRide.Dataplane.Supervision

open Lib

/-! ## The record -/

/-- The parameters of `SupervisedTask`. -/
structure TaskConfig where
  backoffInitial : ℚ := 1 / 2
  backoffMax : ℚ := 30
  heartbeatTimeout : ℚ := 30
  resetAfter : ℚ := 60
  unhealthyAfterFailures : ℤ := 3
  stallTimeout : ℚ := 90
  restartOnStall : Bool := false

/-- `_last_error`. -/
inductive TaskError where
  | raised (error : String)
  | returnedUnasked
  | stalled
  | notStopped
deriving DecidableEq

/-- Where the runner thread of a generation is: before the section it is named after.  `first` is
the first pass of its loop; `roundStarted` is its local variable. -/
inductive Runner where
  | entering (first : Bool) (backoff : ℚ)
  | checking (first : Bool) (backoff : ℚ)
  | stamping (first : Bool) (backoff : ℚ)
  | recording (first : Bool) (backoff roundStarted : ℚ)
  | marking (backoff roundStarted : ℚ)
  | working (backoff roundStarted : ℚ)
  | crashed (backoff roundStarted : ℚ) (error : String)
  | returned (backoff roundStarted : ℚ)
  | unasked (backoff roundStarted : ℚ)
  | handled (backoff roundStarted : ℚ)
  | measuring (backoff roundStarted : ℚ)
  | accounting (backoff roundStarted measured : ℚ)
  | markingAgain (backoff : ℚ)
  | noting (backoff : ℚ)
  | waiting (backoff until_ : ℚ)
  /-- Out of the loop, and out of which attempt. -/
  | leaving (first : Bool) (attempt : Option ℚ)
  | dead
deriving DecidableEq

namespace Runner

/-- When the attempt began that is being made. -/
def attempt : Runner → Option ℚ
  | marking _ r | working _ r | crashed _ r _ | returned _ r | unasked _ r | handled _ r
  | measuring _ r | accounting _ r _ => some r
  | leaving _ a => a
  | _ => none

/-- No attempt has been begun. -/
def unbegun : Runner → Bool
  | entering first _ | checking first _ | stamping first _ | recording first _ _
  | leaving first _ => first
  | _ => false

/-- Setting the stop event wakes a runner that waits for it. -/
def woken : Runner → Runner
  | waiting _ _ => leaving false none
  | r => r

end Runner

/-- `SupervisedTask`.  A thread object is named by the generation it was made for. -/
structure Task where
  /-- The monotonic clock. -/
  now : ℚ := 0
  stop : Bool := false
  thread : Option ℕ := none
  activeThread : Option ℕ := none
  generation : ℕ := 0
  startedAt : Option ℚ := none
  roundStarted : Option ℚ := none
  lastHeartbeat : Option ℚ := none
  lastProgress : Option ℚ := none
  restarts : ℕ := 0
  consecutiveFailures : ℕ := 0
  abandoned : ℕ := 0
  lastError : Option TaskError := none
  joinFailed : Bool := false
  finished : Bool := false
  backoffHistory : List ℚ := []
  runners : ℕ → Runner := fun _ ↦ .dead
  /-- The threads that `stop` has given up waiting for, before it says so. -/
  overdue : List ℕ := []

namespace Task

variable (cfg : TaskConfig) (s : Task)

/-! ## What is reported -/

/-- `alive`. -/
def alive : Bool :=
  match s.thread with
  | none => false
  | some g => s.runners g ≠ .dead

/-- The mark that freshness is measured against. -/
def lastMark : Option ℚ := s.lastProgress.or s.lastHeartbeat

/-- `stalled`. -/
def stalled : Bool :=
  if s.stop then false
  else if !s.alive then false
  else
    match s.lastMark with
    | none => false
    | some ref => cfg.stallTimeout < s.now - ref

/-- `_current_attempt_settled_locked`. -/
def currentAttemptSettled : Bool :=
  match s.roundStarted with
  | none => false
  | some started => cfg.resetAfter ≤ s.now - started

/-- The task is in a restart storm. -/
def storm : Bool :=
  0 < cfg.unhealthyAfterFailures ∧ cfg.unhealthyAfterFailures ≤ s.consecutiveFailures

/-- `healthy`. -/
def healthy : Bool :=
  if s.joinFailed then false
  else if s.stop && s.finished then true
  else if !s.alive then false
  else if s.storm cfg && !s.currentAttemptSettled cfg then false
  else
    match s.lastMark with
    | none => false
    | some ref => s.now - ref ≤ cfg.heartbeatTimeout

/-- `TaskStatus`. -/
structure Status where
  alive : Bool
  healthy : Bool
  startedAt : Option ℚ
  lastHeartbeat : Option ℚ
  restarts : ℕ
  lastError : Option TaskError
  consecutiveFailures : ℕ
  stalled : Bool
deriving DecidableEq

/-- `status`. -/
def status : Status where
  alive := s.alive
  healthy := s.healthy cfg
  startedAt := s.startedAt
  lastHeartbeat := s.lastHeartbeat
  restarts := s.restarts
  lastError := s.lastError
  consecutiveFailures := s.consecutiveFailures
  stalled := s.stalled cfg

/-- `stopping`, asked by the thread of a generation.  The stop event is looked at first, the
generation later, under the lock; `stop` is what the first look found. -/
def stopping (stop : Bool) (g : ℕ) : Bool := stop || g ≠ s.generation

/-! ## What the runner does -/

/-- `_is_current_generation`, asked by the thread of a generation. -/
def isCurrentGeneration (g : ℕ) : Bool := s.activeThread = some g

/-- `heartbeat`. -/
def heartbeat (g : ℕ) : Task :=
  if s.isCurrentGeneration g then
    { s with lastHeartbeat := some s.now, lastProgress := some s.now }
  else s

/-- `_mark_alive`. -/
def markAlive (g : ℕ) : Task :=
  if s.isCurrentGeneration g then { s with lastHeartbeat := some s.now } else s

/-- How a call of the task function ends. -/
inductive FnOutcome where
  | raises (error : String)
  | returns
  /-- An exception that is no `Exception`, which ends the thread. -/
  | exits
deriving DecidableEq

/-- One section of the runner of a generation: where it is next, and the record. -/
def runnerMove (g : ℕ) (fn : FnOutcome) : Option (Runner × Task) :=
  match s.runners g with
  | .entering first backoff =>
    if s.stop then some (.leaving first none, s) else some (.checking first backoff, s)
  | .checking first backoff =>
    if g ≠ s.generation then some (.dead, s) else some (.stamping first backoff, s)
  | .stamping first backoff => some (.recording first backoff s.now, s)
  | .recording _ backoff roundStarted =>
    some (.marking backoff roundStarted,
      if g = s.generation then { s with roundStarted := some roundStarted } else s)
  | .marking backoff roundStarted => some (.working backoff roundStarted, s.markAlive g)
  | .working backoff roundStarted =>
    match fn with
    | .raises error => some (.crashed backoff roundStarted error, s)
    | .returns => some (.returned backoff roundStarted, s)
    | .exits => some (.dead, s)
  | .crashed backoff roundStarted error =>
    some (.handled backoff roundStarted,
      if g = s.generation then { s with lastError := some (.raised error) } else s)
  | .returned backoff roundStarted =>
    if s.stop then some (.leaving false (some roundStarted), s)
    else some (.unasked backoff roundStarted, s)
  | .unasked backoff roundStarted =>
    some (.handled backoff roundStarted,
      if g = s.generation then { s with lastError := some .returnedUnasked } else s)
  | .handled backoff roundStarted =>
    if s.stop then some (.leaving false (some roundStarted), s)
    else some (.measuring backoff roundStarted, s)
  | .measuring backoff roundStarted => some (.accounting backoff roundStarted s.now, s)
  | .accounting backoff roundStarted measured =>
    if g ≠ s.generation then some (.dead, s)
    else
      let settled : Bool := cfg.resetAfter ≤ measured - roundStarted
      some (.markingAgain (if settled then cfg.backoffInitial else backoff),
        { s with
          restarts := s.restarts + 1
          roundStarted := none
          consecutiveFailures := if settled then 0 else s.consecutiveFailures + 1 })
  | .markingAgain backoff => some (.noting backoff, s.markAlive g)
  | .noting backoff =>
    some (.waiting backoff (s.now + backoff),
      { s with backoffHistory := s.backoffHistory ++ [backoff] })
  | .waiting backoff until_ =>
    if s.stop then some (.leaving false none, s)
    else if until_ ≤ s.now then some (.entering false (min (backoff * 2) cfg.backoffMax), s)
    else none
  | .leaving _ _ => some (.dead, if g = s.generation then { s with finished := true } else s)
  | .dead => none

/-! ## Starting, restarting, stopping -/

/-- `_spawn_locked`. -/
def spawn : Task :=
  { s with
    generation := s.generation + 1
    thread := some (s.generation + 1)
    activeThread := some (s.generation + 1)
    runners :=
      Function.update s.runners (s.generation + 1) (.entering true cfg.backoffInitial) }

/-- `start`. -/
def start : Task :=
  if s.alive then s
  else
    spawn cfg
      { s with
        stop := false
        finished := false
        joinFailed := false
        startedAt := some s.now
        lastHeartbeat := some s.now
        lastProgress := none
        roundStarted := none
        consecutiveFailures := 0 }

/-- `restart_stalled`. -/
def restartStalled : Task :=
  if !cfg.restartOnStall then s
  else if s.stop || !s.stalled cfg then s
  else
    spawn cfg
      { s with
        abandoned := s.abandoned + 1
        restarts := s.restarts + 1
        lastError := some .stalled
        lastHeartbeat := some s.now
        lastProgress := none
        finished := false }

/-- What happens at a task. -/
inductive Event where
  /-- Time passes. -/
  | tick (seconds : ℚ)
  /-- The runner of a generation goes on by one section. -/
  | run (g : ℕ) (fn : FnOutcome)
  /-- The task function, called by a generation, makes progress. -/
  | heartbeat (g : ℕ)
  | start
  /-- The watchdog. -/
  | restartStalled
  /-- `stop`, or anybody else who sets the stop event. -/
  | setStop
  /-- Another task that shares the stop event is started. -/
  | clearStop
  /-- `stop` has waited for a thread in vain. -/
  | joinTimeout (g : ℕ)
  /-- `stop` says so. -/
  | reportJoin (g : ℕ)
deriving DecidableEq

/-- The state after an event, if the event can happen. -/
def step : Event → Option Task
  | .tick seconds => if 0 ≤ seconds then some { s with now := s.now + seconds } else none
  | .run g fn =>
    (s.runnerMove cfg g fn).map fun out ↦
      { out.2 with runners := Function.update out.2.runners g out.1 }
  | .heartbeat g =>
    match s.runners g with
    | .working _ _ => some (s.heartbeat g)
    | _ => none
  | .start => some (s.start cfg)
  | .restartStalled => some (s.restartStalled cfg)
  | .setStop => some { s with stop := true, runners := fun g ↦ (s.runners g).woken }
  | .clearStop => some { s with stop := false }
  | .joinTimeout g =>
    if s.runners g ≠ .dead then some { s with overdue := g :: s.overdue } else none
  | .reportJoin g =>
    if g ∈ s.overdue then
      some { s with
        joinFailed := true
        lastError := some .notStopped
        overdue := s.overdue.erase g }
    else none

/-! ## One section of a runner -/

variable {cfg s} {t : Task} {g : ℕ} {fn : FnOutcome} {p : Runner}

/-- What the sections of a runner leave alone. -/
theorem runnerMove_frame (h : s.runnerMove cfg g fn = some (p, t)) :
    t.runners = s.runners ∧ t.generation = s.generation ∧ t.thread = s.thread ∧
      t.activeThread = s.activeThread := by
  unfold runnerMove markAlive at h
  grind

/-- A superseded runner finds out that it is, wherever it could write. -/
theorem runnerMove_superseded (hactive : s.activeThread ≠ some g) (hg : g ≠ s.generation)
    (h : s.runnerMove cfg g fn = some (p, t)) :
    t = s ∨ ∃ backoff, t = { s with backoffHistory := s.backoffHistory ++ [backoff] } := by
  have hmark : s.markAlive g = s := if_neg (by simpa [isCurrentGeneration] using hactive)
  unfold runnerMove at h
  cases hr : s.runners g <;> rw [hr] at h
  case noting backoff =>
    refine .inr ⟨backoff, ?_⟩
    simpa using (Prod.mk.inj (Option.some.inj h)).2.symm
  all_goals
    refine .inl ?_
    grind

/-- A runner that replaces a stalled one, before it begins an attempt of its own. -/
def Replacing (s : Task) (p : Runner) : Prop :=
  p.unbegun ∧ (s.lastError = some .stalled ∨ s.joinFailed)

/-- The start that is on record is that of the attempt being made, unless the runner is a
replacement that has not begun one. -/
def RoundOf (s : Task) (p : Runner) : Prop :=
  ∀ r, s.roundStarted = some r → p.attempt = some r ∨ s.Replacing p ∨ p = .dead

theorem runnerMove_round (hg : g = s.generation) (hround : s.RoundOf (s.runners g))
    (h : s.runnerMove cfg g fn = some (p, t)) : t.RoundOf p := by
  unfold runnerMove markAlive at h
  unfold RoundOf Replacing at *
  cases hr : s.runners g <;> rw [hr] at h hround <;>
  all_goals
    intro r hr'
    grind [Runner.attempt, Runner.unbegun]

/-! ## What holds of every reachable state -/

/-- The thread on record is that of the current generation, and so is the attempt on record. -/
structure Ok (s : Task) : Prop where
  thread : ∀ g, s.thread = some g → g = s.generation
  active : s.activeThread = s.thread
  round : s.RoundOf (s.runners s.generation)

theorem Ok.init (now : ℚ) : Ok { now := now } :=
  ⟨fun _ h ↦ absurd h (by simp), rfl, fun _ h ↦ absurd h (by simp)⟩

theorem Ok.ne_active (hs : s.Ok) (hg : g ≠ s.generation) : s.activeThread ≠ some g := by
  intro h
  exact hg (hs.thread g (hs.active ▸ h))

theorem Ok.spawn (h : s.roundStarted = none ∨ s.lastError = some .stalled) : (s.spawn cfg).Ok where
  thread g hg := (Option.some.inj hg).symm
  active := rfl
  round r hr := by
    refine .inr (.inl ⟨by simp [Task.spawn, Runner.unbegun], .inl (h.resolve_left ?_)⟩)
    exact fun h0 ↦ Option.some_ne_none r (hr.symm.trans h0)

theorem Ok.start (hs : s.Ok) : (s.start cfg).Ok := by
  unfold Task.start
  split
  · exact hs
  · exact .spawn (.inl rfl)

theorem Ok.restartStalled (hs : s.Ok) : (s.restartStalled cfg).Ok := by
  unfold Task.restartStalled
  split
  · exact hs
  · split
    · exact hs
    · exact .spawn (.inr rfl)

/-- The section of a superseded generation changes its own place and the history. -/
theorem step_run_superseded (hs : s.Ok) (hg : g ≠ s.generation)
    (h : s.step cfg (.run g fn) = some t) :
    ∃ p history, t =
      { s with runners := Function.update s.runners g p, backoffHistory := history } := by
  obtain ⟨⟨p, u⟩, hu, rfl⟩ := Option.map_eq_some_iff.mp h
  obtain rfl | ⟨backoff, rfl⟩ := runnerMove_superseded (hs.ne_active hg) hg hu
  · exact ⟨p, _, rfl⟩
  · exact ⟨p, _, rfl⟩

theorem Ok.run (hs : s.Ok) (h : s.step cfg (.run g fn) = some t) : t.Ok := by
  by_cases hg : g = s.generation
  · obtain ⟨⟨p, u⟩, hu, rfl⟩ := Option.map_eq_some_iff.mp h
    obtain ⟨-, hgen, hthread, hactive⟩ := runnerMove_frame hu
    refine ⟨?_, ?_, ?_⟩
    · simpa only [hgen, hthread] using hs.thread
    · simpa only [hactive, hthread] using hs.active
    · change u.RoundOf (Function.update u.runners g p u.generation)
      rw [hgen, ← hg, Function.update_self]
      exact runnerMove_round hg (hg ▸ hs.round) hu
  · obtain ⟨p, history, rfl⟩ := step_run_superseded hs hg h
    refine ⟨hs.thread, hs.active, ?_⟩
    change s.RoundOf (Function.update s.runners g p s.generation)
    rw [Function.update_of_ne (Ne.symm hg)]
    exact hs.round

theorem RoundOf.woken (h : s.RoundOf p) : s.RoundOf p.woken := by
  cases p <;> unfold RoundOf Replacing at * <;>
    grind [Runner.woken, Runner.attempt, Runner.unbegun]

variable {e : Event}

theorem Ok.step (hs : s.Ok) (h : s.step cfg e = some t) : t.Ok := by
  cases e with
  | run g fn => exact hs.run h
  | start => exact Option.some.inj h ▸ hs.start
  | restartStalled => exact Option.some.inj h ▸ hs.restartStalled
  | setStop => exact Option.some.inj h ▸ ⟨hs.thread, hs.active, hs.round.woken⟩
  | clearStop => exact Option.some.inj h ▸ ⟨hs.thread, hs.active, hs.round⟩
  | tick seconds =>
    obtain ⟨-, ⟨⟩⟩ := Option.ite_none_right_eq_some.mp h
    exact ⟨hs.thread, hs.active, hs.round⟩
  | heartbeat g =>
    have : t = s.heartbeat g := by
      simp only [Task.step] at h
      split at h
      · exact (Option.some.inj h).symm
      · cases h
    rw [this, heartbeat]
    split
    · exact ⟨hs.thread, hs.active, hs.round⟩
    · exact hs
  | joinTimeout g =>
    obtain ⟨-, ⟨⟩⟩ := Option.ite_none_right_eq_some.mp h
    exact ⟨hs.thread, hs.active, hs.round⟩
  | reportJoin g =>
    obtain ⟨-, ⟨⟩⟩ := Option.ite_none_right_eq_some.mp h
    refine ⟨hs.thread, hs.active, fun r hr ↦ ?_⟩
    exact (hs.round r hr).imp_right (Or.imp_left fun hp ↦ ⟨hp.1, .inr rfl⟩)

/-! ## A superseded generation -/

/-- The generation whose thread an event happens in. -/
def Event.thread : Event → Option ℕ
  | .run g _ | .heartbeat g => some g
  | _ => none

theorem step_superseded (hs : s.Ok) (he : e.thread = some g) (hg : g ≠ s.generation)
    (h : s.step cfg e = some t) :
    ∃ p history, t =
      { s with runners := Function.update s.runners g p, backoffHistory := history } := by
  cases e with
  | run g' fn =>
    obtain rfl : g' = g := Option.some.inj he
    exact step_run_superseded hs hg h
  | heartbeat g' =>
    obtain rfl : g' = g := Option.some.inj he
    have hbeat : s.heartbeat g' = s := if_neg (by simpa [isCurrentGeneration] using hs.ne_active hg)
    simp only [step, hbeat] at h
    split at h
    · refine ⟨s.runners g', s.backoffHistory, ?_⟩
      rw [Function.update_eq_self]
      exact (Option.some.inj h).symm
    · cases h
  | _ => cases he

/-- What is reported does not depend on the other generations. -/
theorem status_superseded (hs : s.Ok) (hg : g ≠ s.generation) (p : Runner) (history : List ℚ) :
    ({ s with runners := Function.update s.runners g p, backoffHistory := history } : Task).status
      cfg = s.status cfg := by
  have halive : ({ s with
      runners := Function.update s.runners g p, backoffHistory := history } : Task).alive
        = s.alive := by
    unfold alive
    cases hth : s.thread with
    | none => rfl
    | some g' =>
      have hne : g' ≠ g := hs.thread g' hth ▸ Ne.symm hg
      simp only [Function.update_of_ne hne]
  unfold status healthy stalled
  rw [halive]
  rfl

theorem generation_le_step (h : s.step cfg e = some t) : s.generation ≤ t.generation := by
  cases e with
  | run g fn =>
    obtain ⟨⟨p, u⟩, hu, rfl⟩ := Option.map_eq_some_iff.mp h
    exact (runnerMove_frame hu).2.1.ge
  | start =>
    cases h
    unfold start spawn
    split <;> simp
  | restartStalled =>
    cases h
    unfold restartStalled spawn
    split <;> [skip; split] <;> simp
  | heartbeat g =>
    simp only [step, heartbeat] at h
    grind
  | _ =>
    simp only [step] at h
    grind

/-! ## A restart storm -/

/-- The task is started anew, or an attempt that has lasted long enough is accounted for. -/
def Recovers (cfg : TaskConfig) (s : Task) : Event → Bool
  | .start => !s.alive
  | .run g _ =>
    match s.runners g with
    | .accounting _ roundStarted measured =>
      g = s.generation ∧ cfg.resetAfter ≤ measured - roundStarted
    | _ => false
  | _ => false

theorem consecutiveFailures_le_step (he : s.Recovers cfg e = false) (h : s.step cfg e = some t) :
    s.consecutiveFailures ≤ t.consecutiveFailures := by
  cases e with
  | run g fn =>
    obtain ⟨⟨p, u⟩, hu, rfl⟩ := Option.map_eq_some_iff.mp h
    unfold runnerMove markAlive at hu
    unfold Recovers at he
    grind
  | start =>
    cases h
    rw [start, if_pos (by simpa [Recovers] using he)]
  | restartStalled =>
    cases h
    unfold restartStalled spawn
    split <;> [skip; split] <;> exact le_refl _
  | heartbeat g =>
    simp only [step, heartbeat] at h
    grind
  | _ =>
    simp only [step] at h
    grind

/-- Why a task in a restart storm may be called healthy. -/
def Excused (cfg : TaskConfig) (s : Task) : Prop :=
  s.stop ∧ s.finished ∨
    (∃ r, (s.runners s.generation).attempt = some r ∧ cfg.resetAfter ≤ s.now - r) ∨
    (s.runners s.generation).unbegun ∧ s.lastError = some .stalled

theorem Ok.excused (hs : s.Ok) (hstorm : s.storm cfg) (h : s.healthy cfg) : s.Excused cfg := by
  unfold healthy at h
  split at h
  · cases h
  · next hjoin =>
    split at h
    · next hstop => exact .inl (by simpa using hstop)
    · split at h
      · cases h
      · next halive =>
        split at h
        · cases h
        · next hsettled =>
          -- In a storm only the attempt on record can have been settled.
          have hsettled : s.currentAttemptSettled cfg := by simpa [hstorm] using hsettled
          unfold currentAttemptSettled at hsettled
          cases hr : s.roundStarted with
          | none => simp [hr] at hsettled
          | some r =>
            obtain ha | ⟨hb, herr⟩ | hdead := hs.round r hr
            · exact .inr (.inl ⟨r, ha, by simpa [hr] using hsettled⟩)
            · exact .inr (.inr ⟨hb, herr.resolve_right hjoin⟩)
            · refine absurd ?_ halive
              unfold alive
              cases hth : s.thread with
              | none => rfl
              | some g => simp [hs.thread g hth, hdead]

end Task

/-- A supervised task, from any moment of the clock on. -/
def supervisor (cfg : TaskConfig) : Machine Task Task.Event := ⟨Task.step cfg⟩

/-- A state some run leads to. -/
def Reachable (cfg : TaskConfig) (s : Task) : Prop :=
  ∃ now, (supervisor cfg).Reach (fun _ _ ↦ True) { now := now } s

theorem Reachable.trans {cfg : TaskConfig} {s t : Task} (h : Reachable cfg s)
    (h' : (supervisor cfg).Reach (fun _ _ ↦ True) s t) : Reachable cfg t :=
  h.imp fun _ h ↦ h.trans h'

theorem Reachable.ok {cfg : TaskConfig} {s : Task} (h : Reachable cfg s) : s.Ok := by
  obtain ⟨now, h⟩ := h
  exact h.invariant (.init now) fun a e b ha _ he ↦ ha.step he

/-- **A superseded generation is inert.**  No two generations find that they need not stop.  What a
generation does after it was superseded changes nothing that is reported.  After a restart storm the
task is reported unhealthy, unless it was stopped and has finished, or the attempt being made has
lasted long enough, or the thread is a replacement that has not begun an attempt; this goes on until
the task is started anew or an attempt that has lasted long enough is accounted for. -/
theorem superseded_inert (cfg : TaskConfig) (s : Task) (hs : Reachable cfg s) :
    (∀ stop stop' g g', s.stopping stop g = false → s.stopping stop' g' = false → g = g') ∧
    (∀ g t e u, g < s.generation → (supervisor cfg).Reach (fun _ _ ↦ True) s t →
      e.thread = some g → (supervisor cfg).step t e = some u →
      u.status cfg = t.status cfg ∧
        u.currentAttemptSettled cfg = t.currentAttemptSettled cfg ∧ u.finished = t.finished) ∧
    (s.storm cfg → ∀ t, (supervisor cfg).Reach (fun a e ↦ a.Recovers cfg e = false) s t →
      t.healthy cfg → t.Excused cfg) := by
  refine ⟨fun stop stop' g g' h h' ↦ ?_, fun g t e u hg hst he hu ↦ ?_, fun hstorm t hst ↦ ?_⟩
  · simp only [Task.stopping, Bool.or_eq_false_iff, decide_eq_false_iff_not, not_not] at h h'
    exact h.2.trans h'.2.symm
  · have hgen : s.generation ≤ t.generation :=
      hst.invariant (P := fun a ↦ s.generation ≤ a.generation) le_rfl
        fun a e b ha _ hb ↦ ha.trans (Task.generation_le_step hb)
    have hne : g ≠ t.generation := (hg.trans_le hgen).ne
    have ht : t.Ok := (hs.trans hst).ok
    obtain ⟨p, history, rfl⟩ := Task.step_superseded ht he hne hu
    exact ⟨Task.status_superseded ht hne p history, rfl, rfl⟩
  · have ht : t.Ok := (hs.trans (hst.mono fun _ _ _ ↦ trivial)).ok
    have hcount : s.consecutiveFailures ≤ t.consecutiveFailures :=
      hst.invariant (P := fun a ↦ s.consecutiveFailures ≤ a.consecutiveFailures) le_rfl
        fun a e b ha he hb ↦ ha.trans (Task.consecutiveFailures_le_step he hb)
    refine ht.excused ?_
    simp only [Task.storm, decide_eq_true_eq] at hstorm ⊢
    exact ⟨hstorm.1, hstorm.2.trans (by exact_mod_cast hcount)⟩

/-! ## Two runs -/

/-- The attempt of a generation, up to the call of the task function. -/
def attemptOf (g : ℕ) : List Task.Event := List.replicate 5 (.run g .returns)

/-- The call raises, and the runner goes on until it waits. -/
def crashOf (g : ℕ) : List Task.Event :=
  .run g (.raises "RuntimeError: down") :: List.replicate 6 (.run g .returns)

/-- An attempt that crashes, and the wait after it. -/
def failureOf (g : ℕ) : List Task.Event :=
  attemptOf g ++ crashOf g ++ [.tick 2, .run g .returns]

/-- A task that restarts on a stall and takes one failure for a storm. -/
def touchy : TaskConfig :=
  { heartbeatTimeout := 3, stallTimeout := 10, unhealthyAfterFailures := 1, restartOnStall := true }

/-- An attempt that crashes, one that hangs, and the watchdog. -/
def hangingRun : List Task.Event :=
  .start :: failureOf 1 ++ attemptOf 1 ++ [.tick 11, .restartStalled]

/-- The attempt of the replacement lasts. -/
def lastingRun : List Task.Event := attemptOf 2 ++ [.tick 60, .heartbeat 2]

/-- The state a run leads to whose steps meet the side condition. -/
def after (cfg : TaskConfig) (C : Task → Task.Event → Prop) [∀ s e, Decidable (C s e)] (s : Task)
    (run : List Task.Event) : Task :=
  ((supervisor cfg).execWhen C s run).getD s

theorem reach_after {cfg : TaskConfig} {C : Task → Task.Event → Prop} [∀ s e, Decidable (C s e)]
    {s : Task} {run : List Task.Event} (h : ((supervisor cfg).execWhen C s run).isSome) :
    (supervisor cfg).Reach C s (after cfg C s run) := by
  obtain ⟨t, ht⟩ := Option.isSome_iff_exists.mp h
  rw [after, ht, Option.getD_some]
  exact Machine.reach_of_execWhen ht

/-- A thread of a touchy task hangs after a crash, and was replaced. -/
def hanging : Task := after touchy (fun _ _ ↦ True) {} hangingRun

/-- The attempt of the replacement has lasted. -/
def lasting : Task := after touchy (fun a e ↦ a.Recovers touchy e = false) hanging lastingRun

/-- The thread that hung wakes up and crashes, which is not reported, and the task is healthy when
the attempt of its replacement has lasted a minute. -/
theorem superseded_inert_hanging :
    (∃ u, (supervisor touchy).step hanging (.run 1 (.raises "late")) = some u ∧
      u.status touchy = hanging.status touchy) ∧
    lasting.healthy touchy = true ∧ lasting.Excused touchy := by
  have hs : Reachable touchy hanging := ⟨0, reach_after (by decide +kernel)⟩
  obtain ⟨-, hlate, hstorm⟩ := superseded_inert touchy hanging hs
  have hstep : ((supervisor touchy).step hanging (.run 1 (.raises "late"))).isSome := by
    decide +kernel
  have hlasting : lasting.healthy touchy = true := by decide +kernel
  obtain ⟨u, hu⟩ := Option.isSome_iff_exists.mp hstep
  refine ⟨⟨u, hu, ?_⟩, hlasting, ?_⟩
  · exact (hlate 1 hanging _ u (by decide +kernel) (.refl _) rfl hu).1
  · exact hstorm (by decide +kernel) lasting (reach_after (by decide +kernel)) hlasting

/-- A task that is stopped in a restart storm and has finished is called healthy, with no attempt
settled. -/
theorem stopped_storm_healthy :
    ∃ s t, Reachable {} s ∧ s.storm {} = true ∧ s.healthy {} = false ∧
      (supervisor {}).Reach (fun a e ↦ a.Recovers {} e = false) s t ∧
      t.healthy {} = true ∧ t.currentAttemptSettled {} = false :=
  let s := after {} (fun _ _ ↦ True) {} (.start :: (List.replicate 3 (failureOf 1)).flatten)
  let t := after {} (fun a e ↦ a.Recovers {} e = false) s
    [.setStop, .run 1 .returns, .run 1 .returns]
  ⟨s, t, ⟨0, reach_after (by decide +kernel)⟩, by decide +kernel, by decide +kernel,
    reach_after (by decide +kernel), by decide +kernel, by decide +kernel⟩

end OpenRide.Dataplane.Supervision
