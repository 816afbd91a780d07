import OpenRide.Dataplane.Consumer
import OpenRide.Lib.Machine
import OpenRide.Lib.Rounding

/-!
# The clock of a commit point

For every partition the consumer keeps when its commit point last moved.  `stats` reports the oldest
of these clocks among the partitions that have consumed records above their commit point, and
`/health` calls the ingest wedged when that is longer than the stall interval ago.

What the verdict is after is the durable point: where a commit point stood at the last flush that
returned.  A `WatchedConsumer` keeps that point, and since when it has not gone up while records are
pending.  The two clocks agree in a run without redeliveries into the pending records
(`stuck_reported`); a redelivered record moves the commit point forward again before anything is
durable, and each time that starts the reported clock anew (`retry_starts_clock_anew`).
-/

namespace OpenRide.Dataplane

open Lib

/-! ## The consumer with its clocks -/

def SEEK_BACKOFF_S : ℚ := 5

def INGEST_STALL_AFTER_S : ℚ := 300

/-- The consumer with the clocks of its partitions. -/
structure ClockedConsumer where
  book : Consumer := {}
  commitMovedAt : Dict Partition ℚ := Dict.empty
  lastSeekAt : Dict Partition ℚ := Dict.empty

/-- The first half of `_note_offset`: a record that is the first of its partition, or below the
commit point, moves the point. -/
def ClockedConsumer.follow (s : ClockedConsumer) (now : ℚ) (p : Partition) (offset : ℤ) :
    ClockedConsumer :=
  { s with
    book := (s.book.see p offset).follow p offset
    commitMovedAt :=
      if (s.book.commitAt.get? p).all (offset < ·) then s.commitMovedAt.set p now
      else s.commitMovedAt }

/-- `_note_offset`. -/
def ClockedConsumer.noteOffset (s : ClockedConsumer) (now : ℚ) (p : Partition) (offset : ℤ)
    (ok : Bool) : ClockedConsumer :=
  let s := s.follow now p offset
  if ok then
    if s.book.commitAt.get? p = some offset ∨ s.book.blocked.get? p = none then
      { s with
        book := { s.book with
          commitAt := s.book.commitAt.set p (offset + 1), blocked := s.book.blocked.erase p }
        commitMovedAt := s.commitMovedAt.set p now }
    else s
  else { s with book := { s.book with blocked := s.book.blocked.setDefault p offset } }

/-- `handle_message`, once the record has been handled. -/
def ClockedConsumer.handleMessage (s : ClockedConsumer) (now : ℚ)
    (coords : Option (Partition × ℤ)) (h : Handled) : ClockedConsumer :=
  match coords with
  | none => { s with book := s.book.handleMessage none h }
  | some (p, offset) => s.noteOffset now p offset h.committable

/-- `_rewind_blocked`: every blocked partition is rewound to its blocked offset, unless it was less
than `SEEK_BACKOFF_S` ago.  `seeks` says where the client can; the rewinds are returned. -/
def ClockedConsumer.rewindBlocked (s : ClockedConsumer) (now : ℚ) (seeks : Partition → Bool) :
    ClockedConsumer × List (Partition × ℤ) :=
  let sought := s.book.blocked.entries.filter fun e ↦
    SEEK_BACKOFF_S ≤ now - (s.lastSeekAt.get? e.1).getD 0 ∧ seeks e.1
  ({ s with lastSeekAt := s.lastSeekAt.update (sought.map fun e ↦ (e.1, now)) }, sought)

/-- `flush_writes`: the consumer, whether the flush succeeded, and the rewinds. -/
def ClockedConsumer.flushWrites (cfg : ConsumerConfig) (outcome : FlushOutcome) (now : ℚ)
    (seeks : Partition → Bool) (s : ClockedConsumer) :
    ClockedConsumer × Bool × List (Partition × ℤ) :=
  let (book, flushed) := s.book.flushWrites cfg outcome
  if flushed then ({ s with book := book }, true, [])
  else
    let (s, rewinds) := ClockedConsumer.rewindBlocked { s with book := book } now seeks
    (s, false, rewinds)

/-- `commit_safe`: the consumer, whether its flush succeeded, and the rewinds. -/
def ClockedConsumer.commitSafe (cfg : ConsumerConfig) (outcome : FlushOutcome)
    (attempt : CommitAttempt) (now : ℚ) (seeks : Partition → Bool) (s : ClockedConsumer) :
    ClockedConsumer × Bool × List (Partition × ℤ) :=
  let (s, flushed, rewinds) := s.flushWrites cfg outcome now seeks
  if flushed then
    match attempt with
    | .accepted => ({ s with book := s.book.accept s.book.commitRequest }, true, rewinds)
    | _ => (s, true, rewinds)
  else (s, false, rewinds)

/-! ## What is reported -/

/-- How many records a partition has consumed above its commit point. -/
def Consumer.behind (c : Consumer) (p : Partition) (seen : ℤ) : ℤ :=
  seen + 1 - (c.commitAt.get? p).getD seen

/-- One partition in the loop of `stats`. -/
def ClockedConsumer.stuckStep (s : ClockedConsumer) (now : ℚ) (stuck : Option ℚ)
    (e : Partition × ℤ) : Option ℚ :=
  if 0 < s.book.behind e.1 e.2 then
    let age := now - (s.commitMovedAt.get? e.1).getD now
    some (stuck.elim age (max · age))
  else stuck

/-- `commit_stuck_s` of `stats`. -/
def ClockedConsumer.commitStuckS (s : ClockedConsumer) (now : ℚ) : Option ℚ :=
  (s.book.maxSeen.entries.foldl (s.stuckStep now) none).map fun stuck ↦ roundTo 3 (max 0 stuck)

/-- `ingest_wedged` of `build_health_payload`. -/
def ingestWedged (commitStuckS : Option ℚ) : Bool := commitStuckS.any (INGEST_STALL_AFTER_S < ·)

/-! ## Runs -/

/-- What the consumer does. -/
inductive ConsumerEvent where
  /-- A record is handled. -/
  | handle (coords : Option (Partition × ℤ)) (h : Handled)
  | flushWrites (outcome : FlushOutcome) (seeks : Partition → Bool)
  | commitSafe (outcome : FlushOutcome) (attempt : CommitAttempt) (seeks : Partition → Bool)
  | rewindIfBlocked (seeks : Partition → Bool)

/-- The consumer after an event, and whether a flush succeeded in it. -/
def ClockedConsumer.step (cfg : ConsumerConfig) (s : ClockedConsumer) (now : ℚ) :
    ConsumerEvent → ClockedConsumer × Bool
  | .handle coords h => (s.handleMessage now coords h, false)
  | .flushWrites outcome seeks =>
    let (s, flushed, _) := s.flushWrites cfg outcome now seeks
    (s, flushed)
  | .commitSafe outcome attempt seeks =>
    let (s, flushed, _) := s.commitSafe cfg outcome attempt now seeks
    (s, flushed)
  | .rewindIfBlocked seeks => ((s.rewindBlocked now seeks).1, false)

/-- Has a partition consumed records above its commit point? -/
def Consumer.pending (c : Consumer) (p : Partition) : Bool :=
  (c.maxSeen.get? p).any fun seen ↦ 0 < c.behind p seen

/-- The consumer, and what an observer of its durable points knows. -/
structure WatchedConsumer where
  consumer : ClockedConsumer := {}
  clock : ℚ := 0
  /-- The commit point at the last flush that succeeded. -/
  durable : Partition → Option ℤ := fun _ ↦ none
  /-- When the durable point last went up, or the partition last had nothing pending. -/
  since : Partition → ℚ := fun _ ↦ 0

/-- Did a durable point go up? -/
def wentUp (old new : Option ℤ) : Bool := new.any fun n ↦ old.all (· < n)

/-- Since when a partition makes no progress, after a step to `s` at some time. -/
def WatchedConsumer.sinceAfter (w : WatchedConsumer) (s : ClockedConsumer)
    (durable : Partition → Option ℤ) (now : ℚ) (p : Partition) : ℚ :=
  if w.consumer.book.pending p ∧ s.book.pending p ∧ ¬wentUp (w.durable p) (durable p) then
    w.since p
  else now

/-- The consumer and its observer after an event at some time. -/
def WatchedConsumer.after (cfg : ConsumerConfig) (w : WatchedConsumer) (now : ℚ)
    (e : ConsumerEvent) : WatchedConsumer :=
  let (s, flushed) := w.consumer.step cfg now e
  let durable := if flushed then s.book.commitAt.get? else w.durable
  { consumer := s, clock := now, durable := durable, since := w.sinceAfter s durable now }

/-- The runs of a consumer: events at times that do not go back. -/
def watching (cfg : ConsumerConfig) : Machine WatchedConsumer (ℚ × ConsumerEvent) where
  step w e := if w.clock ≤ e.1 then some (w.after cfg e.1 e.2) else none

/-! ## When the clocks agree -/

/-- Does a record move the commit point of its partition? -/
def Consumer.Moves (c : Consumer) (p : Partition) (offset : ℤ) (ok : Bool) : Prop :=
  (c.commitAt.get? p).all (offset < ·) = true ∨
    ok = true ∧ (c.commitAt.get? p = some offset ∨ c.blocked.get? p = none)

instance (c : Consumer) (p : Partition) (offset : ℤ) (ok : Bool) :
    Decidable (c.Moves p offset ok) :=
  inferInstanceAs (Decidable (_ ∨ _))

/-- No record below the highest offset of its partition moves the commit point while records are
pending. -/
def NoRetry (w : WatchedConsumer) (e : ℚ × ConsumerEvent) : Prop :=
  match e.2 with
  | .handle (some (p, offset)) h =>
    w.consumer.book.pending p = true →
      (w.consumer.book.maxSeen.get? p).any (offset < ·) = true →
        ¬w.consumer.book.Moves p offset h.committable
  | _ => True

instance (w : WatchedConsumer) (e : ℚ × ConsumerEvent) : Decidable (NoRetry w e) :=
  match e with
  | (_, .handle (some (_, _)) _) => inferInstanceAs (Decidable (_ → _ → ¬_))
  | (_, .handle none _) => isTrue trivial
  | (_, .flushWrites _ _) => isTrue trivial
  | (_, .commitSafe _ _ _) => isTrue trivial
  | (_, .rewindIfBlocked _) => isTrue trivial

/-! ## One record -/

section Record

variable {s : ClockedConsumer} {p q : Partition} {o : ℤ} {now : ℚ} {ok : Bool}

theorem noteOffset_book : (s.noteOffset now p o ok).book = s.book.noteOffset p o ok := by
  rw [ClockedConsumer.noteOffset, Consumer.noteOffset]
  rw [apply_ite ClockedConsumer.book, apply_ite ClockedConsumer.book]
  rfl

/-- A record sets the clock of its own partition, if it moves the commit point. -/
theorem noteOffset_clock : (s.noteOffset now p o ok).commitMovedAt.get? q =
    if q = p ∧ s.book.Moves p o ok then some now else s.commitMovedAt.get? q := by
  have hfollow : (s.follow now p o).commitMovedAt.get? q =
      if q = p ∧ (s.book.commitAt.get? p).all (o < ·) = true then some now
      else s.commitMovedAt.get? q := by
    rw [ClockedConsumer.follow]
    by_cases h : (s.book.commitAt.get? p).all (o < ·) = true
    · rw [if_pos h, Dict.get?_set]
      simp [h]
    · rw [if_neg h, if_neg fun hq ↦ h hq.2]
  have hpoint : (s.follow now p o).book.commitAt.get? p = some o ↔
      (s.book.commitAt.get? p).all (o < ·) = true ∨ s.book.commitAt.get? p = some o := by
    have hmin : (s.follow now p o).book.commitAt.get? p =
        some (min o ((s.book.commitAt.get? p).getD o)) := follow_commitAt
    rw [hmin]
    cases hn : s.book.commitAt.get? p with
    | none => simp
    | some n =>
      simp only [Option.getD_some, Option.some_inj, Option.all_some, decide_eq_true_eq]
      omega
  have hblocked : (s.follow now p o).book.blocked = s.book.blocked := follow_blocked.1
  rw [ClockedConsumer.noteOffset]
  split
  · next hok =>
    split
    · next hcond =>
      rw [hpoint, hblocked] at hcond
      have hmoves : s.book.Moves p o ok := by
        rcases hcond with (hall | hat) | hopen
        · exact Or.inl hall
        · exact Or.inr ⟨hok, Or.inl hat⟩
        · exact Or.inr ⟨hok, Or.inr hopen⟩
      rw [Dict.get?_set, hfollow]
      by_cases hq : q = p
      · rw [if_pos hq, if_pos ⟨hq, hmoves⟩]
      · rw [if_neg hq, if_neg fun h ↦ hq h.1, if_neg fun h ↦ hq h.1]
    · next hcond =>
      rw [hpoint, hblocked] at hcond
      have hstill : ¬s.book.Moves p o ok := by
        rintro (hall | ⟨-, hat | hopen⟩)
        · exact hcond (Or.inl (Or.inl hall))
        · exact hcond (Or.inl (Or.inr hat))
        · exact hcond (Or.inr hopen)
      rw [hfollow, if_neg fun h ↦ hstill (Or.inl h.2), if_neg fun h ↦ hstill h.2]
  · next hok =>
    have hmoves : s.book.Moves p o ok ↔ (s.book.commitAt.get? p).all (o < ·) = true :=
      ⟨fun h ↦ h.resolve_right fun h ↦ hok h.1, Or.inl⟩
    simp only [hmoves, hfollow]

theorem noteOffset_maxSeen {c : Consumer} :
    (c.noteOffset p o ok).maxSeen = (c.see p o).maxSeen := by
  have hfollow : ((c.see p o).follow p o).maxSeen = (c.see p o).maxSeen := by
    rw [Consumer.follow]
    split <;> rfl
  rw [Consumer.noteOffset]
  split
  · split
    · exact hfollow
    · exact hfollow
  · exact hfollow

end Record

/-! ## Flushes and rewinds -/

/-- What leaves the clocks alone: no partition is new, and none has seen more. -/
structure ClocksKept (s s' : ClockedConsumer) : Prop where
  commitMovedAt : s'.commitMovedAt = s.commitMovedAt
  maxSeen : s'.book.maxSeen = s.book.maxSeen
  commitAt : ∀ p, s'.book.commitAt.get? p = none ↔ s.book.commitAt.get? p = none

theorem ClocksKept.refl (s : ClockedConsumer) : ClocksKept s s := ⟨rfl, rfl, fun _ ↦ Iff.rfl⟩

theorem ClocksKept.trans {s t u : ClockedConsumer} (h : ClocksKept s t) (h' : ClocksKept t u) :
    ClocksKept s u :=
  ⟨h'.commitMovedAt.trans h.commitMovedAt, h'.maxSeen.trans h.maxSeen,
    fun p ↦ (h'.commitAt p).trans (h.commitAt p)⟩

theorem flushWrites_book_kept (cfg : ConsumerConfig) (outcome : FlushOutcome)
    (s : ClockedConsumer) :
    ClocksKept s { s with book := (s.book.flushWrites cfg outcome).1 } := by
  by_cases hf : cfg.flushes = true
  · cases outcome with
    | returned =>
      simp only [Consumer.flushWrites, if_pos hf]
      exact ⟨rfl, rfl, fun _ ↦ Iff.rfl⟩
    | raised =>
      refine ⟨rfl, ?_, fun p ↦ ?_⟩
      · simp only [Consumer.flushWrites, if_pos hf]
      · dsimp only
        rw [(flushWrites_raised hf p).2.1, Option.map_eq_none_iff]
  · simp only [Consumer.flushWrites, if_neg hf]
    exact ClocksKept.refl s

theorem rewindBlocked_kept (s : ClockedConsumer) (now : ℚ) (seeks : Partition → Bool) :
    ClocksKept s (s.rewindBlocked now seeks).1 := ⟨rfl, rfl, fun _ ↦ Iff.rfl⟩

theorem flushWrites_kept (cfg : ConsumerConfig) (outcome : FlushOutcome) (now : ℚ)
    (seeks : Partition → Bool) (s : ClockedConsumer) :
    ClocksKept s (s.flushWrites cfg outcome now seeks).1 := by
  have hbook := flushWrites_book_kept cfg outcome s
  rw [ClockedConsumer.flushWrites]
  dsimp only
  split
  · exact hbook
  · exact hbook.trans (rewindBlocked_kept _ now seeks)

theorem commitSafe_kept (cfg : ConsumerConfig) (outcome : FlushOutcome) (attempt : CommitAttempt)
    (now : ℚ) (seeks : Partition → Bool) (s : ClockedConsumer) :
    ClocksKept s (s.commitSafe cfg outcome attempt now seeks).1 := by
  have hflush := flushWrites_kept cfg outcome now seeks s
  rw [ClockedConsumer.commitSafe]
  dsimp only
  split
  · cases attempt with
    | accepted =>
      refine hflush.trans ⟨rfl, ?_, fun p ↦ ?_⟩
      · cases (s.flushWrites cfg outcome now seeks).1.book.commitRequest <;> rfl
      · rw [(accept_book _ _).1]
    | notMade => exact hflush
    | raised => exact hflush
  · exact hflush

/-! ## Runs -/

/-- The clock of a partition is not younger than its lack of progress. -/
structure ClocksAgree (w : WatchedConsumer) : Prop where
  seen : ∀ p, w.consumer.book.commitAt.get? p = none → w.consumer.book.maxSeen.get? p = none
  moved : ∀ p, w.consumer.book.commitAt.get? p ≠ none →
    ∃ t, w.consumer.commitMovedAt.get? p = some t ∧ t ≤ w.clock
  pending : ∀ p t, w.consumer.book.pending p = true →
    w.consumer.commitMovedAt.get? p = some t → t ≤ w.since p

theorem pending_iff {c : Consumer} {p : Partition} : c.pending p = true ↔
    ∃ m, c.maxSeen.get? p = some m ∧ (c.commitAt.get? p).getD m ≤ m := by
  rw [Consumer.pending, Option.any_eq_true]
  refine exists_congr fun m ↦ and_congr_right fun _ ↦ ?_
  rw [decide_eq_true_iff, Consumer.behind]
  omega

variable {cfg : ConsumerConfig} {w : WatchedConsumer}

/-- A step keeps the clocks in agreement if it moves no clock of a partition with pending records
that still has some afterwards. -/
theorem ClocksAgree.after {now : ℚ} {e : ConsumerEvent} (h : ClocksAgree w) (hnow : w.clock ≤ now)
    (hseen : ∀ p, (w.after cfg now e).consumer.book.commitAt.get? p = none →
      (w.after cfg now e).consumer.book.maxSeen.get? p = none)
    (hmoved : ∀ p, (w.after cfg now e).consumer.book.commitAt.get? p ≠ none →
      (w.after cfg now e).consumer.commitMovedAt.get? p = some now ∨
      (w.after cfg now e).consumer.commitMovedAt.get? p = w.consumer.commitMovedAt.get? p ∧
      w.consumer.book.commitAt.get? p ≠ none)
    (hpending : ∀ p, w.consumer.book.pending p = true →
      (w.after cfg now e).consumer.book.pending p = true →
      (w.after cfg now e).consumer.commitMovedAt.get? p = w.consumer.commitMovedAt.get? p)
    : ClocksAgree (w.after cfg now e) := by
  have hclock : ∀ p, (w.after cfg now e).consumer.book.commitAt.get? p ≠ none →
      ∃ t, (w.after cfg now e).consumer.commitMovedAt.get? p = some t ∧ t ≤ now := by
    intro p hp
    rcases hmoved p hp with hset | ⟨hsame, hp⟩
    · exact ⟨now, hset, le_rfl⟩
    · obtain ⟨t, ht, hle⟩ := h.moved p hp
      exact ⟨t, hsame.trans ht, hle.trans hnow⟩
  refine ⟨hseen, hclock, fun p t hp ht ↦ ?_⟩
  have hle : t ≤ now := by
    obtain ⟨m, hm, -⟩ := pending_iff.mp hp
    have hpoint : (w.after cfg now e).consumer.book.commitAt.get? p ≠ none := by
      intro hnone
      rw [hseen p hnone] at hm
      simp at hm
    obtain ⟨t', ht', hle⟩ := hclock p hpoint
    rw [ht, Option.some_inj] at ht'
    exact ht' ▸ hle
  have hsince : (w.after cfg now e).since p =
      w.sinceAfter (w.after cfg now e).consumer (w.after cfg now e).durable now p := rfl
  rw [hsince, WatchedConsumer.sinceAfter]
  split
  · next hstill => exact h.pending p t hstill.1 ((hpending p hstill.1 hp).symm.trans ht)
  · exact hle

theorem ClocksAgree.of_kept {now : ℚ} {e : ConsumerEvent} (h : ClocksAgree w) (hnow : w.clock ≤ now)
    (hkept : ClocksKept w.consumer (w.after cfg now e).consumer) :
    ClocksAgree (w.after cfg now e) := by
  refine h.after hnow (fun p hp ↦ ?_) (fun p hp ↦ Or.inr ⟨by rw [hkept.commitMovedAt], ?_⟩)
    fun p _ _ ↦ by rw [hkept.commitMovedAt]
  · rw [hkept.maxSeen]
    exact h.seen p ((hkept.commitAt p).mp hp)
  · exact fun hnone ↦ hp ((hkept.commitAt p).mpr hnone)

theorem maxSeen_see (c : Consumer) (p q : Partition) (o : ℤ) :
    (c.see p o).maxSeen.get? q =
      if q = p ∧ (c.maxSeen.get? p).getD (-1) < o then some o else c.maxSeen.get? q := by
  rw [Consumer.see]
  by_cases h : o > (c.maxSeen.get? p).getD (-1)
  · rw [if_pos h, Dict.get?_set]
    simp [gt_iff_lt.mp h]
  · rw [if_neg h, if_neg fun hq ↦ h hq.2]

theorem noteOffset_commitAt_ne_none {c : Consumer} {p : Partition} {o : ℤ} {ok : Bool} :
    (c.noteOffset p o ok).commitAt.get? p ≠ none := by
  rcases @noteOffset_self c p o ok with ⟨-, -, h, -⟩ | ⟨-, ⟨n, hn, -⟩, -, h, -⟩ | ⟨-, h, -⟩
  · simp [h]
  · simp [h, hn]
  · simp [h]

/-- The last of the pending records moves the commit point past them all, if it moves it. -/
theorem not_pending_of_moves {c : Consumer} {p : Partition} {o m : ℤ} {ok : Bool}
    (hpoint : c.commitAt.get? p ≠ none) (hm : c.maxSeen.get? p = some m)
    (hle : (c.commitAt.get? p).getD m ≤ m) (hmo : m ≤ o) (hmoves : c.Moves p o ok) :
    (c.noteOffset p o ok).pending p = false := by
  obtain ⟨n, hn⟩ := Option.ne_none_iff_exists'.mp hpoint
  rw [hn, Option.getD_some] at hle
  rw [Consumer.Moves, hn, Option.all_some, decide_eq_true_iff, Option.some_inj] at hmoves
  rw [Bool.eq_false_iff]
  intro hpending
  obtain ⟨m', hm', hle'⟩ := pending_iff.mp hpending
  have hm'o : m' = o := by
    rw [noteOffset_maxSeen, maxSeen_see, hm, Option.getD_some] at hm'
    split at hm'
    · exact (Option.some_inj.mp hm').symm
    · next hnot =>
      have hlast := Option.some_inj.mp hm'
      have : ¬m < o := fun h ↦ hnot ⟨rfl, h⟩
      omega
  rcases @noteOffset_self c p o ok with ⟨-, -, h, -⟩ | ⟨-, ⟨k, hk, hlt⟩, hb, -⟩ | ⟨hok, -⟩
  · rw [h, Option.getD_some] at hle'
    omega
  · rw [hn, Option.some_inj] at hk
    rcases hmoves with hlow | ⟨-, hat | hopen⟩
    · omega
    · omega
    · exact hb hopen
  · rcases hmoves with hlow | ⟨hwrote, -⟩
    · omega
    · simp [hok] at hwrote

theorem ClocksAgree.noteOffset {now : ℚ} {p : Partition} {o : ℤ} {handled : Handled}
    (h : ClocksAgree w) (hnow : w.clock ≤ now)
    (hretry : NoRetry w (now, .handle (some (p, o)) handled)) :
    ClocksAgree (w.after cfg now (.handle (some (p, o)) handled)) := by
  have hconsumer : (w.after cfg now (.handle (some (p, o)) handled)).consumer =
      w.consumer.noteOffset now p o handled.committable := rfl
  have hbook := @noteOffset_book w.consumer p o now handled.committable
  refine h.after hnow (fun q hq ↦ ?_) (fun q hq ↦ ?_) fun q hbefore hafter ↦ ?_
  · rw [hconsumer, hbook] at hq ⊢
    by_cases hqp : q = p
    · exact absurd (hqp ▸ hq) noteOffset_commitAt_ne_none
    · rw [(noteOffset_ne hqp).1] at hq
      rw [noteOffset_maxSeen, maxSeen_see, if_neg fun hq ↦ hqp hq.1]
      exact h.seen q hq
  · rw [hconsumer, noteOffset_clock]
    by_cases hset : q = p ∧ w.consumer.book.Moves p o handled.committable
    · exact Or.inl (if_pos hset)
    · refine Or.inr ⟨if_neg hset, ?_⟩
      by_cases hqp : q = p
      · subst hqp
        -- a record that moves no point finds one
        refine fun hnone ↦ hset ⟨rfl, Or.inl ?_⟩
        rw [hnone, Option.all_none]
      · rw [hconsumer, hbook, (noteOffset_ne hqp).1] at hq
        exact hq
  · rw [hconsumer, noteOffset_clock, if_neg]
    rintro ⟨rfl, hmoves⟩
    obtain ⟨m, hm, hle⟩ := pending_iff.mp hbefore
    have hmo : m ≤ o := by
      by_contra hlt
      refine hretry hbefore ?_ hmoves
      rw [hm, Option.any_some, decide_eq_true_iff]
      exact not_le.mp hlt
    have hpoint : w.consumer.book.commitAt.get? q ≠ none := by
      intro hnone
      rw [h.seen q hnone] at hm
      simp at hm
    rw [hconsumer, hbook, not_pending_of_moves hpoint hm hle hmo hmoves] at hafter
    exact Bool.false_ne_true hafter

theorem ClocksAgree.step {w' : WatchedConsumer} {e : ℚ × ConsumerEvent} (h : ClocksAgree w)
    (hretry : NoRetry w e) (hstep : (watching cfg).step w e = some w') : ClocksAgree w' := by
  obtain ⟨now, e⟩ := e
  simp only [watching, Option.ite_none_right_eq_some, Option.some_inj] at hstep
  obtain ⟨hnow, rfl⟩ := hstep
  cases e with
  | handle coords handled =>
    cases coords with
    | none => exact h.of_kept hnow ⟨rfl, rfl, fun _ ↦ Iff.rfl⟩
    | some k => exact h.noteOffset hnow hretry
  | flushWrites outcome seeks =>
    exact h.of_kept hnow (flushWrites_kept cfg outcome now seeks w.consumer)
  | commitSafe outcome attempt seeks =>
    exact h.of_kept hnow (commitSafe_kept cfg outcome attempt now seeks w.consumer)
  | rewindIfBlocked seeks => exact h.of_kept hnow (rewindBlocked_kept w.consumer now seeks)

/-! ## What is reported -/

/-- The report is at least the age of every partition it looks at. -/
theorem le_foldl_stuckStep (s : ClockedConsumer) (now : ℚ) (l : List (Partition × ℤ))
    (stuck : Option ℚ) :
    (∀ a, stuck = some a → ∃ b, l.foldl (s.stuckStep now) stuck = some b ∧ a ≤ b) ∧
      ∀ e ∈ l, 0 < s.book.behind e.1 e.2 → ∃ b, l.foldl (s.stuckStep now) stuck = some b ∧
        now - (s.commitMovedAt.get? e.1).getD now ≤ b := by
  induction l generalizing stuck with
  | nil => exact ⟨fun a ha ↦ ⟨a, ha, le_rfl⟩, nofun⟩
  | cons x l ih =>
    obtain ⟨hkeep, hrest⟩ := ih (s.stuckStep now stuck x)
    refine ⟨fun a ha ↦ ?_, fun e he hbehind ↦ ?_⟩
    · subst ha
      by_cases hx : 0 < s.book.behind x.1 x.2
      · obtain ⟨b, hb, hle⟩ := hkeep _ (if_pos hx)
        exact ⟨b, hb, (le_max_left _ _).trans hle⟩
      · exact hkeep a (if_neg hx)
    · rcases List.mem_cons.mp he with rfl | he
      · obtain ⟨b, hb, hle⟩ := hkeep _ (if_pos hbehind)
        refine ⟨b, hb, le_trans ?_ hle⟩
        cases stuck with
        | none => exact le_rfl
        | some a => exact le_max_right _ _
      · exact hrest e he hbehind

/-- The report is at least the age of every partition with pending records. -/
theorem le_commitStuckS {s : ClockedConsumer} {p : Partition} {now t : ℚ}
    (hp : s.book.pending p = true) (ht : s.commitMovedAt.get? p = some t) :
    ∃ stuck, s.commitStuckS now = some stuck ∧ roundTo 3 (now - t) ≤ stuck := by
  rw [Consumer.pending, Option.any_eq_true] at hp
  obtain ⟨m, hm, hbehind⟩ := hp
  obtain ⟨b, hb, hle⟩ := (le_foldl_stuckStep s now s.book.maxSeen.entries none).2 (p, m)
    (Dict.mem_entries_iff.mpr hm) (of_decide_eq_true hbehind)
  rw [ht, Option.getD_some] at hle
  refine ⟨roundTo 3 (max 0 b), ?_, roundTo_mono 3 (hle.trans (le_max_right 0 b))⟩
  rw [ClockedConsumer.commitStuckS, hb, Option.map_some]

/-- **A partition without progress shows its age**, in every run without a record below the highest
of its partition that moves the commit point while records are pending: what is reported is at least
the time since its durable point last went up, or it last had nothing pending, and a stall is called
one. -/
theorem stuck_reported (cfg : ConsumerConfig) {w : WatchedConsumer}
    (hrun : (watching cfg).Reach NoRetry {} w) (p : Partition)
    (hp : w.consumer.book.pending p = true) (now : ℚ) :
    (∃ stuck, w.consumer.commitStuckS now = some stuck ∧ roundTo 3 (now - w.since p) ≤ stuck) ∧
      (INGEST_STALL_AFTER_S < roundTo 3 (now - w.since p) →
        ingestWedged (w.consumer.commitStuckS now) = true) := by
  have hagree : ClocksAgree w := hrun.invariant
    ⟨fun _ _ ↦ rfl, fun p hp ↦ absurd rfl hp, fun p t hp ht ↦ by simp at ht⟩
    fun _ _ _ h hretry hstep ↦ h.step hretry hstep
  obtain ⟨m, hm, -⟩ := pending_iff.mp hp
  have hpoint : w.consumer.book.commitAt.get? p ≠ none := by
    intro hnone
    rw [hagree.seen p hnone] at hm
    simp at hm
  obtain ⟨t, ht, -⟩ := hagree.moved p hpoint
  obtain ⟨stuck, hstuck, hle⟩ := @le_commitStuckS w.consumer p now t hp ht
  have hsince := hagree.pending p t hp ht
  have hage : roundTo 3 (now - w.since p) ≤ stuck :=
    (roundTo_mono 3 (sub_le_sub_left hsince now)).trans hle
  refine ⟨⟨stuck, hstuck, hage⟩, fun hstall ↦ ?_⟩
  rw [hstuck, ingestWedged, Option.any_some, decide_eq_true_iff]
  exact hstall.trans_le hage

/-! A partition of a topic whose handler defers its writes, and a store that takes none of them. -/

def kpiStream : Partition := ("kpi_stream", 0)

def deferring : ConsumerConfig := ⟨true, ["kpi_stream"]⟩

/-- A record that raises, is redelivered and raises again: its partition is called wedged. -/
theorem stuck_reported_raising : ∃ w : WatchedConsumer,
    (watching deferring).Reach NoRetry {} w ∧ w.since kpiStream = 1001 ∧
      ingestWedged (w.consumer.commitStuckS 1400) = true := by
  have hexec : ((watching deferring).execWhen NoRetry {}
      [(1000, .handle (some (kpiStream, 0)) .wrote),
        (1001, .handle (some (kpiStream, 1)) .raised),
        (1006, .handle (some (kpiStream, 1)) .raised)]).any (fun w ↦
          w.consumer.book.pending kpiStream ∧ w.since kpiStream = 1001) = true := by
    decide +kernel
  obtain ⟨w, hw, h⟩ := (Option.any_eq_true _ _).mp hexec
  obtain ⟨hp, hsince⟩ := of_decide_eq_true h
  have hrun := Machine.reach_of_execWhen hw
  refine ⟨w, hrun, hsince, (stuck_reported deferring hrun kpiStream hp 1400).2 ?_⟩
  rw [hsince]
  decide +kernel

/-- Two records that are consumed, and a flush that raises; after every rewind the first of them is
redelivered and the flush raises again. -/
def retries : List (ℚ × ConsumerEvent) :=
  [(1000, .handle (some (kpiStream, 0)) .wrote), (1000, .handle (some (kpiStream, 1)) .wrote),
    (1000, .commitSafe .raised .notMade fun _ ↦ true),
    (1200, .handle (some (kpiStream, 0)) .wrote),
    (1200, .commitSafe .raised .notMade fun _ ↦ true),
    (1400, .handle (some (kpiStream, 0)) .wrote)]

/-- Every flush that raises asks for the records from the first one on. -/
example : (((watching deferring).exec {} (retries.take 4)).map fun w ↦
    (w.consumer.commitSafe deferring .raised .notMade 1200 fun _ ↦ true).2.2) =
      some [(kpiStream, 0)] := by
  decide +kernel

/-- A partition that has made nothing durable for longer than the stall interval reports an age of
zero. -/
theorem retry_starts_clock_anew : ∃ w : WatchedConsumer,
    (watching deferring).exec {} retries = some w ∧
      w.consumer.book.pending kpiStream = true ∧ w.durable kpiStream = none ∧
      INGEST_STALL_AFTER_S < 1400 - w.since kpiStream ∧
      w.consumer.commitStuckS 1400 = some 0 ∧
      ingestWedged (w.consumer.commitStuckS 1400) = false := by
  have hrun : ((watching deferring).exec {} retries).any (fun w ↦
      w.consumer.book.pending kpiStream ∧ w.durable kpiStream = none ∧
        INGEST_STALL_AFTER_S < 1400 - w.since kpiStream ∧
        w.consumer.commitStuckS 1400 = some 0 ∧
        ingestWedged (w.consumer.commitStuckS 1400) = false) = true := by
    decide +kernel
  obtain ⟨w, hw, h⟩ := (Option.any_eq_true _ _).mp hrun
  exact ⟨w, hw, of_decide_eq_true h⟩

end OpenRide.Dataplane
