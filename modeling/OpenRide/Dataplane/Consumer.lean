import Mathlib.Data.Int.Order.Basic
import Mathlib.Data.Prod.Lex
import Mathlib.Data.String.Basic
import OpenRide.Lib.Dict
import OpenRide.Lib.Sorted

/-!
# The ingest consumer's offsets

One consumer reads every partition.  For each it keeps the next offset to commit, the floor the
commit point stood at when the last flush returned, the lowest offset known not to be written (the
partition is then *blocked*), and what the broker last accepted.

`noteOffset` is the rule for one record: the commit point moves past a record that was taken care
of unless the partition is blocked, a failure blocks the partition, and a record below the commit
point takes it back down.  `flushWrites` sets the floors when it returns, and rolls the commit
points of the deferring topics back to them when it raises.  `commitSafe` flushes first.

`noteOffset_self` and `noteOffset_ne`, `flushWrites_returned` and `flushWrites_raised` say what each
does to the book of one partition; nothing else unfolds them.
-/

namespace OpenRide.Dataplane

open Lib

/-! ## The model -/

/-- A topic and a partition number. -/
abbrev Partition := String × ℤ

/-- The offset book of `DataplaneConsumer`.  The time stamps, which no offset depends on, are left
out. -/
structure Consumer where
  commitAt : Dict Partition ℤ := Dict.empty
  maxSeen : Dict Partition ℤ := Dict.empty
  committed : Dict Partition ℤ := Dict.empty
  flushFloor : Dict Partition ℤ := Dict.empty
  blocked : Dict Partition ℤ := Dict.empty
  untracked : ℕ := 0

/-- Whether a flush was given, and the topics whose handlers defer their writes to it. -/
structure ConsumerConfig where
  flushes : Bool
  flushTopics : List String

/-- What became of a record: its handler returned, it was thrown away (before its handler or by
it), or its handler raised. -/
inductive Handled where
  | wrote
  | discarded
  | raised
deriving DecidableEq

/-- Is the offset of the record committable? -/
def Handled.committable : Handled → Bool
  | .wrote => true
  | .discarded => true
  | .raised => false

/-- The highest offset seen. -/
def Consumer.see (c : Consumer) (p : Partition) (offset : ℤ) : Consumer :=
  { c with
    maxSeen := if offset > (c.maxSeen.get? p).getD (-1) then c.maxSeen.set p offset else c.maxSeen }

/-- A record below the commit point takes the point, and the flush floor, down with it.  The first
record of a partition starts both. -/
def Consumer.follow (c : Consumer) (p : Partition) (offset : ℤ) : Consumer :=
  if (c.commitAt.get? p).all (offset < ·) then
    { c with
      commitAt := c.commitAt.set p offset
      flushFloor :=
        if offset < (c.flushFloor.get? p).getD (offset + 1) then c.flushFloor.set p offset
        else c.flushFloor }
  else c

/-- `_note_offset`. -/
def Consumer.noteOffset (c : Consumer) (p : Partition) (offset : ℤ) (ok : Bool) : Consumer :=
  let c := (c.see p offset).follow p offset
  if ok then
    if c.commitAt.get? p = some offset ∨ c.blocked.get? p = none then
      { c with commitAt := c.commitAt.set p (offset + 1), blocked := c.blocked.erase p }
    else c
  else { c with blocked := c.blocked.setDefault p offset }

/-- `handle_message`, once the record has been handled: a record without coordinates is
untracked. -/
def Consumer.handleMessage (c : Consumer) (coords : Option (Partition × ℤ)) (h : Handled) :
    Consumer :=
  match coords with
  | none => { c with untracked := c.untracked + 1 }
  | some (p, offset) => c.noteOffset p offset h.committable

/-- Where the commit point of a partition stood when the last flush returned. -/
def Consumer.floorOf (c : Consumer) (p : Partition) (nxt : ℤ) : ℤ := (c.flushFloor.get? p).getD nxt

/-- Does a failed flush roll a partition back? -/
def Consumer.rollsBack (cfg : ConsumerConfig) (c : Consumer) (p : Partition) (nxt : ℤ) : Bool :=
  nxt > c.floorOf p nxt ∧ (cfg.flushTopics.isEmpty ∨ p.1 ∈ cfg.flushTopics)

/-- How a call of the flush ends. -/
inductive FlushOutcome where
  | returned
  | raised
deriving DecidableEq

/-- `flush_writes`, without the rewind. -/
def Consumer.flushWrites (cfg : ConsumerConfig) (outcome : FlushOutcome) (c : Consumer) :
    Consumer × Bool :=
  if cfg.flushes then
    match outcome with
    | .returned => ({ c with flushFloor := c.commitAt }, true)
    | .raised =>
      ({ c with
         commitAt := c.commitAt.update (c.commitAt.selected (c.rollsBack cfg) c.floorOf)
         blocked := c.blocked.setDefaults (c.commitAt.selected (c.rollsBack cfg) c.floorOf) },
        false)
  else (c, true)

/-- `safe_offsets`: the commit points the broker has not accepted yet, sorted. -/
def Consumer.safeOffsets (c : Consumer) : List (Partition × ℤ) :=
  sortedBy (fun e ↦ toLex (e.1.1, toLex (e.1.2, e.2)))
    (c.commitAt.entries.filter fun e ↦ e.2 > (c.committed.get? e.1).getD (-1))

/-- How an attempt to commit ends: it is not made (there is no client, or the interval is not over,
or the client cannot commit), it is accepted, or it raises. -/
inductive CommitAttempt where
  | notMade
  | accepted
  | raised
deriving DecidableEq

/-- What `commit_safe` asks the broker for. -/
inductive CommitRequest where
  | nothing
  /-- These offsets. -/
  | offsets (l : List (Partition × ℤ))
  /-- Whatever the client's positions are. -/
  | blind
deriving DecidableEq

/-- The request of `commit_safe` after a flush that returned. -/
def Consumer.commitRequest (c : Consumer) : CommitRequest :=
  if c.safeOffsets.isEmpty then if c.untracked = 0 then .nothing else .blind
  else .offsets c.safeOffsets

/-- The book after the broker has accepted a request. -/
def Consumer.accept (c : Consumer) : CommitRequest → Consumer
  | .nothing => c
  | .offsets l => { c with committed := c.committed.update l, untracked := 0 }
  | .blind => { c with untracked := 0 }

/-- `commit_safe`: the book after it, and the request that was made if one was. -/
def Consumer.commitSafe (cfg : ConsumerConfig) (outcome : FlushOutcome) (attempt : CommitAttempt)
    (c : Consumer) : Consumer × CommitRequest :=
  let (c, flushed) := c.flushWrites cfg outcome
  if flushed then
    match attempt with
    | .notMade => (c, .nothing)
    | .accepted => (c.accept c.commitRequest, c.commitRequest)
    | .raised => (c, c.commitRequest)
  else (c, .nothing)

/-- `blocked_topics`, as topics of the broker. -/
def Consumer.blockedTopics (c : Consumer) : List String := c.blocked.keys.map Prod.fst

/-! ## One record -/

variable {c : Consumer} {p q : Partition} {o : ℤ}

theorem follow_ne (h : q ≠ p) : (c.follow p o).commitAt.get? q = c.commitAt.get? q ∧
    (c.follow p o).flushFloor.get? q = c.flushFloor.get? q := by
  rw [Consumer.follow]
  split
  · refine ⟨Dict.get?_set_ne _ _ h, ?_⟩
    split
    · exact Dict.get?_set_ne _ _ h
    · rfl
  · exact ⟨rfl, rfl⟩

theorem follow_blocked : (c.follow p o).blocked = c.blocked ∧
    (c.follow p o).untracked = c.untracked ∧ (c.follow p o).committed = c.committed := by
  rw [Consumer.follow]
  split <;> exact ⟨rfl, rfl, rfl⟩

/-- The commit point comes down to the record, if it is above it. -/
theorem follow_commitAt :
    (c.follow p o).commitAt.get? p = some (min o ((c.commitAt.get? p).getD o)) := by
  rw [Consumer.follow]
  cases hn : c.commitAt.get? p with
  | none => simp
  | some n =>
    rw [Option.all_some, Option.getD_some]
    split
    · next h => rw [Dict.get?_set_self, min_eq_left (le_of_lt (of_decide_eq_true h))]
    · next h =>
      have h : n ≤ o := not_lt.mp fun hlt ↦ h (decide_eq_true hlt)
      rw [hn, min_eq_right h]

/-- The floor never lies above the record then, and is there from the first record on. -/
theorem follow_flushFloor (h : c.commitAt.get? p ≠ none → c.flushFloor.get? p ≠ none) :
    ∃ f, (c.follow p o).flushFloor.get? p = some f ∧
      (c.flushFloor.get? p = some f ∨ f = o ∧ ∀ f', c.flushFloor.get? p = some f' → o ≤ f') := by
  rw [Consumer.follow]
  split
  · dsimp only
    split
    · next hlt =>
      refine ⟨o, Dict.get?_set_self _ _ _, Or.inr ⟨rfl, fun f' hf' ↦ ?_⟩⟩
      rw [hf', Option.getD_some] at hlt
      exact le_of_lt hlt
    · next hlt =>
      cases hf : c.flushFloor.get? p with
      | none =>
        rw [hf, Option.getD_none] at hlt
        exact absurd (by omega) hlt
      | some f => exact ⟨f, rfl, Or.inl rfl⟩
  · next hall =>
    cases hf : c.flushFloor.get? p with
    | none =>
      refine absurd hf (h fun hn ↦ hall ?_)
      rw [hn]
      rfl
    | some f => exact ⟨f, rfl, Or.inl rfl⟩

variable {ok : Bool}

theorem noteOffset_ne (h : q ≠ p) :
    (c.noteOffset p o ok).commitAt.get? q = c.commitAt.get? q ∧
    (c.noteOffset p o ok).flushFloor.get? q = c.flushFloor.get? q ∧
    (c.noteOffset p o ok).blocked.get? q = c.blocked.get? q := by
  rw [Consumer.noteOffset]
  obtain ⟨h1, h2⟩ := follow_ne (c := c.see p o) (o := o) h
  obtain ⟨h3, -⟩ := follow_blocked (c := c.see p o) (p := p) (o := o)
  split
  · split
    · refine ⟨(Dict.get?_set_ne _ _ h).trans h1, h2, ?_⟩
      rw [Dict.get?_erase_ne _ h, h3]
      rfl
    · exact ⟨h1, h2, by rw [h3]; rfl⟩
  · refine ⟨h1, h2, ?_⟩
    rw [Dict.get?_setDefault, if_neg h, h3]
    rfl

/-- What a record does to the book of its own partition: the commit point passes it, or it leaves a
blocked partition as it is, or it blocks the partition. -/
theorem noteOffset_self :
    (ok = true ∧ (o ≤ (c.commitAt.get? p).getD o ∨ c.blocked.get? p = none) ∧
      (c.noteOffset p o ok).commitAt.get? p = some (o + 1) ∧
      (c.noteOffset p o ok).blocked.get? p = none) ∨
    (ok = true ∧ (∃ n, c.commitAt.get? p = some n ∧ n < o) ∧ c.blocked.get? p ≠ none ∧
      (c.noteOffset p o ok).commitAt.get? p = c.commitAt.get? p ∧
      (c.noteOffset p o ok).blocked.get? p = c.blocked.get? p) ∨
    (ok = false ∧
      (c.noteOffset p o ok).commitAt.get? p = some (min o ((c.commitAt.get? p).getD o)) ∧
      (c.noteOffset p o ok).blocked.get? p = some ((c.blocked.get? p).getD o)) := by
  have hn : ((c.see p o).follow p o).commitAt.get? p = some (min o ((c.commitAt.get? p).getD o)) :=
    follow_commitAt
  have hb : ((c.see p o).follow p o).blocked = c.blocked := follow_blocked.1
  cases ok with
  | false =>
    refine Or.inr (Or.inr ⟨rfl, ?_, ?_⟩)
    · rw [Consumer.noteOffset, if_neg Bool.false_ne_true]
      exact hn
    · rw [Consumer.noteOffset, if_neg Bool.false_ne_true, Dict.get?_setDefault, if_pos rfl, hb]
  | true =>
    rw [Consumer.noteOffset, if_pos rfl]
    by_cases h : ((c.see p o).follow p o).commitAt.get? p = some o ∨
        ((c.see p o).follow p o).blocked.get? p = none
    · rw [if_pos h]
      refine Or.inl ⟨rfl, ?_, Dict.get?_set_self _ _ _, Dict.get?_erase_self _ _⟩
      rw [hn, hb, Option.some_inj] at h
      exact h.imp min_eq_left_iff.mp id
    · rw [if_neg h, hn, hb]
      rw [hn, hb, Option.some_inj] at h
      obtain ⟨hlt, hblk⟩ := not_or.mp h
      have hlt : (c.commitAt.get? p).getD o < o :=
        not_le.mp fun hle ↦ hlt (min_eq_left hle)
      cases hc : c.commitAt.get? p with
      | none =>
        rw [hc] at hlt
        exact absurd hlt (lt_irrefl o)
      | some n =>
        rw [hc, Option.getD_some] at hlt
        refine Or.inr (Or.inl ⟨rfl, ⟨n, rfl, hlt⟩, hblk, ?_, rfl⟩)
        rw [Option.getD_some, min_eq_right (le_of_lt hlt)]

theorem noteOffset_flushFloor (h : c.commitAt.get? p ≠ none → c.flushFloor.get? p ≠ none) :
    ∃ f, (c.noteOffset p o ok).flushFloor.get? p = some f ∧
      (c.flushFloor.get? p = some f ∨ f = o ∧ ∀ f', c.flushFloor.get? p = some f' → o ≤ f') := by
  have hf : (c.noteOffset p o ok).flushFloor = ((c.see p o).follow p o).flushFloor := by
    rw [Consumer.noteOffset]
    split
    · split <;> rfl
    · rfl
  rw [hf]
  exact follow_flushFloor (c := c.see p o) h

theorem noteOffset_untracked : (c.noteOffset p o ok).untracked = c.untracked := by
  rw [Consumer.noteOffset]
  have h : ((c.see p o).follow p o).untracked = c.untracked := follow_blocked.2.1
  split
  · split <;> exact h
  · exact h

/-! ## A flush -/

/-- A failed flush takes a partition it rolls back to its floor, and blocks it there unless it is
blocked already. -/
theorem flushWrites_raised {cfg : ConsumerConfig} (hf : cfg.flushes = true) (q : Partition) :
    (c.flushWrites cfg .raised).1.flushFloor = c.flushFloor ∧
    (c.flushWrites cfg .raised).1.commitAt.get? q = ((c.commitAt.get? q).map fun n ↦
      if c.rollsBack cfg q n then c.floorOf q n else n) ∧
    (c.flushWrites cfg .raised).1.blocked.get? q =
      match (c.commitAt.get? q).filter (c.rollsBack cfg q) with
      | none => c.blocked.get? q
      | some n => some ((c.blocked.get? q).getD (c.floorOf q n)) := by
  rw [Consumer.flushWrites, if_pos hf]
  refine ⟨rfl, Dict.get?_update_selected _ _ _ q, ?_⟩
  cases hn : c.commitAt.get? q with
  | none =>
    exact Dict.get?_setDefaults_of_notMem (Dict.notMem_selected fun v h ↦ by rw [hn] at h; cases h)
  | some n =>
    rw [Option.filter_some]
    cases hr : c.rollsBack cfg q n with
    | true =>
      exact Dict.get?_setDefaults_of_mem (Dict.selected_nodup _ _ _) (Dict.mem_selected hn hr)
    | false =>
      refine Dict.get?_setDefaults_of_notMem (Dict.notMem_selected fun v h ↦ ?_)
      rw [hn, Option.some_inj] at h
      exact h ▸ hr

theorem mem_safeOffsets {n : ℤ} : (p, n) ∈ c.safeOffsets ↔
    c.commitAt.get? p = some n ∧ n > (c.committed.get? p).getD (-1) := by
  rw [Consumer.safeOffsets, mem_sortedBy, List.mem_filter, Dict.mem_entries_iff,
    decide_eq_true_iff]

/-- A commit leaves the points, the floors and the blocks alone. -/
theorem accept_book (c : Consumer) (r : CommitRequest) : (c.accept r).commitAt = c.commitAt ∧
    (c.accept r).flushFloor = c.flushFloor ∧ (c.accept r).blocked = c.blocked ∧
    (c.untracked = 0 → (c.accept r).untracked = 0) := by
  cases r with
  | nothing => exact ⟨rfl, rfl, rfl, id⟩
  | offsets l => exact ⟨rfl, rfl, rfl, fun _ ↦ rfl⟩
  | blind => exact ⟨rfl, rfl, rfl, fun _ ↦ rfl⟩

end OpenRide.Dataplane
