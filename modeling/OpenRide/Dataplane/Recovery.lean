import OpenRide.Dataplane.Consumer

/-!
# Recovering a blocked partition

A blocked partition is rewound to its blocked offset, and the broker redelivers what it still holds
from there on.  While no record fails, the book of one partition, its commit point and its blocked
offset, is a function of the offsets it is handed (`book_foldl_run`); flushes that return, commits
and the records of other partitions do not touch it.

`recovers_iff` says when that unblocks the partition: exactly when the first redelivered record is
not above the commit point.  A gap below the blocked record is enough to miss that, as
`gap_never_recovers` shows.
-/

namespace OpenRide.Dataplane

open Lib

/-! ## The book of one partition -/

/-- The commit point of a partition, and the offset it is blocked at. -/
structure Book where
  commitAt : Option ℤ
  blocked : Option ℤ
deriving DecidableEq

/-- The book of a partition. -/
def Consumer.book (c : Consumer) (p : Partition) : Book where
  commitAt := c.commitAt.get? p
  blocked := c.blocked.get? p

/-- A record that was taken care of: the commit point passes it if the partition is not blocked, or
if the record is not above the point. -/
def Book.pass (b : Book) (o : ℤ) : Book :=
  if o ≤ b.commitAt.getD o ∨ b.blocked = none then { commitAt := some (o + 1), blocked := none }
  else b

theorem book_noteOffset (c : Consumer) (p : Partition) (o : ℤ) :
    (c.noteOffset p o true).book p = (c.book p).pass o := by
  rcases noteOffset_self (c := c) (p := p) (o := o) with
    ⟨-, h, h1, h2⟩ | ⟨-, ⟨n, hn, hlt⟩, hb, h1, h2⟩ | ⟨hf, -⟩
  · have hbook : (c.noteOffset p o true).book p =
      { commitAt := some (o + 1), blocked := none } := by
      rw [Consumer.book, h1, h2]
    exact hbook.trans (if_pos h).symm
  · have hbook : (c.noteOffset p o true).book p = c.book p := by
      rw [Consumer.book, h1, h2]
      rfl
    refine hbook.trans (if_neg ?_).symm
    rintro (hle | hnb)
    · rw [Consumer.book, hn, Option.getD_some] at hle
      exact absurd hle (not_le.mpr hlt)
    · exact hb hnb
  · cases hf

/-- An open partition follows the records. -/
theorem foldl_pass_open (b : Book) (hb : b.blocked = none) (os : List ℤ) :
    os.foldl Book.pass b =
      { commitAt := (os.getLast?.map (· + 1)) <|> b.commitAt, blocked := none } := by
  induction os generalizing b with
  | nil =>
    obtain ⟨n, k⟩ := b
    simpa using hb
  | cons o os ih =>
    have hp : b.pass o = { commitAt := some (o + 1), blocked := none } := by
      rw [Book.pass, if_pos (Or.inr hb)]
    rw [List.foldl_cons, hp, ih _ rfl, List.getLast?_cons]
    cases os.getLast? <;> rfl

/-- Records above the commit point leave a blocked partition as it is. -/
theorem foldl_pass_stuck {b : Book} {n : ℤ} (hn : b.commitAt = some n) (hb : b.blocked ≠ none)
    {os : List ℤ} (hos : ∀ o ∈ os, n < o) : os.foldl Book.pass b = b := by
  induction os with
  | nil => rfl
  | cons o os ih =>
    have hp : b.pass o = b := by
      rw [Book.pass, if_neg]
      rw [hn, Option.getD_some]
      rintro (hle | hnb)
      · exact absurd hle (not_le.mpr (hos o List.mem_cons_self))
      · exact hb hnb
    rw [List.foldl_cons, hp]
    exact ih fun x hx ↦ hos x (List.mem_cons_of_mem _ hx)

/-! ## Redelivery -/

/-- One operation of the consumer. -/
inductive ConsumerOp where
  | handle (coords : Option (Partition × ℤ)) (h : Handled)
  | flush (outcome : FlushOutcome)
  | commit (outcome : FlushOutcome) (attempt : CommitAttempt)
deriving DecidableEq

/-- The consumer after an operation. -/
def Consumer.run (cfg : ConsumerConfig) (c : Consumer) : ConsumerOp → Consumer
  | .handle coords h => c.handleMessage coords h
  | .flush outcome => (c.flushWrites cfg outcome).1
  | .commit outcome attempt => (c.commitSafe cfg outcome attempt).1

/-- The offset an operation handles on a partition. -/
def ConsumerOp.offsetOn (p : Partition) : ConsumerOp → Option ℤ
  | .handle (some (q, o)) _ => if q = p then some o else none
  | _ => none

/-- Nothing of the partition fails: its records are taken care of, and every flush returns. -/
def ConsumerOp.succeeds (p : Partition) : ConsumerOp → Prop
  | .handle coords h => (∃ o, coords = some (p, o)) → h.committable = true
  | .flush outcome => outcome = .returned
  | .commit outcome _ => outcome = .returned

/-- The operations hand the partition the records `os`, in that order, and nothing fails. -/
structure Redelivers (p : Partition) (os : List ℤ) (ops : List ConsumerOp) : Prop where
  offsets : ops.filterMap (ConsumerOp.offsetOn p) = os
  succeeds : ∀ op ∈ ops, op.succeeds p

theorem flushWrites_returned (cfg : ConsumerConfig) (c : Consumer) (p : Partition) :
    (c.flushWrites cfg .returned).1.book p = c.book p := by
  rw [Consumer.flushWrites]
  split <;> rfl

theorem book_accept (c : Consumer) (r : CommitRequest) (p : Partition) :
    (c.accept r).book p = c.book p := by
  obtain ⟨h1, -, h3, -⟩ := accept_book c r
  rw [Consumer.book, h1, h3]
  rfl

theorem book_run {cfg : ConsumerConfig} {c : Consumer} {p : Partition} {op : ConsumerOp}
    (h : op.succeeds p) : (c.run cfg op).book p =
      match op.offsetOn p with
      | none => c.book p
      | some o => (c.book p).pass o := by
  cases op with
  | handle coords handled =>
    cases coords with
    | none => rfl
    | some qo =>
      obtain ⟨q, o⟩ := qo
      rw [ConsumerOp.offsetOn]
      by_cases hq : q = p
      · subst hq
        have hok : handled.committable = true := h ⟨o, rfl⟩
        rw [if_pos rfl, Consumer.run, Consumer.handleMessage, hok]
        exact book_noteOffset c q o
      · obtain ⟨h1, -, h3⟩ := noteOffset_ne (c := c) (o := o)
          (Ne.symm hq)
        rw [if_neg hq, Consumer.run, Consumer.handleMessage, Consumer.book, h1, h3]
        rfl
  | flush outcome =>
    obtain rfl : outcome = .returned := h
    exact flushWrites_returned cfg c p
  | commit outcome attempt =>
    obtain rfl : outcome = .returned := h
    have hb := flushWrites_returned cfg c p
    show (c.commitSafe cfg .returned attempt).1.book p = c.book p
    rw [Consumer.commitSafe]
    dsimp only
    split
    · cases attempt with
      | notMade => exact hb
      | accepted => exact (book_accept _ _ p).trans hb
      | raised => exact hb
    · exact hb

/-- **While nothing fails, the book of a partition is a function of the records it is handed.** -/
theorem book_foldl_run {cfg : ConsumerConfig} {p : Partition} {ops : List ConsumerOp}
    {os : List ℤ} (h : Redelivers p os ops) (c : Consumer) :
    (ops.foldl (Consumer.run cfg) c).book p = os.foldl Book.pass (c.book p) := by
  obtain ⟨rfl, hs⟩ := h
  induction ops generalizing c with
  | nil => rfl
  | cons op ops ih =>
    rw [List.foldl_cons, ih (c.run cfg op) fun x hx ↦ hs x (List.mem_cons_of_mem _ hx),
      book_run (hs op List.mem_cons_self), List.filterMap_cons]
    cases op.offsetOn p <;> rfl

/-- **A rewound partition recovers exactly when the first record redelivered to it is not above its
commit point.**  It recovers if it is no longer blocked and its commit point is one past the last
record the log holds. -/
theorem recovers_iff (cfg : ConsumerConfig) (c : Consumer) (p : Partition) (b : ℤ)
    (hb : c.blocked.get? p = some b) (log : SortedSet ℤ) (ops : List ConsumerOp)
    (h : Redelivers p (log.membersFrom b) ops) :
    ((ops.foldl (Consumer.run cfg) c).blocked.get? p = none ∧
      ∃ last, (log.membersFrom b).getLast? = some last ∧
        (ops.foldl (Consumer.run cfg) c).commitAt.get? p = some (last + 1)) ↔
    ∃ first, log.firstFrom b = some first ∧ ∀ n, c.commitAt.get? p = some n → first ≤ n := by
  have hbook : (ops.foldl (Consumer.run cfg) c).book p = _ := book_foldl_run h c
  have hcommit : (ops.foldl (Consumer.run cfg) c).commitAt.get? p = _ :=
    congrArg Book.commitAt hbook
  have hblocked : (ops.foldl (Consumer.run cfg) c).blocked.get? p = _ :=
    congrArg Book.blocked hbook
  have hfirst : log.firstFrom b = (log.membersFrom b).head? := List.head?_filter.symm
  have hsorted : (log.membersFrom b).Pairwise (· < ·) := log.sorted.sublist List.filter_sublist
  have hne : (c.book p).blocked ≠ none := by
    rw [Consumer.book, hb]
    exact Option.some_ne_none b
  rw [hfirst, hblocked, hcommit]
  cases hos : log.membersFrom b with
  | nil => exact iff_of_false (fun hx ↦ hne hx.1) fun ⟨_, hx, _⟩ ↦ nomatch hx
  | cons o os =>
    rw [hos] at hsorted
    rw [List.head?_cons, List.foldl_cons]
    by_cases hle : o ≤ (c.book p).commitAt.getD o
    · have hpass : (c.book p).pass o = { commitAt := some (o + 1), blocked := none } := by
        rw [Book.pass, if_pos (Or.inl hle)]
      rw [hpass, foldl_pass_open _ rfl, List.getLast?_cons]
      refine iff_of_true ⟨rfl, _, rfl, ?_⟩ ⟨o, rfl, fun n hn ↦ ?_⟩
      · cases os.getLast? <;> rfl
      · rw [Consumer.book, hn] at hle
        exact hle
    · cases hn : c.commitAt.get? p with
      | none =>
        rw [Consumer.book, hn] at hle
        exact absurd (le_refl o) hle
      | some n =>
        rw [Consumer.book, hn, Option.getD_some, not_le] at hle
        have hstuck : (o :: os).foldl Book.pass (c.book p) = c.book p := by
          refine foldl_pass_stuck (n := n) hn hne fun x hx ↦ ?_
          rcases List.mem_cons.mp hx with rfl | hx
          · exact hle
          · exact hle.trans ((List.pairwise_cons.mp hsorted).1 x hx)
        rw [← List.foldl_cons, hstuck]
        refine iff_of_false (fun hx ↦ hne hx.1) fun ⟨f, hf, hall⟩ ↦ ?_
        obtain rfl := Option.some_inj.mp hf
        exact absurd (hall n rfl) (not_le.mpr hle)

/-- The partition of a topic with one partition. -/
def runStatus : Partition := ("run_status", 0)

/-- A consumer that has handled two records, the second one raising. -/
def failedAt (o o' : ℤ) : Consumer :=
  [.handle (some (runStatus, o)) .wrote, .handle (some (runStatus, o')) .raised].foldl
    (Consumer.run { flushes := true, flushTopics := ["kpi"] }) {}

/-- The records of a partition taken care of, and a flush that returns. -/
def redelivery (os : List ℤ) : List ConsumerOp :=
  (os.map fun o ↦ .handle (some (runStatus, o)) .wrote) ++ [.flush .returned]

/-- Without a gap below the failed record the partition recovers. -/
theorem recovers_iff_small :
    ((redelivery [1, 3]).foldl (Consumer.run { flushes := true, flushTopics := ["kpi"] })
      (failedAt 0 1)).blocked.get? runStatus = none := by
  refine ((recovers_iff { flushes := true, flushTopics := ["kpi"] } (failedAt 0 1) runStatus 1
    (by decide) (SortedSet.ofList [0, 1, 3]) (redelivery [1, 3]) ⟨by decide, ?_⟩).mpr
    ⟨1, by decide, ?_⟩).1
  · intro op hop
    have hop : op ∈ [ConsumerOp.handle (some (runStatus, 1)) .wrote,
        .handle (some (runStatus, 3)) .wrote, .flush .returned] := hop
    simp only [List.mem_cons, List.not_mem_nil, or_false] at hop
    obtain rfl | rfl | rfl := hop
    · exact fun _ ↦ rfl
    · exact fun _ ↦ rfl
    · rfl
  · intro n hn
    have h1 : (failedAt 0 1).commitAt.get? runStatus = some 1 := by decide
    rw [h1, Option.some_inj] at hn
    exact le_of_eq hn

/-- The log holds 100, 107 and 110, and 107 fails.  Rewound to 107 and handed 107 and 110 again, the
partition stays blocked and its commit point stays at 101. -/
theorem gap_never_recovers :
    (failedAt 100 107).blocked.get? runStatus = some 107 ∧
    (SortedSet.ofList [100, 107, 110]).membersFrom (107 : ℤ) = [107, 110] ∧
    ((redelivery [107, 110]).foldl (Consumer.run { flushes := true, flushTopics := ["kpi"] })
      (failedAt 100 107)).book runStatus = { commitAt := some 101, blocked := some 107 } := by
  decide

end OpenRide.Dataplane
