import Mathlib.Logic.Function.Basic
import OpenRide.Lib.Machine
import OpenRide.Dataplane.Consumer

/-!
# A consumer reading from a broker

The broker holds the records of each partition at increasing offsets, with gaps.  The consumer has a
position in each partition; a delivery hands it the next record from there on, and moves the
position past it.  The consumer seeks back to blocked offsets, throttled and at best effort, and the
broker may reposition it: to an earlier record, or to the committed offset.

Beside the consumer's book a state keeps what is true of the records: which were delivered, which
are durable, which were thrown away, and which are buffered until the next flush.  A flush that
raises loses the buffer.
-/

namespace OpenRide.Dataplane

open Lib

/-- A consumer with the handlers of a service.  A topic whose handler defers its writes is one that
a failed flush rolls back. -/
structure IngestConfig extends ConsumerConfig where
  /-- Does the handler of a topic buffer its writes until the flush? -/
  defers : String → Bool
  flushes_of_defers : ∀ t, defers t = true → flushes = true
  declared : ∀ t, defers t = true → flushTopics.isEmpty = true ∨ t ∈ flushTopics

/-- The consumer of `DataplaneService`: only `on_kpi` defers its write. -/
def serviceConfig (kpiTopic : String) : IngestConfig where
  flushes := true
  flushTopics := [kpiTopic]
  defers t := t = kpiTopic
  flushes_of_defers _ _ := rfl
  declared _ h := Or.inr (List.mem_singleton.mpr (of_decide_eq_true h))

/-- The records of each partition, where the consumer starts to read it, and the offset committed
for its group by then. -/
structure Broker where
  log : Partition → SortedSet ℤ
  start : Partition → ℤ
  committed : Partition → Option ℤ
  committed_le : ∀ p c, committed p = some c → c ≤ start p

/-- A consumer, its positions, the offsets the broker has committed, and the records. -/
structure Ingest where
  consumer : Consumer
  position : Partition → ℤ
  offsetsAt : Partition → Option ℤ
  /-- Handled, and waiting for the flush. -/
  buffered : List (Partition × ℤ)
  delivered : List (Partition × ℤ)
  durable : List (Partition × ℤ)
  discarded : List (Partition × ℤ)

/-- The consumer before its first poll. -/
def Ingest.start (b : Broker) : Ingest where
  consumer := {}
  position := b.start
  offsetsAt := b.committed
  buffered := []
  delivered := []
  durable := []
  discarded := []

/-- `_rewind_blocked`: seek back to the blocked offset of every partition that is sought. -/
def Consumer.seekBack (c : Consumer) (sought : Partition → Bool) (position : Partition → ℤ) :
    Partition → ℤ :=
  fun p ↦
    match c.blocked.get? p with
    | none => position p
    | some k => if sought p then k else position p

/-- A record is delivered and handled. -/
def Ingest.deliver (cfg : IngestConfig) (s : Ingest) (p : Partition) (o : ℤ) (h : Handled) :
    Ingest where
  consumer := s.consumer.handleMessage (some (p, o)) h
  position := Function.update s.position p (o + 1)
  offsetsAt := s.offsetsAt
  buffered := if h = .wrote ∧ cfg.defers p.1 = true then (p, o) :: s.buffered else s.buffered
  delivered := (p, o) :: s.delivered
  durable := if h = .wrote ∧ cfg.defers p.1 = false then (p, o) :: s.durable else s.durable
  discarded := if h = .discarded then (p, o) :: s.discarded else s.discarded

/-- The flush of the service, through `flush_writes`: the buffer is written, or lost. -/
def Ingest.flush (cfg : IngestConfig) (s : Ingest) (outcome : FlushOutcome)
    (sought : Partition → Bool) : Ingest :=
  if cfg.flushes then
    let c := (s.consumer.flushWrites cfg.toConsumerConfig outcome).1
    match outcome with
    | .returned => { s with consumer := c, buffered := [], durable := s.buffered ++ s.durable }
    | .raised => { s with consumer := c, buffered := [], position := c.seekBack sought s.position }
  else s

/-- The offsets the broker holds after a request.  Of a request that raised it may have taken any
part. -/
def Ingest.offsetsAfter (s : Ingest) (request : CommitRequest) (attempt : CommitAttempt)
    (took : Partition → Bool) : Partition → Option ℤ :=
  fun p ↦
    if attempt = .accepted ∨ took p then
      match request with
      | .nothing => s.offsetsAt p
      | .offsets l => ((l.find? fun e ↦ e.1 = p).map Prod.snd) <|> s.offsetsAt p
      | .blind => some (s.position p)
    else s.offsetsAt p

/-- `commit_safe`. -/
def Ingest.commit (cfg : IngestConfig) (s : Ingest) (outcome : FlushOutcome)
    (attempt : CommitAttempt) (took sought : Partition → Bool) : Ingest :=
  let t := s.flush cfg outcome sought
  let r := s.consumer.commitSafe cfg.toConsumerConfig outcome attempt
  { t with consumer := r.1, offsetsAt := t.offsetsAfter r.2 attempt took }

/-- What can happen. -/
inductive IngestEvent where
  | deliver (p : Partition) (h : Handled)
  | flush (outcome : FlushOutcome) (sought : Partition → Bool)
  | commit (outcome : FlushOutcome) (attempt : CommitAttempt) (took sought : Partition → Bool)
  | rewind (sought : Partition → Bool)
  | reposition (p : Partition) (offset : ℤ)

/-- The runs of the consumer. -/
def ingest (cfg : IngestConfig) (b : Broker) : Machine Ingest IngestEvent where
  step s
    | .deliver p h => ((b.log p).firstFrom (s.position p)).map fun o ↦ s.deliver cfg p o h
    | .flush outcome sought => some (s.flush cfg outcome sought)
    | .commit outcome attempt took sought => some (s.commit cfg outcome attempt took sought)
    | .rewind sought => some { s with position := s.consumer.seekBack sought s.position }
    | .reposition p offset =>
      if b.start p ≤ offset ∧ (offset ≤ s.position p ∨ s.offsetsAt p = some offset) then
        some { s with position := Function.update s.position p offset }
      else none

end OpenRide.Dataplane
