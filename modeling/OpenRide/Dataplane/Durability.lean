import OpenRide.Dataplane.Ingest

/-!
# Offsets never run ahead of durability

A record is safe once it is durable or was thrown away on purpose.  The invariant of a partition
(`PartitionSound`) says what each part of the book promises about the records below it: everything
below the committed offset and below the flush floor is safe, everything below the commit point is
safe or still buffered, a blocked offset is never below the commit point, and, unless the partition
is blocked, everything behind the read position is below the commit point or safe.  Every event
keeps it, so a commit, which flushes first, never passes a record that is neither durable nor
thrown away (`committed_durable`).
-/

namespace OpenRide.Dataplane

open Lib

/-! ## The invariant -/

/-- Durable, or thrown away on purpose. -/
def Ingest.Safe (s : Ingest) (p : Partition) (o : ℤ) : Prop :=
  (p, o) ∈ s.durable ∨ (p, o) ∈ s.discarded

/-- Every record from the start up to an offset is safe. -/
def SafeBelow (b : Broker) (s : Ingest) (p : Partition) (n : ℤ) : Prop :=
  ∀ o ∈ b.log p, b.start p ≤ o → o < n → s.Safe p o

/-- What the book of a partition promises. -/
structure PartitionSound (cfg : IngestConfig) (b : Broker) (s : Ingest) (p : Partition) :
    Prop where
  offsetsAt : ∀ c, s.offsetsAt p = some c → SafeBelow b s p c
  flushFloor : ∀ f, s.consumer.flushFloor.get? p = some f → b.start p ≤ f ∧ SafeBelow b s p f
  commitAt : ∀ n, s.consumer.commitAt.get? p = some n →
    b.start p ≤ n ∧ s.consumer.flushFloor.get? p ≠ none ∧
      ∀ o ∈ b.log p, b.start p ≤ o → o < n → s.Safe p o ∨ (p, o) ∈ s.buffered
  blocked : ∀ k, s.consumer.blocked.get? p = some k →
    ∃ n, s.consumer.commitAt.get? p = some n ∧ n ≤ k
  behind : s.consumer.blocked.get? p = none → ∀ o ∈ b.log p, b.start p ≤ o → o < s.position p →
    (∃ n, s.consumer.commitAt.get? p = some n ∧ o < n) ∨ s.Safe p o
  position : b.start p ≤ s.position p
  delivered : ∀ o, (p, o) ∈ s.delivered → o ∈ b.log p ∧ b.start p ≤ o
  buffered : ∀ o, (p, o) ∈ s.buffered → cfg.defers p.1 = true

/-- The invariant. -/
structure OffsetsSound (cfg : IngestConfig) (b : Broker) (s : Ingest) : Prop where
  partition : ∀ p, PartitionSound cfg b s p
  untracked : s.consumer.untracked = 0

variable {cfg : IngestConfig} {b : Broker} {s t : Ingest} {p q : Partition}

theorem start_sound (cfg : IngestConfig) (b : Broker) : OffsetsSound cfg b (Ingest.start b) where
  partition p :=
    { offsetsAt := fun c hc _ _ hs hlt ↦
        absurd (hs.trans_lt hlt) (not_lt.mpr (b.committed_le p c hc))
      flushFloor := fun _ hf ↦ nomatch hf
      commitAt := fun _ hn ↦ nomatch hn
      blocked := fun _ hk ↦ nomatch hk
      behind := fun _ _ _ hs hlt ↦ absurd (hs.trans_lt hlt) (lt_irrefl _)
      position := le_refl _
      delivered := nofun
      buffered := nofun }
  untracked := rfl

variable {n : ℤ}

theorem SafeBelow.mono (h : SafeBelow b s p n) (hst : ∀ o, s.Safe p o → t.Safe p o) :
    SafeBelow b t p n :=
  fun o ho hs hlt ↦ hst o (h o ho hs hlt)

/-- An event that leaves the book of a partition alone keeps its promises. -/
theorem PartitionSound.frame (h : PartitionSound cfg b s p)
    (hcommit : t.consumer.commitAt.get? p = s.consumer.commitAt.get? p)
    (hfloor : t.consumer.flushFloor.get? p = s.consumer.flushFloor.get? p)
    (hblocked : t.consumer.blocked.get? p = s.consumer.blocked.get? p)
    (hposition : t.position p = s.position p) (hoffsets : t.offsetsAt p = s.offsetsAt p)
    (hsafe : ∀ o, s.Safe p o → t.Safe p o)
    (hbuf : ∀ o, (p, o) ∈ t.buffered ↔ (p, o) ∈ s.buffered)
    (hdel : ∀ o, (p, o) ∈ t.delivered → (p, o) ∈ s.delivered) : PartitionSound cfg b t p where
  offsetsAt c hc := (h.offsetsAt c (hoffsets ▸ hc)).mono hsafe
  flushFloor f hf := (h.flushFloor f (hfloor ▸ hf)).imp id fun hs ↦ hs.mono hsafe
  commitAt n hn := by
    obtain ⟨h1, h2, h3⟩ := h.commitAt n (hcommit ▸ hn)
    exact ⟨h1, hfloor ▸ h2, fun o ho hs hlt ↦ (h3 o ho hs hlt).imp (hsafe o) (hbuf o).mpr⟩
  blocked k hk := by
    rw [hcommit]
    exact h.blocked k (hblocked ▸ hk)
  behind hb o ho hs hlt := by
    rw [hcommit]
    exact (h.behind (hblocked ▸ hb) o ho hs (hposition ▸ hlt)).imp id (hsafe o)
  position := hposition ▸ h.position
  delivered o ho := h.delivered o (hdel o ho)
  buffered o ho := h.buffered o ((hbuf o).mp ho)

/-! ## A delivery -/

variable {o : ℤ} {h : Handled}

variable {x : ℤ}

theorem safe_deliver (hs : s.Safe q x) : (s.deliver cfg p o h).Safe q x := by
  refine hs.imp (fun hm ↦ ?_) fun hm ↦ ?_
  · rw [Ingest.deliver]
    dsimp only
    split
    · exact List.mem_cons_of_mem _ hm
    · exact hm
  · rw [Ingest.deliver]
    dsimp only
    split
    · exact List.mem_cons_of_mem _ hm
    · exact hm

theorem mem_buffered_deliver :
    (q, x) ∈ (s.deliver cfg p o h).buffered ↔
      (q, x) ∈ s.buffered ∨ (h = .wrote ∧ cfg.defers p.1 = true ∧ q = p ∧ x = o) := by
  rw [Ingest.deliver]
  split
  · next hw =>
    rw [List.mem_cons, Prod.mk.injEq]
    tauto
  · next hw => tauto

/-- A record that was taken care of is safe or buffered. -/
theorem handled_deliver (hc : h.committable = true) :
    (s.deliver cfg p o h).Safe p o ∨ (p, o) ∈ (s.deliver cfg p o h).buffered := by
  cases h with
  | wrote =>
    cases hd : cfg.defers p.1 with
    | true => exact Or.inr (mem_buffered_deliver.mpr (Or.inr ⟨rfl, hd, rfl, rfl⟩))
    | false =>
      refine Or.inl (Or.inl ?_)
      rw [Ingest.deliver]
      dsimp only
      rw [if_pos ⟨rfl, hd⟩]
      exact List.mem_cons_self
  | discarded =>
    refine Or.inl (Or.inr ?_)
    rw [Ingest.deliver]
    exact List.mem_cons_self
  | raised => cases hc

/-- While the partition is not blocked, everything before the next record is taken care of. -/
theorem PartitionSound.before_next (hp : PartitionSound cfg b s p)
    (hnext : (b.log p).firstFrom (s.position p) = some o) (hb : s.consumer.blocked.get? p = none)
    (hx : x ∈ b.log p) (hs : b.start p ≤ x) (hlt : x < o) :
    (∃ n, s.consumer.commitAt.get? p = some n ∧ x < n) ∨ s.Safe p x := by
  refine hp.behind hb x hx hs (not_le.mp fun hle ↦ ?_)
  exact absurd (SortedSet.le_of_firstFrom hnext hx hle) (not_le.mpr hlt)

theorem PartitionSound.floor_ne_none (hp : PartitionSound cfg b s p)
    (hn : s.consumer.commitAt.get? p ≠ none) : s.consumer.flushFloor.get? p ≠ none := by
  obtain ⟨n, hn⟩ := Option.ne_none_iff_exists'.mp hn
  exact (hp.commitAt n hn).2.1

/-- Only a partition with a commit point is ever blocked. -/
theorem PartitionSound.unblocked (hp : PartitionSound cfg b s p)
    (hn : s.consumer.commitAt.get? p = none) : s.consumer.blocked.get? p = none := by
  by_contra hb
  obtain ⟨k, hk⟩ := Option.ne_none_iff_exists'.mp hb
  obtain ⟨n, hn', -⟩ := hp.blocked k hk
  rw [hn] at hn'
  cases hn'

/-- Everything below the next record is safe or buffered, when the commit point has not stopped
before it. -/
theorem PartitionSound.below_next (hp : PartitionSound cfg b s p)
    (hnext : (b.log p).firstFrom (s.position p) = some o)
    (hor : o ≤ (s.consumer.commitAt.get? p).getD o ∨ s.consumer.blocked.get? p = none)
    (hx : x ∈ b.log p) (hs : b.start p ≤ x) (hlt : x < o) : s.Safe p x ∨ (p, x) ∈ s.buffered := by
  have hopen : s.consumer.blocked.get? p = none → s.Safe p x ∨ (p, x) ∈ s.buffered := by
    intro hb
    rcases hp.before_next hnext hb hx hs hlt with ⟨n, hn, hxn⟩ | hsafe
    · exact (hp.commitAt n hn).2.2 x hx hs hxn
    · exact Or.inl hsafe
  rcases hor with hle | hb
  · cases hn : s.consumer.commitAt.get? p with
    | none => exact hopen (hp.unblocked hn)
    | some n =>
      rw [hn, Option.getD_some] at hle
      exact (hp.commitAt n hn).2.2 x hx hs (hlt.trans_le hle)
  · exact hopen hb

theorem safe_or_buffered_deliver (hx : s.Safe p x ∨ (p, x) ∈ s.buffered) :
    (s.deliver cfg p o h).Safe p x ∨ (p, x) ∈ (s.deliver cfg p o h).buffered :=
  hx.imp safe_deliver fun hm ↦ mem_buffered_deliver.mpr (Or.inl hm)

/-- The flush floor after a delivery is the one before, or the record where there was none below
it. -/
theorem PartitionSound.flushFloor_deliver (hp : PartitionSound cfg b s p)
    (hnext : (b.log p).firstFrom (s.position p) = some o) (h : Handled) {f : ℤ}
    (hf : (s.consumer.noteOffset p o h.committable).flushFloor.get? p = some f) :
    b.start p ≤ f ∧ SafeBelow b (s.deliver cfg p o h) p f := by
  obtain ⟨f', hf', hfold⟩ := @noteOffset_flushFloor s.consumer p o h.committable hp.floor_ne_none
  obtain rfl := Option.some_inj.mp (hf.symm.trans hf')
  rcases hfold with hold | ⟨rfl, hle⟩
  · exact (hp.flushFloor f hold).imp id fun hb ↦ hb.mono fun _ ↦ safe_deliver
  · obtain ⟨-, hole⟩ := SortedSet.mem_of_firstFrom hnext
    refine ⟨hp.position.trans hole,
      SafeBelow.mono (s := s) (fun x hx hs hlt ↦ ?_) fun _ ↦ safe_deliver⟩
    cases hold : s.consumer.flushFloor.get? p with
    | some f0 => exact (hp.flushFloor f0 hold).2 x hx hs (hlt.trans_le (hle f0 hold))
    | none =>
      have hn : s.consumer.commitAt.get? p = none := by
        by_contra hn
        exact hp.floor_ne_none hn hold
      rcases hp.before_next hnext (hp.unblocked hn) hx hs hlt with ⟨n, hn', -⟩ | hsafe
      · rw [hn] at hn'
        cases hn'
      · exact hsafe

theorem PartitionSound.commitAt_deliver (hp : PartitionSound cfg b s p)
    (hnext : (b.log p).firstFrom (s.position p) = some o) (h : Handled)
    (hn : (s.consumer.noteOffset p o h.committable).commitAt.get? p = some n) :
    b.start p ≤ n ∧ ∀ x ∈ b.log p, b.start p ≤ x → x < n →
      (s.deliver cfg p o h).Safe p x ∨ (p, x) ∈ (s.deliver cfg p o h).buffered := by
  have hostart : b.start p ≤ o := hp.position.trans (SortedSet.mem_of_firstFrom hnext).2
  rcases @noteOffset_self s.consumer p o h.committable with
    ⟨hc, hor, h1, -⟩ | ⟨-, -, -, h1, -⟩ | ⟨-, h1, -⟩
  · obtain rfl := Option.some_inj.mp (h1.symm.trans hn)
    refine ⟨by omega, fun x hx hs hlt ↦ ?_⟩
    rcases lt_or_eq_of_le (Int.lt_add_one_iff.mp hlt) with hlt | rfl
    · exact safe_or_buffered_deliver (hp.below_next hnext hor hx hs hlt)
    · exact handled_deliver hc
  · obtain ⟨h2, -, h3⟩ := hp.commitAt n (h1.symm.trans hn)
    exact ⟨h2, fun x hx hs hlt ↦ safe_or_buffered_deliver (h3 x hx hs hlt)⟩
  · have hmin := Option.some_inj.mp (h1.symm.trans hn)
    cases hold : s.consumer.commitAt.get? p with
    | none =>
      rw [hold, Option.getD_none, min_self] at hmin
      subst hmin
      exact ⟨hostart, fun x hx hs hlt ↦
        safe_or_buffered_deliver (hp.below_next hnext (Or.inr (hp.unblocked hold)) hx hs hlt)⟩
    | some n0 =>
      rw [hold, Option.getD_some] at hmin
      obtain ⟨h2, -, h3⟩ := hp.commitAt n0 hold
      subst hmin
      exact ⟨le_min hostart h2, fun x hx hs hlt ↦
        safe_or_buffered_deliver (h3 x hx hs (hlt.trans_le (min_le_right _ _)))⟩

/-- A blocked offset after a delivery is not below the commit point. -/
theorem PartitionSound.blocked_deliver (hp : PartitionSound cfg b s p) {k : ℤ}
    (hk : (s.consumer.noteOffset p o h.committable).blocked.get? p = some k) :
    ∃ n, (s.consumer.noteOffset p o h.committable).commitAt.get? p = some n ∧ n ≤ k := by
  rcases @noteOffset_self s.consumer p o h.committable with
    ⟨-, -, -, h2⟩ | ⟨-, -, -, h1, h2⟩ | ⟨-, h1, h2⟩
  · rw [h2] at hk
    cases hk
  · rw [h1]
    exact hp.blocked k (h2.symm.trans hk)
  · refine ⟨_, h1, ?_⟩
    have hk' := Option.some_inj.mp (h2.symm.trans hk)
    cases hold : s.consumer.blocked.get? p with
    | none =>
      rw [hold, Option.getD_none] at hk'
      exact hk' ▸ min_le_left _ _
    | some k0 =>
      rw [hold, Option.getD_some] at hk'
      obtain ⟨n, hn, hle⟩ := hp.blocked k0 hold
      rw [hn, Option.getD_some]
      exact (min_le_right _ _).trans (hk' ▸ hle)

theorem deliver_self (hp : PartitionSound cfg b s p)
    (hnext : (b.log p).firstFrom (s.position p) = some o) (h : Handled) :
    PartitionSound cfg b (s.deliver cfg p o h) p := by
  obtain ⟨homem, hole⟩ := SortedSet.mem_of_firstFrom hnext
  have hostart : b.start p ≤ o := hp.position.trans hole
  have hpos : (s.deliver cfg p o h).position p = o + 1 := Function.update_self _ _ _
  obtain ⟨f, hf, -⟩ := @noteOffset_flushFloor s.consumer p o h.committable hp.floor_ne_none
  refine
    { offsetsAt := fun c hc ↦ (hp.offsetsAt c hc).mono fun _ ↦ safe_deliver
      flushFloor := fun f' hf' ↦ hp.flushFloor_deliver hnext h hf'
      commitAt := fun n hn ↦ ?_
      blocked := fun k hk ↦ hp.blocked_deliver hk
      behind := fun hb x hx hs hlt ↦ ?_
      position := ?_
      delivered := fun x hx ↦ ?_
      buffered := fun x hx ↦ ?_ }
  · obtain ⟨hstart, hbelow⟩ := hp.commitAt_deliver hnext h hn
    exact ⟨hstart, fun hnone ↦ Option.some_ne_none f (hf.symm.trans hnone), hbelow⟩
  · have hb' : (s.consumer.noteOffset p o h.committable).blocked.get? p = none := hb
    rcases @noteOffset_self s.consumer p o h.committable with
      ⟨-, -, h1, -⟩ | ⟨-, -, hne, -, h2⟩ | ⟨-, -, h2⟩
    · exact Or.inl ⟨o + 1, h1, hpos ▸ hlt⟩
    · exact absurd (h2.symm.trans hb') hne
    · rw [h2] at hb'
      cases hb'
  · rw [hpos]
    omega
  · rcases List.mem_cons.mp hx with he | hx
    · obtain ⟨-, rfl⟩ := Prod.mk.inj he
      exact ⟨homem, hostart⟩
    · exact hp.delivered x hx
  · rcases mem_buffered_deliver.mp hx with hx | ⟨-, hd, -, -⟩
    · exact hp.buffered x hx
    · exact hd

theorem deliver_ne (hq : PartitionSound cfg b s q) (hne : q ≠ p) (o : ℤ) (h : Handled) :
    PartitionSound cfg b (s.deliver cfg p o h) q := by
  obtain ⟨h1, h2, h3⟩ := noteOffset_ne (c := s.consumer) (o := o) hne
  refine hq.frame h1 h2 h3 (Function.update_of_ne hne _ _) rfl (fun _ ↦ safe_deliver)
    (fun x ↦ ?_) fun x hx ↦ ?_
  · rw [mem_buffered_deliver]
    exact ⟨fun hx ↦ hx.elim id fun hx ↦ absurd hx.2.2.1 hne, Or.inl⟩
  · rcases List.mem_cons.mp hx with he | hx
    · exact absurd (Prod.mk.inj he).1 hne
    · exact hx

/-! ## A flush -/

theorem flush_returned_sound (hf : cfg.flushes = true) (hp : PartitionSound cfg b s p)
    (sought : Partition → Bool) : PartitionSound cfg b (s.flush cfg .returned sought) p := by
  have hc : (s.consumer.flushWrites cfg.toConsumerConfig .returned).1 =
      { s.consumer with flushFloor := s.consumer.commitAt } := by
    rw [Consumer.flushWrites, if_pos hf]
  have hs : s.flush cfg .returned sought =
      { s with
        consumer := { s.consumer with flushFloor := s.consumer.commitAt }
        buffered := []
        durable := s.buffered ++ s.durable } := by
    rw [Ingest.flush, if_pos hf, hc]
  rw [hs]
  -- what was buffered is durable now
  have hsafe : ∀ x, s.Safe p x ∨ (p, x) ∈ s.buffered →
      Ingest.Safe { s with
        consumer := { s.consumer with flushFloor := s.consumer.commitAt }
        buffered := []
        durable := s.buffered ++ s.durable } p x := by
    rintro x ((hd | hd) | hb)
    · exact Or.inl (List.mem_append_right _ hd)
    · exact Or.inr hd
    · exact Or.inl (List.mem_append_left _ hb)
  exact
    { offsetsAt := fun c hc ↦ (hp.offsetsAt c hc).mono fun x hx ↦ hsafe x (Or.inl hx)
      flushFloor := fun n hn ↦ by
        obtain ⟨h1, -, h3⟩ := hp.commitAt n hn
        exact ⟨h1, fun x hx hst hlt ↦ hsafe x (h3 x hx hst hlt)⟩
      commitAt := fun n hn ↦ by
        obtain ⟨h1, -, h3⟩ := hp.commitAt n hn
        refine ⟨h1, fun hnone ↦ ?_, fun x hx hst hlt ↦ Or.inl (hsafe x (h3 x hx hst hlt))⟩
        exact Option.some_ne_none n (hn.symm.trans hnone)
      blocked := hp.blocked
      behind := fun hb x hx hst hlt ↦
        (hp.behind hb x hx hst hlt).imp id fun hx ↦ hsafe x (Or.inl hx)
      position := hp.position
      delivered := hp.delivered
      buffered := fun _ h ↦ absurd h List.not_mem_nil }

theorem PartitionSound.floor_of_rollsBack (hp : PartitionSound cfg b s p)
    (hn : s.consumer.commitAt.get? p = some n)
    (hr : s.consumer.rollsBack cfg.toConsumerConfig p n = true) :
    ∃ f, s.consumer.flushFloor.get? p = some f ∧ s.consumer.floorOf p n = f ∧ f < n := by
  obtain ⟨f, hfl⟩ := Option.ne_none_iff_exists'.mp (hp.commitAt n hn).2.1
  have hfo : s.consumer.floorOf p n = f := by rw [Consumer.floorOf, hfl, Option.getD_some]
  have hlt := (of_decide_eq_true hr).1
  rw [hfo] at hlt
  exact ⟨f, hfl, hfo, hlt⟩

/-- Below the commit point of a partition that is not rolled back, nothing was buffered. -/
theorem PartitionSound.safe_of_not_rollsBack (hp : PartitionSound cfg b s p)
    (hn : s.consumer.commitAt.get? p = some n)
    (hr : s.consumer.rollsBack cfg.toConsumerConfig p n = false) : SafeBelow b s p n := by
  intro x hx hst hlt
  obtain ⟨-, hfn, h3⟩ := hp.commitAt n hn
  obtain ⟨f, hfl⟩ := Option.ne_none_iff_exists'.mp hfn
  have hnot := of_decide_eq_false hr
  rw [Consumer.floorOf, hfl, Option.getD_some] at hnot
  rcases h3 x hx hst hlt with hsafe | hb
  · exact hsafe
  · refine (hp.flushFloor f hfl).2 x hx hst (hlt.trans_le (not_lt.mp fun hlt' ↦ hnot ⟨hlt', ?_⟩))
    exact cfg.declared p.1 (hp.buffered x hb)

/-- After a flush that raised, everything below a commit point is safe. -/
theorem PartitionSound.commitAt_raised (hp : PartitionSound cfg b s p) (hf : cfg.flushes = true)
    {n' : ℤ} (hn' : (s.consumer.flushWrites cfg.toConsumerConfig .raised).1.commitAt.get? p =
      some n') : b.start p ≤ n' ∧ SafeBelow b s p n' := by
  obtain ⟨-, hcommit, -⟩ := flushWrites_raised (c := s.consumer) hf p
  cases hn : s.consumer.commitAt.get? p with
  | none =>
    rw [hcommit, hn] at hn'
    cases hn'
  | some n =>
    rw [hcommit, hn, Option.map_some, Option.some_inj] at hn'
    cases hr : s.consumer.rollsBack cfg.toConsumerConfig p n with
    | true =>
      obtain ⟨f, hfl, hfo, -⟩ := hp.floor_of_rollsBack hn hr
      rw [hr, if_pos rfl, hfo] at hn'
      exact hn' ▸ hp.flushFloor f hfl
    | false =>
      rw [hr, if_neg Bool.false_ne_true] at hn'
      exact hn' ▸ ⟨(hp.commitAt n hn).1, hp.safe_of_not_rollsBack hn hr⟩

/-- After a flush that raised, a blocked offset is not below the commit point. -/
theorem PartitionSound.blocked_raised (hp : PartitionSound cfg b s p) (hf : cfg.flushes = true)
    {k : ℤ} (hk : (s.consumer.flushWrites cfg.toConsumerConfig .raised).1.blocked.get? p = some k) :
    ∃ n', (s.consumer.flushWrites cfg.toConsumerConfig .raised).1.commitAt.get? p = some n' ∧
      n' ≤ k := by
  obtain ⟨-, hcommit, hblocked⟩ := flushWrites_raised (c := s.consumer) hf p
  rw [hblocked] at hk
  rw [hcommit]
  cases hn : s.consumer.commitAt.get? p with
  | none =>
    rw [hn] at hk
    obtain ⟨n, hn', -⟩ := hp.blocked k hk
    rw [hn] at hn'
    cases hn'
  | some n =>
    rw [hn, Option.filter_some] at hk
    rw [Option.map_some]
    refine ⟨_, rfl, ?_⟩
    cases hr : s.consumer.rollsBack cfg.toConsumerConfig p n with
    | true =>
      obtain ⟨f, hfl, hfo, hlt⟩ := hp.floor_of_rollsBack hn hr
      rw [hr, if_pos rfl] at hk
      have hk := Option.some_inj.mp hk
      rw [if_pos rfl, hfo]
      rw [hfo] at hk
      cases hb : s.consumer.blocked.get? p with
      | none => exact hk ▸ (by rw [hb, Option.getD_none])
      | some k0 =>
        obtain ⟨n0, hn0, hle⟩ := hp.blocked k0 hb
        rw [hn, Option.some_inj] at hn0
        rw [hb, Option.getD_some] at hk
        omega
    | false =>
      rw [hr, if_neg Bool.false_ne_true] at hk
      obtain ⟨n0, hn0, hle⟩ := hp.blocked k hk
      rw [hn, Option.some_inj] at hn0
      rw [if_neg Bool.false_ne_true]
      omega

theorem flush_raised_sound (hf : cfg.flushes = true) (hp : PartitionSound cfg b s p)
    (sought : Partition → Bool) : PartitionSound cfg b (s.flush cfg .raised sought) p := by
  obtain ⟨hfloor, hcommit, hblocked⟩ := flushWrites_raised (c := s.consumer) hf p
  have hs : s.flush cfg .raised sought =
      { s with
        consumer := (s.consumer.flushWrites cfg.toConsumerConfig .raised).1
        buffered := []
        position := (s.consumer.flushWrites cfg.toConsumerConfig .raised).1.seekBack sought
          s.position } := by
    rw [Ingest.flush, if_pos hf]
  rw [hs]
  exact
    { offsetsAt := hp.offsetsAt
      flushFloor := fun f hfl ↦ hp.flushFloor f (hfloor ▸ hfl)
      commitAt := fun n' hn' ↦ by
        obtain ⟨h1, h2⟩ := hp.commitAt_raised hf hn'
        refine ⟨h1, ?_, fun x hx hst hlt ↦ Or.inl (h2 x hx hst hlt)⟩
        rw [hfloor]
        intro hnone
        cases hn : s.consumer.commitAt.get? p with
        | none =>
          rw [hcommit, hn] at hn'
          cases hn'
        | some n => exact (hp.commitAt n hn).2.1 hnone
      blocked := fun k hk ↦ hp.blocked_raised hf hk
      behind := fun hb x hx hst hlt ↦ by
        dsimp only at hb hlt ⊢
        rw [Consumer.seekBack, hb] at hlt
        rw [hblocked] at hb
        cases hn : s.consumer.commitAt.get? p with
        | none =>
          rw [hn] at hb
          rcases hp.behind hb x hx hst hlt with ⟨n, hn', -⟩ | hsafe
          · rw [hn] at hn'
            cases hn'
          · exact Or.inr hsafe
        | some n =>
          rw [hn, Option.filter_some] at hb
          cases hr : s.consumer.rollsBack cfg.toConsumerConfig p n with
          | true =>
            rw [hr] at hb
            cases hb
          | false =>
            rw [hr] at hb
            rcases hp.behind hb x hx hst hlt with ⟨n', hn', hxn⟩ | hsafe
            · obtain rfl := Option.some_inj.mp (hn.symm.trans hn')
              exact Or.inr (hp.safe_of_not_rollsBack hn hr x hx hst hxn)
            · exact Or.inr hsafe
      position := by
        dsimp only
        rw [Consumer.seekBack]
        split
        · exact hp.position
        · next k hk =>
          split
          · obtain ⟨n', hn', hle⟩ := hp.blocked_raised hf hk
            exact (hp.commitAt_raised hf hn').1.trans hle
          · exact hp.position
      delivered := hp.delivered
      buffered := nofun }

theorem flush_sound (hs : OffsetsSound cfg b s) (outcome : FlushOutcome)
    (sought : Partition → Bool) : OffsetsSound cfg b (s.flush cfg outcome sought) := by
  cases hf : cfg.flushes with
  | false =>
    rw [Ingest.flush, hf, if_neg Bool.false_ne_true]
    exact hs
  | true =>
    cases outcome with
    | returned =>
      refine ⟨fun p ↦ flush_returned_sound hf (hs.partition p) sought, ?_⟩
      rw [Ingest.flush, if_pos hf, Consumer.flushWrites, if_pos hf]
      exact hs.untracked
    | raised =>
      refine ⟨fun p ↦ flush_raised_sound hf (hs.partition p) sought, ?_⟩
      rw [Ingest.flush, if_pos hf, Consumer.flushWrites, if_pos hf]
      exact hs.untracked

/-! ## A commit -/

theorem flush_consumer (outcome : FlushOutcome) (sought : Partition → Bool) :
    (s.flush cfg outcome sought).consumer =
      (s.consumer.flushWrites cfg.toConsumerConfig outcome).1 := by
  rw [Ingest.flush]
  split
  · cases outcome <;> rfl
  · next hf => cases outcome <;> rw [Consumer.flushWrites, if_neg hf]

theorem flush_offsetsAt (outcome : FlushOutcome) (sought : Partition → Bool) :
    (s.flush cfg outcome sought).offsetsAt = s.offsetsAt := by
  rw [Ingest.flush]
  split
  · cases outcome <;> rfl
  · rfl

theorem flush_buffered (hs : OffsetsSound cfg b s) {outcome : FlushOutcome}
    (hret : (s.consumer.flushWrites cfg.toConsumerConfig outcome).2 = true)
    (sought : Partition → Bool) (p : Partition) (o : ℤ) :
    (p, o) ∉ (s.flush cfg outcome sought).buffered := by
  intro hm
  cases hf : cfg.flushes with
  | false =>
    rw [Ingest.flush, hf, if_neg Bool.false_ne_true] at hm
    have htrue := cfg.flushes_of_defers _ ((hs.partition p).buffered o hm)
    rw [hf] at htrue
    cases htrue
  | true =>
    rw [Ingest.flush, if_pos hf] at hm
    cases outcome <;> exact absurd hm List.not_mem_nil

/-- The offsets the broker holds change to offsets of the request only. -/
theorem offsetsAfter_cases {request : CommitRequest} (hblind : request ≠ .blind)
    (attempt : CommitAttempt) (took : Partition → Bool) (p : Partition) :
    t.offsetsAfter request attempt took p = t.offsetsAt p ∨
      ∃ l n, request = .offsets l ∧ (p, n) ∈ l ∧
        t.offsetsAfter request attempt took p = some n := by
  simp only [Ingest.offsetsAfter]
  split
  · cases request with
    | nothing => exact Or.inl rfl
    | blind => exact absurd rfl hblind
    | offsets l =>
      dsimp only
      cases hfind : l.find? fun e ↦ e.1 = p with
      | none => exact Or.inl rfl
      | some e =>
        obtain ⟨q, n⟩ := e
        have hq : q = p := by simpa using List.find?_some hfind
        subst hq
        exact Or.inr ⟨l, n, rfl, List.mem_of_find?_eq_some hfind, rfl⟩
  · exact Or.inl rfl

/-- **What a commit changes**: the offsets of some partitions, to their commit points, once nothing
is buffered any more. -/
theorem commit_cases (hs : OffsetsSound cfg b s) (outcome : FlushOutcome)
    (attempt : CommitAttempt) (took sought : Partition → Bool) :
    ∃ c offsetsAt, s.commit cfg outcome attempt took sought =
        { s.flush cfg outcome sought with consumer := c, offsetsAt := offsetsAt } ∧
      c.commitAt = (s.flush cfg outcome sought).consumer.commitAt ∧
      c.flushFloor = (s.flush cfg outcome sought).consumer.flushFloor ∧
      c.blocked = (s.flush cfg outcome sought).consumer.blocked ∧ c.untracked = 0 ∧
      ∀ p, offsetsAt p = s.offsetsAt p ∨
        ∃ n, offsetsAt p = some n ∧ c.commitAt.get? p = some n ∧
          ∀ o, (p, o) ∉ (s.flush cfg outcome sought).buffered := by
  have hu := (flush_sound hs outcome sought).untracked
  rw [flush_consumer] at hu ⊢
  rw [Ingest.commit, Consumer.commitSafe]
  dsimp only
  have hnothing : CommitRequest.nothing ≠ .blind := fun h ↦ nomatch h
  cases hret : (s.consumer.flushWrites cfg.toConsumerConfig outcome).2 with
  | false =>
    refine ⟨_, _, rfl, rfl, rfl, rfl, hu, fun p ↦ Or.inl ?_⟩
    rw [if_neg Bool.false_ne_true, ← flush_offsetsAt outcome sought]
    rcases offsetsAfter_cases (t := s.flush cfg outcome sought) hnothing attempt took p with
      h | ⟨l, n, h, -⟩
    · exact h
    · cases h
  | true =>
    rw [if_pos rfl]
    have hreq : (s.consumer.flushWrites cfg.toConsumerConfig outcome).1.commitRequest ≠ .blind := by
      rw [Consumer.commitRequest, if_pos hu]
      split <;> exact fun h ↦ (nomatch h)
    -- an offset of the request is a commit point
    have hmem : ∀ l p n,
        (s.consumer.flushWrites cfg.toConsumerConfig outcome).1.commitRequest = .offsets l →
        (p, n) ∈ l →
        (s.consumer.flushWrites cfg.toConsumerConfig outcome).1.commitAt.get? p = some n := by
      intro l p n hl hpn
      rw [Consumer.commitRequest, if_pos hu] at hl
      split at hl
      · cases hl
      · obtain rfl := CommitRequest.offsets.inj hl
        exact (mem_safeOffsets.mp hpn).1
    have hoff : ∀ a p,
        (s.flush cfg outcome sought).offsetsAfter
          (s.consumer.flushWrites cfg.toConsumerConfig outcome).1.commitRequest a took p =
            s.offsetsAt p ∨
        ∃ n, (s.flush cfg outcome sought).offsetsAfter
            (s.consumer.flushWrites cfg.toConsumerConfig outcome).1.commitRequest a took p =
              some n ∧
          (s.consumer.flushWrites cfg.toConsumerConfig outcome).1.commitAt.get? p = some n ∧
          ∀ o, (p, o) ∉ (s.flush cfg outcome sought).buffered := by
      intro a p
      rcases offsetsAfter_cases (t := s.flush cfg outcome sought) hreq a took p with
        h | ⟨l, n, hl, hpn, h⟩
      · exact Or.inl (h.trans (congrFun (flush_offsetsAt outcome sought) p))
      · exact Or.inr ⟨n, h, hmem l p n hl hpn, flush_buffered hs hret sought p⟩
    cases attempt with
    | notMade =>
      refine ⟨_, _, rfl, rfl, rfl, rfl, hu, fun p ↦ Or.inl ?_⟩
      rcases offsetsAfter_cases (t := s.flush cfg outcome sought) hnothing .notMade took p with
        h | ⟨l, n, h, -⟩
      · exact h.trans (congrFun (flush_offsetsAt outcome sought) p)
      · cases h
    | raised => exact ⟨_, _, rfl, rfl, rfl, rfl, hu, hoff .raised⟩
    | accepted =>
      obtain ⟨h1, h2, h3, h4⟩ := accept_book
        (s.consumer.flushWrites cfg.toConsumerConfig outcome).1
        (s.consumer.flushWrites cfg.toConsumerConfig outcome).1.commitRequest
      refine ⟨_, _, rfl, h1, h2, h3, h4 hu, fun p ↦ ?_⟩
      rw [h1]
      exact hoff .accepted p

theorem commit_sound (hs : OffsetsSound cfg b s) (outcome : FlushOutcome)
    (attempt : CommitAttempt) (took sought : Partition → Bool) :
    OffsetsSound cfg b (s.commit cfg outcome attempt took sought) := by
  have ht := flush_sound hs outcome sought
  obtain ⟨c, offsetsAt, heq, h1, h2, h3, hu, hoff⟩ := commit_cases hs outcome attempt took sought
  rw [heq]
  refine ⟨fun p ↦ ?_, hu⟩
  have hp := ht.partition p
  exact
    { offsetsAt := fun n hn ↦ by
        rcases hoff p with hold | ⟨n', hn', hc, hbuf⟩
        · have hsame : (s.flush cfg outcome sought).offsetsAt p = some n := by
            rw [flush_offsetsAt]
            exact hold.symm.trans hn
          exact hp.offsetsAt n hsame
        · obtain rfl := Option.some_inj.mp (hn'.symm.trans hn)
          exact fun x hx hst hlt ↦
            ((hp.commitAt n' (h1 ▸ hc)).2.2 x hx hst hlt).resolve_right (hbuf x)
      flushFloor := fun f hf ↦ hp.flushFloor f (h2 ▸ hf)
      commitAt := fun n hn ↦ by
        obtain ⟨h4, h5, h6⟩ := hp.commitAt n (h1 ▸ hn)
        exact ⟨h4, h2 ▸ h5, h6⟩
      blocked := fun k hk ↦ by
        obtain ⟨n, hn, hle⟩ := hp.blocked k (h3 ▸ hk)
        exact ⟨n, h1 ▸ hn, hle⟩
      behind := fun hb x hx hst hlt ↦ by
        rcases hp.behind (h3 ▸ hb) x hx hst hlt with ⟨n, hn, hxn⟩ | hsafe
        · exact Or.inl ⟨n, h1 ▸ hn, hxn⟩
        · exact Or.inr hsafe
      position := hp.position
      delivered := hp.delivered
      buffered := hp.buffered }

/-! ## Whole runs -/

theorem rewind_sound (hs : OffsetsSound cfg b s) (sought : Partition → Bool) :
    OffsetsSound cfg b { s with position := s.consumer.seekBack sought s.position } where
  untracked := hs.untracked
  partition p :=
    { offsetsAt := (hs.partition p).offsetsAt
      flushFloor := (hs.partition p).flushFloor
      commitAt := (hs.partition p).commitAt
      blocked := (hs.partition p).blocked
      behind := fun hb x hx hst hlt ↦ by
        dsimp only at hb hlt
        rw [Consumer.seekBack, hb] at hlt
        exact (hs.partition p).behind hb x hx hst hlt
      position := by
        dsimp only
        rw [Consumer.seekBack]
        split
        · exact (hs.partition p).position
        · next k hk =>
          split
          · obtain ⟨n, hn, hle⟩ := (hs.partition p).blocked k hk
            exact ((hs.partition p).commitAt n hn).1.trans hle
          · exact (hs.partition p).position
      delivered := (hs.partition p).delivered
      buffered := (hs.partition p).buffered }

theorem reposition_sound (hs : OffsetsSound cfg b s) {offset : ℤ} (hst : b.start p ≤ offset)
    (hor : offset ≤ s.position p ∨ s.offsetsAt p = some offset) :
    OffsetsSound cfg b { s with position := Function.update s.position p offset } where
  untracked := hs.untracked
  partition q := by
    have hq := hs.partition q
    by_cases hne : q = p
    · subst hne
      have hpos : Function.update s.position q offset q = offset := Function.update_self _ _ _
      exact
        { offsetsAt := hq.offsetsAt
          flushFloor := hq.flushFloor
          commitAt := hq.commitAt
          blocked := hq.blocked
          behind := fun hb x hx hstart hlt ↦ by
            have hlt : x < offset := hpos ▸ hlt
            rcases hor with hle | hc
            · exact hq.behind hb x hx hstart (hlt.trans_le hle)
            · exact Or.inr (hq.offsetsAt offset hc x hx hstart hlt)
          position := by
            dsimp only
            rw [hpos]
            exact hst
          delivered := hq.delivered
          buffered := hq.buffered }
    · exact hq.frame rfl rfl rfl (Function.update_of_ne hne _ _) rfl (fun _ ↦ id)
        (fun _ ↦ Iff.rfl) fun _ ↦ id

theorem step_sound (hs : OffsetsSound cfg b s) {e : IngestEvent}
    (h : (ingest cfg b).step s e = some t) : OffsetsSound cfg b t := by
  cases e with
  | deliver p handled =>
    obtain ⟨o, ho, rfl⟩ := Option.map_eq_some_iff.mp h
    refine ⟨fun q ↦ ?_, noteOffset_untracked.trans hs.untracked⟩
    by_cases hq : q = p
    · subst hq
      exact deliver_self (hs.partition q) ho handled
    · exact deliver_ne (hs.partition q) hq o handled
  | flush outcome sought =>
    cases h
    exact flush_sound hs outcome sought
  | commit outcome attempt took sought =>
    cases h
    exact commit_sound hs outcome attempt took sought
  | rewind sought =>
    cases h
    exact rewind_sound hs sought
  | reposition p offset =>
    simp only [ingest] at h
    split at h
    · next hc =>
      cases h
      exact reposition_sound hs hc.1 hc.2
    · cases h

/-- Every reachable state keeps its promises. -/
theorem reach_sound {C : Ingest → IngestEvent → Prop}
    (h : (ingest cfg b).Reach C (Ingest.start b) s) : OffsetsSound cfg b s :=
  h.invariant (start_sound cfg b) fun _ _ _ hI _ hstep ↦ step_sound hI hstep

/-- **Offsets never run ahead of durability.**  In every reachable state, every record delivered
below a committed offset is durable or was thrown away on purpose; and no commit takes an offset
past the blocked offset of its partition or past a record that still waits for a flush. -/
theorem committed_durable (cfg : IngestConfig) (b : Broker) (s : Ingest)
    (h : (ingest cfg b).Reach (fun _ _ ↦ True) (Ingest.start b) s) :
    (∀ p o c, (p, o) ∈ s.delivered → s.offsetsAt p = some c → o < c →
      (p, o) ∈ s.durable ∨ (p, o) ∈ s.discarded) ∧
    ∀ outcome attempt took sought t,
      (ingest cfg b).step s (.commit outcome attempt took sought) = some t →
      ∀ p c, t.offsetsAt p = some c → s.offsetsAt p ≠ some c →
        (∀ k, t.consumer.blocked.get? p = some k → c ≤ k) ∧
        ∀ o, (p, o) ∈ t.buffered → c ≤ o := by
  have hs := reach_sound h
  refine ⟨fun p o c hd hc hlt ↦ ?_, fun outcome attempt took sought t ht p c hc hne ↦ ?_⟩
  · obtain ⟨ho, hst⟩ := (hs.partition p).delivered o hd
    exact (hs.partition p).offsetsAt c hc o ho hst hlt
  · have htsound := step_sound hs ht
    obtain rfl := Option.some_inj.mp ht
    obtain ⟨c', offsetsAt, heq, -, -, -, -, hoff⟩ := commit_cases hs outcome attempt took sought
    rw [heq] at hc htsound ⊢
    rcases hoff p with hold | ⟨n, hn, hcommit, hbuf⟩
    · exact absurd (hold.symm.trans hc) hne
    · obtain rfl := Option.some_inj.mp (hn.symm.trans hc)
      refine ⟨fun k hk ↦ ?_, fun o ho ↦ absurd ho (hbuf o)⟩
      obtain ⟨m, hm, hle⟩ := (htsound.partition p).blocked k hk
      have hmn : some m = some n := hm.symm.trans hcommit
      exact Option.some_inj.mp hmn ▸ hle

/-- Three records of one partition, with a gap after the first. -/
def gapBroker : Broker where
  log _ := SortedSet.ofList [0, 4, 5]
  start _ := 0
  committed _ := none
  committed_le _ _ h := nomatch h

/-- The state after some events. -/
def ingestAfter (events : List IngestEvent) : Ingest :=
  events.foldl (fun s e ↦ ((ingest (serviceConfig "kpi") gapBroker).step s e).getD s)
    (Ingest.start gapBroker)

/-- A record buffered, one that raised, and a commit. -/
def oneRaised : List IngestEvent :=
  [.deliver ("kpi", 0) .wrote, .deliver ("kpi", 0) .raised,
   .commit .returned .accepted (fun _ ↦ false) fun _ ↦ true]

/-- The commit goes past the buffered record, which its flush made durable, and no further. -/
theorem committed_durable_small :
    (ingestAfter oneRaised).offsetsAt ("kpi", 0) = some 1 ∧
      ((("kpi", 0), 0) ∈ (ingestAfter oneRaised).durable ∨
        (("kpi", 0), 0) ∈ (ingestAfter oneRaised).discarded) := by
  have hreach : (ingest (serviceConfig "kpi") gapBroker).Reach (fun _ _ ↦ True)
      (Ingest.start gapBroker) (ingestAfter oneRaised) :=
    (((Machine.Reach.refl _).tail (t := Ingest.start gapBroker)
      (e := .deliver ("kpi", 0) .wrote) trivial rfl).tail
      (t := ingestAfter [.deliver ("kpi", 0) .wrote]) (e := .deliver ("kpi", 0) .raised)
      trivial rfl).tail
      (t := ingestAfter [.deliver ("kpi", 0) .wrote, .deliver ("kpi", 0) .raised])
      (e := .commit .returned .accepted (fun _ ↦ false) fun _ ↦ true) trivial rfl
  have hoff : (ingestAfter oneRaised).offsetsAt ("kpi", 0) = some 1 := by decide
  exact ⟨hoff, (committed_durable _ _ _ hreach).1 ("kpi", 0) 0 1 (by decide) hoff (by decide)⟩

end OpenRide.Dataplane
