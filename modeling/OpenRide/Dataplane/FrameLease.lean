import OpenRide.Dataplane.FrameDensity

/-!
# Frame indices handed out and given back

A snapshot hands out the frame counter and adds one to it.  A frame that could not be stored is
given back: `rollback_frame_idx` takes the counter down again, so that the index is not lost.  Only
the index handed out last is meant to be given back, and only once.

What `rollback_frame_idx` looks at is the counter alone, and the counter also moves without a
snapshot: a seed raises it, and an index given back leaves it at the one before.  `frameBook` keeps
the book of a resident run, `KeepsIndices` is what every step of it should satisfy, and
`keepsIndices_iff` says on which runs every step does.
-/

namespace OpenRide.Dataplane

open Lib

/-! ## The book -/

/-- An index that was handed out, and whether it was given back. -/
structure HandedOut where
  index : ℤ
  returned : Bool
deriving DecidableEq

/-- What happens to the frame counter of a run.  A rollback is called with anything; what counts is
the integer that `int` makes of it, if any. -/
inductive CounterOp where
  | allocate
  | seed (env : HotEnv) (seed : Seed)
  | rollback (frameIdx : Option ℤ)

/-- The hot tier, with the indices of a run that were handed out, the latest first, and the highest
index it was seeded with.  `taken` says that the counter got where it is by a snapshot and that no
seed has reached it since. -/
structure FrameBook where
  store : HotStore
  handed : List HandedOut
  floor : ℤ
  taken : Bool

/-- The frame counter of a run, if it is resident. -/
def HotStore.frameCounter (s : HotStore) (runId : String) : ℤ :=
  (s.runs.get? runId).elim 0 RunSlab.frameCounter

/-- The latest index is given back. -/
def giveBack : List HandedOut → List HandedOut
  | [] => []
  | h :: rest => { h with returned := true } :: rest

/-- `rollback_frame_idx` with any argument. -/
def HotStore.rollbackAny (s : HotStore) (runId : String) (frameIdx : Option ℤ) : HotStore × Bool :=
  match frameIdx with
  | none => (s, false)
  | some i => s.rollbackFrameIdx runId i

/-- One step of the book of a run. -/
def FrameBook.step (cfg : HotConfig) (runId : String) (b : FrameBook) : CounterOp → Option FrameBook
  | .allocate =>
    match b.store.snapshot runId with
    | (_, none) => none
    | (hot, some frame) =>
      some { b with store := hot, handed := ⟨frame.frameIdx, false⟩ :: b.handed, taken := true }
  | .seed env seed =>
    some { b with
      store := b.store.seedRunIdentity cfg env runId seed
      floor := seed.startFrameIdx.elim b.floor (max b.floor ·)
      taken := b.taken && seed.startFrameIdx.all (· < b.store.frameCounter runId) }
  | .rollback frameIdx =>
    match b.store.rollbackAny runId frameIdx with
    | (hot, true) => some { b with store := hot, handed := giveBack b.handed, taken := false }
    | (hot, false) => some { b with store := hot }

/-- The books of a run. -/
def frameBook (cfg : HotConfig) (runId : String) : Machine FrameBook CounterOp where
  step := FrameBook.step cfg runId

/-- The book of a run at its start: its slab counts from the index it was created with. -/
def FrameBook.start (s : HotStore) (runId : String) : FrameBook where
  store := s
  handed := []
  floor := s.frameCounter runId
  taken := false

/-- What a step should satisfy: an index that is given back is the one handed out last, and was not
given back before; the counter stays above what it was seeded with; and an index that is handed out
is new, or all who had it before gave it back. -/
structure KeepsIndices (runId : String) (b : FrameBook) (op : CounterOp) (b' : FrameBook) :
    Prop where
  last : ∀ i, op = .rollback (some i) → (b.store.rollbackFrameIdx runId i).2 = true →
    ∃ rest, b.handed = ⟨i, false⟩ :: rest
  floor : b'.floor ≤ b'.store.frameCounter runId
  fresh : ∀ i rest, op = .allocate → b'.handed = ⟨i, false⟩ :: rest →
    ∀ h ∈ rest, h.index = i → h.returned = true

/-- **The condition**: an index just below the counter is given back only if the counter got there
by a snapshot and no seed has reached it since. -/
def AfterSnapshot (runId : String) (b : FrameBook) (op : CounterOp) : Prop :=
  ∀ i, op = .rollback (some i) → b.store.frameCounter runId = i + 1 → b.taken = true

/-! ## The counter -/

section

variable {cfg : HotConfig} {env : HotEnv} {s : HotStore} {r : String} {slab : RunSlab}

theorem frameCounter_setSlab (s : HotStore) (r : String) (slab : RunSlab) :
    (s.setSlab r slab).frameCounter r = slab.frameCounter := by
  rw [HotStore.frameCounter, runs_setSlab, if_pos rfl, Option.elim_some]

theorem isSome_setSlab (s : HotStore) (r : String) (slab : RunSlab) :
    ((s.setSlab r slab).runs.get? r).isSome = true := by
  rw [runs_setSlab, if_pos rfl]
  rfl

theorem exists_of_resident (hr : (s.runs.get? r).isSome = true) :
    ∃ slab, s.runs.get? r = some slab ∧ s.frameCounter r = slab.frameCounter := by
  obtain ⟨slab, hslab⟩ := Option.isSome_iff_exists.mp hr
  exact ⟨slab, hslab, by rw [HotStore.frameCounter, hslab, Option.elim_some]⟩

/-- A snapshot of a resident run hands out the counter and adds one to it. -/
theorem snapshot_of_resident (hr : (s.runs.get? r).isSome = true) : ∃ hot frame,
    s.snapshot r = (hot, some frame) ∧ frame.frameIdx = s.frameCounter r ∧
      hot.frameCounter r = s.frameCounter r + 1 ∧ (hot.runs.get? r).isSome = true := by
  obtain ⟨slab, hslab, hcounter⟩ := exists_of_resident hr
  rw [HotStore.snapshot, hslab, hcounter]
  exact ⟨_, _, rfl, rfl, frameCounter_setSlab _ _ _, isSome_setSlab _ _ _⟩

/-- A seed raises the counter of a resident run, if it is higher. -/
theorem seedRunIdentity_resident (hr : (s.runs.get? r).isSome = true) (seed : Seed) :
    (s.seedRunIdentity cfg env r seed).frameCounter r =
        seed.startFrameIdx.elim (s.frameCounter r) (max (s.frameCounter r) ·) ∧
      ((s.seedRunIdentity cfg env r seed).runs.get? r).isSome = true := by
  obtain ⟨slab, hslab, hcounter⟩ := exists_of_resident hr
  rw [HotStore.seedRunIdentity, hslab, hcounter]
  refine ⟨?_, isSome_setSlab _ _ _⟩
  rw [frameCounter_setSlab]
  rw [merge_frameCounter]

/-- A rollback succeeds just below the counter, and takes it down by one. -/
theorem rollbackFrameIdx_resident (hr : (s.runs.get? r).isSome = true) (i : ℤ) :
    (s.frameCounter r = i + 1 ∧ ∃ hot, s.rollbackFrameIdx r i = (hot, true) ∧
        hot.frameCounter r = i ∧ (hot.runs.get? r).isSome = true) ∨
      (s.frameCounter r ≠ i + 1 ∧ s.rollbackFrameIdx r i = (s, false)) := by
  obtain ⟨slab, hslab, hcounter⟩ := exists_of_resident hr
  rw [HotStore.rollbackFrameIdx, hslab, hcounter]
  dsimp only
  split
  · next hne => exact Or.inr ⟨hne, rfl⟩
  · next heq =>
    exact Or.inl ⟨not_not.mp heq, _, rfl, frameCounter_setSlab _ _ _, isSome_setSlab _ _ _⟩

end

/-! ## The invariant -/

/-- Where the indices that are out are.  If the counter was moved by a snapshot, the latest index is
just below it and above all others; if not, the counter is at a seed or the latest index was given
back. -/
structure FrameBook.Ok (runId : String) (b : FrameBook) : Prop where
  resident : (b.store.runs.get? runId).isSome = true
  floor : b.floor ≤ b.store.frameCounter runId
  below : ∀ h ∈ b.handed, h.returned = false → h.index < b.store.frameCounter runId
  taken : b.taken = true → b.floor < b.store.frameCounter runId ∧
    ∃ rest, b.handed = ⟨b.store.frameCounter runId - 1, false⟩ :: rest ∧
      ∀ h ∈ rest, h.returned = false → h.index < b.store.frameCounter runId - 1
  idle : b.taken = false → b.floor = b.store.frameCounter runId ∨
    ∃ h rest, b.handed = h :: rest ∧ h.returned = true

section

variable {cfg : HotConfig} {r : String} {b b' : FrameBook}

theorem ok_start {s : HotStore} (hr : (s.runs.get? r).isSome = true) :
    (FrameBook.start s r).Ok r where
  resident := hr
  floor := le_refl _
  below _ hm := absurd hm List.not_mem_nil
  taken htaken := absurd htaken Bool.false_ne_true
  idle _ := Or.inl rfl

theorem FrameBook.Ok.allocate (h : b.Ok r) (hs : b.step cfg r .allocate = some b') :
    KeepsIndices r b .allocate b' ∧ b'.Ok r := by
  obtain ⟨hot, frame, hsnap, hidx, hcounter, hresident⟩ := snapshot_of_resident h.resident
  rw [FrameBook.step, hsnap] at hs
  cases hs
  have hfloor := h.floor
  refine ⟨⟨(fun _ hop ↦ by cases hop), ?_, ?_⟩, hresident, ?_, ?_, fun _ ↦ ⟨?_, b.handed, ?_, ?_⟩,
    ?_⟩
  · show b.floor ≤ hot.frameCounter r
    omega
  · intro i rest _ hhanded x hx hindex
    obtain ⟨hhead, rfl⟩ := List.cons.inj hhanded
    obtain ⟨rfl, -⟩ := HandedOut.mk.inj hhead
    by_contra hout
    have hlt := h.below x hx (Bool.eq_false_iff.mpr hout)
    omega
  · show b.floor ≤ hot.frameCounter r
    omega
  · intro x hx hout
    show x.index < hot.frameCounter r
    rcases List.mem_cons.mp hx with rfl | hx
    · show frame.frameIdx < _
      omega
    · have hlt := h.below x hx hout
      omega
  · show b.floor < hot.frameCounter r
    omega
  · show _ = HandedOut.mk (hot.frameCounter r - 1) false :: b.handed
    rw [hcounter, hidx, Int.add_sub_cancel]
  · intro x hx hout
    show x.index < hot.frameCounter r - 1
    have hlt := h.below x hx hout
    omega
  · exact fun hidle ↦ absurd hidle.symm Bool.false_ne_true

theorem FrameBook.Ok.seed (h : b.Ok r) {env : HotEnv} {seed : Seed}
    (hs : b.step cfg r (.seed env seed) = some b') :
    KeepsIndices r b (.seed env seed) b' ∧ b'.Ok r := by
  obtain ⟨hcounter, hresident⟩ := @seedRunIdentity_resident cfg env b.store r h.resident seed
  cases hs
  have hfloor := h.floor
  have hle : b.store.frameCounter r ≤ (b.store.seedRunIdentity cfg env r seed).frameCounter r ∧
      seed.startFrameIdx.elim b.floor (max b.floor ·) ≤
        (b.store.seedRunIdentity cfg env r seed).frameCounter r := by
    rw [hcounter]
    cases seed.startFrameIdx with
    | none => exact ⟨le_refl _, hfloor⟩
    | some i =>
      simp only [Option.elim_some]
      omega
  refine ⟨⟨(fun _ hop ↦ by cases hop), hle.2, (fun _ _ hop ↦ by cases hop)⟩, hresident, hle.2,
    fun x hx hout ↦ lt_of_lt_of_le (h.below x hx hout) hle.1, fun htaken ↦ ?_, fun hidle ↦ ?_⟩
  · obtain ⟨hwas, hall⟩ := Bool.and_eq_true_iff.mp htaken
    obtain ⟨hlt, rest, hhanded, hrest⟩ := h.taken hwas
    have hsame : (b.store.seedRunIdentity cfg env r seed).frameCounter r =
          b.store.frameCounter r ∧
        seed.startFrameIdx.elim b.floor (max b.floor ·) < b.store.frameCounter r := by
      rw [hcounter]
      cases hstart : seed.startFrameIdx with
      | none => exact ⟨rfl, hlt⟩
      | some i =>
        rw [hstart, Option.all_some, decide_eq_true_eq] at hall
        simp only [Option.elim_some]
        omega
    rw [hsame.1]
    exact ⟨hsame.2, rest, hhanded, hrest⟩
  · show seed.startFrameIdx.elim b.floor (max b.floor ·) =
      (b.store.seedRunIdentity cfg env r seed).frameCounter r ∨ _
    rw [hcounter]
    cases hstart : seed.startFrameIdx with
    | none =>
      have hwas : b.taken = false := by
        simpa [hstart] using hidle
      exact h.idle hwas
    | some i =>
      simp only [Option.elim_some]
      by_cases hreached : i < b.store.frameCounter r
      · have hwas : b.taken = false := by
          simpa [hstart, hreached] using hidle
        rcases h.idle hwas with hat | hreturned
        · left
          omega
        · exact Or.inr hreturned
      · left
        omega

/-- **What a rollback does.** -/
theorem FrameBook.Ok.rollback (h : b.Ok r) {frameIdx : Option ℤ}
    (hs : b.step cfg r (.rollback frameIdx) = some b') :
    (KeepsIndices r b (.rollback frameIdx) b' ↔ AfterSnapshot r b (.rollback frameIdx)) ∧
      (AfterSnapshot r b (.rollback frameIdx) → b'.Ok r) := by
  -- nothing happens unless the index is just below the counter
  have hrefused : b.store.rollbackAny r frameIdx = (b.store, false) →
      (∀ i, frameIdx = some i → b.store.frameCounter r ≠ i + 1) →
      (KeepsIndices r b (.rollback frameIdx) b' ↔ AfterSnapshot r b (.rollback frameIdx)) ∧
        (AfterSnapshot r b (.rollback frameIdx) → b'.Ok r) := by
    intro hsame hne
    rw [FrameBook.step, hsame] at hs
    cases hs
    refine ⟨iff_of_true ⟨fun i hop hok ↦ ?_, h.floor, (fun _ _ hop ↦ by cases hop)⟩
      fun i hop hcounter ↦ ?_, fun _ ↦ h⟩
    · cases hop
      rw [HotStore.rollbackAny] at hsame
      rw [hsame] at hok
      cases hok
    · cases hop
      exact absurd hcounter (hne i rfl)
  cases frameIdx with
  | none => exact hrefused rfl fun _ hi ↦ by cases hi
  | some i =>
    rcases rollbackFrameIdx_resident h.resident i with
      ⟨hat, hot, hroll, hcounter, hresident⟩ | ⟨hne, hroll⟩
    · have hs' : b' = { b with store := hot, handed := giveBack b.handed, taken := false } := by
        rw [FrameBook.step, HotStore.rollbackAny, hroll] at hs
        exact (Option.some_inj.mp hs).symm
      subst hs'
      have hcondition : AfterSnapshot r b (.rollback (some i)) ↔ b.taken = true := by
        constructor
        · exact fun hafter ↦ hafter i rfl hat
        · exact fun htaken _ _ _ ↦ htaken
      rw [hcondition]
      constructor
      · constructor
        · intro hkeeps
          by_contra hidle
          obtain ⟨rest, hhanded⟩ := hkeeps.last i rfl (by rw [hroll])
          have hfloor : b.floor ≤ hot.frameCounter r := hkeeps.floor
          rcases h.idle (Bool.eq_false_iff.mpr hidle) with hseed | ⟨x, rest', hhanded', hreturned⟩
          · omega
          · rw [hhanded] at hhanded'
            obtain ⟨rfl, -⟩ := List.cons.inj hhanded'
            cases hreturned
        · intro htaken
          obtain ⟨hlt, rest, hhanded, hrest⟩ := h.taken htaken
          refine ⟨fun i' hop _ ↦ ?_, ?_, (fun _ _ hop ↦ by cases hop)⟩
          · cases hop
            exact ⟨rest, by rw [hhanded, hat, Int.add_sub_cancel]⟩
          · show b.floor ≤ hot.frameCounter r
            omega
      · intro htaken
        obtain ⟨hlt, rest, hhanded, hrest⟩ := h.taken htaken
        refine ⟨hresident, ?_, fun x hx hout ↦ ?_, fun hmoved ↦ absurd hmoved Bool.false_ne_true,
          fun _ ↦ Or.inr ?_⟩
        · show b.floor ≤ hot.frameCounter r
          omega
        · show x.index < hot.frameCounter r
          rw [hhanded] at hx
          rcases List.mem_cons.mp hx with rfl | hx
          · cases hout
          · have hbelow := hrest x hx hout
            omega
        · rw [hhanded]
          exact ⟨_, rest, rfl, rfl⟩
    · refine hrefused hroll fun i' hi' ↦ ?_
      cases hi'
      exact hne

/-- A step keeps the indices just when it meets the condition. -/
theorem FrameBook.Ok.step_iff (h : b.Ok r) {op : CounterOp} (hs : b.step cfg r op = some b') :
    (KeepsIndices r b op b' ↔ AfterSnapshot r b op) ∧ (AfterSnapshot r b op → b'.Ok r) := by
  cases op with
  | allocate =>
    obtain ⟨hkeeps, hok⟩ := h.allocate hs
    exact ⟨iff_of_true hkeeps (fun _ hop ↦ by cases hop), fun _ ↦ hok⟩
  | seed env seed =>
    obtain ⟨hkeeps, hok⟩ := h.seed hs
    exact ⟨iff_of_true hkeeps (fun _ hop ↦ by cases hop), fun _ ↦ hok⟩
  | rollback frameIdx => exact h.rollback hs

end

/-! ## Whole runs -/

/-- **Indices are kept along a run** just when every rollback that succeeds comes after a snapshot
that no seed has reached since. -/
theorem keepsIndices_iff (cfg : HotConfig) {s : HotStore} {r : String}
    (hr : (s.runs.get? r).isSome = true) (ops : List CounterOp) :
    (frameBook cfg r).Along (KeepsIndices r) (FrameBook.start s r) ops ↔
      (frameBook cfg r).Along (fun b op _ ↦ AfterSnapshot r b op) (FrameBook.start s r) ops :=
  Machine.along_congr (fun _ _ _ hok hs ↦ hok.step_iff hs) (ok_start hr) ops

/-- A store of one run, and an empty one to seed it in. -/
def oneRun : HotStore := HotStore.seedRunIdentity fourRuns ⟨0, none⟩ {} "run" {}

theorem keepsIndices_iff_oneRun :
    (oneRun.runs.get? "run").isSome = true ∧
      (frameBook fourRuns "run").Along (KeepsIndices "run") (FrameBook.start oneRun "run")
        [.allocate, .rollback (some 0), .allocate] := by
  refine ⟨by decide, (keepsIndices_iff fourRuns (by decide) _).mpr ?_⟩
  intro b hb
  obtain rfl := Option.some_inj.mp hb
  refine ⟨(fun _ hop ↦ by cases hop), fun b' _ ↦ ⟨fun _ _ _ ↦ rfl, fun b'' _ ↦ ?_⟩⟩
  exact ⟨(fun _ hop ↦ by cases hop), trivial⟩

/-- Two indices are handed out and both are given back, though only the second is the last; and
after a seed an index is given back that was never handed out. -/
theorem two_given_back :
    ¬ (frameBook fourRuns "run").Along (KeepsIndices "run") (FrameBook.start oneRun "run")
        [.allocate, .allocate, .rollback (some 1), .rollback (some 0)] ∧
      ¬ (frameBook fourRuns "run").Along (KeepsIndices "run") (FrameBook.start oneRun "run")
        [.seed ⟨0, none⟩ { startFrameIdx := some 5 }, .rollback (some 4)] := by
  constructor
  · intro halong
    obtain ⟨-, h1⟩ := halong _ rfl
    obtain ⟨-, h2⟩ := h1 _ rfl
    obtain ⟨-, h3⟩ := h2 _ rfl
    obtain ⟨hkeeps, -⟩ := h3 _ rfl
    obtain ⟨rest, hhanded⟩ := hkeeps.last 0 rfl (by decide)
    have hindex : (1 : ℤ) = 0 := congrArg HandedOut.index (List.cons.inj hhanded).1
    exact absurd hindex (by decide)
  · intro halong
    obtain ⟨-, h1⟩ := halong _ rfl
    obtain ⟨hkeeps, -⟩ := h1 _ rfl
    have hfloor : (5 : ℤ) ≤ 4 := hkeeps.floor
    exact absurd hfloor (by decide)

end OpenRide.Dataplane
