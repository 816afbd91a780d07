import OpenRide.Dataplane.HotCells

/-!
# What a live viewer can decode

One connection of `live_frames`, beside the threads that write to the hot tier.  A poll takes a
snapshot, reads the slot map, reads the haulier codes and sends the frame, each under the lock of
the hot tier for itself, so anything can happen to the tier in between.  The connection remembers
what it has told its viewer, and sends a code book only when the frame has a slot it has not told.

That the viewer can decode every frame is carried by what the connection knows of the slab: its
book is part of the slab's, and a truck the viewer has been told of shows a haulier it has been told
of (`Told`).  The second is lost when such a truck reports another haulier, as `code_untold` shows,
since no slot is new then.  The first can be lost when the slab of the run is built anew from maps
that do not have all the viewer has been told.  `frames_decode` says that nothing else loses them.
-/

namespace OpenRide.Dataplane

open Lib

/-! ## Code books -/

/-- What a viewer knows: `known_slots` and `known_codes` of its connection. -/
structure CodeBook where
  slots : Dict ℕ String := Dict.empty
  codes : Dict String ℕ := Dict.empty

/-- What `_codebook_delta` returns. -/
structure CodebookDelta where
  full : Bool
  slots : List (ℕ × String)
  haulierCodes : List (String × ℕ)
deriving DecidableEq

/-- The mapping the client holds is contradicted by the one of the tier. -/
def CodeBook.contradicted (known : CodeBook) (slotMap haulierCodes : Dict String ℕ) : Bool :=
  slotMap.entries.any (fun e ↦ (known.slots.get? e.2).any (· ≠ e.1)) ||
    haulierCodes.entries.any fun e ↦ (known.codes.get? e.1).any (· ≠ e.2)

/-- `_codebook_delta`, once both maps were read. -/
def CodeBook.delta (known : CodeBook) (slotMap haulierCodes : Dict String ℕ) :
    Option CodebookDelta :=
  let slots := Dict.ofList (slotMap.entries.map fun e ↦ (e.2, e.1))
  if known.contradicted slotMap haulierCodes then
    some
      { full := true
        slots := sortedBy Prod.fst slots.entries
        haulierCodes := haulierCodes.entries }
  else
    let newSlots := slots.entries.filter fun e ↦ !known.slots.contains e.1
    let newCodes := haulierCodes.entries.filter fun e ↦ !known.codes.contains e.1
    if newSlots.isEmpty && newCodes.isEmpty then none
    else some { full := false, slots := sortedBy Prod.fst newSlots, haulierCodes := newCodes }

/-- A full book replaces what is known, another one adds to it. -/
def CodeBook.learn (known : CodeBook) (d : CodebookDelta) : CodeBook :=
  let base := if d.full then {} else known
  { slots := base.slots.update d.slots, codes := base.codes.update d.haulierCodes }

/-! ## One connection -/

/-- An event a viewer receives.  Those forwarded from the bus are left out. -/
inductive LiveEvent where
  | waiting
  | keepalive
  | codebook (connectionEpoch : ℕ) (delta : CodebookDelta)
  | frame (frame : Frame)
deriving DecidableEq

/-- The book of a viewer after an event. -/
def LiveEvent.hear (known : CodeBook) : LiveEvent → CodeBook
  | .codebook _ d => known.learn d
  | _ => known

/-- The book a viewer has accumulated. -/
def accumulated (received : List LiveEvent) : CodeBook := received.foldl LiveEvent.hear {}

/-- Where a poll is: the next section it runs, and the frame it has taken. -/
inductive PollStage where
  | idle
  | readSlotMap (frame : Frame)
  | readHaulierCodes (frame : Frame) (slotMap : Dict String ℕ)
  | send (frame : Frame)

/-- A poll has taken its frame and not sent it yet. -/
def PollStage.busy : PollStage → Bool
  | .idle => false
  | _ => true

/-- The hot tier, the variables of `live_frames`, and what the viewer has received. -/
structure LiveFrames where
  hot : HotStore := {}
  known : CodeBook := {}
  codebookEpoch : ℕ := 0
  lastIdx : Option ℤ := none
  sent : ℕ := 0
  stage : PollStage := .idle
  received : List LiveEvent := []

/-- The viewer has not been told every slot of a frame. -/
def LiveFrames.untold (p : LiveFrames) (rows : List FrameRow) : Bool :=
  p.sent = 0 || rows.any fun row ↦ !p.known.slots.contains row.slot

/-- The snapshot, and what it decides. -/
def LiveFrames.takeSnapshot (run : String) (framesOwnPositions : Bool) (p : LiveFrames) :
    LiveFrames :=
  match p.hot.snapshot run with
  | (_, none) => { p with received := p.received ++ [.waiting] }
  | (hot, some frame) =>
    if frame.rows.isEmpty then { p with hot := hot, received := p.received ++ [.keepalive] }
    else if p.lastIdx ≠ some frame.frameIdx ∨ p.sent = 0 then
      { p with
        hot := hot
        lastIdx := some frame.frameIdx
        stage :=
          if framesOwnPositions && p.untold frame.rows then .readSlotMap frame else .send frame }
    else { p with hot := hot, received := p.received ++ [.keepalive] }

/-- The slot map is read.  A run that is not resident any more gives no book. -/
def LiveFrames.readSlotMap (run : String) (p : LiveFrames) (frame : Frame) : LiveFrames :=
  match p.hot.runs.get? run with
  | none => { p with stage := .send frame }
  | some slab => { p with stage := .readHaulierCodes frame slab.agentToSlot }

/-- The haulier codes are read, and the book is sent. -/
def LiveFrames.emitCodebook (run : String) (p : LiveFrames) (frame : Frame)
    (slotMap : Dict String ℕ) : LiveFrames :=
  match (p.hot.runs.get? run).bind fun slab ↦ p.known.delta slotMap slab.haulierToCode with
  | none => { p with stage := .send frame }
  | some d =>
    let epoch := if d.full then p.codebookEpoch + 1 else p.codebookEpoch
    { p with
      known := p.known.learn d
      codebookEpoch := epoch
      stage := .send frame
      received := p.received ++ [.codebook epoch d] }

/-- The next section of the poll. -/
def LiveFrames.poll (run : String) (framesOwnPositions : Bool) (p : LiveFrames) : LiveFrames :=
  match p.stage with
  | .idle => p.takeSnapshot run framesOwnPositions
  | .readSlotMap frame => p.readSlotMap run frame
  | .readHaulierCodes frame slotMap => p.emitCodebook run frame slotMap
  | .send frame =>
    { p with stage := .idle, sent := p.sent + 1, received := p.received ++ [.frame frame] }

/-- An operation of the hot tier, or a section of the viewer's poll. -/
inductive LiveStep where
  | hot (op : HotOp)
  | poll

/-- A connection for one run, and the threads that write to the hot tier. -/
def liveFrames (cfg : HotConfig) (run : String) (framesOwnPositions : Bool) :
    Machine LiveFrames LiveStep where
  step p
    | .hot op => some { p with hot := op.run cfg p.hot }
    | .poll => some (p.poll run framesOwnPositions)

/-! ## What a book is worth -/

/-- Every entry of a book is one of a slot map or of a book of codes. -/
def CodeBook.TellsOf (known : CodeBook) (slotMap haulierCodes : Dict String ℕ) : Prop :=
  (∀ e ∈ known.slots.entries, slotMap.get? e.2 = some e.1) ∧
    ∀ e ∈ known.codes.entries, haulierCodes.get? e.1 = some e.2

instance (known : CodeBook) (slotMap haulierCodes : Dict String ℕ) :
    Decidable (known.TellsOf slotMap haulierCodes) := inferInstanceAs (Decidable (_ ∧ _))

/-- Every entry of a book is one of an identity. -/
def CodeBook.Within (known : CodeBook) (id : RunIdentity) : Prop :=
  known.TellsOf id.agentToSlot id.haulierToCode

/-- **A viewer can decode a frame**: it knows the agent of every slot and a haulier of every code,
and those are the ones the hot tier gives the slot and the code.  The code 0 is no haulier. -/
def Decodes (known : CodeBook) (hot : HotStore) (run : String) (f : Frame) : Prop :=
  ∃ id, hot.identityOf run = some id ∧ ∀ row ∈ f.rows,
    (∃ a, known.slots.get? row.slot = some a ∧ id.agentToSlot.get? a = some row.slot) ∧
    (row.haulier = 0 ∨ (∃ h, known.codes.get? h = some row.haulier) ∧
      ∀ h, known.codes.get? h = some row.haulier → id.haulierToCode.get? h = some row.haulier)

section Books

variable {known : CodeBook} {id id' : RunIdentity}

theorem CodeBook.Within.slot (h : known.Within id) {k : ℕ} {a : String}
    (hk : known.slots.get? k = some a) : id.agentToSlot.get? a = some k :=
  h.1 (k, a) (Dict.mem_entries_iff.mpr hk)

theorem CodeBook.Within.code (h : known.Within id) {x : String} {c : ℕ}
    (hx : known.codes.get? x = some c) : id.haulierToCode.get? x = some c :=
  h.2 (x, c) (Dict.mem_entries_iff.mpr hx)

theorem CodeBook.Within.extends (h : known.Within id) (he : Extends id id') : known.Within id' :=
  ⟨fun e hm ↦ he.slots _ _ (h.1 e hm), fun e hm ↦ he.codes _ _ (h.2 e hm)⟩

/-- What a connection knows after it has read both maps. -/
def CodeBook.told (known : CodeBook) (slotMap haulierCodes : Dict String ℕ) : CodeBook :=
  (known.delta slotMap haulierCodes).elim known known.learn

variable {slotMap : Dict String ℕ}

theorem mem_bySlot {k : ℕ} {a : String}
    (h : (k, a) ∈ (Dict.ofList (slotMap.entries.map fun e ↦ (e.2, e.1))).entries) :
    slotMap.get? a = some k := by
  have hmem := Dict.mem_of_get?_ofList (Dict.mem_entries_iff.mp h)
  obtain ⟨e, he, heq⟩ := List.mem_map.mp hmem
  obtain ⟨rfl, rfl⟩ := Prod.mk.inj heq
  exact Dict.mem_entries_iff.mp he

theorem bySlot_mem {k : ℕ} {a : String} (h : slotMap.get? a = some k) :
    ∃ b, (k, b) ∈ (Dict.ofList (slotMap.entries.map fun e ↦ (e.2, e.1))).entries := by
  have hmem : k ∈ (slotMap.entries.map fun e ↦ (e.2, e.1)).map Prod.fst :=
    List.mem_map.mpr ⟨(k, a), List.mem_map.mpr ⟨(a, k), Dict.mem_entries_iff.mpr h, rfl⟩, rfl⟩
  obtain ⟨b, hb⟩ := Dict.mem_keys_iff.mp (Dict.mem_keys_update.mpr (Or.inr hmem))
  exact ⟨b, Dict.mem_entries_iff.mpr hb⟩

theorem not_contains_iff {K V : Type} [DecidableEq K] {d : Dict K V} {k : K} :
    (!d.contains k) = true ↔ d.get? k = none := by
  rw [Dict.contains, Bool.not_eq_true', Option.isSome_eq_false_iff, Option.isNone_iff_eq_none]

/-- What was sent is a list of entries of the tier that leaves out only what is known. -/
theorem delta_cases (known : CodeBook) (slotMap haulierCodes : Dict String ℕ) :
    ∃ (base : CodeBook) (slots : List (ℕ × String)) (codes : List (String × ℕ)),
      known.told slotMap haulierCodes =
        { slots := base.slots.update slots, codes := base.codes.update codes } ∧
      (base = {} ∨ base = known) ∧
      (∀ k a, (k, a) ∈ slots → slotMap.get? a = some k) ∧
      (∀ x c, (x, c) ∈ codes → haulierCodes.get? x = some c) ∧
      (∀ a k, slotMap.get? a = some k → base.slots.get? k = none → k ∈ slots.map Prod.fst) ∧
      ∀ x c, haulierCodes.get? x = some c → base.codes.get? x = none →
        x ∈ codes.map Prod.fst := by
  have hslot : ∀ a k, slotMap.get? a = some k → ∃ b,
      (k, b) ∈ (Dict.ofList (slotMap.entries.map fun e ↦ (e.2, e.1))).entries :=
    fun a k h ↦ bySlot_mem h
  unfold CodeBook.told CodeBook.delta
  dsimp only
  split
  · refine ⟨{}, _, _, rfl, Or.inl rfl, fun k a hm ↦ mem_bySlot (mem_sortedBy.mp hm),
      fun x c hm ↦ Dict.mem_entries_iff.mp hm, fun a k h _ ↦ ?_, fun x c h _ ↦ ?_⟩
    · obtain ⟨b, hb⟩ := hslot a k h
      exact List.mem_map.mpr ⟨(k, b), mem_sortedBy.mpr hb, rfl⟩
    · exact List.mem_map.mpr ⟨(x, c), Dict.mem_entries_iff.mpr h, rfl⟩
  · refine ⟨known, sortedBy Prod.fst
      ((Dict.ofList (slotMap.entries.map fun e ↦ (e.2, e.1))).entries.filter
        fun e ↦ !known.slots.contains e.1), haulierCodes.entries.filter
      fun e ↦ !known.codes.contains e.1, ?_, Or.inr rfl,
      fun k a hm ↦ mem_bySlot (List.mem_filter.mp (mem_sortedBy.mp hm)).1,
      fun x c hm ↦ Dict.mem_entries_iff.mp (List.mem_filter.mp hm).1, fun a k h hn ↦ ?_,
      fun x c h hn ↦ ?_⟩
    · split
      · next hempty =>
        obtain ⟨h1, h2⟩ := Bool.and_eq_true_iff.mp hempty
        rw [List.isEmpty_iff.mp h1, List.isEmpty_iff.mp h2]
        rfl
      · rfl
    · obtain ⟨b, hb⟩ := hslot a k h
      exact List.mem_map.mpr ⟨(k, b), mem_sortedBy.mpr
        (List.mem_filter.mpr ⟨hb, not_contains_iff.mpr hn⟩), rfl⟩
    · exact List.mem_map.mpr ⟨(x, c), List.mem_filter.mpr ⟨Dict.mem_entries_iff.mpr h,
        not_contains_iff.mpr hn⟩, rfl⟩

/-- **Everything that was read is known then.** -/
theorem told_covers (known : CodeBook) (slotMap haulierCodes : Dict String ℕ) :
    (∀ a k, slotMap.get? a = some k →
      ∃ b, (known.told slotMap haulierCodes).slots.get? k = some b) ∧
    ∀ x c, haulierCodes.get? x = some c →
      ∃ c', (known.told slotMap haulierCodes).codes.get? x = some c' := by
  obtain ⟨base, slots, codes, htold, -, -, -, hslots, hcodes⟩ :=
    delta_cases known slotMap haulierCodes
  rw [htold]
  refine ⟨fun a k h ↦ Dict.mem_keys_iff.mp (Dict.mem_keys_update.mpr ?_),
    fun x c h ↦ Dict.mem_keys_iff.mp (Dict.mem_keys_update.mpr ?_)⟩
  · cases hb : base.slots.get? k with
    | none => exact Or.inr (hslots a k h hb)
    | some b => exact Or.inl (Dict.mem_keys_iff.mpr ⟨b, hb⟩)
  · cases hb : base.codes.get? x with
    | none => exact Or.inr (hcodes x c h hb)
    | some c' => exact Or.inl (Dict.mem_keys_iff.mpr ⟨c', hb⟩)

/-- **A book that was within the identity is within it then.** -/
theorem told_within (hslots : Keeps slotMap id.agentToSlot) (h : known.Within id) :
    (known.told slotMap id.haulierToCode).Within id := by
  obtain ⟨base, slots, codes, htold, hbase, hs, hc, -, -⟩ :=
    delta_cases known slotMap id.haulierToCode
  have hwithin : base.Within id := by
    rcases hbase with rfl | rfl
    · exact ⟨nofun, fun _ hm ↦ absurd hm List.not_mem_nil⟩
    · exact h
  rw [htold]
  refine ⟨fun e hm ↦ ?_, fun e hm ↦ ?_⟩
  · rcases Dict.mem_of_get?_update (Dict.mem_entries_iff.mp hm) with hnew | hold
    · exact hslots _ _ (hs _ _ hnew)
    · exact hwithin.slot hold
  · rcases Dict.mem_of_get?_update (Dict.mem_entries_iff.mp hm) with hnew | hold
    · exact hc _ _ hnew
    · exact hwithin.code hold

end Books

/-! ## What a connection knows of a slab -/

/-- A truck the viewer has been told of shows a haulier the viewer has been told of. -/
def Told (known : CodeBook) (slab : RunSlab) : Prop :=
  ∀ (k : ℕ) (c : Cell) (a : String), slab.cells[k]? = some c → c.written = true →
    slab.agentToSlot.get? a = some k → a ∈ known.slots.values →
    c.haulier = 0 ∨ ∃ x, (∃ c', known.codes.get? x = some c') ∧
      slab.haulierToCode.get? x = some c.haulier

/-- A report by a truck the viewer has been told of names a haulier it has been told of. -/
def KnownHaulier (known : CodeBook) (r : Report) : Prop :=
  r.agentId ∈ known.slots.values → ∀ x ∈ r.named, (known.codes.get? x).isSome = true

instance (known : CodeBook) (r : Report) : Decidable (KnownHaulier known r) :=
  inferInstanceAs (Decidable (_ → _))

section Told

variable {known : CodeBook} {slab slab' : RunSlab} {report : Option Report}

/-- The cell of a report that names a known haulier. -/
theorem Reported.told {r : Report} {k : ℕ} {c : Cell} (h : Reported r slab k c)
    (hbytes : Bytes slab.haulierToCode)
    (hknown : ∀ x ∈ r.named, (known.codes.get? x).isSome = true) :
    c.haulier = 0 ∨ ∃ x, (∃ c', known.codes.get? x = some c') ∧
      slab.haulierToCode.get? x = some c.haulier := by
  cases hn : r.named with
  | none => exact Or.inl (h.anonymous hn)
  | some x =>
    obtain ⟨code, hcode, hcell⟩ := h.haulier x hn
    have hle : code ≤ 255 := hbytes x code hcode
    rw [Nat.mod_eq_of_lt (by omega)] at hcell
    exact Or.inr ⟨x, Option.isSome_iff_exists.mp (hknown x hn), hcell ▸ hcode⟩

/-- **One operation** on a slab keeps it. -/
theorem Told.moves (h : Told known slab) (hs : slab.Labelled) (hm : Moves report slab slab')
    (hinj : InjectiveMap slab'.agentToSlot) (hreport : ∀ r ∈ report, KnownHaulier known r) :
    Told known slab' := by
  intro k c a hc hw ha hknown
  rcases hm.cells k c hc hw with hold | ⟨r, hr, hrep⟩
  · obtain ⟨b, hb⟩ := hs.agent k c hold hw
    obtain rfl : b = a := hinj b a k (hm.identity.slots b k hb) ha
    rcases h k c b hold hw hb hknown with h0 | ⟨x, hx, hcode⟩
    · exact Or.inl h0
    · exact Or.inr ⟨x, hx, hm.identity.codes x _ hcode⟩
  · obtain rfl : r.agentId = a := hinj _ a k hrep.agent ha
    exact hrep.told (hm.labelled hs).bytes (hreport r hr hknown)

theorem told_fresh (h : ∀ (k : ℕ) (c : Cell), slab.cells[k]? = some c → c.written = false) :
    Told known slab :=
  fun k c _ hc hw ↦ absurd hw (Bool.eq_false_iff.mp (h k c hc))

theorem labelled_fresh (h : ∀ (k : ℕ) (c : Cell), slab.cells[k]? = some c → c.written = false)
    (hb : Bytes slab.haulierToCode) : slab.Labelled :=
  ⟨hb, fun k c hc hw ↦ absurd hw (Bool.eq_false_iff.mp (h k c hc)),
    fun k c hc hw ↦ absurd hw (Bool.eq_false_iff.mp (h k c hc))⟩

theorem told_of_all (hs : slab.Labelled)
    (hall : ∀ x c, slab.haulierToCode.get? x = some c → ∃ c', known.codes.get? x = some c') :
    Told known slab := by
  intro k c a hc hw _ _
  rcases hs.haulier k c hc hw with h0 | ⟨x, hx⟩
  · exact Or.inl h0
  · exact Or.inr ⟨x, hall x _ hx, hx⟩

end Told

/-! ## The invariant -/

/-- The rows of a frame show agents and hauliers of the slab. -/
def Shown (slab : RunSlab) (rows : List FrameRow) : Prop :=
  ∀ row ∈ rows, (∃ a, slab.agentToSlot.get? a = some row.slot) ∧
    (row.haulier = 0 ∨ ∃ x, slab.haulierToCode.get? x = some row.haulier)

/-- What holds of the frame that a poll has taken, and of the slab of its run. -/
def PollStage.Ready (known : CodeBook) (slab : RunSlab) : PollStage → Prop
  | .idle => True
  | .readSlotMap f => Shown slab f.rows
  | .readHaulierCodes f slotMap => Shown slab f.rows ∧ Keeps slotMap slab.agentToSlot ∧
    ∀ row ∈ f.rows, ∃ a, slotMap.get? a = some row.slot
  | .send f => known.Within slab.identity ∧ ∀ row ∈ f.rows,
    (∃ a, known.slots.get? row.slot = some a) ∧
      (row.haulier = 0 ∨ ∃ x, known.codes.get? x = some row.haulier)

/-- What holds of the hot tier and of what is known of a run, between any two sections. -/
structure Watched (run : String) (hot : HotStore) (known : CodeBook) : Prop where
  store : StoreOk hot
  bytes : hot.BytesAt run
  labelled : ∀ slab, hot.runs.get? run = some slab → slab.Labelled
  within : ∀ slab, hot.runs.get? run = some slab → known.Within slab.identity
  told : ∀ slab, hot.runs.get? run = some slab → Told known slab

/-- The invariant of a connection. -/
structure Informed (run : String) (p : LiveFrames) : Prop where
  watched : Watched run p.hot p.known
  heard : accumulated p.received = p.known
  ready : p.stage.busy = true →
    ∃ slab, p.hot.runs.get? run = some slab ∧ p.stage.Ready p.known slab

/-- A slab that is built for a run starts with every slot and every code the viewer has been told:
they were brought along, or else parked. -/
def StartsWith (known : CodeBook) (run : String) (seed : Seed) (hot : HotStore) : Prop :=
  known.TellsOf (startSlots seed (hot.carryover.get? run))
    (startCodes seed (hot.carryover.get? run))

instance (known : CodeBook) (run : String) (seed : Seed) (hot : HotStore) :
    Decidable (StartsWith known run seed hot) := inferInstanceAs (Decidable (known.TellsOf _ _))

/-- **The condition**: the connection asked for frames; a truck the viewer has been told of reports
a haulier it has been told of; a slab that is built anew has what the viewer has been told; and the
run stays resident while a poll has a frame of it. -/
def Legible (cfg : HotConfig) (run : String) (framesOwnPositions : Bool) (p : LiveFrames) :
    LiveStep → Prop
  | .hot op => (∀ r ∈ op.reportOn run, KnownHaulier p.known r) ∧
    (p.hot.runs.get? run = none → ((op.run cfg p.hot).runs.get? run).isSome = true →
      StartsWith p.known run (op.seed.getD {}) p.hot) ∧
    (p.stage.busy = true → ((op.run cfg p.hot).runs.get? run).isSome = true)
  | .poll => framesOwnPositions = true

instance (cfg : HotConfig) (run : String) (framesOwnPositions : Bool) (p : LiveFrames)
    (e : LiveStep) : Decidable (Legible cfg run framesOwnPositions p e) :=
  match e with
  | .hot op => inferInstanceAs (Decidable ((∀ r ∈ op.reportOn run, KnownHaulier p.known r) ∧
      (p.hot.runs.get? run = none → _ → StartsWith p.known run (op.seed.getD {}) p.hot) ∧
      (_ → _)))
  | .poll => inferInstanceAs (Decidable (_ = true))

/-- The identities a step brings along are proper. -/
def LiveStep.Proper : LiveStep → Prop
  | .hot op => op.Proper
  | .poll => True

section Steps

variable {cfg : HotConfig} {run : String} {p : LiveFrames}

theorem Shown.moves {report : Option Report} {slab slab' : RunSlab} {rows : List FrameRow}
    (h : Shown slab rows) (hm : Moves report slab slab') : Shown slab' rows := by
  intro row hrow
  obtain ⟨⟨a, ha⟩, hcode⟩ := h row hrow
  refine ⟨⟨a, hm.identity.slots a _ ha⟩, hcode.imp_right ?_⟩
  rintro ⟨x, hx⟩
  exact ⟨x, hm.identity.codes x _ hx⟩

theorem PollStage.Ready.moves {known : CodeBook} {report : Option Report} {slab slab' : RunSlab}
    {stage : PollStage} (h : stage.Ready known slab) (hm : Moves report slab slab') :
    stage.Ready known slab' := by
  cases stage with
  | idle => trivial
  | readSlotMap f => exact Shown.moves h hm
  | readHaulierCodes f slotMap =>
    obtain ⟨h1, h2, h3⟩ := h
    exact ⟨Shown.moves h1 hm, fun a k ha ↦ hm.identity.slots a k (h2 a k ha), h3⟩
  | send f => exact ⟨h.1.extends hm.identity, h.2⟩

theorem shown_rows {slab : RunSlab} (hs : slab.Labelled) : Shown slab slab.rows := by
  intro row hrow
  obtain ⟨k, -, hk⟩ := List.mem_filterMap.mp hrow
  cases hc : slab.cells[k]? with
  | none =>
    rw [hc] at hk
    cases hk
  | some c =>
    rw [hc] at hk
    dsimp only at hk
    split at hk
    · next hw =>
      cases hk
      exact ⟨hs.agent k c hc hw, hs.haulier k c hc hw⟩
    · cases hk

theorem Watched.op {hot : HotStore} {known : CodeBook} (h : Watched run hot known) {op : HotOp}
    (hop : op.Proper) (hreport : ∀ r ∈ op.reportOn run, KnownHaulier known r)
    (hstart : hot.runs.get? run = none → ((op.run cfg hot).runs.get? run).isSome = true →
      StartsWith known run (op.seed.getD {}) hot) :
    Watched run (op.run cfg hot) known := by
  have hok : StoreOk (op.run cfg hot) := (op_acts h.store hop.injective).ok
  have hfollows : Follows run (op.reportOn run) (op.seed.getD {}) hot (op.run cfg hot) :=
    op_follows h.store hop run
  have hslab : ∀ slab', (op.run cfg hot).runs.get? run = some slab' →
      slab'.Labelled ∧ known.Within slab'.identity ∧ Told known slab' := by
    intro slab' hslab'
    have hinj := (hok.runs run slab' hslab').slots.injective
    rcases hfollows.slab slab' hslab' with ⟨slab, hslab, hm⟩ | ⟨hnone, fresh, hfresh, hb, hm⟩
    · have hs := h.labelled slab hslab
      exact ⟨hm.labelled hs, (h.within slab hslab).extends hm.identity,
        (h.told slab hslab).moves hs hm hinj hreport⟩
    · have hs := labelled_fresh hfresh.unwritten (hb h.bytes)
      obtain ⟨hslots, hcodes⟩ := hstart hnone (by rw [hslab']; rfl)
      have hwithin : known.Within fresh.identity :=
        ⟨fun e he ↦ (hfresh.slots e.2).trans (hslots e he),
          fun e he ↦ (hfresh.codes e.1).trans (hcodes e he)⟩
      exact ⟨hm.labelled hs, hwithin.extends hm.identity,
        (told_fresh hfresh.unwritten).moves hs hm hinj hreport⟩
  exact ⟨hok, hfollows.bytes h.bytes, fun slab hs ↦ (hslab slab hs).1,
    fun slab hs ↦ (hslab slab hs).2.1, fun slab hs ↦ (hslab slab hs).2.2⟩

variable {framesOwnPositions : Bool}

/-- **An operation of the hot tier** keeps the connection informed. -/
theorem hot_informed (h : Informed run p) {op : HotOp} (hop : op.Proper)
    (hC : Legible cfg run framesOwnPositions p (.hot op)) :
    Informed run { p with hot := op.run cfg p.hot } := by
  obtain ⟨hreport, hstart, hstay⟩ := hC
  refine ⟨h.watched.op hop hreport hstart, h.heard, fun hbusy ↦ ?_⟩
  obtain ⟨slab, hr, hready⟩ := h.ready hbusy
  obtain ⟨slab', hr'⟩ := Option.isSome_iff_exists.mp (hstay hbusy)
  refine ⟨slab', hr', ?_⟩
  rcases (op_follows h.watched.store hop run).slab slab' hr' with ⟨slab0, hslab0, hm⟩ | ⟨hnone, -⟩
  · obtain rfl := Option.some_inj.mp (hr.symm.trans hslab0)
    exact hready.moves hm
  · rw [hr] at hnone
    cases hnone

/-- All slots of the frame have been told, so its codes have been as well. -/
theorem send_ready {slab : RunSlab} (h : Informed run p) (hr : p.hot.runs.get? run = some slab)
    (htold : p.untold slab.rows = false) :
    ∀ row ∈ slab.rows, (∃ a, p.known.slots.get? row.slot = some a) ∧
      (row.haulier = 0 ∨ ∃ x, p.known.codes.get? x = some row.haulier) := by
  have hwithin := h.watched.within slab hr
  obtain ⟨-, hslots⟩ := Bool.or_eq_false_iff.mp htold
  intro row hrow
  have hknown : ∃ a, p.known.slots.get? row.slot = some a := by
    have hrow' := List.any_eq_false.mp hslots row hrow
    rw [not_contains_iff] at hrow'
    exact Option.ne_none_iff_exists'.mp hrow'
  refine ⟨hknown, ?_⟩
  obtain ⟨b, hb⟩ := hknown
  have hval : b ∈ p.known.slots.values := Dict.mem_values_iff.mpr ⟨row.slot, hb⟩
  obtain ⟨k, -, hk⟩ := List.mem_filterMap.mp hrow
  cases hc : slab.cells[k]? with
  | none =>
    rw [hc] at hk
    cases hk
  | some c =>
    rw [hc] at hk
    dsimp only at hk
    split at hk
    · next hw =>
      cases hk
      rcases h.watched.told slab hr k c b hc hw (hwithin.slot hb) hval with
        h0 | ⟨x, ⟨c', hx⟩, hcode⟩
      · exact Or.inl h0
      · exact Or.inr ⟨x, hx.trans ((hwithin.code hx).symm.trans hcode)⟩
    · cases hk

theorem accumulated_append (received : List LiveEvent) (e : LiveEvent) :
    accumulated (received ++ [e]) = e.hear (accumulated received) := by
  rw [accumulated, List.foldl_append]
  rfl

/-- An event that is not a code book teaches nothing. -/
theorem Informed.quiet (h : Informed run p) {q : LiveFrames} {e : LiveEvent}
    (he : ∀ known, e.hear known = known) (hwatched : Watched run q.hot q.known)
    (hknown : q.known = p.known) (hidle : q.stage.busy = false)
    (hreceived : q.received = p.received ++ [e]) : Informed run q := by
  refine ⟨hwatched, ?_, fun hbusy ↦ ?_⟩
  · rw [hreceived, accumulated_append, he, h.heard, hknown]
  · rw [hidle] at hbusy
    cases hbusy

/-- The snapshot of a resident run: the frame shows its rows, and its slab stays. -/
theorem snapshot_resident {slab : RunSlab} (hr : p.hot.runs.get? run = some slab) :
    ∃ (hot : HotStore) (frame : Frame) (slab' : RunSlab), p.hot.snapshot run = (hot, some frame) ∧
      frame.rows = slab.rows ∧ hot.runs.get? run = some slab' ∧ Moves none slab slab' := by
  have hsnap : p.hot.snapshot run = (p.hot.setSlab run { slab with
      frameCounter := slab.frameCounter + 1
      framesEmitted := slab.framesEmitted + 1 },
      some
        { frameIdx := slab.frameCounter, simTimeMs := slab.lastSimTimeMs, rows := slab.rows }) := by
    rw [HotStore.snapshot, hr]
  refine ⟨_, _, { slab with
      frameCounter := slab.frameCounter + 1
      framesEmitted := slab.framesEmitted + 1 }, hsnap, rfl, ?_, Moves.same rfl rfl rfl⟩
  rw [runs_setSlab, if_pos rfl]

/-- **The first section of a poll.** -/
theorem takeSnapshot_informed (h : Informed run p) (hstage : p.stage = .idle)
    (hC : Legible cfg run framesOwnPositions p .poll) :
    Informed run (p.takeSnapshot run framesOwnPositions) := by
  obtain rfl : framesOwnPositions = true := hC
  have hidle : p.stage.busy = false := by rw [hstage]; rfl
  cases hr : p.hot.runs.get? run with
  | none =>
    have hsnap : p.hot.snapshot run = (p.hot, none) := by rw [HotStore.snapshot, hr]
    rw [LiveFrames.takeSnapshot, hsnap]
    exact h.quiet (fun _ ↦ rfl) h.watched rfl hidle rfl
  | some slab =>
    have hafter : Watched run (HotOp.run cfg p.hot (.snapshot run)) p.known :=
      h.watched.op (fun _ hs ↦ by cases hs) (fun _ hr ↦ by cases hr) fun hnone ↦ by
        rw [hr] at hnone
        cases hnone
    obtain ⟨hot, frame, slab', hsnap, hrows, hr', hm⟩ := snapshot_resident hr
    have hhot : HotOp.run cfg p.hot (.snapshot run) = hot := congrArg Prod.fst hsnap
    rw [hhot] at hafter
    rw [LiveFrames.takeSnapshot, hsnap]
    dsimp only
    split
    · exact h.quiet (fun _ ↦ rfl) hafter rfl hidle rfl
    · split
      · refine ⟨hafter, h.heard, fun _ ↦ ⟨slab', hr', ?_⟩⟩
        dsimp only
        rw [Bool.true_and, hrows]
        cases htold : p.untold slab.rows with
        | true =>
          have hshown : Shown slab frame.rows := hrows.symm ▸
            shown_rows (h.watched.labelled slab hr)
          exact hshown.moves hm
        | false =>
          exact ⟨(h.watched.within slab hr).extends hm.identity, hrows.symm ▸ send_ready h hr htold⟩
      · exact h.quiet (fun _ ↦ rfl) hafter rfl hidle rfl

theorem readSlotMap_informed (h : Informed run p) {frame : Frame}
    (hstage : p.stage = .readSlotMap frame) : Informed run (p.readSlotMap run frame) := by
  obtain ⟨slab, hr, hready⟩ := h.ready (by rw [hstage]; rfl)
  rw [hstage] at hready
  rw [LiveFrames.readSlotMap, hr]
  refine ⟨h.watched, h.heard, fun _ ↦ ⟨slab, hr, hready, fun _ _ ha ↦ ha, fun row hrow ↦ ?_⟩⟩
  exact (hready row hrow).1

/-- **The code book is sent**, if there is anything to say. -/
theorem emitCodebook_informed (h : Informed run p) {frame : Frame} {slotMap : Dict String ℕ}
    (hstage : p.stage = .readHaulierCodes frame slotMap) :
    Informed run (p.emitCodebook run frame slotMap) := by
  obtain ⟨slab, hr, hready⟩ := h.ready (by rw [hstage]; rfl)
  rw [hstage] at hready
  obtain ⟨hshown, hslots, hrows⟩ := hready
  have hwithin := told_within hslots (h.watched.within slab hr)
  have hknown : (p.emitCodebook run frame slotMap).known =
      p.known.told slotMap slab.haulierToCode := by
    rw [LiveFrames.emitCodebook, hr, Option.bind_some, CodeBook.told]
    cases p.known.delta slotMap slab.haulierToCode <;> rfl
  have hhot : (p.emitCodebook run frame slotMap).hot = p.hot := by
    rw [LiveFrames.emitCodebook]
    split <;> rfl
  have hsend : (p.emitCodebook run frame slotMap).stage = .send frame := by
    rw [LiveFrames.emitCodebook]
    split <;> rfl
  have hheard : accumulated (p.emitCodebook run frame slotMap).received =
      (p.emitCodebook run frame slotMap).known := by
    rw [LiveFrames.emitCodebook]
    split
    · exact h.heard
    · dsimp only
      rw [accumulated_append, h.heard]
      rfl
  obtain ⟨hcover, hcodes⟩ := told_covers p.known slotMap slab.haulierToCode
  refine ⟨⟨?_, ?_, ?_, ?_, ?_⟩, hheard, fun _ ↦ ⟨slab, ?_, ?_⟩⟩
  · rw [hhot]
    exact h.watched.store
  · rw [hhot]
    exact h.watched.bytes
  · rw [hhot]
    exact h.watched.labelled
  · rw [hhot, hknown]
    intro slab0 hr0
    obtain rfl := Option.some_inj.mp (hr.symm.trans hr0)
    exact hwithin
  · rw [hhot, hknown]
    intro slab0 hr0
    obtain rfl := Option.some_inj.mp (hr.symm.trans hr0)
    exact told_of_all (h.watched.labelled slab hr) hcodes
  · rw [hhot, hr]
  · rw [hsend, hknown]
    refine ⟨hwithin, fun row hrow ↦ ⟨?_, (hshown row hrow).2.imp_right ?_⟩⟩
    · obtain ⟨a, ha⟩ := hrows row hrow
      exact hcover a _ ha
    · rintro ⟨x, hx⟩
      obtain ⟨c', hc'⟩ := hcodes x _ hx
      exact ⟨x, hc'.trans ((hwithin.code hc').symm.trans hx)⟩

/-- **A section of the poll** keeps the connection informed. -/
theorem poll_informed (h : Informed run p) (hC : Legible cfg run framesOwnPositions p .poll) :
    Informed run (p.poll run framesOwnPositions) := by
  rw [LiveFrames.poll]
  split
  · next hstage => exact takeSnapshot_informed h hstage hC
  · next frame hstage => exact readSlotMap_informed h hstage
  · next frame slotMap hstage => exact emitCodebook_informed h hstage
  · next frame hstage => exact h.quiet (fun _ ↦ rfl) h.watched rfl rfl rfl

end Steps

/-! ## Runs -/

theorem start_informed (run : String) : Informed run {} where
  watched :=
    { store := start_tierOk.store
      bytes := fun id hid ↦ absurd hid.symm (Option.some_ne_none id)
      labelled := fun slab hs ↦ absurd hs.symm (Option.some_ne_none slab)
      within := fun slab hs ↦ absurd hs.symm (Option.some_ne_none slab)
      told := fun slab hs ↦ absurd hs.symm (Option.some_ne_none slab) }
  heard := rfl
  ready h := absurd h Bool.false_ne_true

/-- A section of the poll that sends a frame. -/
theorem poll_sends {run : String} {framesOwnPositions : Bool} {p : LiveFrames} {f : Frame}
    (h : (p.poll run framesOwnPositions).received = p.received ++ [.frame f]) :
    p.stage = .send f ∧ (p.poll run framesOwnPositions).hot = p.hot ∧
      (p.poll run framesOwnPositions).known = p.known := by
  have hsame : ∀ e : LiveEvent, p.received ++ [e] = p.received ++ [.frame f] → e = .frame f :=
    fun e he ↦ List.singleton_injective (List.append_cancel_left he)
  have hnone : p.received ≠ p.received ++ [.frame f] := fun he ↦ by
    have hlen := congrArg List.length he
    rw [List.length_append, List.length_singleton] at hlen
    omega
  rw [LiveFrames.poll] at h ⊢
  split at h
  · rw [LiveFrames.takeSnapshot] at h
    split at h
    · cases hsame _ h
    · split at h
      · cases hsame _ h
      · split at h
        · exact absurd h hnone
        · cases hsame _ h
  · rw [LiveFrames.readSlotMap] at h
    split at h <;> exact absurd h hnone
  · rw [LiveFrames.emitCodebook] at h
    split at h
    · exact absurd h hnone
    · cases hsame _ h
  · next frame hstage =>
    obtain rfl : frame = f := LiveEvent.frame.inj (hsame _ h)
    exact ⟨hstage, rfl, rfl⟩

/-- **A viewer can decode every frame it receives**, whatever the other threads do to the hot tier
between any two sections of its polls, as long as every step meets the condition. -/
theorem frames_decode (cfg : HotConfig) (run : String) (framesOwnPositions : Bool)
    (p q : LiveFrames) (f : Frame)
    (h : (liveFrames cfg run framesOwnPositions).Reach
      (fun p e ↦ e.Proper ∧ Legible cfg run framesOwnPositions p e) {} p)
    (hstep : (liveFrames cfg run framesOwnPositions).step p .poll = some q)
    (hf : q.received = p.received ++ [.frame f]) :
    Decodes (accumulated q.received) q.hot run f := by
  have hinf : Informed run p := by
    refine h.invariant (start_informed run) fun a e b ha hC hab ↦ ?_
    cases e with
    | hot op =>
      obtain rfl := Option.some_inj.mp hab
      exact hot_informed ha hC.1 hC.2
    | poll =>
      obtain rfl := Option.some_inj.mp hab
      exact poll_informed ha hC.2
  obtain rfl := Option.some_inj.mp hstep
  obtain ⟨hstage, hhot, hknown⟩ := poll_sends hf
  obtain ⟨slab, hr, hready⟩ := hinf.ready (by rw [hstage]; rfl)
  rw [hstage] at hready
  obtain ⟨hwithin, hrows⟩ := hready
  rw [hf, accumulated_append, hinf.heard, hhot]
  refine ⟨slab.identity, identityOf_resident hr, fun row hrow ↦ ?_⟩
  obtain ⟨⟨a, ha⟩, hcode⟩ := hrows row hrow
  exact ⟨⟨a, ha, hwithin.slot ha⟩, hcode.imp_right fun hx ↦ ⟨hx, fun x hx' ↦ hwithin.code hx'⟩⟩

/-- The limits of a hot tier. -/
def oneTier : HotConfig := { maxRuns := 4, capacity := 2, carryoverRuns := 64 }

/-- A truck of a haulier reports. -/
def reports (agentId haulierId : String) : LiveStep :=
  .hot (.updatePosition { now := 0 } "run"
    { agentId := agentId, lng := .fin 0, lat := .fin 0, state := 1, haulierId := some haulierId,
      simTimeMs := .fin 0 })

/-- A truck reports before a poll, the run is evicted, and two trucks report before the next. -/
def twoTrucks : List LiveStep :=
  [reports "T1" "H1", .poll, .poll, .poll, .poll, .hot (.evict "run"), reports "T2" "H2",
    reports "T1" "H1", .poll, .poll, .poll]

/-- The frame of the second poll. -/
def bothTrucks : Frame where
  frameIdx := 1
  simTimeMs := .fin 0
  rows := [{ slot := 0, lng := .fin 0, lat := .fin 0, state := 1, haulier := 1 },
    { slot := 1, lng := .fin 0, lat := .fin 0, state := 1, haulier := 2 }]

theorem reports_proper (agentId haulierId : String) : (reports agentId haulierId).Proper :=
  fun _ h ↦ absurd h.symm (Option.some_ne_none _)

/-- The slab that is built anew starts with the parked slots and codes; the second truck is a new
slot, so its haulier is told. -/
theorem frames_decode_two :
    ∃ p q : LiveFrames, q.received = p.received ++ [.frame bothTrucks] ∧
      Decodes (accumulated q.received) q.hot "run" bothTrucks := by
  have hexec : (((liveFrames oneTier "run" true).execWhen (Legible oneTier "run" true) {}
      twoTrucks).map fun p ↦
        decide ((p.poll "run" true).received = p.received ++ [.frame bothTrucks])) = some true := by
    decide
  obtain ⟨p, hp, hsent⟩ := Option.map_eq_some_iff.mp hexec
  have hsent := of_decide_eq_true hsent
  refine ⟨p, p.poll "run" true, hsent, frames_decode oneTier "run" true p _ bothTrucks ?_ rfl hsent⟩
  refine Machine.reach_of_execWhen_imp hp fun e he a hC ↦ ⟨?_, hC⟩
  simp only [twoTrucks, List.mem_cons, List.not_mem_nil, or_false] at he
  rcases he with rfl | rfl | rfl | rfl | rfl | rfl | rfl | rfl | rfl | rfl | rfl
  on_goal 1 => exact reports_proper _ _
  on_goal 5 => exact fun _ h ↦ absurd h.symm (Option.some_ne_none _)
  on_goal 5 => exact reports_proper _ _
  on_goal 5 => exact reports_proper _ _
  all_goals trivial

/-- The frame of a truck that changed its haulier. -/
def changedHaulier : Frame where
  frameIdx := 1
  simTimeMs := .fin 0
  rows := [{ slot := 0, lng := .fin 0, lat := .fin 0, state := 1, haulier := 2 }]

/-- A truck whose slot has been told reports another haulier, and its code is never told. -/
theorem code_untold :
    ∃ (cfg : HotConfig) (p q : LiveFrames) (f : Frame),
      (liveFrames cfg "run" true).Reach (fun _ _ ↦ True) {} p ∧
        (liveFrames cfg "run" true).step p .poll = some q ∧
        q.received = p.received ++ [.frame f] ∧
        ¬ Decodes (accumulated q.received) q.hot "run" f := by
  have hexec : (((liveFrames oneTier "run" true).exec {}
      [reports "T1" "H1", .poll, .poll, .poll, .poll, reports "T1" "H2", .poll]).map fun p ↦
        decide ((p.poll "run" true).received = p.received ++ [.frame changedHaulier] ∧
          (accumulated (p.poll "run" true).received).codes.entries = [("H1", 1)])) =
        some true := by
    decide
  obtain ⟨p, hp, hsent⟩ := Option.map_eq_some_iff.mp hexec
  obtain ⟨hsent, hbook⟩ := of_decide_eq_true hsent
  refine ⟨oneTier, p, p.poll "run" true, changedHaulier,
    Machine.reach_of_exec _ hp fun _ _ _ ↦ trivial, rfl, hsent, ?_⟩
  rintro ⟨id, -, hrows⟩
  obtain ⟨-, hcode⟩ := hrows _ List.mem_cons_self
  obtain ⟨⟨x, hx⟩, -⟩ := hcode.resolve_left (by decide)
  have hmem := Dict.mem_entries_iff.mpr hx
  rw [hbook] at hmem
  obtain ⟨-, hone⟩ := Prod.mk.inj (List.mem_singleton.mp hmem)
  exact absurd hone (by decide)

end OpenRide.Dataplane
