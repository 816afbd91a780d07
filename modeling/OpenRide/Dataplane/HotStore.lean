import OpenRide.Lib.Dict
import OpenRide.Lib.Double
import OpenRide.Lib.Sorted

/-!
# The hot tier

One slab of truck positions for each resident run, and the identities of runs whose slab was
evicted: the slots of their agents, the codes of their hauliers and their frame counter.  A slab is
created from an explicit identity, else from a parked one, else empty; the least recently written
slab is evicted when there are too many, and the oldest parked identity is forgotten when there are
too many of those.

A slab hands out slots in order, and haulier codes in order up to the overflow code, which is
shared.  A frame lists the slots that have been written.
-/

namespace OpenRide.Dataplane

open Lib

/-! ## Slabs -/

/-- `_MAX_HAULIER_CODE`: the overflow code. -/
def maxHaulierCode : ℕ := 255

/-- One slot of the arrays. -/
structure Cell where
  lng : Double := .fin 0
  lat : Double := .fin 0
  state : ℕ := 0
  haulier : ℕ := 0
  written : Bool := false
deriving DecidableEq

/-- `_RunIdentity`. -/
structure RunIdentity where
  frameCounter : ℤ
  framesEmitted : ℕ
  agentToSlot : Dict String ℕ
  slotToAgent : List String
  haulierToCode : Dict String ℕ
  nextHaulierCode : ℕ
  lastSimTimeMs : Double
  updateCount : ℕ

/-- `_RunSlab`.  The arrays are one list of cells, whose length is the capacity. -/
structure RunSlab where
  cells : List Cell
  agentToSlot : Dict String ℕ := Dict.empty
  slotToAgent : List String := []
  nActive : ℕ := 0
  frameCounter : ℤ := 0
  framesEmitted : ℕ := 0
  lastSimTimeMs : Double := .fin 0
  haulierToCode : Dict String ℕ := Dict.empty
  nextHaulierCode : ℕ := 1
  lastUpdate : ℤ
  updateCount : ℕ := 0

def RunSlab.capacity (s : RunSlab) : ℕ := s.cells.length

/-- An empty slab. -/
def RunSlab.new (capacity : ℕ) (now : ℤ) : RunSlab where
  cells := List.replicate (max capacity 1) {}
  lastUpdate := now

/-- `_grow`. -/
def RunSlab.grow (s : RunSlab) (minCapacity : ℕ) : RunSlab :=
  { s with
    cells := s.cells ++
      List.replicate (max (max (s.capacity * 2) minCapacity) 1 - s.capacity) {} }

/-- `_ensure_capacity`. -/
def RunSlab.ensureCapacity (s : RunSlab) (slot : ℕ) : RunSlab :=
  if slot ≥ s.capacity then s.grow (slot + 1) else s

/-- `slot_for`: the slab after it, and the slot. -/
def RunSlab.slotFor (s : RunSlab) (agentId : String) : RunSlab × ℕ :=
  match s.agentToSlot.get? agentId with
  | some slot => (s, slot)
  | none =>
    let s' := s.ensureCapacity s.nActive
    ({ s' with
       agentToSlot := s.agentToSlot.set agentId s.nActive
       slotToAgent := s.slotToAgent ++ [agentId]
       nActive := s.nActive + 1 }, s.nActive)

/-- `code_for_haulier`: the slab after it, and the code. -/
def RunSlab.codeForHaulier (s : RunSlab) (haulierId : Option String) : RunSlab × ℕ :=
  match haulierId.filter (· ≠ "") with
  | none => (s, 0)
  | some h =>
    match s.haulierToCode.get? h with
    | some code => (s, code)
    | none =>
      if s.nextHaulierCode > maxHaulierCode then
        ({ s with haulierToCode := s.haulierToCode.set h maxHaulierCode }, maxHaulierCode)
      else
        ({ s with
           haulierToCode := s.haulierToCode.set h s.nextHaulierCode
           nextHaulierCode := s.nextHaulierCode + 1 }, s.nextHaulierCode)

/-- The highest of some slots or codes. -/
def highest (l : List ℕ) : ℕ := l.foldr max 0

/-- The agents of a slot map, by slot, with holes. -/
def agentsBySlot (slotMap : Dict String ℕ) : List String :=
  slotMap.entries.foldl (fun l e ↦ l.set e.2 e.1)
    (List.replicate (highest slotMap.values + 1) "")

/-- `adopt_slot_map`. -/
def RunSlab.adoptSlotMap (s : RunSlab) (slotMap : Dict String ℕ) : RunSlab :=
  if slotMap.entries.isEmpty then s
  else
    let s' := s.ensureCapacity (highest slotMap.values)
    { s' with
      agentToSlot := s.agentToSlot.update slotMap.entries
      slotToAgent := agentsBySlot slotMap
      nActive := max s.nActive (highest slotMap.values + 1) }

/-- `adopt_haulier_codes`. -/
def RunSlab.adoptHaulierCodes (s : RunSlab) (codes : Dict String ℕ) : RunSlab :=
  if codes.entries.isEmpty then s
  else
    let book := s.haulierToCode.update codes.entries
    let assigned := book.values.filter (· < maxHaulierCode)
    { s with
      haulierToCode := book
      nextHaulierCode :=
        max s.nextHaulierCode (if assigned.isEmpty then 1 else highest assigned + 1) }

/-- `identity`. -/
def RunSlab.identity (s : RunSlab) : RunIdentity where
  frameCounter := s.frameCounter
  framesEmitted := s.framesEmitted
  agentToSlot := s.agentToSlot
  slotToAgent := s.slotToAgent
  haulierToCode := s.haulierToCode
  nextHaulierCode := s.nextHaulierCode
  lastSimTimeMs := s.lastSimTimeMs
  updateCount := s.updateCount

/-! ## The store -/

/-- The limits of a `HotStore`. -/
structure HotConfig where
  maxRuns : ℕ
  capacity : ℕ
  carryoverRuns : ℕ
deriving DecidableEq

/-- The resident runs, and the parked identities, the oldest first. -/
structure HotStore where
  runs : Dict String RunSlab := Dict.empty
  carryover : Dict String RunIdentity := Dict.empty
  evictions : ℕ := 0

/-- What an operation finds around it: the clock, and what the frame-index seed has to say. -/
structure HotEnv where
  now : ℤ
  seededFrameIdx : Option ℤ := none
deriving DecidableEq

/-- A persisted identity. -/
structure Seed where
  startFrameIdx : Option ℤ := none
  slotMap : Option (Dict String ℕ) := none
  haulierCodes : Option (Dict String ℕ) := none
deriving DecidableEq

/-- A dictionary that was given and is not empty. -/
def given (m : Option (Dict String ℕ)) : Option (Dict String ℕ) :=
  m.filter fun d ↦ !d.entries.isEmpty

/-- `_park_locked`. -/
def HotStore.park (cfg : HotConfig) (s : HotStore) (runId : String) (slab : RunSlab) : HotStore :=
  if cfg.carryoverRuns = 0 then s
  else
    let carryover := (s.carryover.erase runId).set runId slab.identity
    { s with carryover := carryover.dropOldest (carryover.size - cfg.carryoverRuns) }

/-- `evict`: the store after it, and whether the run was resident. -/
def HotStore.evict (cfg : HotConfig) (s : HotStore) (runId : String) : HotStore × Bool :=
  match s.runs.get? runId with
  | none => (s, false)
  | some slab =>
    ({ { s with runs := s.runs.erase runId }.park cfg runId slab with
       evictions := s.evictions + 1 }, true)

/-- The resident run that was written least recently, the first of several. -/
def HotStore.victim (s : HotStore) : Option String :=
  (sortedBy (fun e ↦ e.2.lastUpdate) s.runs.entries).head?.map Prod.fst

/-- One round of `_evict_lru_locked`. -/
def HotStore.evictOldest (cfg : HotConfig) (s : HotStore) : HotStore :=
  match s.victim with
  | none => s
  | some runId => (s.evict cfg runId).1

/-- `_evict_lru_locked`: every round evicts one run, so it takes as many as there are runs over the
limit. -/
def HotStore.evictLru (cfg : HotConfig) (s : HotStore) : HotStore :=
  (HotStore.evictOldest cfg)^[s.runs.size - max cfg.maxRuns 1] s

/-- The slots of a new slab: an explicit slot map wins, else the parked one is restored. -/
def RunSlab.initSlots (slab : RunSlab) (slotMap : Option (Dict String ℕ))
    (parked : Option RunIdentity) : RunSlab :=
  match given slotMap, parked with
  | some m, _ => slab.adoptSlotMap m
  | none, some id =>
    { slab with
      agentToSlot := id.agentToSlot
      slotToAgent := id.slotToAgent
      nActive := id.slotToAgent.length }.ensureCapacity (id.slotToAgent.length - 1)
  | none, none => slab

/-- The haulier codes of a new slab. -/
def RunSlab.initCodes (slab : RunSlab) (haulierCodes : Option (Dict String ℕ))
    (parked : Option RunIdentity) : RunSlab :=
  match given haulierCodes, parked with
  | some codes, _ => slab.adoptHaulierCodes codes
  | none, some id =>
    { slab with haulierToCode := id.haulierToCode, nextHaulierCode := id.nextHaulierCode }
  | none, none => slab

/-- The counters of a new slab: of the candidates for the frame index the largest wins. -/
def RunSlab.initCounters (slab : RunSlab) (env : HotEnv) (startFrameIdx : Option ℤ)
    (parked : Option RunIdentity) : RunSlab :=
  let seeded := max (env.seededFrameIdx.getD 0) 0
  let start := startFrameIdx.elim seeded fun i ↦ max seeded (max i 0)
  match parked with
  | none => { slab with frameCounter := start }
  | some id =>
    { slab with
      frameCounter := max start id.frameCounter
      framesEmitted := id.framesEmitted
      updateCount := id.updateCount
      lastSimTimeMs := id.lastSimTimeMs }

/-- The slab `_create_slab_locked` makes. -/
def newSlab (cfg : HotConfig) (env : HotEnv) (capacity : Option ℕ) (seed : Seed)
    (parked : Option RunIdentity) : RunSlab :=
  (((RunSlab.new ((capacity.filter (· ≠ 0)).getD cfg.capacity) env.now).initSlots seed.slotMap
    parked).initCodes seed.haulierCodes parked).initCounters env seed.startFrameIdx parked

/-- `_create_slab_locked`. -/
def HotStore.createSlab (cfg : HotConfig) (env : HotEnv) (s : HotStore) (runId : String)
    (capacity : Option ℕ) (seed : Seed) : HotStore :=
  { s with
    runs := s.runs.set runId (newSlab cfg env capacity seed (s.carryover.get? runId))
    carryover := s.carryover.erase runId }.evictLru cfg

/-- Replace the slab of a resident run. -/
def HotStore.setSlab (s : HotStore) (runId : String) (slab : RunSlab) : HotStore :=
  { s with runs := s.runs.set runId slab }

/-- `ensure_run`. -/
def HotStore.ensureRun (cfg : HotConfig) (env : HotEnv) (s : HotStore) (runId : String)
    (capacity : Option ℕ) (seed : Seed) : HotStore :=
  match s.runs.get? runId with
  | some slab => s.setSlab runId { slab with lastUpdate := env.now }
  | none => s.createSlab cfg env runId capacity seed

/-- `slot_for`.  `none` is `RunNotResident`. -/
def HotStore.slotFor (cfg : HotConfig) (env : HotEnv) (s : HotStore) (runId agentId : String) :
    HotStore × Option ℕ :=
  let s := s.ensureRun cfg env runId none {}
  match s.runs.get? runId with
  | none => (s, none)
  | some slab =>
    let r := { slab with lastUpdate := env.now }.slotFor agentId
    (s.setSlab runId r.1, some r.2)

/-- A position report. -/
structure Report where
  agentId : String
  lng : Double
  lat : Double
  /-- The state, coded. -/
  state : ℕ
  haulierId : Option String
  simTimeMs : Double
deriving DecidableEq

/-- A slab takes over a report.  The arrays of states and hauliers hold bytes. -/
def RunSlab.update (s : RunSlab) (r : Report) : RunSlab × ℕ :=
  let (s1, slot) := s.slotFor r.agentId
  let (s2, code) := s1.codeForHaulier r.haulierId
  ({ s2 with
     cells := s2.cells.set slot
       { lng := r.lng, lat := r.lat, state := r.state % 256, haulier := code % 256,
         written := true }
     lastSimTimeMs := r.simTimeMs
     updateCount := s2.updateCount + 1 }, slot)

/-- `update_position`. -/
def HotStore.updatePosition (cfg : HotConfig) (env : HotEnv) (s : HotStore) (runId : String)
    (r : Report) : HotStore × Option ℕ :=
  let s := s.ensureRun cfg env runId none {}
  match s.runs.get? runId with
  | none => (s, none)
  | some slab =>
    let u := { slab with lastUpdate := env.now }.update r
    (s.setSlab runId u.1, some u.2)

/-- One row of a frame. -/
structure FrameRow where
  slot : ℕ
  lng : Double
  lat : Double
  state : ℕ
  haulier : ℕ
deriving DecidableEq

/-- A frame. -/
structure Frame where
  frameIdx : ℤ
  simTimeMs : Double
  rows : List FrameRow
deriving DecidableEq

/-- The written slots of a slab, in order. -/
def RunSlab.rows (s : RunSlab) : List FrameRow :=
  (List.range s.nActive).filterMap fun slot ↦
    match s.cells[slot]? with
    | none => none
    | some c =>
      if c.written then
        some { slot := slot, lng := c.lng, lat := c.lat, state := c.state, haulier := c.haulier }
      else none

/-- `snapshot`. -/
def HotStore.snapshot (s : HotStore) (runId : String) : HotStore × Option Frame :=
  match s.runs.get? runId with
  | none => (s, none)
  | some slab =>
    (s.setSlab runId { slab with
       frameCounter := slab.frameCounter + 1
       framesEmitted := slab.framesEmitted + 1 },
     some { frameIdx := slab.frameCounter, simTimeMs := slab.lastSimTimeMs, rows := slab.rows })

/-- What `_non_clashing` makes of one entry. -/
inductive Merge where
  | keep
  | known
  | clash
deriving DecidableEq

def mergeVerdict (current : Dict String ℕ) (key : String) (value : ℕ) : Merge :=
  match current.get? key with
  | some live => if live = value then .known else .clash
  | none =>
    match (Dict.ofList (current.entries.map fun e ↦ (e.2, e.1))).get? value with
    | none => .keep
    | some owner => if owner = key then .keep else .clash

/-- `_non_clashing`: the entries that neither rename a known key nor steal a used value, and the
keys that clash. -/
def nonClashing (current incoming : Dict String ℕ) : Dict String ℕ × List String :=
  (incoming.filter fun k v ↦ mergeVerdict current k v = .keep,
    (incoming.entries.filter fun e ↦ mergeVerdict current e.1 e.2 = .clash).map Prod.fst)

/-- A resident slab merges persisted codes. -/
def RunSlab.mergeCodes (slab : RunSlab) (haulierCodes : Option (Dict String ℕ)) : RunSlab :=
  match given haulierCodes with
  | none => slab
  | some codes => slab.adoptHaulierCodes (nonClashing slab.haulierToCode codes).1

/-- A resident slab merges a persisted slot map. -/
def RunSlab.mergeSlots (slab : RunSlab) (slotMap : Option (Dict String ℕ)) : RunSlab :=
  match given slotMap with
  | none => slab
  | some m =>
    let mergeable := (nonClashing slab.agentToSlot m).1
    if mergeable.entries.isEmpty then slab
    else slab.adoptSlotMap (slab.agentToSlot.update mergeable.entries)

/-- `seed_run_identity`. -/
def HotStore.seedRunIdentity (cfg : HotConfig) (env : HotEnv) (s : HotStore) (runId : String)
    (seed : Seed) : HotStore :=
  match s.runs.get? runId with
  | none => s.createSlab cfg env runId none seed
  | some slab =>
    let merged := (slab.mergeCodes seed.haulierCodes).mergeSlots seed.slotMap
    s.setSlab runId { merged with
      frameCounter := seed.startFrameIdx.elim merged.frameCounter (max merged.frameCounter ·) }

/-- `rollback_frame_idx`. -/
def HotStore.rollbackFrameIdx (s : HotStore) (runId : String) (frameIdx : ℤ) : HotStore × Bool :=
  match s.runs.get? runId with
  | none => (s, false)
  | some slab =>
    if slab.frameCounter ≠ frameIdx + 1 then (s, false)
    else
      (s.setSlab runId { slab with
         frameCounter := frameIdx
         framesEmitted := slab.framesEmitted - 1 }, true)

end OpenRide.Dataplane
