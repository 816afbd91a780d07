import OpenRide.Lib.Dedup
import OpenRide.Lib.Machine
import OpenRide.Lib.Rounding

/-!
# Where the trucks of a run are

`publishTruckLocation` sends where a truck is on the stream of its run, unless the last report of
the truck had the same signature.  The signatures are kept for the whole process, by the identifier
of the truck and not by its run, and trucks of different runs may have the same one.

So what a run shows depends on the reports of other runs, unless a report repeats the last one of
its truck identifier exactly when it repeats the last one of its own truck (`ownRunOnly_iff`).
-/

namespace OpenRide.Haulage.TruckLocations

open Lib

/-! ## Reports and messages -/

/-- The arguments of a call. -/
structure Report where
  runId : String
  simClock : String := ""
  truckAgentId : String
  lon : ℚ
  lat : ℚ
  haulState : Option String := none
  haulierId : Option String := none
  haulierName : Option String := none

/-- A `truck_loc` message. -/
structure Message where
  runId : String
  simClock : String
  truckAgentId : String
  lon : ℚ
  lat : ℚ
  haulState : String
  haulierId : Option String
  haulierName : Option String
deriving DecidableEq

/-- A text that is there and not empty. -/
def truthy (text : Option String) : Option String := text.filter (· ≠ "")

def Report.message (r : Report) : Message where
  runId := r.runId
  simClock := r.simClock
  truckAgentId := r.truckAgentId
  lon := r.lon
  lat := r.lat
  haulState := (truthy r.haulState).getD "idle"
  haulierId := truthy r.haulierId
  haulierName := truthy r.haulierName

section

-- The text of a number that is rounded to five decimals.
variable (text : ℚ → String)

/-- `sig`. -/
def signature (r : Report) : String :=
  text (roundTo 5 r.lon) ++ "," ++ text (roundTo 5 r.lat) ++ "," ++
    (truthy r.haulState).getD "" ++ "," ++ (truthy r.haulierId).getD ""

/-- `publish_truck_location`, with `_TRUCK_LOC_LAST`. -/
def publishTruckLocation (r : Report) (last : Dict String String) :
    Handled (Dict String String) Message :=
  if last.get? r.truckAgentId = some (signature text r) then ⟨last, [], false⟩
  else ⟨last.set r.truckAgentId (signature text r), [r.message], false⟩

/-- The messages of a process in which just these calls happen. -/
def streamOf (calls : List Report) : List Message :=
  (Handled.inOrder (publishTruckLocation text) calls Dict.empty).sent

/-! ## A process -/

/-- The signatures a process keeps, what it has sent, and the calls so far. -/
structure Worker where
  last : Dict String String := Dict.empty
  stream : List Message := []
  calls : List Report := []

/-- Calls one after the other, of any runs. -/
def reporting : Machine Worker Report where
  step w r :=
    let out := publishTruckLocation text r w.last
    some ⟨out.state, w.stream ++ out.sent, w.calls ++ [r]⟩

end

/-- Does a message show what was reported? -/
structure Message.Carries (m : Message) (r : Report) : Prop where
  lon : roundTo 5 m.lon = roundTo 5 r.lon
  lat : roundTo 5 m.lat = roundTo 5 r.lat
  haulState : m.haulState = (truthy r.haulState).getD "idle"
  haulierId : m.haulierId = truthy r.haulierId

/-- What a call should do: the last message for the truck on the stream of its run shows what was
reported, and each run has the messages it would have without the others. -/
structure OwnRunOnly (text : ℚ → String) (r : Report) (w' : Worker) : Prop where
  shown : ∃ m, (w'.stream.filter fun m ↦
      m.runId = r.runId ∧ m.truckAgentId = r.truckAgentId).getLast? = some m ∧ m.Carries r
  alone : ∀ run, w'.stream.filter (·.runId = run) =
    streamOf text (w'.calls.filter (·.runId = run))

/-! ## Reports as offers -/

/-- A report of a truck of a run. -/
def Report.offer (r : Report) : (String × String) × Report := ((r.runId, r.truckAgentId), r)

/-- The message of an offer. -/
def messageOf (o : (String × String) × Report) : Message :=
  { o.2.message with runId := o.1.1, truckAgentId := o.1.2 }

/-- What is shown of a report. -/
def Report.content (r : Report) : ℚ × ℚ × String × Option String :=
  (roundTo 5 r.lon, roundTo 5 r.lat, (truthy r.haulState).getD "idle", truthy r.haulierId)

/-- Does a report have the signature of the last one of some calls for its truck identifier? -/
def RepeatsLast (text : ℚ → String) (calls : List Report) (r : Report) : Prop :=
  Repeats Prod.snd (fun _ ↦ signature text) (calls.map Report.offer) r.offer

/-- A report repeats the last one for its truck identifier just when it repeats the last one of its
run for it, and then says the same. -/
structure Unmixed (text : ℚ → String) (w : Worker) (r : Report) : Prop where
  own : RepeatsLast text w.calls r ↔ RepeatsLast text (w.calls.filter (·.runId = r.runId)) r
  same : RepeatsLast text w.calls r →
    (w.calls.filter fun r' ↦ r'.runId = r.runId ∧
      r'.truckAgentId = r.truckAgentId).getLast?.map Report.content = some r.content

section

variable {text : ℚ → String} {calls : List Report} {r : Report} {w : Worker}

theorem publish_eq (text : ℚ → String) (r : Report) (last : Dict String String) :
    publishTruckLocation text r last =
      ⟨(Lib.offer Prod.snd (fun _ ↦ signature text) r.offer.1 r.offer.2 last).state,
        (Lib.offer Prod.snd (fun _ ↦ signature text) r.offer.1 r.offer.2 last).sent.map messageOf,
        false⟩ := by
  rw [publishTruckLocation, Lib.offer]
  by_cases h : last.get? r.truckAgentId = some (signature text r)
  · simp [Report.offer, h]
  · simp [Report.offer, h, messageOf, Report.message]

theorem inOrder_eq (text : ℚ → String) (calls : List Report) (last : Dict String String) :
    Handled.inOrder (publishTruckLocation text) calls last =
      ⟨(offerAll Prod.snd (fun _ ↦ signature text) (calls.map Report.offer) last).state,
        (offerAll Prod.snd (fun _ ↦ signature text) (calls.map Report.offer) last).sent.map
          messageOf, false⟩ := by
  induction calls generalizing last with
  | nil => rfl
  | cons r calls ih =>
    rw [Handled.inOrder, publish_eq, Handled.andThen_of_not_raised rfl, ih, List.map_cons,
      offerAll_cons, List.map_append]

theorem offersBy_offer (run : String) (calls : List Report) :
    offersBy Prod.fst run (calls.map Report.offer) =
      (calls.filter (·.runId = run)).map Report.offer := by
  rw [offersBy, List.filter_map]
  rfl

theorem filter_run (run : String) (sent : List ((String × String) × Report)) :
    (sent.map messageOf).filter (·.runId = run) = (offersBy Prod.fst run sent).map messageOf := by
  rw [offersBy, List.filter_map]
  rfl

theorem filter_truck (run truck : String) (sent : List ((String × String) × Report)) :
    ((sent.map messageOf).filter fun m ↦ m.runId = run ∧ m.truckAgentId = truck).getLast? =
      (lastOf (fun o ↦ o.1 = (run, truck)) sent).map messageOf := by
  rw [lastOf, List.filter_map, List.getLast?_map]
  simp only [Prod.ext_iff]
  rfl

theorem lastOf_offer (run truck : String) (calls : List Report) :
    (lastOf (fun o ↦ o.1 = (run, truck)) (calls.map Report.offer)).map (fun o ↦ o.2.content) =
      (calls.filter fun r ↦ r.runId = run ∧ r.truckAgentId = truck).getLast?.map
        Report.content := by
  rw [lastOf, List.filter_map, List.getLast?_map, Option.map_map]
  simp only [Prod.ext_iff]
  rfl

theorem carries_iff {o : (String × String) × Report} :
    (messageOf o).Carries r ↔ o.2.content = r.content := by
  simp only [Report.content, Prod.mk.injEq]
  exact ⟨fun h ↦ ⟨h.lon, h.lat, h.haulState, h.haulierId⟩, fun h ↦ ⟨h.1, h.2.1, h.2.2.1, h.2.2.2⟩⟩

theorem exists_map_carries (o : Option ((String × String) × Report)) (r : Report) :
    (∃ m, o.map messageOf = some m ∧ m.Carries r) ↔
      o.map (fun o ↦ o.2.content) = some r.content := by
  cases o with
  | none => simp
  | some o => simp [carries_iff]

/-- What a worker has sent and keeps comes from its calls; each run is as it would be alone, and
every truck is up to date. -/
structure Kept (text : ℚ → String) (w : Worker) : Prop where
  last : w.last =
    (offerAll Prod.snd (fun _ ↦ signature text) (w.calls.map Report.offer) Dict.empty).state
  stream : w.stream = (offerAll Prod.snd (fun _ ↦ signature text) (w.calls.map Report.offer)
    Dict.empty).sent.map messageOf
  separate : Separate Prod.snd (fun _ ↦ signature text) Prod.fst messageOf
    (w.calls.map Report.offer)
  upToDate : UpToDate Prod.snd (fun _ ↦ signature text) Report.content (w.calls.map Report.offer)

theorem alone_iff (stream : List Message) (hstream : stream = (offerAll Prod.snd
    (fun _ ↦ signature text) (calls.map Report.offer) Dict.empty).sent.map messageOf) :
    (∀ run, stream.filter (·.runId = run) = streamOf text (calls.filter (·.runId = run))) ↔
      Separate Prod.snd (fun _ ↦ signature text) Prod.fst messageOf (calls.map Report.offer) := by
  refine forall_congr' fun run ↦ ?_
  rw [hstream, filter_run, streamOf, inOrder_eq, offersBy_offer]

/-- What a worker has sent after one more call. -/
theorem Kept.step (h : Kept text w) (r : Report) :
    (publishTruckLocation text r w.last).state = (offerAll Prod.snd (fun _ ↦ signature text)
        ((w.calls ++ [r]).map Report.offer) Dict.empty).state ∧
      w.stream ++ (publishTruckLocation text r w.last).sent = (offerAll Prod.snd
        (fun _ ↦ signature text) ((w.calls ++ [r]).map Report.offer) Dict.empty).sent.map
          messageOf := by
  rw [publish_eq, List.map_append, List.map_singleton, offerAll_append, offerAll_singleton,
    ← h.last, h.stream, ← List.map_append]
  exact ⟨rfl, rfl⟩

/-- **Runs have streams of their own** just when reports of different runs are not mixed up. -/
theorem ownRunOnly_iff (text : ℚ → String) (calls : List Report) :
    (reporting text).Along (fun _ r w' ↦ OwnRunOnly text r w') {} calls ↔
      (reporting text).Along (fun w r _ ↦ Unmixed text w r) {} calls := by
  refine Machine.along_congr (I := Kept text) ?_ ⟨rfl, rfl, fun _ ↦ rfl, fun _ ↦ rfl⟩ calls
  intro w r w' hw hstep
  obtain rfl := Option.some.inj hstep
  obtain ⟨hlast, hstream⟩ := hw.step r
  have hcalls : (w.calls ++ [r]).map Report.offer = w.calls.map Report.offer ++ [r.offer] := by
    simp
  have hshown : (∃ m, ((w.stream ++ (publishTruckLocation text r w.last).sent).filter fun m ↦
      m.runId = r.runId ∧ m.truckAgentId = r.truckAgentId).getLast? = some m ∧ m.Carries r) ↔
      (RepeatsLast text w.calls r → (w.calls.filter fun r' ↦ r'.runId = r.runId ∧
        r'.truckAgentId = r.truckAgentId).getLast?.map Report.content = some r.content) := by
    rw [hstream, hcalls, filter_truck, ← lastOf_offer]
    exact (exists_map_carries _ r).trans (upToDate_concat_iff (o := r.offer) hw.upToDate)
  have halone : (∀ run, (w.stream ++ (publishTruckLocation text r w.last).sent).filter
      (·.runId = run) = streamOf text ((w.calls ++ [r]).filter (·.runId = run))) ↔
      (RepeatsLast text w.calls r ↔ RepeatsLast text (w.calls.filter (·.runId = r.runId)) r) := by
    rw [alone_iff _ hstream, hcalls, separate_concat_iff hw.separate, offersBy_offer]
    rfl
  refine ⟨⟨fun h ↦ ⟨halone.mp h.alone, hshown.mp h.shown⟩,
    fun h ↦ ⟨hshown.mpr h.same, halone.mpr h.own⟩⟩, fun h ↦ ⟨hlast, hstream, ?_, ?_⟩⟩
  · exact (alone_iff _ hstream).mp (halone.mpr h.own)
  · have hup := hshown.mpr h.same
    rw [hstream, hcalls, filter_truck, exists_map_carries] at hup
    rw [hcalls]
    exact hw.upToDate.concat (o := r.offer) hup

end

/-- The text of a whole number of degrees. -/
def degreesText (q : ℚ) : String := toString q.num ++ ".0"

/-- A truck of two runs that starts where it did before. -/
theorem second_run_not_shown :
    ¬(reporting degreesText).Along (fun _ r w' ↦ OwnRunOnly degreesText r w')
      {} [{ runId := "r1", truckAgentId := "truck_1", lon := 103, lat := 1 },
        { runId := "r2", truckAgentId := "truck_1", lon := 103, lat := 1 }] := by
  intro h
  obtain ⟨m, hm, _⟩ := ((h _ rfl).2 _ rfl).1.shown
  simp [publishTruckLocation, signature, Report.message, truthy] at hm

end OpenRide.Haulage.TruckLocations
