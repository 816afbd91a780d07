import Mathlib.Data.List.Count
import Mathlib.Data.List.Dedup
import Mathlib.Data.List.Flatten
import Mathlib.Data.Rat.Lemmas
import OpenRide.Lib.Dedup
import OpenRide.Lib.Machine

/-!
# The live routes of haul trips

`publishFromHaulTrips` looks at the haul trips that are active and sends the route of every leg they
show, unless it has sent that before, and the end of every trip that is active no more.  What it has
sent it remembers by a signature: the leg, the state, how many points the route has and how its
encoding begins.

Each trip of a call has the geometries that are found for its legs.  A reader of the stream shows of
every leg the last route since its trip last ended, and it shows the right one just when no two
different routes of a leg have been taken for the same by their signature (`faithful_iff`).
-/

namespace OpenRide.Haulage.TripGeo

open Lib

/-! ## Haul trips and their legs -/

/-- Longitude and latitude. -/
abbrev Point := ℚ × ℚ

inductive Leg where
  | repositioningToPickup
  | loadedToDropoff
deriving DecidableEq

def Leg.name : Leg → String
  | .repositioningToPickup => "repositioning_to_pickup"
  | .loadedToDropoff => "loaded_to_dropoff"

/-- A planned route: `geometry` if it is a string, `coordinates` if they are a list of points. -/
structure PlannedRoute where
  geometry : Option String := none
  coordinates : Option (List Point) := none
  geometrySource : Option String := none

/-- A haul trip, the part that is read.  The places are what `_geo_point` makes of them, and the
identifier is what `_oid_str` does. -/
structure Trip where
  id : String
  state : Option String
  currentLoc : Option Point := none
  pickupLoc : Option Point := none
  dropoffLoc : Option Point := none
  planned : Leg → Option PlannedRoute := fun _ ↦ none

/-- `trip.get("state") or "unknown"`. -/
def Trip.uiState (t : Trip) : String := (t.state.filter (· ≠ "")).getD "unknown"

def HAUL_ROUTE_GEOMETRY_STATES : List String := ["repositioning_to_pickup", "loaded_in_transit"]

def PREVIEW_GEOMETRY_STATES : List String :=
  ["assigned", "queued_for_pickup", "at_pickup_gate", "queued_for_dropoff", "at_dropoff_gate",
    "completed"]

/-- `_STATE_TO_LEG`. -/
def stateToLeg (state : String) : List Leg :=
  if state = "repositioning_to_pickup" then [.repositioningToPickup]
  else if state = "loaded_in_transit" then [.loadedToDropoff]
  else []

/-- `_endpoints_for_leg`. -/
def Trip.endpoints (t : Trip) : Leg → Option Point × Option Point
  | .repositioningToPickup => (t.currentLoc, t.pickupLoc)
  | .loadedToDropoff => (t.pickupLoc, t.dropoffLoc)

/-- Are both ends of a leg known? -/
def Trip.hasEndpoints (t : Trip) (leg : Leg) : Bool :=
  (t.endpoints leg).1.isSome && (t.endpoints leg).2.isSome

/-- `_legs_for_trip`. -/
def Trip.legs (t : Trip) : List Leg :=
  match t.state with
  | none => []
  | some state =>
    if state ∈ HAUL_ROUTE_GEOMETRY_STATES then
      stateToLeg state ++
        if state = "repositioning_to_pickup" ∧ t.hasEndpoints .loadedToDropoff then
          [.loadedToDropoff]
        else []
    else if state ∈ PREVIEW_GEOMETRY_STATES then
      [Leg.repositioningToPickup, .loadedToDropoff].filter t.hasEndpoints
    else []

/-! ## The publisher -/

/-- What a route message shows. -/
structure Route where
  geometry : String
  state : String
deriving DecidableEq

inductive Message where
  | tripRoute (haulTripId : String) (leg : Leg) (route : Route)
  | tripEnd (haulTripId : String)
deriving DecidableEq

structure Publisher where
  lastEmit : Dict String String := Dict.empty
  lastActiveHaulTrips : List String := []

/-- A trip with the geometry that a call finds for each leg. -/
structure Resolved extends Trip where
  geometry : Leg → Option String

/-- What a call is given. -/
structure Call where
  haulTrips : List Resolved

/-- The publisher with another table of what it sent, and the route messages of what is sent. -/
def Publisher.emitting (p : Publisher)
    (o : Handled (Dict String String) ((String × Leg) × Route)) : Handled Publisher Message :=
  ⟨{ p with lastEmit := o.state }, o.sent.map fun m ↦ .tripRoute m.1.1 m.1.2 m.2, o.raised⟩

def MIN_DECODED_POINTS : ℕ := 3

/-- `stream_key`. -/
def streamKey (x : String × Leg) : String := x.1 ++ ":" ++ x.2.name

section

-- How many points `polyline.decode` finds in an encoding, `none` when it raises.
variable (decoded : String → Option ℕ)

/-- `_geometry_signature`. -/
def geometrySignature (encoded : String) : String :=
  match decoded encoded with
  | none => String.ofList (encoded.toList.take 64)
  | some n => toString n ++ ":" ++ String.ofList (encoded.toList.take 32)

/-- `sig`. -/
def signature (x : String × Leg) (r : Route) : String :=
  x.2.name ++ ":" ++ r.state ++ ":" ++ geometrySignature decoded r.geometry

/-- A route that is worth sending: a geometry of at least three points. -/
def routeAlong (t : Trip) (geometry : Option String) : Option Route :=
  match geometry.filter (· ≠ "") with
  | none => none
  | some geometry =>
    match decoded geometry with
    | none => none
    | some n => if n < MIN_DECODED_POINTS then none else some ⟨geometry, t.uiState⟩

/-- `_emit_trip_route_for_leg`, when the geometry is found. -/
def emitTripRouteForLeg (t : Trip) (leg : Leg) (geometry : Option String) (p : Publisher) :
    Handled Publisher Message :=
  match routeAlong decoded t geometry with
  | none => ⟨p, [], false⟩
  | some r => p.emitting (offer streamKey (signature decoded) (t.id, leg) r p.lastEmit)

/-- `_maybe_emit_trip_routes`. -/
def maybeEmitTripRoutes (t : Resolved) (p : Publisher) : Handled Publisher Message :=
  Handled.inOrder (fun leg ↦ emitTripRouteForLeg decoded t.toTrip leg (t.geometry leg)) t.legs p

/-- The route of a leg. -/
def routeOf (t : Resolved) (leg : Leg) : Option Route :=
  routeAlong decoded t.toTrip (t.geometry leg)

/-- Does a key belong to a trip that ended? -/
def belongsTo (id key : String) : Bool :=
  key = id || (id ++ ":").toList.isPrefixOf key.toList

/-- One trip that ended. -/
def emitTripEnd (id : String) (p : Publisher) : Handled Publisher Message :=
  ⟨{ p with lastEmit := p.lastEmit.filter fun key _ ↦ !belongsTo id key }, [.tripEnd id], false⟩

/-- `_emit_trip_ends_for_removed`. -/
def emitTripEndsForRemoved (active : List String) (p : Publisher) : Handled Publisher Message :=
  Handled.inOrder emitTripEnd (p.lastActiveHaulTrips.filter (· ∉ active)) p

/-- The trips of a call that have an identifier. -/
def Call.trips (c : Call) : List Resolved := c.haulTrips.filter (·.id ≠ "")

/-- The active trips of a call, a set. -/
def Call.active (c : Call) : List String := (c.trips.map (·.id)).dedup

/-- `publish_from_haul_trips`. -/
def publishFromHaulTrips (c : Call) (p : Publisher) : Handled Publisher Message :=
  ((Handled.inOrder (maybeEmitTripRoutes decoded) c.trips p).andThen
    (emitTripEndsForRemoved c.active)).map fun p ↦ { p with lastActiveHaulTrips := c.active }

end

/-! ## What a reader shows -/

/-- What a reader shows after a message. -/
def Message.show (view : String × Leg → Option Route) : Message → String × Leg → Option Route
  | .tripRoute id leg r => Function.update view (id, leg) (some r)
  | .tripEnd id => fun x ↦ if x.1 = id then none else view x

/-- The publisher, what a reader of all its messages shows, and the trips of the last call. -/
structure Streamed where
  publisher : Publisher := {}
  shown : String × Leg → Option Route := fun _ ↦ none
  active : List String := []

section

variable (decoded : String → Option ℕ)

/-- Calls one after the other. -/
def streaming : Machine Streamed Call where
  step s c :=
    let out := publishFromHaulTrips decoded c s.publisher
    some ⟨out.state, out.sent.foldl Message.show s.shown, c.active⟩

/-- What a call should do: every leg with a route is shown with it, one that was shown so before
sends nothing, and the trips that are active no more, and no others, end once and have no further
route in the call. -/
structure Faithful (s : Streamed) (c : Call) (s' : Streamed) : Prop where
  shows : ∀ t ∈ c.trips, ∀ leg ∈ t.legs, ∀ r, routeOf decoded t leg = some r →
    s'.shown (t.id, leg) = some r
  silent : ∀ t ∈ c.trips, ∀ leg ∈ t.legs, ∀ r, routeOf decoded t leg = some r →
    s.shown (t.id, leg) = some r →
      ∀ r', .tripRoute t.id leg r' ∉ (publishFromHaulTrips decoded c s.publisher).sent
  ends : ∀ id, (publishFromHaulTrips decoded c s.publisher).sent.count (.tripEnd id) =
    if id ∈ s.active ∧ id ∉ c.active then 1 else 0
  noRoute : ∀ id, id ∉ c.active → ∀ leg r,
    .tripRoute id leg r ∉ (publishFromHaulTrips decoded c s.publisher).sent

/-- No leg has a route with the signature of the one it is shown with, but another one. -/
def Distinguished (s : Streamed) (c : Call) : Prop :=
  ∀ t ∈ c.trips, ∀ leg ∈ t.legs, ∀ r r₀, routeOf decoded t leg = some r →
    s.shown (t.id, leg) = some r₀ →
      signature decoded (t.id, leg) r₀ = signature decoded (t.id, leg) r → r₀ = r

end

/-- Identifiers of which none begins with another one and a colon. -/
def Apart (ids : List String) : Prop :=
  ∀ a ∈ ids, ∀ b ∈ ids, a ≠ b → ¬(a ++ ":").toList <+: b.toList

/-- The trips of a call are different, and among those with some identifiers. -/
structure Call.Among (c : Call) (ids : List String) : Prop where
  mem : ∀ t ∈ c.trips, t.id ∈ ids
  nodup : (c.trips.map (·.id)).Nodup

/-! ## Keys -/

section Keys

variable {ids : List String} {a b : String} {l l' : Leg}

theorem toList_streamKey : (streamKey (a, l)).toList = a.toList ++ ':' :: l.name.toList := by
  simp [streamKey]

theorem name_injective (h : l.name.toList = l'.name.toList) : l = l' := by
  cases l <;> cases l' <;> simp_all [Leg.name]

theorem not_prefix (h : Apart ids) (ha : a ∈ ids) (hb : b ∈ ids) {rest : List Char}
    (heq : b.toList = a.toList ++ ':' :: rest) : False := by
  have hne : a ≠ b := by
    rintro rfl
    have hlength := congrArg List.length heq
    simp at hlength
  refine h a ha b hb hne ⟨rest, ?_⟩
  rw [heq]
  simp

/-- **Every leg has a key of its own.** -/
theorem streamKey_injective (h : Apart ids) (ha : a ∈ ids) (hb : b ∈ ids)
    (heq : streamKey (a, l) = streamKey (b, l')) : (a, l) = (b, l') := by
  have hlists := congrArg String.toList heq
  rw [toList_streamKey, toList_streamKey] at hlists
  rcases List.append_eq_append_iff.mp hlists with ⟨rest, hab, hrest⟩ | ⟨rest, hab, hrest⟩
  · cases rest with
    | nil =>
      rw [List.append_nil] at hab
      rw [List.nil_append, List.cons.injEq] at hrest
      rw [String.toList_inj.mp hab, name_injective hrest.2]
    | cons c rest =>
      rw [List.cons_append, List.cons.injEq] at hrest
      rw [← hrest.1] at hab
      exact absurd hab fun hab ↦ not_prefix h ha hb hab
  · cases rest with
    | nil =>
      rw [List.append_nil] at hab
      rw [List.nil_append, List.cons.injEq] at hrest
      rw [String.toList_inj.mp hab, name_injective hrest.2]
    | cons c rest =>
      rw [List.cons_append, List.cons.injEq] at hrest
      rw [← hrest.1] at hab
      exact absurd hab fun hab ↦ not_prefix h hb ha hab

/-- **The keys that go when a trip ends are those of its legs.** -/
theorem belongsTo_streamKey (h : Apart ids) (ha : a ∈ ids) (hb : b ∈ ids) :
    belongsTo a (streamKey (b, l)) = true ↔ b = a := by
  rw [belongsTo, Bool.or_eq_true, decide_eq_true_eq, List.isPrefixOf_iff_prefix]
  constructor
  · rintro (heq | hprefix)
    · have hlists := congrArg String.toList heq
      rw [toList_streamKey] at hlists
      exact absurd hlists.symm fun hlists ↦ not_prefix h hb ha hlists
    · obtain ⟨rest, hrest⟩ := hprefix
      rw [toList_streamKey] at hrest
      have hrest : a.toList ++ ':' :: rest = b.toList ++ ':' :: l.name.toList := by
        simpa using hrest
      rcases List.append_eq_append_iff.mp hrest with ⟨mid, hab, hmid⟩ | ⟨mid, hab, hmid⟩
      · cases mid with
        | nil => exact String.toList_inj.mp (by simpa using hab)
        | cons c mid =>
          rw [List.cons_append, List.cons.injEq] at hmid
          rw [← hmid.1] at hab
          exact absurd hab fun hab ↦ not_prefix h ha hb hab
      · cases mid with
        | nil => exact String.toList_inj.mp (by simpa using hab.symm)
        | cons c mid =>
          rw [List.cons_append, List.cons.injEq] at hmid
          rw [← hmid.1] at hab
          exact absurd hab fun hab ↦ not_prefix h hb ha hab
  · rintro rfl
    refine Or.inr ⟨l.name.toList, ?_⟩
    rw [toList_streamKey]
    simp

end Keys

/-! ## One call -/

section Calls

variable {decoded : String → Option ℕ} {c : Call} {ids : List String} {t : Resolved} {p : Publisher}
  {s : Streamed} {x : String × Leg} {r : Route}

variable (decoded) in
/-- The routes a trip offers, leg by leg. -/
def offersOf (t : Resolved) : List ((String × Leg) × Route) :=
  t.legs.flatMap fun leg ↦ ((routeOf decoded t leg).map fun r ↦ ((t.id, leg), r)).toList

variable (decoded) in
/-- The routes of a call. -/
def offers (c : Call) : List ((String × Leg) × Route) := c.trips.flatMap (offersOf decoded)

variable (decoded) in
/-- Which of them are sent. -/
def routesOf (c : Call) (p : Publisher) : Handled (Dict String String) ((String × Leg) × Route) :=
  offerAll streamKey (signature decoded) (offers decoded c) p.lastEmit

/-- The trips that ended. -/
def ended (c : Call) (p : Publisher) : List String :=
  p.lastActiveHaulTrips.filter (· ∉ c.active)

/-- A loop of handlers each of which makes some offers makes them all. -/
theorem inOrder_emitting {β : Type} {f : β → Publisher → Handled Publisher Message}
    {g : β → List ((String × Leg) × Route)}
    (hf : ∀ b p, f b p = p.emitting (offerAll streamKey (signature decoded) (g b) p.lastEmit))
    (l : List β) (p : Publisher) : Handled.inOrder f l p =
      p.emitting (offerAll streamKey (signature decoded) (l.flatMap g) p.lastEmit) := by
  induction l generalizing p with
  | nil => rfl
  | cons b l ih =>
    have hraised : (f b p).raised = false := by
      rw [hf]
      exact offerAll_raised _
    rw [Handled.inOrder, Handled.andThen_of_not_raised hraised, ih, hf, List.flatMap_cons,
      offerAll_append]
    simp [Publisher.emitting]

theorem emitTripRouteForLeg_eq (t : Resolved) (leg : Leg) (p : Publisher) :
    emitTripRouteForLeg decoded t.toTrip leg (t.geometry leg) p =
    p.emitting (offerAll streamKey (signature decoded)
      ((routeOf decoded t leg).map fun r ↦ ((t.id, leg), r)).toList p.lastEmit) := by
  rw [emitTripRouteForLeg, routeOf]
  cases routeAlong decoded t.toTrip (t.geometry leg) with
  | none => rfl
  | some r => rw [Option.map_some, Option.toList_some, offerAll_singleton]

variable (decoded) in
theorem emitTripRouteForLeg_raised (t : Trip) (leg : Leg) (geometry : Option String)
    (p : Publisher) : (emitTripRouteForLeg decoded t leg geometry p).raised = false := by
  rw [emitTripRouteForLeg]
  split
  · rfl
  · exact offer_raised

theorem maybeEmitTripRoutes_eq (t : Resolved) (p : Publisher) : maybeEmitTripRoutes decoded t p =
    p.emitting (offerAll streamKey (signature decoded) (offersOf decoded t) p.lastEmit) :=
  inOrder_emitting (emitTripRouteForLeg_eq t) t.legs p

theorem routes_eq : Handled.inOrder (maybeEmitTripRoutes decoded) c.trips p =
    p.emitting (routesOf decoded c p) :=
  inOrder_emitting maybeEmitTripRoutes_eq c.trips p

theorem legs_nodup (t : Trip) : t.legs.Nodup := by
  rw [Trip.legs]
  split
  · exact List.nodup_nil
  · split
    · rw [stateToLeg]
      split
      · split <;> simp
      · split <;> split <;> simp_all
    · split
      · exact List.Nodup.filter _ (by decide)
      · exact List.nodup_nil

theorem mem_offersOf : (x, r) ∈ offersOf decoded t ↔
    x.1 = t.id ∧ x.2 ∈ t.legs ∧ routeOf decoded t x.2 = some r := by
  simp only [offersOf, List.mem_flatMap, Option.mem_toList, Option.map_eq_some_iff, Prod.mk.injEq]
  constructor
  · rintro ⟨leg, hleg, r', hr, rfl, rfl⟩
    exact ⟨rfl, hleg, hr⟩
  · rintro ⟨hid, hleg, hr⟩
    exact ⟨x.2, hleg, r, hr, by rw [← hid], rfl⟩

variable {leg : Leg}

theorem mem_offers {t : Resolved} (hn : (c.trips.map (·.id)).Nodup) (ht : t ∈ c.trips) :
    ((t.id, leg), r) ∈ offers decoded c ↔ leg ∈ t.legs ∧ routeOf decoded t leg = some r := by
  rw [offers, List.mem_flatMap]
  constructor
  · rintro ⟨t', ht', hx⟩
    obtain ⟨hid, hrest⟩ := mem_offersOf.mp hx
    rwa [List.inj_on_of_nodup_map hn ht ht' hid]
  · exact fun h ↦ ⟨t, ht, mem_offersOf.mpr ⟨rfl, h⟩⟩

theorem exists_of_mem_offers (h : (x, r) ∈ offers decoded c) : ∃ t ∈ c.trips, x.1 = t.id := by
  obtain ⟨t, ht, hx⟩ := List.mem_flatMap.mp h
  exact ⟨t, ht, (mem_offersOf.mp hx).1⟩

/-- Every leg is offered once. -/
theorem offers_nodup (hn : (c.trips.map (·.id)).Nodup) :
    ((offers decoded c).map Prod.fst).Nodup := by
  have hsub : ((offers decoded c).map Prod.fst).Sublist
      (c.trips.flatMap fun t ↦ t.legs.map fun leg ↦ (t.id, leg)) := by
    rw [offers, List.map_flatMap]
    refine List.Sublist.flatMap_right _ fun t _ ↦ ?_
    rw [offersOf, List.map_flatMap, List.map_eq_flatMap]
    refine List.Sublist.flatMap_right _ fun leg _ ↦ ?_
    cases routeOf decoded t leg <;> simp
  refine hsub.nodup (List.nodup_flatMap.mpr ⟨?_, ?_⟩)
  · exact fun t _ ↦ (legs_nodup t.toTrip).map fun a b hab ↦ (Prod.mk.inj hab).2
  · refine (List.pairwise_map.mp hn).imp fun hne ↦ List.disjoint_left.mpr fun x hx hx' ↦ hne ?_
    obtain ⟨leg, _, rfl⟩ := List.mem_map.mp hx
    obtain ⟨leg', _, heq⟩ := List.mem_map.mp hx'
    exact (Prod.mk.inj heq).1.symm

/-! ## The end of a trip -/

variable {id : String}

theorem mem_ended : id ∈ ended c p ↔ id ∈ p.lastActiveHaulTrips ∧ id ∉ c.active := by
  simp [ended]

theorem mem_active : id ∈ c.active ↔ ∃ t ∈ c.trips, t.id = id := by
  simp [Call.active]

theorem tripEnds_raised (l : List String) (p : Publisher) :
    (Handled.inOrder emitTripEnd l p).raised = false := by
  induction l generalizing p with
  | nil => rfl
  | cons id l ih => exact ih _

theorem tripEnds_sent (l : List String) (p : Publisher) :
    (Handled.inOrder emitTripEnd l p).sent = l.map .tripEnd := by
  induction l generalizing p with
  | nil => rfl
  | cons id l ih => exact congrArg (.tripEnd id :: ·) (ih _)

/-- What is remembered of the trips that ended is dropped. -/
theorem tripEnds_get? (l : List String) (p : Publisher) (key v : String) :
    (Handled.inOrder emitTripEnd l p).state.lastEmit.get? key = some v ↔
      p.lastEmit.get? key = some v ∧ ∀ id ∈ l, belongsTo id key = false := by
  induction l generalizing p with
  | nil => simp [Handled.inOrder]
  | cons id l ih =>
    refine (ih _).trans ?_
    rw [emitTripEnd, Dict.get?_filter]
    simp [and_assoc]

/-- What a reader shows after the messages of a call. -/
theorem shown_routes (l : List ((String × Leg) × Route)) (view : String × Leg → Option Route) :
    (l.map fun m ↦ Message.tripRoute m.1.1 m.1.2 m.2).foldl Message.show view =
      l.foldl showing view := by
  rw [List.foldl_map]
  rfl

theorem shown_ends (l : List String) (view : String × Leg → Option Route) :
    (l.map .tripEnd).foldl Message.show view x = if x.1 ∈ l then none else view x := by
  induction l generalizing view with
  | nil => rfl
  | cons id l ih =>
    rw [List.map_cons, List.foldl_cons, ih, Message.show]
    by_cases hl : x.1 ∈ l <;> by_cases hid : x.1 = id <;> simp [hl, hid]

/-! ## A call as a whole -/

variable (decoded) in
theorem publish_eq (c : Call) (p : Publisher) : publishFromHaulTrips decoded c p =
    ⟨⟨(emitTripEndsForRemoved c.active (p.emitting (routesOf decoded c p)).state).state.lastEmit,
        c.active⟩,
      ((routesOf decoded c p).sent.map fun m ↦ .tripRoute m.1.1 m.1.2 m.2) ++
        (ended c p).map .tripEnd, false⟩ := by
  have hraised : (p.emitting (routesOf decoded c p)).raised = false := offerAll_raised _
  have hends : (emitTripEndsForRemoved c.active (p.emitting (routesOf decoded c p)).state).sent =
      (ended c p).map .tripEnd := tripEnds_sent _ _
  have hended : (emitTripEndsForRemoved c.active
      (p.emitting (routesOf decoded c p)).state).raised = false := tripEnds_raised _ _
  rw [publishFromHaulTrips, routes_eq, Handled.andThen_of_not_raised hraised, Handled.map, hends,
    hended]
  rfl

variable (decoded) in
theorem publish_get? (c : Call) (p : Publisher) (key v : String) :
    (publishFromHaulTrips decoded c p).state.lastEmit.get? key = some v ↔
      (routesOf decoded c p).state.get? key = some v ∧
        ∀ id ∈ ended c p, belongsTo id key = false := by
  rw [publish_eq]
  exact tripEnds_get? _ _ key v

variable (decoded) in
/-- **What a reader shows after a call.** -/
theorem publish_shown (c : Call) (p : Publisher) (view : String × Leg → Option Route)
    (x : String × Leg) :
    (publishFromHaulTrips decoded c p).sent.foldl Message.show view x =
      if x.1 ∈ ended c p then none else (routesOf decoded c p).sent.foldl showing view x := by
  rw [publish_eq, List.foldl_append, shown_ends, shown_routes]

/-- What a reader shows of the trips that are known is what the publisher remembers, and both know
which trips were active. -/
structure Kept (decoded : String → Option ℕ) (ids : List String) (s : Streamed) : Prop where
  recorded : Recorded streamKey (signature decoded) (·.1 ∈ ids) s.publisher.lastEmit s.shown
  active : s.publisher.lastActiveHaulTrips = s.active
  nodup : s.active.Nodup
  known : ∀ id ∈ s.active, id ∈ ids

theorem kept_init : Kept decoded ids {} :=
  ⟨fun _ _ ↦ rfl, rfl, List.nodup_nil, nofun⟩

theorem Call.Among.active_mem (hc : c.Among ids) (h : id ∈ c.active) : id ∈ ids := by
  obtain ⟨t, ht, rfl⟩ := mem_active.mp h
  exact hc.mem t ht

/-- The keys of the trips of a call are their own. -/
theorem Call.Among.key_eq (hids : Apart ids) (hc : c.Among ids)
    {o : (String × Leg) × Route} (ho : o ∈ offers decoded c) (y : String × Leg) (hy : y.1 ∈ ids)
    (heq : streamKey y = streamKey o.1) : y = o.1 := by
  obtain ⟨t, ht, hid⟩ := exists_of_mem_offers ho
  exact streamKey_injective hids hy (hid ▸ hc.mem t ht) heq

/-- **A call keeps it so.** -/
theorem Kept.publish (h : Kept decoded ids s) (hids : Apart ids) (hc : c.Among ids) :
    Kept decoded ids ⟨(publishFromHaulTrips decoded c s.publisher).state,
      (publishFromHaulTrips decoded c s.publisher).sent.foldl Message.show s.shown, c.active⟩ where
  recorded x hx := by
    have hroutes : Recorded streamKey (signature decoded) (·.1 ∈ ids)
        (routesOf decoded c s.publisher).state
        ((routesOf decoded c s.publisher).sent.foldl showing s.shown) :=
      h.recorded.offerAll fun o ho ↦ hc.key_eq hids ho
    refine Option.ext fun v ↦ ?_
    have hbelongs : (∀ id ∈ ended c s.publisher, belongsTo id (streamKey x) = false) ↔
        x.1 ∉ ended c s.publisher := by
      constructor
      · intro hall hmem
        exact Bool.false_ne_true
          ((hall x.1 hmem).symm.trans ((belongsTo_streamKey hids hx hx).mpr rfl))
      · intro hmem id hid
        refine Bool.eq_false_iff.mpr fun hb ↦ hmem ?_
        have hknown := h.known id (h.active ▸ (mem_ended.mp hid).1)
        rwa [(belongsTo_streamKey hids hknown hx).mp hb]
    dsimp only
    rw [publish_get?, publish_shown, hbelongs, hroutes x hx]
    by_cases hended : x.1 ∈ ended c s.publisher <;> simp [hended]
  active := rfl
  nodup := List.nodup_dedup _
  known _ hid := hc.active_mem hid

/-! ## What a call does -/

/-- The routes that are sent are among those of the call. -/
theorem mem_sent_iff :
    .tripRoute id leg r ∈ (publishFromHaulTrips decoded c p).sent ↔
      ((id, leg), r) ∈ (routesOf decoded c p).sent := by
  rw [publish_eq, List.mem_append]
  simp

/-- A leg is shown with its route unless it was shown with another one of the same signature. -/
theorem Kept.shows_iff (h : Kept decoded ids s) (hids : Apart ids) (hc : c.Among ids) {t : Resolved}
    (ht : t ∈ c.trips) (hleg : leg ∈ t.legs) (hr : routeOf decoded t leg = some r) :
    (publishFromHaulTrips decoded c s.publisher).sent.foldl Message.show s.shown (t.id, leg) =
        some r ↔
      ∀ r₀, s.shown (t.id, leg) = some r₀ →
        signature decoded (t.id, leg) r₀ = signature decoded (t.id, leg) r → r₀ = r := by
  have hended : t.id ∉ ended c s.publisher := fun hid ↦
    (mem_ended.mp hid).2 (mem_active.mpr ⟨t, ht, rfl⟩)
  have hkeys : ∀ o ∈ offers decoded c, ∀ o' ∈ offers decoded c,
      streamKey o.1 = streamKey o'.1 → o.1 = o'.1 := by
    intro o ho o' ho' heq
    obtain ⟨t', ht', hid⟩ := exists_of_mem_offers ho
    exact hc.key_eq hids ho' o.1 (hid ▸ hc.mem t' ht') heq
  rw [publish_shown, if_neg hended, routesOf, shows_offerAll_iff (offers_nodup hc.nodup) hkeys
    ((mem_offers hc.nodup ht).mpr ⟨hleg, hr⟩), h.recorded _ (hc.mem t ht)]
  cases s.shown (t.id, leg) <;> simp

/-- A leg that is shown with its route sends nothing. -/
theorem Kept.silent (h : Kept decoded ids s) (hids : Apart ids) (hc : c.Among ids) {t : Resolved}
    (ht : t ∈ c.trips) (hleg : leg ∈ t.legs) (hr : routeOf decoded t leg = some r)
    (hshown : s.shown (t.id, leg) = some r) (r' : Route) :
    .tripRoute t.id leg r' ∉ (publishFromHaulTrips decoded c s.publisher).sent := by
  intro hsent
  exact not_sent_of_shown h.recorded (offers_nodup hc.nodup) (fun o ho ↦ hc.key_eq hids ho)
    (hc.mem t ht) ((mem_offers hc.nodup ht).mpr ⟨hleg, hr⟩) hshown (mem_sent_iff.mp hsent) rfl

/-- **A trip ends once**, when it is active no more. -/
theorem Kept.ends (h : Kept decoded ids s) (c : Call) (id : String) :
    (publishFromHaulTrips decoded c s.publisher).sent.count (.tripEnd id) =
      if id ∈ s.active ∧ id ∉ c.active then 1 else 0 := by
  have hroutes : .tripEnd id ∉
      (routesOf decoded c s.publisher).sent.map fun m ↦ Message.tripRoute m.1.1 m.1.2 m.2 := by
    simp
  have hinjective : Function.Injective Message.tripEnd := fun _ _ ↦ Message.tripEnd.inj
  have hended : (ended c s.publisher).Nodup := by
    rw [ended, h.active]
    exact h.nodup.filter _
  rw [publish_eq, List.count_append, List.count_eq_zero_of_not_mem hroutes, Nat.zero_add,
    List.count_map_of_injective _ _ hinjective, List.Nodup.count hended]
  simp only [mem_ended, h.active]

/-- A trip that is not active has no route in the call. -/
theorem noRoute (hid : id ∉ c.active) (leg : Leg) (r : Route) :
    .tripRoute id leg r ∉ (publishFromHaulTrips decoded c p).sent := by
  intro hsent
  obtain ⟨t, ht, heq⟩ := exists_of_mem_offers (mem_of_mem_sent (mem_sent_iff.mp hsent))
  exact hid (mem_active.mpr ⟨t, ht, heq.symm⟩)

/-- **The stream of a run is faithful** just when no leg ever has another route with the signature
of the one that is shown. -/
theorem faithful_iff (hids : Apart ids) (calls : List Call) (hcalls : ∀ c ∈ calls, c.Among ids) :
    (streaming decoded).Along (Faithful decoded) {} calls ↔
      (streaming decoded).Along (fun s c _ ↦ Distinguished decoded s c) {} calls := by
  refine Machine.along_congr_of (I := Kept decoded ids) (E := (Call.Among · ids)) ?_ kept_init
    calls hcalls
  intro s c s' hs hc hstep
  obtain rfl := Option.some.inj hstep
  refine ⟨⟨fun h t ht leg hleg r r₀ hr hr₀ hsame ↦ ?_, fun h ↦ ⟨?_, ?_, hs.ends c, ?_⟩⟩,
    fun _ ↦ hs.publish hids hc⟩
  · exact (hs.shows_iff hids hc ht hleg hr).mp (h.shows t ht leg hleg r hr) r₀ hr₀ hsame
  · intro t ht leg hleg r hr
    exact (hs.shows_iff hids hc ht hleg hr).mpr fun r₀ ↦ h t ht leg hleg r r₀ hr
  · exact fun t ht leg hleg r hr hshown ↦ hs.silent hids hc ht hleg hr hshown
  · exact fun id hid leg r ↦ noRoute hid leg r

end Calls

/-! ## Runs -/

/-- The points of a well-formed encoding: every one has two numbers, and a number ends with a
character that has no continuation bit. -/
def pointsOf (encoded : String) : Option ℕ :=
  some ((encoded.toList.filter fun ch ↦ ch.toNat - 63 < 32).length / 2)

/-- A truck on its way to a pickup along a route. -/
def drivingAlong (geometry : String) : Resolved :=
  { id := "t1", state := some "repositioning_to_pickup", geometry := fun _ ↦ some geometry }

/-- A second truck, loaded. -/
def loaded : Resolved :=
  { id := "t2", state := some "loaded_in_transit",
    geometry := fun _ ↦ some "oenFcthxRrgDrgDrgDrgDrgDrgDrgDrgD" }

instance (s : Streamed) (c : Call) : Decidable (Distinguished pointsOf s c) :=
  decidable_of_iff
    (∀ t ∈ c.trips, ∀ leg ∈ t.legs, ∀ r ∈ routeOf pointsOf t leg, ∀ r₀ ∈ s.shown (t.id, leg),
      signature pointsOf (t.id, leg) r₀ = signature pointsOf (t.id, leg) r → r₀ = r)
    ⟨fun h t ht leg hleg r r₀ hr hr₀ ↦ h t ht leg hleg r hr r₀ hr₀,
      fun h t ht leg hleg r hr r₀ hr₀ ↦ h t ht leg hleg r r₀ hr hr₀⟩

theorem apart_two : Apart ["t1", "t2"] := by
  unfold Apart
  decide

/-- Two trips: the route of the first one changes, that of the second one does not, and then the
first trip is over. -/
theorem faithful_coming_going : (streaming pointsOf).Along (Faithful pointsOf) {}
    [⟨[drivingAlong "ocsFotfxRsiDsiDsiDsiDsiDsiDsiDsiDsiDsiDsiDsiD", loaded]⟩,
      ⟨[drivingAlong "ocsFotfxRsiDsiDsiDsiDsiDsiD", loaded]⟩, ⟨[loaded]⟩] := by
  refine (faithful_iff apart_two _ ?_).mpr (by decide)
  simp only [List.forall_mem_cons, List.not_mem_nil, false_imp_iff, implies_true, and_true]
  exact ⟨⟨by decide, by decide⟩, ⟨by decide, by decide⟩, ⟨by decide, by decide⟩⟩

/-- Two routes that differ in their last point only are taken for the same. -/
theorem last_point_not_sent : Apart ["t1"] ∧
    (∀ geometry, (⟨[drivingAlong geometry]⟩ : Call).Among ["t1"]) ∧
    ¬(streaming pointsOf).Along (Faithful pointsOf) {}
      [⟨[drivingAlong "ocsFotfxRsiDsiDsiDsiDsiDsiDsiDsiDsiDsiDsiDsiD"]⟩,
        ⟨[drivingAlong "ocsFotfxRsiDsiDsiDsiDsiDsiDsiDsiDsiDsiDsiDriD"]⟩] := by
  refine ⟨by unfold Apart; decide, fun geometry ↦ ?_, fun h ↦ ?_⟩
  · constructor <;> simp [Call.trips, drivingAlong]
  · have hsecond := ((h _ rfl).2 _ rfl).1.shows _ (List.mem_singleton_self _)
      .repositioningToPickup (by decide)
      ⟨"ocsFotfxRsiDsiDsiDsiDsiDsiDsiDsiDsiDsiDsiDriD", "repositioning_to_pickup"⟩ (by decide)
    exact absurd hsecond (by decide)

end OpenRide.Haulage.TripGeo
