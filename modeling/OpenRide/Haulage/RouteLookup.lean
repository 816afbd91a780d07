import OpenRide.Haulage.TripGeoPublisher
import OpenRide.Lib.Rounding

/-!
# Looking up the routes of legs

A leg whose trip has no stored route gets one from the routing service.  `osrmPolyline` keeps what
it finds in a table of the module, at most `OSRM_CACHE_MAX` endpoint pairs, the ones not used for
longest dropped first; the lookups of a call that are not in the table are made together before the
trips are looked at.

That a lookup found nothing is kept as well, but the time of it is taken from `time.monotonic()`,
and nothing imports `time`.  So a lookup that finds nothing raises when it is made in the loop over
the trips.  When it is made together with others the rest of them go on by themselves, while the
loop waits for answers of its own and after it; one that finds nothing leaves an entry too many when
the table is full, and may take the place of a route that was found since it began.  Otherwise it
costs nothing but the route of its leg (`costsOnlyItsLeg_iff`).
-/

namespace OpenRide.Haulage.RouteLookup

open Lib TripGeo

/-! ## The tables -/

/-- An encoding that is not empty. -/
abbrev Geometry := {g : String // g ≠ ""}

/-- Two points, rounded. -/
abbrev Key := TripGeo.Point × TripGeo.Point

/-- `_osrm_cache_key`. -/
def osrmCacheKey (ends : TripGeo.Point × TripGeo.Point) : Key :=
  ((roundTo 5 ends.1.1, roundTo 5 ends.1.2), (roundTo 5 ends.2.1, roundTo 5 ends.2.2))

def OSRM_CACHE_MAX : ℕ := 4096

def OSRM_FAILURE_TTL_SECONDS : ℚ := 60

/-- `_OSRM_CACHE` and `_OSRM_FAILED_AT`, and the lookups of pools that are not over. -/
structure Tables where
  cache : Dict Key (Option Geometry) := Dict.empty
  failedAt : Dict Key ℚ := Dict.empty
  underWay : List (TripGeo.Point × TripGeo.Point) := []

/-- What the routing service answers. -/
inductive Answer where
  | geometry (raw : String)
  | nothing
  | raises
deriving DecidableEq

/-- The geometry in an answer. -/
def Answer.found : Answer → Option Geometry
  | .geometry raw => if h : raw = "" then none else some ⟨raw, h⟩
  | .nothing => none
  | .raises => none

/-- An answer of the routing service, to a lookup of a pool or of the loop, and the tables before
and after it is taken. -/
structure Lookup where
  pooled : Bool
  ends : TripGeo.Point × TripGeo.Point
  answer : Answer
  before : Tables
  after : Tables

/-- `time.monotonic()`.  Nothing imports `time`, so the name is not defined and this raises. -/
def monotonic : Option ℚ := none

/-- Drop the entry that was not used for longest if there is one too many. -/
def Tables.evict (s : Tables) : Tables :=
  if s.cache.size ≤ OSRM_CACHE_MAX then s
  else
    match s.cache.keys with
    | [] => s
    | oldest :: _ =>
      { s with cache := s.cache.erase oldest, failedAt := s.failedAt.erase oldest }

/-- The part of `_osrm_polyline` that takes the answer of the service. -/
def receive (pooled : Bool) (ends : TripGeo.Point × TripGeo.Point) (answer : Answer) (s : Tables) :
    Handled (Tables × Option Geometry) Lookup :=
  let kept := { s with cache := s.cache.set (osrmCacheKey ends) answer.found }
  match answer.found with
  | some g =>
    let after := { kept with failedAt := s.failedAt.erase (osrmCacheKey ends) }.evict
    ⟨(after, some g), [⟨pooled, ends, answer, s, after⟩], false⟩
  | none =>
    match monotonic with
    | none => ⟨(kept, none), [⟨pooled, ends, answer, s, kept⟩], true⟩
    | some now =>
      let after := { kept with failedAt := s.failedAt.set (osrmCacheKey ends) now }.evict
      ⟨(after, none), [⟨pooled, ends, answer, s, after⟩], false⟩

/-- `failed_at is not None and (time.monotonic() - failed_at) < _OSRM_FAILURE_TTL_SECONDS`, `none`
when it raises. -/
def failedLately (key : Key) (s : Tables) : Option Bool :=
  match s.failedAt.get? key with
  | none => some false
  | some failedAt => monotonic.map fun now ↦ now - failedAt < OSRM_FAILURE_TTL_SECONDS

/-- How the part of `_osrm_polyline` that reads the tables ends. -/
inductive Reading where
  | cached (geometry : Option Geometry)
  | raises
  | asks
deriving DecidableEq

/-- The part of `_osrm_polyline` that reads the tables. -/
def readTables (ends : TripGeo.Point × TripGeo.Point) (s : Tables) : Tables × Reading :=
  match s.cache.get? (osrmCacheKey ends) with
  | none => (s, .asks)
  | some cached =>
    let s := { s with cache := s.cache.moveToEnd (osrmCacheKey ends) }
    match cached with
    | some g => (s, .cached (some g))
    | none =>
      match failedLately (osrmCacheKey ends) s with
      | none => (s, .raises)
      | some true => (s, .cached none)
      | some false => ({ s with failedAt := s.failedAt.erase (osrmCacheKey ends) }, .asks)

/-- What a lookup of a pool does: it reads the tables, or it is answered. -/
inductive Arrival where
  | begins (ends : TripGeo.Point × TripGeo.Point)
  | answered (ends : TripGeo.Point × TripGeo.Point) (answer : Answer)

/-- A lookup of a pool does so, if it is not over.  That it raises ends it, and nothing else. -/
def arrive (a : Arrival) (s : Tables) : Handled Tables Lookup :=
  match a with
  | .begins ends =>
    if ends ∈ s.underWay then
      match readTables ends s with
      | (s, .asks) => ⟨s, [], false⟩
      | (s, _) => ⟨{ s with underWay := s.underWay.erase ends }, [], false⟩
    else ⟨s, [], false⟩
  | .answered ends answer =>
    if ends ∈ s.underWay then
      { (receive true ends answer { s with underWay := s.underWay.erase ends }).map Prod.fst with
        raised := false }
    else ⟨s, [], false⟩

/-- `_osrm_polyline`: the tables and the result.  While it waits for its answer the lookups of pools
go on. -/
def osrmPolyline (ends : TripGeo.Point × TripGeo.Point) (answer : Answer)
    (meanwhile : List Arrival) (s : Tables) : Handled (Tables × Option Geometry) Lookup :=
  match readTables ends s with
  | (s, .cached geometry) => ⟨(s, geometry), [], false⟩
  | (s, .raises) => ⟨(s, none), [], true⟩
  | (s, .asks) =>
    let waited := Handled.inOrder arrive meanwhile s
    let o := receive false ends answer waited.state
    ⟨o.state, waited.sent ++ o.sent, o.raised⟩

/-! ## The geometry of a leg -/

/-- A trip, and for each leg what the service answers if it is asked, and what the lookups of pools
do until then. -/
structure Asking extends Trip where
  answer : Leg → Answer
  meanwhile : Leg → List Arrival := fun _ ↦ []

section

-- `polyline.encode`, of latitudes and longitudes.
variable (encode : List (ℚ × ℚ) → String)

/-- `_polyline_from_coords`. -/
def polylineFromCoords (coords : List TripGeo.Point) : Option String :=
  if coords.length < MIN_DECODED_POINTS then none else some (encode (coords.map Prod.swap))

/-- `_geometry_from_route`. -/
def geometryFromRoute (r : PlannedRoute) : Option String :=
  match r.geometry.filter (· ≠ "") with
  | some g => some g
  | none => r.coordinates.bind (polylineFromCoords encode)

/-- The stored geometry of a leg. -/
def storedGeometry (t : Trip) (leg : Leg) : Option String :=
  ((t.planned leg).bind (geometryFromRoute encode)).filter (· ≠ "")

/-- `_straight_line_polyline`, with ten points. -/
def straightLinePolyline (ends : TripGeo.Point × TripGeo.Point) : Option String :=
  if ends.1 = ends.2 then none
  else some (encode ((List.range 10).map fun i ↦
    (ends.1.2 + (ends.2.2 - ends.1.2) * i / 9, ends.1.1 + (ends.2.1 - ends.1.1) * i / 9)))

/-- The two ends of a leg. -/
def endsOf (t : Trip) (leg : Leg) : Option (TripGeo.Point × TripGeo.Point) :=
  (t.endpoints leg).1.bind fun p₀ ↦ (t.endpoints leg).2.map fun p₁ ↦ (p₀, p₁)

/-- `_fallback_geometry_for_leg`. -/
def fallbackGeometryForLeg (t : Asking) (leg : Leg) (s : Tables) :
    Handled (Tables × Option String) Lookup :=
  match endsOf t.toTrip leg with
  | none => ⟨(s, none), [], false⟩
  | some ends =>
    (osrmPolyline ends (t.answer leg) (t.meanwhile leg) s).map fun r ↦
      (r.1, match r.2 with
        | some g => some g.1
        | none => straightLinePolyline encode ends)

/-- Is a leg marked as one whose route could not be found? -/
def isUnavailable (t : Trip) (leg : Leg) : Bool :=
  (t.planned leg).bind PlannedRoute.geometrySource = some "unavailable"

/-- `_resolve_leg_geometry`. -/
def resolveLegGeometry (authoritativeRoutes : Bool) (t : Asking) (leg : Leg) (s : Tables) :
    Handled (Tables × Option String) Lookup :=
  match storedGeometry encode t.toTrip leg with
  | some g => ⟨(s, some g), [], false⟩
  | none =>
    if isUnavailable t.toTrip leg || authoritativeRoutes then ⟨(s, none), [], false⟩
    else fallbackGeometryForLeg encode t leg s

/-! ## Lookups made together -/

/-- The legs of a trip that need a lookup, by their ends. -/
def lookupsOf (t : Trip) : List (TripGeo.Point × TripGeo.Point) :=
  t.legs.filterMap fun leg ↦
    if (storedGeometry encode t leg).isSome then none else endsOf t leg

/-- Those that are neither cached nor seen before. -/
def unseen (s : Tables) :
    List (TripGeo.Point × TripGeo.Point) → List Key → List (TripGeo.Point × TripGeo.Point)
  | [], _ => []
  | ends :: l, seen =>
    if s.cache.contains (osrmCacheKey ends) || osrmCacheKey ends ∈ seen then unseen s l seen
    else ends :: unseen s l (osrmCacheKey ends :: seen)

/-- One call of `publish_from_haul_trips` of some run: what the lookups of pools do until the loop
begins, and after it until the next call. -/
structure Tick where
  run : String
  haulTrips : List Asking
  together : List Arrival := []
  afterwards : List Arrival := []

/-- `_prefetch_osrm_polylines`. -/
def prefetchOsrmPolylines (c : Tick) (s : Tables) : Handled Tables Lookup :=
  let pending := unseen s (c.haulTrips.flatMap fun t ↦ lookupsOf encode t.toTrip) []
  if pending.length < 2 then ⟨s, [], false⟩
  else Handled.inOrder arrive c.together { s with underWay := s.underWay ++ pending }

/-! ## The loop -/

/-- What can be seen of a call: answers of the service, and messages. -/
inductive Event where
  | looked (l : Lookup)
  | told (m : Message)

def Event.lookup? : Event → Option Lookup
  | .looked l => some l
  | .told _ => none

def Event.message? : Event → Option Message
  | .looked _ => none
  | .told m => some m

variable (decoded : String → Option ℕ)

/-- `_emit_trip_route_for_leg`. -/
def emitTripRouteForLeg (t : Asking) (leg : Leg) (s : Tables × Publisher) :
    Handled (Tables × Publisher) Event :=
  let o := resolveLegGeometry encode false t leg s.1
  if o.raised then ⟨(o.state.1, s.2), o.sent.map .looked, true⟩
  else
    let e := TripGeo.emitTripRouteForLeg decoded t.toTrip leg o.state.2 s.2
    ⟨(o.state.1, e.state), o.sent.map .looked ++ e.sent.map .told, e.raised⟩

/-- `_maybe_emit_trip_routes`. -/
def maybeEmitTripRoutes (t : Asking) (s : Tables × Publisher) :
    Handled (Tables × Publisher) Event :=
  Handled.inOrder (emitTripRouteForLeg encode decoded t) t.legs s

/-- The trips of a call that have an identifier. -/
def Tick.trips (c : Tick) : List Asking := c.haulTrips.filter (·.id ≠ "")

/-- The active trips of a call, a set. -/
def Tick.active (c : Tick) : List String := (c.trips.map (·.id)).dedup

/-- What comes after the loop. -/
def finish (c : Tick) (s : Tables × Publisher) : Handled (Tables × Publisher) Event :=
  let o := emitTripEndsForRemoved c.active s.2
  ⟨(s.1, { o.state with lastActiveHaulTrips := c.active }), o.sent.map .told, o.raised⟩

/-- `publish_from_haul_trips`, when the lookups made together are over. -/
def publishTrips (c : Tick) (s : Tables × Publisher) : Handled (Tables × Publisher) Event :=
  (Handled.inOrder (maybeEmitTripRoutes encode decoded) c.trips s).andThen (finish c)

/-! ## What a call should do -/

/-- The tables of the module, and the publisher of each run. -/
structure World where
  tables : Tables := {}
  publisher : String → Publisher := fun _ ↦ {}

/-- The lookups made together. -/
def prefetched (w : World) (c : Tick) : Handled Tables Lookup :=
  prefetchOsrmPolylines encode c w.tables

/-- The rest of the call. -/
def published (w : World) (c : Tick) : Handled (Tables × Publisher) Event :=
  publishTrips encode decoded c ((prefetched encode w c).state, w.publisher c.run)

/-- The lookups that are answered after the call. -/
def answeredLater (w : World) (c : Tick) : Handled Tables Lookup :=
  Handled.inOrder arrive c.afterwards (published encode decoded w c).state.1

/-- Calls one after the other. -/
def publishing : Machine World Tick where
  step w c := some ⟨(answeredLater encode decoded w c).state,
    Function.update w.publisher c.run (published encode decoded w c).state.2⟩

/-- All lookups of a call that are answered, until the next call. -/
def lookups (w : World) (c : Tick) : List Lookup :=
  (prefetched encode w c).sent ++ (published encode decoded w c).sent.filterMap Event.lookup? ++
    (answeredLater encode decoded w c).sent

/-- Is a route between some places cached before a call, or found in it? -/
def RoadKnown (w : World) (c : Tick) (key : Key) (g : Geometry) : Prop :=
  w.tables.cache.get? key = some (some g) ∨
    ∃ l ∈ lookups encode decoded w c, osrmCacheKey l.ends = key ∧ l.answer.found = some g

/-- The geometry a leg should have: the stored one; none if it is marked as unavailable or an end is
missing; else a road route if one is known and the straight line if none is. -/
def Fits (w : World) (c : Tick) (t : Trip) (leg : Leg) (geometry : Option String) : Prop :=
  match storedGeometry encode t leg, isUnavailable t leg, endsOf t leg with
  | some g, _, _ => geometry = some g
  | none, true, _ => geometry = none
  | none, false, none => geometry = none
  | none, false, some ends =>
    (∃ g, RoadKnown encode decoded w c (osrmCacheKey ends) g ∧ geometry = some g.1) ∨
      (∀ g, ¬RoadKnown encode decoded w c (osrmCacheKey ends) g) ∧
        geometry = straightLinePolyline encode ends

/-- A failed lookup costs nothing but the route of its leg: the call does not raise, it says what it
says for some geometries that fit, no found route is lost, only failures have a time, and the cache
stays within its bound. -/
structure CostsOnlyItsLeg (w : World) (c : Tick) (w' : World) : Prop where
  notRaised : (published encode decoded w c).raised = false
  asIf : ∃ found : List Resolved,
    List.Forall₂ (fun t r ↦ r.toTrip = t.toTrip ∧
      ∀ leg ∈ t.legs, Fits encode decoded w c t.toTrip leg (r.geometry leg)) c.trips found ∧
    (published encode decoded w c).sent.filterMap Event.message? =
      (publishFromHaulTrips decoded ⟨found⟩ (w.publisher c.run)).sent ∧
    w'.publisher c.run = (publishFromHaulTrips decoded ⟨found⟩ (w.publisher c.run)).state
  keepsRoutes : ∀ l ∈ lookups encode decoded w c, ∀ key g,
    l.before.cache.get? key = some (some g) → l.after.cache.get? key ≠ some none
  failures : ∀ l ∈ lookups encode decoded w c, ∀ key ∈ l.after.failedAt.keys,
    l.after.cache.get? key = some none
  bounded : ∀ l ∈ lookups encode decoded w c, l.after.cache.size ≤ OSRM_CACHE_MAX

/-- No lookup of the loop finds nothing; and one of a pool does so only if its key is cached without
a route, or not at all and there is room for it. -/
structure Spared (w : World) (c : Tick) : Prop where
  loop : ∀ l ∈ lookups encode decoded w c, l.pooled = false → l.answer.found ≠ none
  together : ∀ l ∈ lookups encode decoded w c, l.pooled = true → l.answer.found = none →
    l.before.cache.get? (osrmCacheKey l.ends) = some none ∨
      l.before.cache.get? (osrmCacheKey l.ends) = none ∧
        l.before.cache.size < OSRM_CACHE_MAX

end

/-! ## One lookup -/

section Lookups

variable {ends : TripGeo.Point × TripGeo.Point} {answer : Answer} {s t : Tables} {l : Lookup}

/-- The same entries, in some order, and no time of a failure. -/
structure SameAs (s t : Tables) : Prop where
  get? : ∀ key, s.cache.get? key = t.cache.get? key
  size : s.cache.size = t.cache.size
  untimed : s.failedAt = Dict.empty

/-- What an answer does to the tables: one without a route is kept for good. -/
def Lookup.Made (l : Lookup) : Prop :=
  l.after = if l.answer.found = none then
      { l.before with cache := l.before.cache.set (osrmCacheKey l.ends) none
                      failedAt := Dict.empty }
    else Tables.evict { l.before with cache := l.before.cache.set (osrmCacheKey l.ends)
                                        l.answer.found
                                      failedAt := Dict.empty }

variable (ends answer) in
theorem receive_eq (pooled : Bool) (h : s.failedAt = Dict.empty) : ∃ after,
    receive pooled ends answer s = ⟨(after, answer.found), [⟨pooled, ends, answer, s, after⟩],
      answer.found.isNone⟩ ∧ Lookup.Made ⟨pooled, ends, answer, s, after⟩ := by
  rw [receive, h]
  simp only [Lookup.Made]
  cases answer.found with
  | none => exact ⟨_, rfl, by rw [if_pos rfl, ← h]⟩
  | some g => exact ⟨_, rfl, rfl⟩

variable (ends) in
/-- **What reading the tables does**: it takes the route that is cached, or the service is asked. -/
theorem readTables_cases (h : s.failedAt = Dict.empty) :
    (∃ g t, s.cache.get? (osrmCacheKey ends) = some (some g) ∧ SameAs t s ∧
      readTables ends s = (t, .cached (some g))) ∨
    ∃ t, SameAs t s ∧ readTables ends s = (t, .asks) := by
  have hmoved : SameAs { s with cache := s.cache.moveToEnd (osrmCacheKey ends) } s :=
    ⟨s.cache.get?_moveToEnd _, s.cache.size_moveToEnd _, h⟩
  rw [readTables]
  cases hcached : s.cache.get? (osrmCacheKey ends) with
  | none => exact Or.inr ⟨s, ⟨fun _ ↦ rfl, rfl, h⟩, rfl⟩
  | some cached =>
    cases cached with
    | some g => exact Or.inl ⟨g, _, rfl, hmoved, rfl⟩
    | none =>
      -- no time of a failure is ever kept, so the service is asked again
      have hagain : failedLately (osrmCacheKey ends)
          { s with cache := s.cache.moveToEnd (osrmCacheKey ends) } = some false := by
        rw [failedLately, h]
        rfl
      have hdropped : SameAs
          { s with cache := s.cache.moveToEnd (osrmCacheKey ends)
                   failedAt := s.failedAt.erase (osrmCacheKey ends) } s :=
        ⟨hmoved.get?, hmoved.size, by rw [h]; rfl⟩
      simp only [hagain]
      exact Or.inr ⟨_, hdropped, rfl⟩

/-! ## What lookups do to the tables -/

/-- Room for an entry, or none needed. -/
def Lookup.Roomy (l : Lookup) : Prop :=
  l.answer.found = none →
    l.before.cache.contains (osrmCacheKey l.ends) = true ∨ l.before.cache.size < OSRM_CACHE_MAX

/-- What some answers do to tables without times of failures. -/
structure Effect (s : Tables) (out : List Lookup) (t : Tables) : Prop where
  untimed : t.failedAt = Dict.empty
  made : ∀ l ∈ out, l.Made
  known : ∀ key g, t.cache.get? key = some (some g) → s.cache.get? key = some (some g) ∨
    ∃ l ∈ out, osrmCacheKey l.ends = key ∧ l.answer.found = some g
  bounded : s.cache.size ≤ OSRM_CACHE_MAX → (∀ l ∈ out, l.Roomy) →
    t.cache.size ≤ OSRM_CACHE_MAX ∧ ∀ l ∈ out, l.after.cache.size ≤ OSRM_CACHE_MAX

theorem effect_closed : Closed fun s out t ↦ s.failedAt = Dict.empty → Effect s out t where
  refl s h := ⟨h, by simp, fun _ _ hg ↦ Or.inl hg, fun hs _ ↦ ⟨hs, by simp⟩⟩
  trans {s out t out' u} h h' hs := by
    have h := h hs
    have h' := h' h.untimed
    refine ⟨h'.untimed, ?_, ?_, ?_⟩
    · exact fun l hl ↦ (List.mem_append.mp hl).elim (h.made l) (h'.made l)
    · intro key g hg
      rcases h'.known key g hg with hg | ⟨l, hl, hrest⟩
      · rcases h.known key g hg with hg | ⟨l, hl, hrest⟩
        · exact Or.inl hg
        · exact Or.inr ⟨l, List.mem_append_left _ hl, hrest⟩
      · exact Or.inr ⟨l, List.mem_append_right _ hl, hrest⟩
    · intro hsize hroomy
      obtain ⟨ht, hout⟩ := h.bounded hsize fun l hl ↦ hroomy l (List.mem_append_left _ hl)
      obtain ⟨hu, hout'⟩ := h'.bounded ht fun l hl ↦ hroomy l (List.mem_append_right _ hl)
      exact ⟨hu, fun l hl ↦ (List.mem_append.mp hl).elim (hout l) (hout' l)⟩

theorem evict_untimed (h : s.failedAt = Dict.empty) : s.evict.failedAt = Dict.empty := by
  rw [Tables.evict]
  split
  · exact h
  · split
    · exact h
    · rw [h]
      rfl

theorem get?_evict {key : Key} {v : Option Geometry} (h : s.evict.cache.get? key = some v) :
    s.cache.get? key = some v := by
  rw [Tables.evict] at h
  split at h
  · exact h
  · split at h
    · exact h
    · rw [Dict.get?_erase] at h
      split at h
      · cases h
      · exact h

theorem size_evict (h : s.cache.size ≤ OSRM_CACHE_MAX + 1) :
    s.evict.cache.size ≤ OSRM_CACHE_MAX := by
  rw [Tables.evict]
  split
  · assumption
  · next hsize =>
    split
    · next hkeys =>
      have hzero : s.cache.size = 0 := by
        rw [Dict.size, ← List.length_map Prod.fst]
        exact congrArg List.length hkeys
      omega
    · next oldest rest hkeys =>
      obtain ⟨v, hv⟩ := Dict.mem_keys_iff.mp (hkeys ▸ List.mem_cons_self : oldest ∈ s.cache.keys)
      have hlt := Dict.size_erase_lt hv
      dsimp only
      omega

namespace Lookup.Made

theorem of_found (hl : l.Made) (h : l.answer.found ≠ none) : l.after =
    Tables.evict { l.before with cache := l.before.cache.set (osrmCacheKey l.ends) l.answer.found
                                 failedAt := Dict.empty } :=
  Eq.trans hl (if_neg h)

theorem of_nothing (hl : l.Made) (h : l.answer.found = none) :
    l.after = { l.before with cache := l.before.cache.set (osrmCacheKey l.ends) none
                              failedAt := Dict.empty } :=
  Eq.trans hl (if_pos h)

theorem untimed (hl : l.Made) : l.after.failedAt = Dict.empty := by
  by_cases h : l.answer.found = none
  · rw [hl.of_nothing h]
  · rw [hl.of_found h]
    exact evict_untimed rfl

/-- What is cached after an answer was cached before or is the answer. -/
theorem get?_after (hl : l.Made) {key : Key} {v : Option Geometry}
    (h : l.after.cache.get? key = some v) :
    (if key = osrmCacheKey l.ends then some l.answer.found else l.before.cache.get? key) =
      some v := by
  rw [← Dict.get?_set]
  by_cases hfound : l.answer.found = none
  · rw [hl.of_nothing hfound] at h
    rwa [hfound]
  · rw [hl.of_found hfound] at h
    exact get?_evict h

theorem size_after (hl : l.Made) (h : l.answer.found = none) : l.after.cache.size =
    if l.before.cache.contains (osrmCacheKey l.ends) then l.before.cache.size
    else l.before.cache.size + 1 := by
  rw [hl.of_nothing h]
  exact Dict.size_set _ _ _

/-- **A found route is not lost to an answer** that has a route, or is about other places. -/
theorem keepsRoutes (hl : l.Made) (hkeeps : l.answer.found = none →
      ∀ g, l.before.cache.get? (osrmCacheKey l.ends) ≠ some (some g)) {key : Key} {g : Geometry}
    (h : l.before.cache.get? key = some (some g)) : l.after.cache.get? key ≠ some none := by
  intro hnone
  have hafter := hl.get?_after hnone
  split at hafter
  · next hkey => exact hkeeps (Option.some_inj.mp hafter) g (hkey ▸ h)
  · simp [h] at hafter

/-- An answer without a route that takes the place of no route, and finds room. -/
theorem harmless (hl : l.Made) (hfound : l.answer.found = none)
    (hkeeps : ∀ key g, l.before.cache.get? key = some (some g) →
      l.after.cache.get? key ≠ some none)
    (hbounded : l.after.cache.size ≤ OSRM_CACHE_MAX) :
    l.before.cache.get? (osrmCacheKey l.ends) = some none ∨
      l.before.cache.get? (osrmCacheKey l.ends) = none ∧
        l.before.cache.size < OSRM_CACHE_MAX := by
  rw [hl.size_after hfound, Dict.contains] at hbounded
  cases hcached : l.before.cache.get? (osrmCacheKey l.ends) with
  | none =>
    rw [hcached] at hbounded
    exact Or.inr ⟨rfl, hbounded⟩
  | some cached =>
    cases cached with
    | none => exact Or.inl rfl
    | some g =>
      refine absurd ?_ (hkeeps _ g hcached)
      rw [hl.of_nothing hfound]
      exact Dict.get?_set_self _ _ _

theorem bounded (hl : l.Made) (hsize : l.before.cache.size ≤ OSRM_CACHE_MAX) (hroomy : l.Roomy) :
    l.after.cache.size ≤ OSRM_CACHE_MAX := by
  by_cases h : l.answer.found = none
  · rw [hl.size_after h]
    split
    · exact hsize
    · next hnew => exact (hroomy h).resolve_left hnew
  · rw [hl.of_found h]
    refine size_evict ?_
    rw [Dict.size_set]
    split <;> omega

theorem effect (hl : l.Made) : Effect l.before [l] l.after where
  untimed := hl.untimed
  made := by simp [hl]
  known key g h := by
    have hafter := hl.get?_after h
    split at hafter
    · next hkey => exact Or.inr ⟨l, List.mem_singleton_self l, hkey.symm, Option.some.inj hafter⟩
    · exact Or.inl hafter
  bounded hsize hroomy := by
    have hafter := hl.bounded hsize (hroomy l (List.mem_singleton_self l))
    exact ⟨hafter, by simp [hafter]⟩

end Lookup.Made

/-- The same entries in another order have no effect. -/
theorem SameAs.effect (h : SameAs t s) : Effect s [] t where
  untimed := h.untimed
  made := by simp
  known key g hg := Or.inl ((h.get? key).symm.trans hg)
  bounded hsize _ := ⟨h.size ▸ hsize, by simp⟩

/-- The effect on the entries is the same whatever lookups of pools are under way. -/
theorem Effect.of_underWay {underWay : List (TripGeo.Point × TripGeo.Point)} {out : List Lookup}
    (h : Effect { s with underWay := underWay } out t) : Effect s out t :=
  ⟨h.untimed, h.made, h.known, h.bounded⟩

theorem receive_effect (pooled : Bool) (h : s.failedAt = Dict.empty) :
    Effect s (receive pooled ends answer s).sent (receive pooled ends answer s).state.1 := by
  obtain ⟨after, heq, hmade⟩ := receive_eq ends answer pooled h
  rw [heq]
  exact hmade.effect

/-- **What a lookup of a pool does**, wherever it goes on. -/
theorem arrive_effect (a : Arrival) (s : Tables) (h : s.failedAt = Dict.empty) :
    Effect s (arrive a s).sent (arrive a s).state := by
  cases a with
  | begins ends =>
    rw [arrive]
    split
    · rcases readTables_cases ends h with ⟨g, t, -, hsame, heq⟩ | ⟨t, hsame, heq⟩
      · rw [heq]
        exact SameAs.effect ⟨hsame.get?, hsame.size, hsame.untimed⟩
      · rw [heq]
        exact hsame.effect
    · exact effect_closed.refl s h
  | answered ends answer =>
    rw [arrive]
    split
    · exact Effect.of_underWay (receive_effect true h)
    · exact effect_closed.refl s h

theorem arrive_pooled (a : Arrival) (s : Tables) : ∀ l ∈ (arrive a s).sent, l.pooled = true := by
  have hreceive : ∀ ends answer s, ∀ l ∈ (receive true ends answer s).sent, l.pooled = true := by
    intro ends answer s
    rw [receive]
    split
    · simp
    · split <;> simp
  cases a with
  | begins ends =>
    rw [arrive]
    split
    · split <;> simp
    · simp
  | answered ends answer =>
    rw [arrive]
    split
    · exact hreceive ends answer _
    · simp

theorem arrivals_effect (as : List Arrival) (s : Tables) (h : s.failedAt = Dict.empty) :
    Effect s (Handled.inOrder arrive as s).sent (Handled.inOrder arrive as s).state :=
  effect_closed.inOrder arrive_effect as s h

theorem arrivals_pooled (as : List Arrival) (s : Tables) :
    ∀ l ∈ (Handled.inOrder arrive as s).sent, l.pooled = true := by
  have hclosed : Closed fun (_ : Tables) (out : List Lookup) (_ : Tables) ↦
      ∀ l ∈ out, l.pooled = true := {
    refl := by simp
    trans := fun h h' l hl ↦ (List.mem_append.mp hl).elim (h l) (h' l) }
  exact hclosed.inOrder arrive_pooled as s

variable {meanwhile : List Arrival}

variable (ends answer meanwhile) in
/-- **What a lookup of the loop does**: it takes the route that is cached, or its answer, after what
the lookups of pools do until then. -/
theorem osrmPolyline_cases (h : s.failedAt = Dict.empty) :
    (∃ g t, s.cache.get? (osrmCacheKey ends) = some (some g) ∧ SameAs t s ∧
      osrmPolyline ends answer meanwhile s = ⟨(t, some g), [], false⟩) ∨
    ∃ (out : List Lookup) (l : Lookup), Effect s out l.before ∧ (∀ x ∈ out, x.pooled = true) ∧
      l.Made ∧ l.pooled = false ∧ l.ends = ends ∧ l.answer = answer ∧
      osrmPolyline ends answer meanwhile s =
        ⟨(l.after, answer.found), out ++ [l], answer.found.isNone⟩ := by
  rw [osrmPolyline]
  rcases readTables_cases ends h with ⟨g, t, hcached, hsame, heq⟩ | ⟨t, hsame, heq⟩
  · rw [heq]
    exact Or.inl ⟨g, t, hcached, hsame, rfl⟩
  · rw [heq]
    have hwaited := arrivals_effect meanwhile t hsame.untimed
    obtain ⟨after, hreceive, hmade⟩ := receive_eq ends answer false hwaited.untimed
    refine Or.inr ⟨_, ⟨false, ends, answer, _, after⟩, ?_, arrivals_pooled meanwhile t, hmade, rfl,
      rfl, rfl, ?_⟩
    · exact effect_closed.trans (fun _ ↦ hsame.effect) (fun _ ↦ hwaited) h
    · dsimp only
      rw [hreceive]

theorem osrmPolyline_effect (h : s.failedAt = Dict.empty) :
    Effect s (osrmPolyline ends answer meanwhile s).sent
      (osrmPolyline ends answer meanwhile s).state.1 := by
  rcases osrmPolyline_cases ends answer meanwhile h with
    ⟨g, t, _, hsame, heq⟩ | ⟨out, l, hout, -, hl, -, -, -, heq⟩
  · rw [heq]
    exact hsame.effect
  · rw [heq]
    exact effect_closed.trans (fun _ ↦ hout) (fun _ ↦ hl.effect) h

/-- **A lookup of the loop raises** just when it asks and nothing is found. -/
theorem osrmPolyline_raised (h : s.failedAt = Dict.empty) :
    (osrmPolyline ends answer meanwhile s).raised = true ↔
      ∃ l ∈ (osrmPolyline ends answer meanwhile s).sent,
        l.pooled = false ∧ l.answer.found = none := by
  rcases osrmPolyline_cases ends answer meanwhile h with
    ⟨g, t, _, _, heq⟩ | ⟨out, l, -, hpooled, -, hl, -, rfl, heq⟩
  · simp [heq]
  · rw [heq, Option.isNone_iff_eq_none]
    constructor
    · intro hfound
      exact ⟨l, List.mem_append_right _ (List.mem_singleton_self l), hl, hfound⟩
    · rintro ⟨x, hx, hloop, hfound⟩
      rcases List.mem_append.mp hx with hx | hx
      · rw [hpooled x hx] at hloop
        cases hloop
      · rw [← List.mem_singleton.mp hx]
        exact hfound

end Lookups

/-! ## The geometry of a leg -/

section Legs

variable {encode : List (ℚ × ℚ) → String} {decoded : String → Option ℕ} {t : Asking} {leg : Leg}
  {s : Tables} {p : Publisher} {known : Key → Geometry → Prop}

/-- Every route in the tables is known, and no time of a failure is kept. -/
structure Good (known : Key → Geometry → Prop) (s : Tables) : Prop where
  untimed : s.failedAt = Dict.empty
  known : ∀ key g, s.cache.get? key = some (some g) → known key g

/-- Every route that is found is known. -/
def Covers (known : Key → Geometry → Prop) (out : List Lookup) : Prop :=
  ∀ l ∈ out, ∀ g, l.answer.found = some g → known (osrmCacheKey l.ends) g

theorem Good.after (h : Good known s) {out : List Lookup} {t : Tables}
    (heffect : s.failedAt = Dict.empty → Effect s out t) (hout : Covers known out) :
    Good known t := by
  refine ⟨(heffect h.untimed).untimed, fun key g hg ↦ ?_⟩
  rcases (heffect h.untimed).known key g hg with hg | ⟨l, hl, rfl, hfound⟩
  · exact h.known key g hg
  · exact hout l hl g hfound

/-- The geometry of a leg with a road route wherever one has to be looked up. -/
def Sought (encode : List (ℚ × ℚ) → String) (known : Key → Geometry → Prop) (t : Trip) (leg : Leg)
    (geometry : Option String) : Prop :=
  match storedGeometry encode t leg, isUnavailable t leg, endsOf t leg with
  | some g, _, _ => geometry = some g
  | none, true, _ => geometry = none
  | none, false, none => geometry = none
  | none, false, some ends => ∃ g, known (osrmCacheKey ends) g ∧ geometry = some g.1

/-- A leg has its geometry at once, or it is looked up. -/
theorem resolve_cases (encode : List (ℚ × ℚ) → String) (t : Asking) (leg : Leg) (s : Tables) :
    (∃ geometry, resolveLegGeometry encode false t leg s = ⟨(s, geometry), [], false⟩ ∧
      ∀ known, Sought encode known t.toTrip leg geometry) ∨
    ∃ ends, (∀ known geometry, (∃ g, known (osrmCacheKey ends) g ∧ geometry = some g.1) →
        Sought encode known t.toTrip leg geometry) ∧
      resolveLegGeometry encode false t leg s =
        (osrmPolyline ends (t.answer leg) (t.meanwhile leg) s).map fun r ↦
          (r.1, match r.2 with
            | some g => some g.1
            | none => straightLinePolyline encode ends) := by
  rw [resolveLegGeometry]
  unfold Sought
  cases hstored : storedGeometry encode t.toTrip leg with
  | some g => exact Or.inl ⟨some g, rfl, fun _ ↦ rfl⟩
  | none =>
    cases hmarked : isUnavailable t.toTrip leg with
    | true => exact Or.inl ⟨none, rfl, fun _ ↦ rfl⟩
    | false =>
      simp only [Bool.or_false, Bool.false_eq_true, if_false, fallbackGeometryForLeg]
      cases hends : endsOf t.toTrip leg with
      | none => exact Or.inl ⟨none, rfl, fun _ ↦ rfl⟩
      | some ends => exact Or.inr ⟨ends, fun _ _ h ↦ h, rfl⟩

theorem resolve_effect (h : s.failedAt = Dict.empty) :
    Effect s (resolveLegGeometry encode false t leg s).sent
      (resolveLegGeometry encode false t leg s).state.1 := by
  rcases resolve_cases encode t leg s with ⟨geometry, heq, _⟩ | ⟨ends, _, heq⟩
  · rw [heq]
    exact effect_closed.refl s h
  · rw [heq]
    exact osrmPolyline_effect h

theorem resolve_raised (h : s.failedAt = Dict.empty) :
    (resolveLegGeometry encode false t leg s).raised = true ↔
      ∃ l ∈ (resolveLegGeometry encode false t leg s).sent,
        l.pooled = false ∧ l.answer.found = none := by
  rcases resolve_cases encode t leg s with ⟨geometry, heq, _⟩ | ⟨ends, _, heq⟩
  · simp [heq]
  · rw [heq]
    exact osrmPolyline_raised h

/-- **A leg gets a road route** if the lookup for it does not raise. -/
theorem resolve_sought (h : Good known s)
    (hraised : (resolveLegGeometry encode false t leg s).raised = false)
    (hout : Covers known (resolveLegGeometry encode false t leg s).sent) :
    Sought encode known t.toTrip leg (resolveLegGeometry encode false t leg s).state.2 := by
  rcases resolve_cases encode t leg s with ⟨geometry, heq, hsought⟩ | ⟨ends, hsought, heq⟩
  · rw [heq]
    exact hsought known
  · rw [heq] at hraised hout ⊢
    refine hsought known _ ?_
    rcases osrmPolyline_cases ends (t.answer leg) (t.meanwhile leg) h.untimed with
      ⟨g, t', hcached, _, heq⟩ | ⟨out, l, -, -, -, -, rfl, hanswer, heq⟩
    · rw [heq]
      exact ⟨g, h.known _ g hcached, rfl⟩
    · rw [heq] at hraised hout ⊢
      cases hfound : (t.answer leg).found with
      | none => simp [Handled.map, hfound] at hraised
      | some g =>
        exact ⟨g, hout l (List.mem_append_right _ (List.mem_singleton_self l)) g
          (hanswer ▸ hfound), rfl⟩

/-! ## The loops -/

/-- Did a lookup of the loop find nothing? -/
def Event.Failed : Event → Prop
  | .looked l => l.pooled = false ∧ l.answer.found = none
  | .told _ => False

/-- What is said, and how the publisher is left, is what some handler of messages does. -/
structure Says (o : Handled (Tables × Publisher) Event) (o' : Handled Publisher Message) :
    Prop where
  sent : o.sent.filterMap Event.message? = o'.sent
  state : o.state.2 = o'.state
  raised : o'.raised = false

theorem Says.andThen {o : Handled (Tables × Publisher) Event} {o' : Handled Publisher Message}
    (h : Says o o') (hraised : o.raised = false) {f : Tables × Publisher → Handled _ Event}
    {f' : Publisher → Handled Publisher Message} (hf : Says (f o.state) (f' o.state.2)) :
    Says (o.andThen f) (o'.andThen f') := by
  rw [Handled.andThen_of_not_raised hraised, Handled.andThen_of_not_raised h.raised]
  rw [h.state] at hf
  refine ⟨?_, hf.state, hf.raised⟩
  rw [List.filterMap_append, h.sent, hf.sent]

theorem filterMap_lookup (out : List Lookup) (ms : List Message) :
    (out.map Event.looked ++ ms.map Event.told).filterMap Event.lookup? = out := by
  simp [Function.comp_def, Event.lookup?]

theorem filterMap_message (out : List Lookup) (ms : List Message) :
    (out.map Event.looked ++ ms.map Event.told).filterMap Event.message? = ms := by
  simp [Function.comp_def, Event.message?]

theorem failed_iff {out : List Event} : (∃ e ∈ out, e.Failed) ↔
    ∃ l ∈ out.filterMap Event.lookup?, l.pooled = false ∧ l.answer.found = none := by
  constructor
  · rintro ⟨e, he, hfailed⟩
    cases e with
    | looked l => exact ⟨l, List.mem_filterMap.mpr ⟨_, he, rfl⟩, hfailed⟩
    | told m => exact hfailed.elim
  · rintro ⟨l, hl, hfailed⟩
    obtain ⟨e, he, heq⟩ := List.mem_filterMap.mp hl
    cases e with
    | looked l' => exact ⟨_, he, Option.some.inj heq ▸ hfailed⟩
    | told m => cases heq

theorem emit_lookup (encode : List (ℚ × ℚ) → String) (decoded : String → Option ℕ) (t : Asking)
    (leg : Leg) (s : Tables × Publisher) :
    (emitTripRouteForLeg encode decoded t leg s).sent.filterMap Event.lookup? =
        (resolveLegGeometry encode false t leg s.1).sent ∧
      (emitTripRouteForLeg encode decoded t leg s).state.1 =
        (resolveLegGeometry encode false t leg s.1).state.1 ∧
      (emitTripRouteForLeg encode decoded t leg s).raised =
        (resolveLegGeometry encode false t leg s.1).raised := by
  rw [emitTripRouteForLeg]
  cases hraised : (resolveLegGeometry encode false t leg s.1).raised with
  | true =>
    refine ⟨?_, rfl, rfl⟩
    simpa using filterMap_lookup (resolveLegGeometry encode false t leg s.1).sent []
  | false => exact ⟨filterMap_lookup _ _, rfl, TripGeo.emitTripRouteForLeg_raised ..⟩

/-- What it says, if that does not raise, is what the geometry makes it say. -/
theorem emit_spoken {leg : Leg} {s : Tables × Publisher}
    (h : (emitTripRouteForLeg encode decoded t leg s).raised = false) :
    Says (emitTripRouteForLeg encode decoded t leg s)
      (TripGeo.emitTripRouteForLeg decoded t.toTrip leg
        (resolveLegGeometry encode false t leg s.1).state.2 s.2) := by
  rw [(emit_lookup encode decoded t leg s).2.2] at h
  refine ⟨?_, ?_, TripGeo.emitTripRouteForLeg_raised ..⟩ <;> rw [emitTripRouteForLeg, h]
  · exact filterMap_message _ _
  · rfl

theorem event_effect_closed : Closed fun (s : Tables × Publisher) (out : List Event) t ↦
    s.1.failedAt = Dict.empty → Effect s.1 (out.filterMap Event.lookup?) t.1 :=
  (effect_closed.comap Prod.fst).filterMap Event.lookup?

theorem emit_effect (t : Asking) (leg : Leg) (s : Tables × Publisher)
    (h : s.1.failedAt = Dict.empty) :
    Effect s.1 ((emitTripRouteForLeg encode decoded t leg s).sent.filterMap Event.lookup?)
      (emitTripRouteForLeg encode decoded t leg s).state.1 := by
  obtain ⟨hsent, hstate, _⟩ := emit_lookup encode decoded t leg s
  rw [hsent, hstate]
  exact resolve_effect h

theorem emit_raised (t : Asking) (leg : Leg) (s : Tables × Publisher)
    (h : s.1.failedAt = Dict.empty) :
    ((emitTripRouteForLeg encode decoded t leg s).raised = true ↔
      ∃ e ∈ (emitTripRouteForLeg encode decoded t leg s).sent, e.Failed) ∧
      (emitTripRouteForLeg encode decoded t leg s).state.1.failedAt = Dict.empty := by
  refine ⟨?_, (emit_effect t leg s h).untimed⟩
  obtain ⟨hsent, _, hraised⟩ := emit_lookup encode decoded t leg s
  rw [failed_iff, hsent, hraised]
  exact resolve_raised h

theorem maybeEmit_effect (t : Asking) (s : Tables × Publisher) (h : s.1.failedAt = Dict.empty) :
    Effect s.1 ((maybeEmitTripRoutes encode decoded t s).sent.filterMap Event.lookup?)
      (maybeEmitTripRoutes encode decoded t s).state.1 :=
  event_effect_closed.inOrder (emit_effect t) t.legs s h

theorem maybeEmit_raised (t : Asking) (s : Tables × Publisher) (h : s.1.failedAt = Dict.empty) :
    ((maybeEmitTripRoutes encode decoded t s).raised = true ↔
      ∃ e ∈ (maybeEmitTripRoutes encode decoded t s).sent, e.Failed) ∧
      (maybeEmitTripRoutes encode decoded t s).state.1.failedAt = Dict.empty :=
  Handled.inOrder_raised_iff (I := fun s : Tables × Publisher ↦ s.1.failedAt = Dict.empty)
    (emit_raised t) t.legs h

/-- The legs of a trip are told with some geometries that are sought for them. -/
theorem legs_say {legs : List Leg} (hn : legs.Nodup) {s : Tables × Publisher}
    (h : Good known s.1)
    (hraised : (Handled.inOrder (emitTripRouteForLeg encode decoded t) legs s).raised = false)
    (hout : Covers known ((Handled.inOrder (emitTripRouteForLeg encode decoded t) legs
      s).sent.filterMap Event.lookup?)) :
    ∃ geometry : Leg → Option String,
      (∀ leg ∈ legs, Sought encode known t.toTrip leg (geometry leg)) ∧
      Says (Handled.inOrder (emitTripRouteForLeg encode decoded t) legs s)
        (Handled.inOrder (fun leg ↦ TripGeo.emitTripRouteForLeg decoded t.toTrip leg
          (geometry leg)) legs s.2) := by
  induction legs generalizing s with
  | nil => exact ⟨fun _ ↦ none, by simp, rfl, rfl, rfl⟩
  | cons leg legs ih =>
    rw [List.nodup_cons] at hn
    rw [Handled.inOrder, Handled.andThen_raised, Bool.or_eq_false_iff] at hraised
    rw [Handled.inOrder, Handled.andThen_of_not_raised hraised.1, List.filterMap_append] at hout
    have hfirst : Covers known ((emitTripRouteForLeg encode decoded t leg s).sent.filterMap
        Event.lookup?) := fun l hl ↦ hout l (List.mem_append_left _ hl)
    obtain ⟨geometry, hsought, hsays⟩ := ih hn.2 (h.after (emit_effect t leg s) hfirst) hraised.2
      fun l hl ↦ hout l (List.mem_append_right _ hl)
    obtain ⟨hsent, _, hresolved⟩ := emit_lookup encode decoded t leg s
    have hnew := resolve_sought h (hresolved ▸ hraised.1) (hsent ▸ hfirst)
    refine ⟨Function.update geometry leg (resolveLegGeometry encode false t leg s.1).state.2,
      ?_, ?_⟩
    · intro leg' hleg'
      by_cases heq : leg' = leg
      · subst heq
        rwa [Function.update_self]
      · rw [Function.update_of_ne heq]
        exact hsought leg' ((List.mem_cons.mp hleg').resolve_left heq)
    · have hrest : ∀ p, Handled.inOrder (fun leg' ↦
      TripGeo.emitTripRouteForLeg decoded t.toTrip leg'
          (Function.update geometry leg (resolveLegGeometry encode false t leg s.1).state.2 leg'))
            legs p =
          Handled.inOrder (fun leg' ↦ TripGeo.emitTripRouteForLeg decoded t.toTrip leg'
            (geometry leg')) legs p := Handled.inOrder_congr fun leg' h' ↦ by
        rw [Function.update_of_ne (ne_of_mem_of_not_mem h' hn.1)]
      rw [Handled.inOrder, Handled.inOrder, Function.update_self]
      refine (emit_spoken hraised.1).andThen hraised.1 ?_
      rw [hrest]
      exact hsays

/-- So are the trips of a call. -/
theorem trips_say {trips : List Asking} {s : Tables × Publisher} (h : Good known s.1)
    (hraised : (Handled.inOrder (maybeEmitTripRoutes encode decoded) trips s).raised = false)
    (hout : Covers known ((Handled.inOrder (maybeEmitTripRoutes encode decoded) trips
      s).sent.filterMap Event.lookup?)) :
    ∃ found : List Resolved,
      List.Forall₂ (fun t r ↦ r.toTrip = t.toTrip ∧
        ∀ leg ∈ t.legs, Sought encode known t.toTrip leg (r.geometry leg)) trips found ∧
      Says (Handled.inOrder (maybeEmitTripRoutes encode decoded) trips s)
        (Handled.inOrder (TripGeo.maybeEmitTripRoutes decoded) found s.2) := by
  induction trips generalizing s with
  | nil => exact ⟨[], .nil, rfl, rfl, rfl⟩
  | cons t trips ih =>
    rw [Handled.inOrder, Handled.andThen_raised, Bool.or_eq_false_iff] at hraised
    rw [Handled.inOrder, Handled.andThen_of_not_raised hraised.1, List.filterMap_append] at hout
    have hfirst : Covers known ((maybeEmitTripRoutes encode decoded t s).sent.filterMap
        Event.lookup?) := fun l hl ↦ hout l (List.mem_append_left _ hl)
    obtain ⟨geometry, hsought, hsays⟩ := legs_say (legs_nodup t.toTrip) h hraised.1 hfirst
    obtain ⟨found, hfound, hrest⟩ := ih (h.after (maybeEmit_effect t s) hfirst) hraised.2
      fun l hl ↦ hout l (List.mem_append_right _ hl)
    refine ⟨⟨t.toTrip, geometry⟩ :: found, .cons ⟨rfl, hsought⟩ hfound, ?_⟩
    exact Says.andThen hsays hraised.1 hrest

end Legs

/-! ## A call as a whole -/

section Calls

variable {encode : List (ℚ × ℚ) → String} {decoded : String → Option ℕ} {w : World} {c : Tick}

theorem prefetched_effect (h : w.tables.failedAt = Dict.empty) :
    Effect w.tables (prefetched encode w c).sent (prefetched encode w c).state := by
  rw [prefetched, prefetchOsrmPolylines]
  split
  · exact effect_closed.refl _ h
  · exact Effect.of_underWay (arrivals_effect c.together _ h)

theorem finish_lookups (c : Tick) (s : Tables × Publisher) :
    (finish c s).sent.filterMap Event.lookup? = [] :=
  filterMap_lookup [] _

theorem finish_raised (c : Tick) (s : Tables × Publisher) : (finish c s).raised = false :=
  tripEnds_raised _ _

theorem publishTrips_effect (c : Tick) (s : Tables × Publisher) (h : s.1.failedAt = Dict.empty) :
    Effect s.1 ((publishTrips encode decoded c s).sent.filterMap Event.lookup?)
      (publishTrips encode decoded c s).state.1 := by
  have hloop := event_effect_closed.inOrder
    (@maybeEmit_effect encode decoded) c.trips s
  refine event_effect_closed.andThen hloop (fun hmid ↦ ?_) h
  rw [finish_lookups]
  exact effect_closed.refl _ hmid

/-- **The call raises** just when a lookup of the loop finds nothing. -/
theorem publishTrips_raised (c : Tick) (s : Tables × Publisher) (h : s.1.failedAt = Dict.empty) :
    (publishTrips encode decoded c s).raised = true ↔
      ∃ e ∈ (publishTrips encode decoded c s).sent, e.Failed := by
  obtain ⟨hloop, _⟩ := Handled.inOrder_raised_iff
    (I := fun s : Tables × Publisher ↦ s.1.failedAt = Dict.empty)
    (@maybeEmit_raised encode decoded) c.trips h
  rw [failed_iff] at hloop ⊢
  rw [publishTrips, Handled.andThen_raised, finish_raised, Bool.or_false, hloop, Handled.andThen]
  split
  · rfl
  · rw [List.filterMap_append, finish_lookups, List.append_nil]

theorem call_effect (h : w.tables.failedAt = Dict.empty) :
    Effect w.tables (lookups encode decoded w c) (answeredLater encode decoded w c).state :=
  effect_closed.trans (effect_closed.trans (fun _ ↦ prefetched_effect h)
    (publishTrips_effect c ((prefetched encode w c).state, w.publisher c.run)))
      (arrivals_effect c.afterwards _) h

theorem prefetched_pooled : ∀ l ∈ (prefetched encode w c).sent, l.pooled = true := by
  rw [prefetched, prefetchOsrmPolylines]
  split
  · simp
  · exact arrivals_pooled _ _

/-- The lookups of the loop are answered in it. -/
theorem mem_lookups_loop {l : Lookup} (h : l.pooled = false) :
    l ∈ lookups encode decoded w c ↔
      l ∈ (published encode decoded w c).sent.filterMap Event.lookup? := by
  constructor
  · intro hl
    rcases List.mem_append.mp hl with hl | hl
    · rcases List.mem_append.mp hl with hl | hl
      · exact absurd (prefetched_pooled l hl) (h ▸ Bool.false_ne_true)
      · exact hl
    · exact absurd (arrivals_pooled _ _ l hl) (h ▸ Bool.false_ne_true)
  · exact fun hl ↦ List.mem_append_left _ (List.mem_append_right _ hl)

theorem Sought.fits {t : Trip} {leg : Leg} {geometry : Option String}
    (h : Sought encode (RoadKnown encode decoded w c) t leg geometry) :
    Fits encode decoded w c t leg geometry := by
  rw [Fits]
  rw [Sought] at h
  split at h <;> simp_all

section Found

variable {R : Asking → Resolved → Prop} {found : List Resolved}

theorem found_ids {trips : List Asking}
    (h : List.Forall₂ (fun t r ↦ r.toTrip = t.toTrip ∧ R t r) trips found) :
    found.map (·.id) = trips.map (·.id) := by
  induction h with
  | nil => rfl
  | cons h _ ih => rw [List.map_cons, List.map_cons, ih, h.1]

/-- The trips that are found are those of the call that have an identifier. -/
theorem found_trips (h : List.Forall₂ (fun t r ↦ r.toTrip = t.toTrip ∧ R t r) c.trips found) :
    (TripGeo.Call.mk found).trips = found ∧ (TripGeo.Call.mk found).active = c.active := by
  have hids := found_ids h
  have htrips : (TripGeo.Call.mk found).trips = found := by
    refine List.filter_eq_self.mpr fun r hr ↦ ?_
    have hid : r.id ∈ c.trips.map (·.id) := hids ▸ List.mem_map_of_mem hr
    obtain ⟨t, ht, heq⟩ := List.mem_map.mp hid
    exact heq ▸ (List.mem_filter.mp ht).2
  refine ⟨htrips, ?_⟩
  rw [Call.active, htrips, hids, Tick.active]

end Found

/-- **What a call that does not raise says.** -/
theorem published_says (h : w.tables.failedAt = Dict.empty)
    (hraised : (published encode decoded w c).raised = false) :
    ∃ found : List Resolved,
      List.Forall₂ (fun t r ↦ r.toTrip = t.toTrip ∧
        ∀ leg ∈ t.legs, Fits encode decoded w c t.toTrip leg (r.geometry leg)) c.trips found ∧
      Says (published encode decoded w c)
        (publishFromHaulTrips decoded ⟨found⟩ (w.publisher c.run)) := by
  rw [published, publishTrips, Handled.andThen_raised, finish_raised, Bool.or_false] at hraised
  have hknown : Good (RoadKnown encode decoded w c) (prefetched encode w c).state :=
    Good.after ⟨h, fun _ _ ↦ Or.inl⟩ prefetched_effect fun l hl g hg ↦
      Or.inr ⟨l, List.mem_append_left _ (List.mem_append_left _ hl), rfl, hg⟩
  have hcovers : Covers (RoadKnown encode decoded w c)
      ((Handled.inOrder (maybeEmitTripRoutes encode decoded) c.trips
        ((prefetched encode w c).state, w.publisher c.run)).sent.filterMap Event.lookup?) := by
    intro l hl g hg
    refine Or.inr ⟨l, List.mem_append_left _ (List.mem_append_right _ ?_), rfl, hg⟩
    rw [published, publishTrips, Handled.andThen_of_not_raised hraised, List.filterMap_append]
    exact List.mem_append_left _ hl
  obtain ⟨found, hfound, hsays⟩ := trips_say hknown hraised hcovers
  refine ⟨found, hfound.imp fun _ _ h ↦ ⟨h.1, fun leg hleg ↦ (h.2 leg hleg).fits⟩, ?_⟩
  obtain ⟨htrips, hactive⟩ := found_trips hfound
  rw [published, publishTrips, publishFromHaulTrips, htrips, hactive,
    Handled.map_andThen hsays.raised]
  exact hsays.andThen hraised ⟨filterMap_message [] _, rfl, tripEnds_raised _ _⟩

/-- In a spared call an answer without a route takes the place of no route, and finds room. -/
theorem Spared.harmless (h : Spared encode decoded w c) {l : Lookup}
    (hl : l ∈ lookups encode decoded w c) (hnothing : l.answer.found = none) :
    l.before.cache.get? (osrmCacheKey l.ends) = some none ∨
      l.before.cache.get? (osrmCacheKey l.ends) = none ∧
        l.before.cache.size < OSRM_CACHE_MAX := by
  cases hpooled : l.pooled with
  | false => exact absurd hnothing (h.loop l hl hpooled)
  | true => exact h.together l hl hpooled hnothing

theorem Spared.roomy (h : Spared encode decoded w c) :
    ∀ l ∈ lookups encode decoded w c, l.Roomy := by
  intro l hl hnothing
  rcases h.harmless hl hnothing with hcached | ⟨-, hroom⟩
  · rw [Dict.contains, hcached]
    exact Or.inl rfl
  · exact Or.inr hroom

/-- **A spared call** costs nothing but routes of legs. -/
theorem Spared.costs (h : Spared encode decoded w c) (huntimed : w.tables.failedAt = Dict.empty)
    (hsize : w.tables.cache.size ≤ OSRM_CACHE_MAX) {w' : World}
    (hw' : w'.publisher c.run = (published encode decoded w c).state.2) :
    CostsOnlyItsLeg encode decoded w c w' := by
  have heffect : Effect w.tables (lookups encode decoded w c) _ := call_effect huntimed
  have hraised : (published encode decoded w c).raised = false := by
    refine Bool.eq_false_iff.mpr fun hraised ↦ ?_
    obtain ⟨l, hl, hloop, hnothing⟩ := failed_iff.mp
      ((publishTrips_raised c _ (prefetched_effect huntimed).untimed).mp hraised)
    exact h.loop l ((mem_lookups_loop hloop).mpr hl) hloop hnothing
  obtain ⟨found, hfits, hsays⟩ := published_says huntimed hraised
  refine ⟨hraised, ⟨found, hfits, hsays.sent, hw'.trans hsays.state⟩, ?_, ?_,
    (heffect.bounded hsize h.roomy).2⟩
  · refine fun l hl _ _ hkey ↦ (heffect.made l hl).keepsRoutes (fun hnothing g hcached ↦ ?_) hkey
    rcases h.harmless hl hnothing with hnone | ⟨hnone, -⟩
    · rw [hcached, Option.some_inj] at hnone
      cases hnone
    · rw [hcached] at hnone
      cases hnone
  · intro l hl key hkey
    rw [(heffect.made l hl).untimed] at hkey
    exact absurd hkey List.not_mem_nil

/-- Only a spared call does. -/
theorem CostsOnlyItsLeg.spared {w' : World} (h : CostsOnlyItsLeg encode decoded w c w')
    (huntimed : w.tables.failedAt = Dict.empty) : Spared encode decoded w c where
  loop l hl hloop hnothing := by
    have hraised := (publishTrips_raised c _ (prefetched_effect huntimed).untimed).mpr
      (failed_iff.mpr ⟨l, (mem_lookups_loop hloop).mp hl, hloop, hnothing⟩)
    exact Bool.false_ne_true (h.notRaised.symm.trans hraised)
  together l hl _ hnothing :=
    ((call_effect huntimed).made l hl).harmless hnothing (h.keepsRoutes l hl) (h.bounded l hl)

/-- **Failed lookups of a run** cost nothing but the routes of their legs just when none is made in
the loop of a call, and none of a pool ends when its key is cached with a route, or is not cached
and the cache is full. -/
theorem costsOnlyItsLeg_iff (encode : List (ℚ × ℚ) → String) (decoded : String → Option ℕ)
    (ticks : List Tick) :
    (publishing encode decoded).Along (CostsOnlyItsLeg encode decoded) {} ticks ↔
      (publishing encode decoded).Along (fun w c _ ↦ Spared encode decoded w c) {} ticks := by
  refine Machine.along_congr (I := fun w ↦ w.tables.failedAt = Dict.empty ∧
    w.tables.cache.size ≤ OSRM_CACHE_MAX) ?_ ⟨rfl, Nat.zero_le _⟩ ticks
  intro w c w' hw hstep
  obtain rfl := Option.some.inj hstep
  refine ⟨⟨fun h ↦ h.spared hw.1, fun h ↦ h.costs hw.1 hw.2 (Function.update_self ..)⟩,
    fun h ↦ ⟨(call_effect hw.1).untimed, ((call_effect hw.1).bounded hw.2 h.roomy).1⟩⟩

end Calls

/-! ## A lookup that finds nothing -/

/-- Two trips on their way to a pickup, one without a stored route. -/
def firstLookupFails : Tick :=
  { run := "r1"
    haulTrips :=
      [{ id := "t1", state := some "repositioning_to_pickup", currentLoc := some (0, 0),
          pickupLoc := some (1, 1), answer := fun _ ↦ .nothing },
        { id := "t2", state := some "repositioning_to_pickup",
          planned := fun _ ↦ some { geometry := some "ocsFotfxRsiDsiDsiDsiD" },
          answer := fun _ ↦ .nothing }] }

/-- The encoding of the line from `(0, 0)` to `(1, 1)`. -/
def diagonalLine (_ : List (ℚ × ℚ)) : String := "???_ibE_ibE"

/-- One lookup that finds nothing ends the call before anything is said. -/
theorem first_lookup_raises : ¬(publishing diagonalLine pointsOf).Along
    (CostsOnlyItsLeg diagonalLine pointsOf) {} [firstLookupFails] := by
  intro h
  have hraised : (published diagonalLine pointsOf {} firstLookupFails).raised = true := rfl
  exact Bool.false_ne_true ((h _ rfl).1.notRaised.symm.trans hraised)

end OpenRide.Haulage.RouteLookup
