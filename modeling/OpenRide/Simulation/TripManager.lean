import OpenRide.Lib.Requests

/-!
# Transitions of a trip, over a network

Every agent that travels keeps a copy of the document of its trip and changes the document by
transitions of its state machine, one PATCH each.  `applyTripTransitionAndNotify` makes a
transition, reads the document again and tells whoever is to know.  The base class is shared; what
the server makes of a transition, what is told, and what a failing GET raises belong to the agents.

A PATCH that is answered with an error status raises nothing: the caller gets the response, and it
is the caller's to look at it.
-/

namespace OpenRide.Simulation

open Lib

/-- The exceptions that are told apart. -/
inductive TripError where
  /-- `WriteFailedException`. -/
  | writeFailed
  /-- `RefreshException`. -/
  | refreshFailed
  | other
deriving DecidableEq

/-- `self.trip`: nothing, the id alone, or a document as it was read. -/
inductive TripCopy (δ : Type) where
  | unset
  | stub
  | doc (d : δ)
deriving DecidableEq

/-- A trip on the server, and the copy. -/
structure TripManager (δ : Type) where
  stored : δ
  trip : TripCopy δ
deriving DecidableEq

/-- How an attempt to make a transition ends. -/
structure Attempt (δ ω : Type) where
  manager : TripManager δ
  /-- What was handed to the messenger. -/
  handed : List ω := []
  /-- Whether the server has made the transition. -/
  carriedOut : Bool := false
  raised : Option TripError := none
deriving DecidableEq

section

variable {δ ω : Type}

/-- `refresh`, of a trip that is set; `refused` is what the agent raises on an error status. -/
def refresh (refused : TripError) (get : ReadOutcome) (m : TripManager δ) :
    TripManager δ × Option TripError :=
  match get with
  | .answered => ({ m with trip := .doc m.stored }, none)
  | .refused => (m, some refused)
  | .raised => (m, some .other)

/-- `apply_trip_transition_and_notify`.  `next` is what the server makes of the transition, `hook`
what the agent tells of the document once it is read again.  Without an `_etag` in the copy there is
no PATCH to send. -/
def applyTripTransitionAndNotify (refused : TripError) (next : δ → Option δ)
    (hook : δ → List ω × Option TripError) (patch : WriteOutcome) (get : ReadOutcome)
    (m : TripManager δ) : Attempt δ ω :=
  match m.trip with
  | .unset => ⟨m, [], false, some .other⟩
  | .stub => ⟨m, [], false, some .other⟩
  | .doc trip =>
    match patch.carryOut (next m.stored) with
    | none => ⟨m, [], false, if patch.raises then some .other else none⟩
    | some d =>
      if patch.raises then ⟨⟨d, .doc trip⟩, [], true, some .other⟩
      else
        match refresh refused get ⟨d, .doc trip⟩ with
        | (m', some e) => ⟨m', [], true, some e⟩
        | (m', none) => ⟨m', (hook d).1, true, (hook d).2⟩

variable {refused : TripError} {next : δ → Option δ} {hook : δ → List ω × Option TripError}
  {patch : WriteOutcome} {get : ReadOutcome} {m : TripManager δ}

/-- A transition the server does not make leaves everything as it was, and tells nobody. -/
theorem attempt_of_not_carriedOut {trip : δ} (htrip : m.trip = .doc trip)
    (h : patch.carryOut (next m.stored) = none) :
    applyTripTransitionAndNotify refused next hook patch get m =
      ⟨m, [], false, if patch.raises then some .other else none⟩ := by
  rw [applyTripTransitionAndNotify, htrip]
  rw [h]

/-- What becomes of a transition the server makes. -/
theorem attempt_of_carriedOut {trip d : δ} (htrip : m.trip = .doc trip)
    (h : patch.carryOut (next m.stored) = some d) :
    (patch = .answered ∧ get = .answered ∧
        applyTripTransitionAndNotify refused next hook patch get m =
          ⟨⟨d, .doc d⟩, (hook d).1, true, (hook d).2⟩) ∨
      ((patch ≠ .answered ∨ get ≠ .answered) ∧ ∃ e, (e = .other ∨ e = refused) ∧
        applyTripTransitionAndNotify refused next hook patch get m =
          ⟨⟨d, .doc trip⟩, [], true, some e⟩) := by
  have harrives := (WriteOutcome.carryOut_eq_some.mp h).1
  rw [applyTripTransitionAndNotify, htrip]
  rw [h]
  cases patch with
  | refused => cases harrives
  | lost => cases harrives
  | unanswered => exact Or.inr ⟨Or.inl (by simp), _, Or.inl rfl, rfl⟩
  | answered =>
    cases get with
    | answered => exact Or.inl ⟨rfl, rfl, rfl⟩
    | refused => exact Or.inr ⟨Or.inr (by simp), _, Or.inr rfl, rfl⟩
    | raised => exact Or.inr ⟨Or.inr (by simp), _, Or.inl rfl, rfl⟩

/-- Without a document to write to there is no transition. -/
theorem attempt_of_no_doc (h : ∀ d, m.trip ≠ .doc d) :
    applyTripTransitionAndNotify refused next hook patch get m = ⟨m, [], false, some .other⟩ := by
  rw [applyTripTransitionAndNotify]
  cases htrip : m.trip with
  | unset => rfl
  | stub => rfl
  | doc d => exact absurd htrip (h d)

/-- The server has made the transition exactly when it decided on it, and for it. -/
theorem attempt_carriedOut {trip : δ} (htrip : m.trip = .doc trip) :
    (applyTripTransitionAndNotify refused next hook patch get m).carriedOut =
      (patch.carryOut (next m.stored)).isSome := by
  cases h : patch.carryOut (next m.stored) with
  | none => rw [attempt_of_not_carriedOut htrip h, Option.isSome_none]
  | some d =>
    rcases @attempt_of_carriedOut _ _ refused _ hook _ get _ _ _ htrip h with
      ⟨-, -, heq⟩ | ⟨-, e, -, heq⟩ <;> rw [heq, Option.isSome_some]

/-- An attempt raises `WriteFailedException` only where refreshing or the hook does. -/
theorem attempt_raised_ne (hrefused : refused ≠ .writeFailed)
    (hhook : ∀ d, (hook d).2 ≠ some .writeFailed) :
    (applyTripTransitionAndNotify refused next hook patch get m).raised ≠ some .writeFailed := by
  by_cases hdoc : ∃ trip, m.trip = .doc trip
  · obtain ⟨trip, htrip⟩ := hdoc
    cases h : patch.carryOut (next m.stored) with
    | none =>
      rw [attempt_of_not_carriedOut htrip h]
      cases patch.raises <;> simp
    | some d =>
      rcases @attempt_of_carriedOut _ _ refused _ hook _ get _ _ _ htrip h with
        ⟨-, -, heq⟩ | ⟨-, e, he, heq⟩
      · rw [heq]
        exact hhook d
      · rw [heq]
        rcases he with rfl | rfl
        · simp
        · simpa using hrefused
  · rw [attempt_of_no_doc fun d hd ↦ hdoc ⟨d, hd⟩]
    simp

end

end OpenRide.Simulation
