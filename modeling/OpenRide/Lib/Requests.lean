import Mathlib.Tactic.Common

/-!
# Requests that may fail

A client keeps a copy of a document of a server.  A request to change the document comes back with
an answer, or raises; it may raise before the server has seen the request or after the server has
carried it out, and the client cannot tell which.  `WriteOutcome.carryOut` is what the server makes
of a request it would accept, whatever the client learns of it.
-/

set_option autoImplicit false

namespace Lib

/-- What comes of a request that changes a document. -/
inductive WriteOutcome where
  /-- An error status, whatever the document. -/
  | refused
  /-- An exception, and the server has not seen the request. -/
  | lost
  /-- An exception, although the server has decided on the request. -/
  | unanswered
  /-- The server's decision. -/
  | answered
deriving DecidableEq

/-- What comes of a request that reads a document. -/
inductive ReadOutcome where
  | refused
  | raised
  | answered
deriving DecidableEq

namespace WriteOutcome

/-- Does the server decide on the request? -/
def arrives : WriteOutcome → Bool
  | refused => false
  | lost => false
  | unanswered => true
  | answered => true

/-- Does the request raise? -/
def raises : WriteOutcome → Bool
  | refused => false
  | lost => true
  | unanswered => true
  | answered => false

/-- What the server makes of a request, given what it decides. -/
def carryOut {δ : Type} (o : WriteOutcome) (next : Option δ) : Option δ :=
  if o.arrives then next else none

variable {δ : Type} {o : WriteOutcome} {next : Option δ}

theorem carryOut_of_arrives (h : o.arrives = true) : o.carryOut next = next := if_pos h

theorem carryOut_eq_some {d : δ} : o.carryOut next = some d ↔ o.arrives = true ∧ next = some d := by
  cases o <;> simp [carryOut, arrives]

theorem carryOut_isSome :
    (o.carryOut next).isSome = true ↔ o.arrives = true ∧ next.isSome = true := by
  cases o <;> simp [carryOut, arrives]

end WriteOutcome

end Lib
