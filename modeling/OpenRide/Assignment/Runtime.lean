import Mathlib.Data.List.Perm.Subperm
import OpenRide.Lib.Double

/-!
# What the planner takes from the language's runtime

The planner calls three things it does not define: a hash (`blake2b`, read as an integer), a random
generator (`shuffle` and `sample`) and floating-point rounding.  They are the fields of `Runtime`,
with what their documentation promises as proof fields: a shuffle permutes, a sample draws its
elements from the list, each at most once.

A callable handed to the planner — a cost, a policy — may raise, so it returns in `Except PyExc`;
which handler catches which exception is part of the model.  A tick that is aborted is aborted by
such an exception or by an assertion of the planner's own, and `TickError` keeps the two apart.
-/

namespace OpenRide.Assignment

open Lib

/-- The exceptions a callable can raise. -/
inductive PyExc where
  /-- `TypeError`. -/
  | typeError
  /-- `ValueError`. -/
  | valueError
  /-- Any other `Exception`. -/
  | other
deriving DecidableEq

/-- What `except (TypeError, ValueError)` catches. -/
def PyExc.isTypeOrValue : PyExc → Bool
  | .typeError => true
  | .valueError => true
  | _ => false

/-- What a tick can be aborted by. -/
inductive TickError where
  /-- An exception of a callable that no handler caught. -/
  | raised (e : PyExc)
  /-- A failed assertion of the planner, with its message. -/
  | assertion (message : String)
deriving DecidableEq

/-- The runtime a planner runs on; `σ` is the state of its random generator. -/
structure Runtime (σ : Type) where
  /-- `int.from_bytes(blake2b(payload, digest_size=8).digest(), "big")`. -/
  blake2b : String → ℕ
  /-- The binary64 nearest to a rational. -/
  rnd : ℚ → Double
  /-- `round(x, 3)`. -/
  round3 : Double → Double
  /-- `rng.shuffle`, returning the shuffled list and the generator after it. -/
  shuffle : {α : Type} → σ → List α → List α × σ
  /-- A shuffle permutes. -/
  shuffle_perm : ∀ {α : Type} (s : σ) (l : List α), (shuffle s l).1.Perm l
  /-- `rng.sample(population, k)`. -/
  sample : {α : Type} → σ → List α → ℕ → List α × σ
  /-- A sample takes its elements from the population, each position at most once. -/
  sample_subperm : ∀ {α : Type} (s : σ) (l : List α) (k : ℕ), (sample s l k).1.Subperm l

/-- The runtime whose shuffle keeps the order and whose sample takes the first elements. -/
def Runtime.plain (blake2b : String → ℕ) : Runtime Unit where
  blake2b := blake2b
  rnd := Double.fin
  round3 := id
  shuffle s l := (l, s)
  shuffle_perm _ l := List.Perm.refl l
  sample s l k := (l.take k, s)
  sample_subperm _ l k := (l.take_sublist k).subperm

/-- A value a callable returns where a number is expected: a number, or something `float` rejects
with a `TypeError`. -/
inductive NumArg where
  | num (x : Double)
  | notNumber
deriving DecidableEq

/-- `float(value)`. -/
def NumArg.toFloat : NumArg → Except PyExc Double
  | .num x => .ok x
  | .notNumber => .error .typeError

end OpenRide.Assignment
