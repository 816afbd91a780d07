import Mathlib.Data.List.Basic
import Mathlib.Tactic.Common

/-!
# Queues that take a message back

A consumer takes the messages off a queue one after the other.  Handling one has effects, and ends
in one of three ways: the consumer goes on, or it stops and puts the message back at the front, or
it stops and the message is gone.  `drainQueue` is the loop, with a record of every message it took.

Some messages are *due* an effect when they are taken.  The queue is `Kept` when every message that
is due one either had it, once, or is back where it was.  A consumer that never puts back a message
that is due anything keeps its queue exactly when all of those had their effect (`kept_iff`).
-/

set_option autoImplicit false

namespace Lib

variable {μ σ ε : Type}

/-- How the handling of a message ends. -/
inductive Ending where
  | next
  | putBack
  | dropped
deriving DecidableEq

/-- What the handling of one message does. -/
structure Round (σ ε : Type) where
  state : σ
  effects : List ε := []
  ending : Ending := .next

/-- A message that was taken: its number, the state it was taken in, and its effects. -/
structure Taken (μ σ ε : Type) where
  index : ℕ
  message : μ
  before : σ
  effects : List ε

/-- What the loop leaves. -/
structure Drained (μ σ ε : Type) where
  queue : List μ
  state : σ
  taken : List (Taken μ σ ε) := []

/-- The loop; `f k` handles the message that is taken as the `k`-th one. -/
def drainQueue (f : ℕ → μ → σ → Round σ ε) : ℕ → List μ → σ → Drained μ σ ε
  | _, [], s => ⟨[], s, []⟩
  | k, m :: q, s =>
    let r := f k m s
    match r.ending with
    | .next =>
      let out := drainQueue f (k + 1) q r.state
      { out with taken := ⟨k, m, s, r.effects⟩ :: out.taken }
    | .putBack => ⟨m :: q, r.state, [⟨k, m, s, r.effects⟩]⟩
    | .dropped => ⟨q, r.state, [⟨k, m, s, r.effects⟩]⟩

/-- Of the messages that were taken, those at the end are back at the front of the queue, in their
order and without any effect; of the others, every one that was due an effect had it once. -/
def Kept (due : μ → σ → Option ε) (q : List μ) (out : Drained μ σ ε) : Prop :=
  ∃ done back rest, out.taken = done ++ back ∧
    q = (done ++ back).map Taken.message ++ rest ∧ out.queue = back.map Taken.message ++ rest ∧
    (∀ t ∈ done, t.effects = (due t.message t.before).toList) ∧ ∀ t ∈ back, t.effects = []

section Kept

variable {f : ℕ → μ → σ → Round σ ε} {due : μ → σ → Option ε}

/-- Where the queue is cut: all that was taken is gone, except perhaps the last message. -/
theorem drainQueue_split (k : ℕ) (q : List μ) (s : σ) :
    ∃ done back rest, (drainQueue f k q s).taken = done ++ back ∧
      q = (done ++ back).map Taken.message ++ rest ∧
      (drainQueue f k q s).queue = back.map Taken.message ++ rest ∧
      ∀ t ∈ back, t.effects = (f t.index t.message t.before).effects ∧
        (f t.index t.message t.before).ending = .putBack := by
  induction q generalizing k s with
  | nil => exact ⟨[], [], [], rfl, rfl, rfl, nofun⟩
  | cons m q ih =>
    rw [drainQueue]
    split
    · obtain ⟨done, back, rest, htaken, hq, hqueue, hback⟩ := ih (k + 1) (f k m s).state
      refine ⟨⟨k, m, s, (f k m s).effects⟩ :: done, back, rest, ?_, ?_, hqueue, hback⟩
      · exact congrArg _ htaken
      · exact congrArg _ hq
    · next hback =>
      refine ⟨[], [⟨k, m, s, (f k m s).effects⟩], q, rfl, rfl, rfl, fun t ht ↦ ?_⟩
      obtain rfl := List.mem_singleton.mp ht
      exact ⟨rfl, hback⟩
    · exact ⟨[⟨k, m, s, (f k m s).effects⟩], [], q, rfl, rfl, rfl,
        nofun⟩

/-- What is recorded of a message is what its handling did. -/
theorem effects_of_taken {k : ℕ} {q : List μ} {s : σ} {t : Taken μ σ ε}
    (ht : t ∈ (drainQueue f k q s).taken) :
    t.effects = (f t.index t.message t.before).effects := by
  induction q generalizing k s with
  | nil => exact absurd ht List.not_mem_nil
  | cons m q ih =>
    rw [drainQueue] at ht
    split at ht
    · rcases List.mem_cons.mp ht with rfl | ht
      · rfl
      · exact ih ht
    · obtain rfl := List.mem_singleton.mp ht
      rfl
    · obtain rfl := List.mem_singleton.mp ht
      rfl

/-- **A queue is kept** by a consumer that never puts back what is due an effect, exactly when every
message that was due one was taken under the conditions it is had under. -/
theorem kept_iff {goes : ℕ → μ → σ → Prop}
    (hidle : ∀ k m s, due m s = none → (f k m s).effects = [])
    (hback : ∀ k m s, (f k m s).ending = .putBack → due m s = none)
    (hgoes : ∀ k m s e, due m s = some e → ((f k m s).effects = [e] ↔ goes k m s))
    (k : ℕ) (q : List μ) (s : σ) :
    Kept due q (drainQueue f k q s) ↔
      ∀ t ∈ (drainQueue f k q s).taken, (due t.message t.before).isSome →
        goes t.index t.message t.before := by
  constructor
  · rintro ⟨done, back, rest, htaken, hq, hqueue, hdone, -⟩ t ht hdue
    obtain ⟨e, he⟩ := Option.isSome_iff_exists.mp hdue
    obtain ⟨done', back', rest', htaken', hq', hqueue', hput⟩ := @drainQueue_split _ _ _ f k q s
    -- both splits cut the same lists, so they are the same
    have hsame : done ++ back = done' ++ back' := htaken.symm.trans htaken'
    have hrest : rest = rest' := by
      rw [hsame] at hq
      exact List.append_cancel_left (hq.symm.trans hq')
    subst hrest
    have hmap : back.map Taken.message = back'.map Taken.message :=
      List.append_cancel_right (hqueue.symm.trans hqueue')
    have hlen : back.length = back'.length := by
      simpa only [List.length_map] using congrArg List.length hmap
    obtain ⟨rfl, rfl⟩ := List.append_inj' hsame hlen
    have hmem := ht
    rw [htaken] at ht
    rcases List.mem_append.mp ht with ht | ht
    · refine (hgoes _ _ _ e he).mp ?_
      rw [← effects_of_taken hmem, hdone t ht, he]
      rfl
    · have hnone := hback _ _ _ (hput t ht).2
      rw [hnone] at he
      cases he
  · intro h
    obtain ⟨done, back, rest, htaken, hq, hqueue, hput⟩ := @drainQueue_split _ _ _ f k q s
    refine ⟨done, back, rest, htaken, hq, hqueue, fun t ht ↦ ?_, fun t ht ↦ ?_⟩
    · have hmem : t ∈ (drainQueue f k q s).taken := htaken ▸ List.mem_append_left back ht
      rw [effects_of_taken hmem]
      cases hdue : due t.message t.before with
      | none => exact hidle _ _ _ hdue
      | some e => exact (hgoes _ _ _ e hdue).mpr (h t hmem (hdue ▸ rfl))
    · obtain ⟨heffects, hending⟩ := hput t ht
      exact heffects.trans (hidle _ _ _ (hback _ _ _ hending))

end Kept

end Lib
