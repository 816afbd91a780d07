import Mathlib.Data.List.Nodup
import Mathlib.Tactic.Common

/-!
# Work that may break off

An attempt leaves a state whether it ends or raises; what was done before it raised stays done.
`andThen` goes on with the next piece of work unless the first raised.

A bulk insert that raises has stored some of its documents, any of them (`insertMany`), and one in
chunks may have come to any of these (`insertChunks_spec`).  What is stored is a sublist of what was
to be stored, so of a key that occurs once there is at most one document (`filter_key_sublist`).
-/

set_option autoImplicit false

namespace Lib

variable {σ α β δ κ : Type}

/-- The state an attempt leaves, and its result unless it raised. -/
structure Attempted (σ α : Type) where
  state : σ
  result : Option α

namespace Attempted

/-- Go on with a result. -/
def andThen (x : Attempted σ α) (f : α → σ → Attempted σ β) : Attempted σ β :=
  match x.result with
  | none => ⟨x.state, none⟩
  | some a => f a x.state

/-- **A sequence ends** when its first piece does and the rest does with its result. -/
theorem andThen_eq_some {x : Attempted σ α} {f : α → σ → Attempted σ β} {b : β}
    (h : (x.andThen f).result = some b) :
    ∃ a, x.result = some a ∧ (f a x.state).result = some b ∧
      (x.andThen f).state = (f a x.state).state := by
  rw [andThen] at h ⊢
  cases hx : x.result with
  | none =>
    rw [hx] at h
    cases h
  | some a =>
    rw [hx] at h
    exact ⟨a, rfl, h, rfl⟩

/-- **What every piece of work keeps** a sequence keeps. -/
theorem andThen_state {x : Attempted σ α} {f : α → σ → Attempted σ β} {P : σ → Prop}
    (hx : P x.state) (hf : ∀ a, x.result = some a → P (f a x.state).state) :
    P (x.andThen f).state := by
  rw [andThen]
  cases h : x.result with
  | none => exact hx
  | some a => exact hf a h

end Attempted

/-! ## Bulk inserts -/

/-- How an unordered bulk insert ends: it returns, or it raises and has stored some documents, by
position. -/
inductive BulkOutcome where
  | returned
  | raised (stored : ℕ → Bool)

/-- The documents at the positions that were stored. -/
def storedOf (stored : ℕ → Bool) (docs : List δ) : List δ :=
  (docs.zipIdx.filter fun d ↦ stored d.2).map Prod.fst

theorem storedOf_sublist (stored : ℕ → Bool) (docs : List δ) :
    (storedOf stored docs).Sublist docs := by
  have hsub := (List.filter_sublist (l := docs.zipIdx) (p := fun d ↦ stored d.2)).map Prod.fst
  rwa [List.zipIdx_map_fst] at hsub

/-- `insert_many(docs, ordered=False)`. -/
def insertMany (outcome : BulkOutcome) (docs coll : List δ) : Attempted (List δ) Unit :=
  match outcome with
  | .returned => ⟨coll ++ docs, some ()⟩
  | .raised stored => ⟨coll ++ storedOf stored docs, none⟩

theorem insertMany_spec (outcome : BulkOutcome) (docs coll : List δ) :
    ∃ added, added.Sublist docs ∧ (insertMany outcome docs coll).state = coll ++ added ∧
      ((insertMany outcome docs coll).result = some () → added = docs) := by
  cases outcome with
  | returned => exact ⟨docs, List.Sublist.refl docs, rfl, fun _ ↦ rfl⟩
  | raised stored =>
    refine ⟨storedOf stored docs, storedOf_sublist stored docs, rfl, fun h ↦ ?_⟩
    simp [insertMany] at h

/-- One bulk insert for each chunk; the result is how many documents were inserted. -/
def insertChunks (outcome : ℕ → BulkOutcome) : ℕ → List (List δ) → List δ →
    Attempted (List δ) ℕ
  | _, [], coll => ⟨coll, some 0⟩
  | k, chunk :: chunks, coll =>
    (insertMany (outcome k) chunk coll).andThen fun _ coll ↦
      (insertChunks outcome (k + 1) chunks coll).andThen fun n coll ↦
        ⟨coll, some (chunk.length + n)⟩

theorem insertChunks_spec (outcome : ℕ → BulkOutcome) (k : ℕ) (chunks : List (List δ))
    (coll : List δ) :
    ∃ added, added.Sublist chunks.flatten ∧
      (insertChunks outcome k chunks coll).state = coll ++ added ∧
      ∀ n, (insertChunks outcome k chunks coll).result = some n →
        added = chunks.flatten ∧ n = chunks.flatten.length := by
  induction chunks generalizing k coll with
  | nil =>
    refine ⟨[], List.Sublist.refl [], (List.append_nil coll).symm, fun n hn ↦ ⟨rfl, ?_⟩⟩
    exact (Option.some_inj.mp hn).symm
  | cons chunk chunks ih =>
    obtain ⟨first, hfirst, hstate, hall⟩ := insertMany_spec (outcome k) chunk coll
    rw [insertChunks, Attempted.andThen]
    cases hresult : (insertMany (outcome k) chunk coll).result with
    | none =>
      exact ⟨first, hfirst.trans (List.sublist_append_left _ _), hstate, fun n hn ↦ by cases hn⟩
    | some u =>
      obtain ⟨rest, hrest, hstate', hall'⟩ := ih (k + 1) (coll ++ first)
      have hfirst' := hall hresult
      refine ⟨first ++ rest, hfirst.append hrest, ?_, fun n hn ↦ ?_⟩
      · dsimp only
        rw [hstate, ← List.append_assoc, ← hstate']
        rw [Attempted.andThen]
        split <;> rfl
      · dsimp only at hn
        rw [hstate] at hn
        obtain ⟨m, hm, hn, -⟩ := Attempted.andThen_eq_some hn
        obtain ⟨hrest', rfl⟩ := hall' m hm
        refine ⟨by rw [hfirst', hrest', List.flatten_cons], ?_⟩
        rw [List.flatten_cons, List.length_append]
        exact (Option.some_inj.mp hn).symm

/-- `for start in range(0, len(docs), n): docs[start:start + n]`. -/
def chunksOf (n : ℕ) (docs : List δ) : List (List δ) :=
  (List.range ((docs.length + n - 1) / n)).map fun k ↦ (docs.drop (k * n)).take n

theorem flatten_chunksOf {n : ℕ} (hn : 0 < n) (docs : List δ) :
    (chunksOf n docs).flatten = docs := by
  have hprefix : ∀ k, ((List.range k).map fun k ↦ (docs.drop (k * n)).take n).flatten =
      docs.take (k * n) := by
    intro k
    induction k with
    | zero => simp
    | succ k ih =>
      rw [List.range_succ, List.map_append, List.flatten_append, ih, List.map_singleton,
        List.flatten_singleton, Nat.succ_mul, List.take_add]
  rw [chunksOf, hprefix]
  refine List.take_of_length_le ?_
  have hmod := Nat.div_add_mod (docs.length + n - 1) n
  have hlt := Nat.mod_lt (docs.length + n - 1) hn
  rw [Nat.mul_comm]
  omega

/-! ## Documents by a key -/

variable [DecidableEq κ]

/-- Of a key that occurs once there is one document. -/
theorem filter_key {key : δ → κ} {l : List δ} (hl : (l.map key).Nodup) {a : δ} (ha : a ∈ l) :
    (l.filter fun b ↦ key b = key a) = [a] := by
  induction l with
  | nil => simp at ha
  | cons b l ih =>
    rw [List.map_cons, List.nodup_cons] at hl
    rcases List.mem_cons.mp ha with rfl | ha
    · rw [List.filter_cons_of_pos (by simp), List.cons.injEq, List.filter_eq_nil_iff]
      refine ⟨rfl, fun c hc hkey ↦ hl.1 ?_⟩
      exact of_decide_eq_true hkey ▸ List.mem_map_of_mem hc
    · have hne : key b ≠ key a := fun h ↦ hl.1 (h ▸ List.mem_map_of_mem ha)
      rw [List.filter_cons_of_neg (by simpa using hne), ih hl.2 ha]

/-- Of some of these documents there is at most that one. -/
theorem filter_key_sublist {key : δ → κ} {l l' : List δ} (hl : (l.map key).Nodup)
    (hsub : l'.Sublist l) {a : δ} (ha : a ∈ l) :
    (l'.filter fun b ↦ key b = key a) = [] ∨ (l'.filter fun b ↦ key b = key a) = [a] := by
  have hfilter := hsub.filter fun b ↦ decide (key b = key a)
  rw [filter_key hl ha] at hfilter
  exact List.sublist_singleton.mp hfilter

end Lib
