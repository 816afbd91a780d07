import Mathlib.Data.List.Sort
import Mathlib.Order.Basic

/-!
# Folds whose steps commute

A list is folded into a state.  Each element has a thread, and steps of different threads commute,
up to a relation `r` between states.  Then all that matters of the list is what each thread does in
it: two lists that hold the same elements of every thread in the same order lead to related states
(`foldl_of_filter_eq`).

Two lists of the same elements, both in the order of a rank that tells the elements of one thread
apart, are such lists (`filter_eq_of_sorted`).
-/

set_option autoImplicit false

namespace Lib

variable {α σ κ : Type} [DecidableEq κ]

/-- Steps keep related states related, and steps of different threads commute. -/
structure Commuting (r : σ → σ → Prop) (step : σ → α → σ) (thread : α → κ) : Prop where
  equivalence : Equivalence r
  congr : ∀ a {s s' : σ}, r s s' → r (step s a) (step s' a)
  comm : ∀ {a b : α}, thread a ≠ thread b → ∀ s, r (step (step s a) b) (step (step s b) a)

namespace Commuting

variable {r : σ → σ → Prop} {step : σ → α → σ} {thread : α → κ}

omit [DecidableEq κ] in
theorem foldl (h : Commuting r step thread) (l : List α) {s s' : σ} (hs : r s s') :
    r (l.foldl step s) (l.foldl step s') := by
  induction l generalizing s s' with
  | nil => exact hs
  | cons a l ih => exact ih (h.congr a hs)

omit [DecidableEq κ] in
/-- An element may be folded before those of other threads. -/
theorem foldl_first (h : Commuting r step thread) {a : α} {p : List α}
    (hp : ∀ b ∈ p, thread b ≠ thread a) (q : List α) (s : σ) :
    r ((p ++ q).foldl step (step s a)) ((p ++ a :: q).foldl step s) := by
  induction p generalizing s with
  | nil => exact h.equivalence.refl _
  | cons b p ih =>
    obtain ⟨hb, hp⟩ := List.forall_mem_cons.mp hp
    exact h.equivalence.trans (h.foldl (p ++ q) (h.comm hb.symm s)) (ih hp (step s b))

/-- **Only the order within each thread matters to the fold.** -/
theorem foldl_of_filter_eq (h : Commuting r step thread) {l l' : List α}
    (hl : ∀ k, (l.filter fun a ↦ thread a = k) = l'.filter fun a ↦ thread a = k) (s : σ) :
    r (l.foldl step s) (l'.foldl step s) := by
  induction l generalizing l' s with
  | nil =>
    cases l' with
    | nil => exact h.equivalence.refl s
    | cons a l' => simpa using hl (thread a)
  | cons a l ih =>
    -- the first element of its thread in `l'` is the same one, so it may be taken out
    obtain ⟨p, q, rfl, hp, -, hq⟩ := List.filter_eq_cons_iff.mp
      ((hl (thread a)).symm.trans (List.filter_cons_of_pos (decide_eq_true rfl)))
    have hp : ∀ b ∈ p, thread b ≠ thread a := fun b hb ↦ by simpa using hp b hb
    refine h.equivalence.trans (ih (fun k ↦ ?_) (step s a)) (h.foldl_first hp q s)
    have hk := hl k
    rw [List.filter_append] at hk ⊢
    by_cases hak : thread a = k
    · subst hak
      have hnil : (p.filter fun b ↦ thread b = thread a) = [] :=
        List.filter_eq_nil_iff.mpr fun b hb ↦ by simpa using hp b hb
      rw [hnil, List.nil_append]
      exact hq.symm
    · rwa [List.filter_cons_of_neg (by simpa using hak),
        List.filter_cons_of_neg (by simpa using hak)] at hk

end Commuting

/-- In the order of a rank that tells the elements of a thread apart, the elements of a thread have
one order only. -/
theorem filter_eq_of_sorted {ρ : Type} [LinearOrder ρ] {rank : α → ρ} {thread : α → κ}
    {l l' : List α} (hperm : l.Perm l') (hl : l.Pairwise fun a b ↦ rank a ≤ rank b)
    (hl' : l'.Pairwise fun a b ↦ rank a ≤ rank b)
    (hapart : l.Pairwise fun a b ↦ thread a = thread b → rank a ≠ rank b) (k : κ) :
    (l.filter fun a ↦ thread a = k) = l'.filter fun a ↦ thread a = k := by
  have hapart' : l'.Pairwise fun a b ↦ thread a = thread b → rank a ≠ rank b :=
    (hperm.pairwise_iff fun {a b} h e ↦ (h e.symm).symm).mp hapart
  have hlt : ∀ m : List α, m.Pairwise (fun a b ↦ rank a ≤ rank b) →
      m.Pairwise (fun a b ↦ thread a = thread b → rank a ≠ rank b) →
      (m.filter fun a ↦ thread a = k).Pairwise fun a b ↦ rank a < rank b := by
    intro m hle hne
    refine List.pairwise_filter.mpr ((hle.and hne).imp fun hab ha hb ↦ ?_)
    have hsame := (of_decide_eq_true ha).trans (of_decide_eq_true hb).symm
    exact lt_of_le_of_ne hab.1 (hab.2 hsame)
  exact (hperm.filter _).eq_of_pairwise (fun a b _ _ hab hba ↦ absurd hab (lt_asymm hba))
    (hlt l hl hapart) (hlt l' hl' hapart')

end Lib
