import Mathlib.Algebra.BigOperators.Group.Finset.Sigma
import Mathlib.Algebra.BigOperators.Group.List.Basic
import Mathlib.Algebra.Order.BigOperators.Group.List
import Mathlib.Algebra.Order.Ring.Rat
import Mathlib.Data.List.Perm.Subperm
import Mathlib.Tactic.Linarith

/-!
# Assigning the members of one side to those of another

Two ways to find an assignment in which nobody occurs twice.

`assignEach` goes through one side in order and gives each member what a choice function finds for
it among what is not taken; who finds nothing goes without.  Whatever the choice function says of
what it finds holds of all pairs (`assignEach_spec`).

The other way is to round a fractional assignment: of weights that are not negative and add up to at
most one, at most one is over a half (`unique_over_half`).  When they are zeros and ones already,
the sum over all weights is that over what the rounding finds (`sum_found`), and a set of pairs has
the sum of its table of zeros and ones (`sum_table`).
-/

set_option autoImplicit false

namespace Lib

/-! ## One after the other -/

section AssignEach

variable {δ ι : Type}

/-- Each member of a list gets what `choose` finds for it among what is not taken. -/
def assignEach (choose : δ → List ι → Option ι) : List ι → List δ → List (δ × ι)
  | _, [] => []
  | taken, d :: ds =>
    match choose d taken with
    | none => assignEach choose taken ds
    | some i => (d, i) :: assignEach choose (i :: taken) ds

variable {choose : δ → List ι → Option ι} {P : δ → ι → Prop}

theorem assignEach_sublist (taken : List ι) (ds : List δ) :
    ((assignEach choose taken ds).map Prod.fst).Sublist ds := by
  induction ds generalizing taken with
  | nil => exact List.Sublist.refl []
  | cons d ds ih =>
    rw [assignEach]
    split
    · exact (ih taken).cons d
    · exact (ih _).cons_cons d

/-- **Nothing is given twice**, and every pair is one that `choose` found. -/
theorem assignEach_spec
    (hchoose : ∀ d taken i, choose d taken = some i → i ∉ taken ∧ P d i) (taken : List ι)
    (ds : List δ) :
    ((assignEach choose taken ds).map Prod.snd).Nodup ∧
      ∀ x ∈ assignEach choose taken ds, x.2 ∉ taken ∧ P x.1 x.2 := by
  induction ds generalizing taken with
  | nil => exact ⟨List.nodup_nil, nofun⟩
  | cons d ds ih =>
    rw [assignEach]
    split
    · exact ih taken
    · next i hi =>
      obtain ⟨hfree, hP⟩ := hchoose d taken i hi
      obtain ⟨hnodup, hall⟩ := ih (i :: taken)
      refine ⟨List.nodup_cons.mpr ⟨fun hmem ↦ ?_, hnodup⟩, fun x hx ↦ ?_⟩
      · obtain ⟨x, hx, rfl⟩ := List.mem_map.mp hmem
        exact (hall x hx).1 List.mem_cons_self
      · rcases List.mem_cons.mp hx with rfl | hx
        · exact ⟨hfree, hP⟩
        · exact ⟨fun hmem ↦ (hall x hx).1 (List.mem_cons_of_mem i hmem), (hall x hx).2⟩

end AssignEach

/-! ## Rounding -/

variable {α : Type} {l : List α}

/-- **At most one weight is over a half.** -/
theorem unique_over_half {f : α → ℚ} (hf : ∀ a ∈ l, 0 ≤ f a) (hsum : (l.map f).sum ≤ 1) {a b : α}
    (ha : a ∈ l) (hb : b ∈ l) (hfa : 1 / 2 < f a) (hfb : 1 / 2 < f b) : a = b := by
  by_contra hne
  obtain ⟨s, t, rfl⟩ := List.append_of_mem ha
  have hrest : b ∈ s ++ t := by
    rcases List.mem_append.mp hb with hb | hb
    · exact List.mem_append_left t hb
    · exact List.mem_append_right s ((List.mem_cons.mp hb).resolve_left (Ne.symm hne))
  have hsplit : ((s ++ a :: t).map f).sum = f a + ((s ++ t).map f).sum := by
    simp only [List.map_append, List.map_cons, List.sum_append, List.sum_cons]
    exact add_left_comm _ _ _
  have hle : f b ≤ ((s ++ t).map f).sum := by
    refine List.single_le_sum (fun x hx ↦ ?_) _ (List.mem_map_of_mem hrest)
    obtain ⟨c, hc, rfl⟩ := List.mem_map.mp hx
    refine hf c ?_
    rcases List.mem_append.mp hc with hc | hc
    · exact List.mem_append_left _ hc
    · exact List.mem_append_right s (List.mem_cons_of_mem a hc)
  linarith

/-! ## Zeros and ones -/

theorem sum_indicator_le_one (hl : l.Nodup) (p : α → Prop) [DecidablePred p]
    (hp : ∀ a ∈ l, ∀ b ∈ l, p a → p b → a = b) :
    (l.map fun a ↦ if p a then (1 : ℚ) else 0).sum ≤ 1 := by
  induction l with
  | nil => simp
  | cons a l ih =>
    obtain ⟨ha, hl⟩ := List.nodup_cons.mp hl
    rw [List.map_cons, List.sum_cons]
    by_cases hpa : p a
    · have hrest : (l.map fun a ↦ if p a then (1 : ℚ) else 0).sum = 0 := by
        refine List.sum_eq_zero fun x hx ↦ ?_
        obtain ⟨b, hb, rfl⟩ := List.mem_map.mp hx
        refine if_neg fun hpb ↦ ha ?_
        exact hp a List.mem_cons_self b (List.mem_cons_of_mem a hb) hpa hpb ▸ hb
      rw [if_pos hpa, hrest, add_zero]
    · rw [if_neg hpa, zero_add]
      exact ih hl fun b hb c hc ↦ hp b (List.mem_cons_of_mem a hb) c (List.mem_cons_of_mem a hc)

/-- **Zeros and ones that add up to at most one** weigh what the first of them that is over a half
does. -/
theorem sum_found {f : α → ℚ} (hf : ∀ a ∈ l, f a = 0 ∨ f a = 1) (hsum : (l.map f).sum ≤ 1)
    (w : α → ℚ) : (l.map fun a ↦ w a * f a).sum = ((l.find? fun a ↦ 1 / 2 < f a).map w).getD 0 := by
  induction l with
  | nil => rfl
  | cons a l ih =>
    have hl : ∀ b ∈ l, f b = 0 ∨ f b = 1 := fun b hb ↦ hf b (List.mem_cons_of_mem a hb)
    rw [List.map_cons, List.sum_cons] at hsum ⊢
    rcases hf a List.mem_cons_self with ha | ha
    · rw [ha, zero_add] at hsum
      rw [ha, mul_zero, zero_add, ih hl hsum, List.find?_cons_of_neg (by rw [ha]; norm_num)]
    · have hnonneg : ∀ b ∈ l, 0 ≤ f b := by
        intro b hb
        rcases hl b hb with h | h
        · exact h.ge
        · exact h ▸ zero_le_one
      have hzero : ∀ b ∈ l, f b = 0 := by
        intro b hb
        have hle : f b ≤ (l.map f).sum := by
          refine List.single_le_sum (fun x hx ↦ ?_) _ (List.mem_map_of_mem hb)
          obtain ⟨c, hc, rfl⟩ := List.mem_map.mp hx
          exact hnonneg c hc
        exact le_antisymm (by linarith) (hnonneg b hb)
      have hrest : (l.map fun b ↦ w b * f b).sum = 0 := by
        refine List.sum_eq_zero fun x hx ↦ ?_
        obtain ⟨b, hb, rfl⟩ := List.mem_map.mp hx
        rw [hzero b hb, mul_zero]
      rw [hrest, ha, mul_one, add_zero, List.find?_cons_of_pos (by rw [ha]; norm_num),
        Option.map_some, Option.getD_some]

/-- What a partial function finds weighs what it finds for every member. -/
theorem sum_map_filterMap {β : Type} (f : α → Option β) (w : β → ℚ) (l : List α) :
    ((l.filterMap f).map w).sum = (l.map fun a ↦ ((f a).map w).getD 0).sum := by
  induction l with
  | nil => rfl
  | cons a l ih => cases h : f a <;> simp [h, ih]

/-- **The table of a set of pairs** weighs what the pairs do. -/
theorem sum_table {β : Type} [DecidableEq α] [DecidableEq β] {m : List β} (hl : l.Nodup)
    (hm : m.Nodup) {ks : List (α × β)} (hks : ks.Nodup) (hsub : ∀ k ∈ ks, k.1 ∈ l ∧ k.2 ∈ m)
    (w : α → β → ℚ) :
    (l.map fun a ↦ (m.map fun b ↦ w a b * if (a, b) ∈ ks then 1 else 0).sum).sum =
      (ks.map fun k ↦ w k.1 k.2).sum := by
  have hinner : ∀ a, (m.map fun b ↦ w a b * if (a, b) ∈ ks then 1 else 0).sum =
      ∑ b ∈ m.toFinset, if (a, b) ∈ ks then w a b else 0 := by
    intro a
    rw [List.sum_toFinset _ hm]
    exact congrArg List.sum (List.map_congr_left fun b _ ↦ by rw [mul_ite, mul_one, mul_zero])
  have hks' : ks.toFinset = (l.toFinset ×ˢ m.toFinset).filter (· ∈ ks) := by
    ext k
    simp only [List.mem_toFinset, Finset.mem_filter, Finset.mem_product]
    exact ⟨fun h ↦ ⟨hsub k h, h⟩, fun h ↦ h.2⟩
  calc (l.map fun a ↦ (m.map fun b ↦ w a b * if (a, b) ∈ ks then 1 else 0).sum).sum
      = ∑ a ∈ l.toFinset, ∑ b ∈ m.toFinset, (if (a, b) ∈ ks then w a b else 0) := by
        rw [List.sum_toFinset _ hl]
        exact congrArg List.sum (List.map_congr_left fun a _ ↦ hinner a)
    _ = ∑ k ∈ l.toFinset ×ˢ m.toFinset, (if k ∈ ks then w k.1 k.2 else 0) := by
        rw [Finset.sum_product]
    _ = ∑ k ∈ ks.toFinset, w k.1 k.2 := by rw [hks', Finset.sum_filter]
    _ = (ks.map fun k ↦ w k.1 k.2).sum := List.sum_toFinset _ hks

end Lib
