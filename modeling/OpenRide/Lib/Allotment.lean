import Mathlib.Data.List.MinMax
import Mathlib.Data.List.Nodup
import Mathlib.Algebra.BigOperators.Group.List.Basic
import Mathlib.Algebra.Order.BigOperators.Group.List
import Mathlib.Tactic.Linarith
import Mathlib.Tactic.Ring

/-!
# Allotments within capacities

A number of things is handed out to the members of a list (`handOut`), each of which takes at most
its capacity.  An allotment that is too large somewhere is cut down (`cutDown`), what was cut off is
spilled into the room that others have (`spill`), and who got nothing takes one from the largest
holder (`helpEmpty`).

None of this changes the total, what was cut off included.  A spill leaves something over only if
everybody is full (`spill_spec`), and afterwards everybody has something if there is enough
for everybody (`helpEmpty_spec`).
-/

set_option autoImplicit false

namespace Lib

variable {α : Type} [DecidableEq α] {l : List α} {cap counts : α → ℤ} {a : α}

/-! ## Totals -/

/-- What the members of a list have together. -/
def totalOver (l : List α) (counts : α → ℤ) : ℤ := (l.map counts).sum

omit [DecidableEq α] in
theorem totalOver_le (h : ∀ a ∈ l, counts a ≤ cap a) : totalOver l counts ≤ totalOver l cap :=
  List.sum_le_sum h

omit [DecidableEq α] in
theorem totalOver_congr (h : ∀ a ∈ l, counts a = cap a) : totalOver l counts = totalOver l cap := by
  rw [totalOver, List.map_congr_left h, totalOver]

omit [DecidableEq α] in
theorem length_le_totalOver (h : ∀ a ∈ l, 1 ≤ counts a) : (l.length : ℤ) ≤ totalOver l counts := by
  have hle := @totalOver_le α l counts (fun _ ↦ 1) h
  simpa [totalOver] using hle

/-- **Rewriting one member** changes the total by what it has more. -/
theorem totalOver_update (hl : l.Nodup) (ha : a ∈ l) (v : ℤ) :
    totalOver l (Function.update counts a v) = totalOver l counts - counts a + v := by
  induction l with
  | nil => simp at ha
  | cons b l ih =>
    rw [List.nodup_cons] at hl
    simp only [totalOver, List.map_cons, List.sum_cons] at ih ⊢
    rcases List.mem_cons.mp ha with rfl | ha
    · have hrest : l.map (Function.update counts a v) = l.map counts :=
        List.map_congr_left fun b hb ↦ Function.update_of_ne (ne_of_mem_of_not_mem hb hl.1) _ _
      rw [hrest, Function.update_self]
      ring
    · rw [ih hl.2 ha, Function.update_of_ne (ne_of_mem_of_not_mem ha hl.1).symm]
      ring

/-! ## Allotments -/

/-- Nobody has less than nothing, and only members have something. -/
structure Allotted (l : List α) (counts : α → ℤ) : Prop where
  nonneg : ∀ a, 0 ≤ counts a
  outside : ∀ a ∉ l, counts a = 0

theorem Allotted.update (h : Allotted l counts) (ha : a ∈ l) {v : ℤ} (hv : 0 ≤ v) :
    Allotted l (Function.update counts a v) where
  nonneg b := by
    rw [Function.update_apply]
    split
    · exact hv
    · exact h.nonneg b
  outside b hb := by
    rw [Function.update_of_ne (ne_of_mem_of_not_mem ha hb).symm]
    exact h.outside b hb

/-- An allotment in which nobody exceeds a capacity. -/
structure Within (l : List α) (cap counts : α → ℤ) : Prop extends Allotted l counts where
  capped : ∀ a ∈ l, counts a ≤ cap a

theorem Within.update (h : Within l cap counts) (ha : a ∈ l) {v : ℤ} (hv : 0 ≤ v)
    (hcap : v ≤ cap a) : Within l cap (Function.update counts a v) where
  toAllotted := h.toAllotted.update ha hv
  capped b hb := by
    rw [Function.update_apply]
    split
    · next hba => exact hba ▸ hcap
    · exact h.capped b hb

/-! ## Handing out -/

/-- One more for each member of a list. -/
def handOut (counts : α → ℤ) (places : List α) : α → ℤ :=
  places.foldl (fun counts a ↦ Function.update counts a (counts a + 1)) counts

/-- **What is handed out** is added to the total. -/
theorem handOut_spec (hl : l.Nodup) (h : Allotted l counts) {places : List α}
    (hplaces : ∀ a ∈ places, a ∈ l) : Allotted l (handOut counts places) ∧
      totalOver l (handOut counts places) = totalOver l counts + places.length := by
  induction places generalizing counts with
  | nil => simpa [handOut] using h
  | cons a places ih =>
    obtain ⟨ha, hrest⟩ := List.forall_mem_cons.mp hplaces
    have hnonneg := h.nonneg a
    obtain ⟨hin, htotal⟩ := ih (h.update ha (v := counts a + 1) (by omega)) hrest
    rw [totalOver_update hl ha] at htotal
    refine ⟨hin, htotal.trans ?_⟩
    push_cast [List.length_cons]
    ring

/-! ## Cutting down -/

/-- Take off what is above the capacity of one. -/
def cutOne (cap : α → ℤ) (s : (α → ℤ) × ℤ) (a : α) : (α → ℤ) × ℤ :=
  if cap a < s.1 a then (Function.update s.1 a (cap a), s.2 + (s.1 a - cap a)) else s

/-- Take off what is above a capacity; what is left, and how much was taken off. -/
def cutDown (cap : α → ℤ) (l : List α) (counts : α → ℤ) : (α → ℤ) × ℤ :=
  l.foldl (cutOne cap) (counts, 0)

/-- What is kept while some members are cut down. -/
structure Cutting (l done : List α) (cap : α → ℤ) (total : ℤ) (s : (α → ℤ) × ℤ) : Prop
    extends Allotted l s.1 where
  capped : ∀ a ∈ done, s.1 a ≤ cap a
  total : totalOver l s.1 + s.2 = total
  left_nonneg : 0 ≤ s.2

variable {s : (α → ℤ) × ℤ}

theorem Cutting.cutOne {done : List α} {total : ℤ} (hl : l.Nodup) (hcap : 0 ≤ cap a)
    (h : Cutting l done cap total s) (ha : a ∈ l) :
    Cutting l (a :: done) cap total (cutOne cap s a) := by
  rw [Lib.cutOne]
  split
  · next hover =>
    refine ⟨h.toAllotted.update ha hcap, fun b hb ↦ ?_, ?_, ?_⟩
    · dsimp only
      rw [Function.update_apply]
      split
      · next hba => rw [hba]
      · next hba => exact h.capped b ((List.mem_cons.mp hb).resolve_left hba)
    · dsimp only
      rw [totalOver_update hl ha, ← h.total]
      ring
    · have hleft := h.left_nonneg
      dsimp only
      linarith
  · next hunder =>
    refine ⟨h.toAllotted, fun b hb ↦ ?_, h.total, h.left_nonneg⟩
    rcases List.mem_cons.mp hb with rfl | hb
    · exact not_lt.mp hunder
    · exact h.capped b hb

/-- **Cutting down** leaves an allotment within the capacities, and loses track of nothing. -/
theorem cutDown_spec (hl : l.Nodup) (hcap : ∀ a ∈ l, 0 ≤ cap a) (h : Allotted l counts) :
    Cutting l l cap (totalOver l counts) (cutDown cap l counts) := by
  have hrun : ∀ (rest done : List α) (s : (α → ℤ) × ℤ), (∀ a ∈ rest, a ∈ l) →
      Cutting l done cap (totalOver l counts) s →
      Cutting l (rest.reverse ++ done) cap (totalOver l counts) (rest.foldl (cutOne cap) s) := by
    intro rest
    induction rest with
    | nil => exact fun done s _ hs ↦ hs
    | cons a rest ih =>
      intro done s hrest hs
      obtain ⟨ha, hrest⟩ := List.forall_mem_cons.mp hrest
      have hnext := ih (a :: done) _ hrest (hs.cutOne hl (hcap a ha) ha)
      rwa [List.reverse_cons, List.append_assoc, List.singleton_append, List.foldl_cons]
  have hall := hrun l [] (counts, 0) (fun _ ↦ id) ⟨h, nofun, add_zero _, le_rfl⟩
  exact ⟨hall.toAllotted, fun a ha ↦ hall.capped a (by simpa using ha), hall.total,
    hall.left_nonneg⟩

/-! ## Spilling -/

/-- Put what is left over into the room that members have, one after the other. -/
def spill (cap : α → ℤ) : List α → (α → ℤ) × ℤ → (α → ℤ) × ℤ
  | [], s => s
  | a :: rest, s =>
    if s.2 ≤ 0 then s
    else
      let room := cap a - s.1 a
      if 0 < room then
        let take := min room s.2
        spill cap rest (Function.update s.1 a (s.1 a + take), s.2 - take)
      else spill cap rest s

/-- What a spill ends with. -/
structure Spilled (l order : List α) (cap : α → ℤ) (total : ℤ) (s : (α → ℤ) × ℤ) : Prop
    extends Within l cap s.1 where
  total : totalOver l s.1 + s.2 = total
  left_or_full : s.2 = 0 ∨ 0 < s.2 ∧ ∀ a ∈ order, s.1 a = cap a

variable {order : List α}

theorem spill_of_nothing (h : s.2 ≤ 0) : spill cap order s = s := by
  cases order with
  | nil => rfl
  | cons a rest => rw [spill, if_pos h]

theorem spill_full (ha : s.1 a = cap a) : (spill cap order s).1 a = cap a := by
  induction order generalizing s with
  | nil => exact ha
  | cons b rest ih =>
    rw [spill]
    split
    · exact ha
    · dsimp only
      split
      · next hroom =>
        refine ih ?_
        have hne : a ≠ b := by
          rintro rfl
          omega
        exact (Function.update_of_ne hne _ _).trans ha
      · exact ih ha

/-- **A spill** leaves something over only if all are full. -/
theorem spill_spec (hl : l.Nodup) (horder : ∀ a ∈ order, a ∈ l) (hwithin : Within l cap s.1)
    (hleft : 0 ≤ s.2) : Spilled l order cap (totalOver l s.1 + s.2) (spill cap order s) := by
  induction order generalizing s with
  | nil =>
    refine ⟨hwithin, rfl, ?_⟩
    rcases hleft.eq_or_lt with heq | hlt
    · exact Or.inl heq.symm
    · exact Or.inr ⟨hlt, nofun⟩
  | cons a rest ih =>
    obtain ⟨ha, hrest⟩ := List.forall_mem_cons.mp horder
    rw [spill]
    split
    · next hnone => exact ⟨hwithin, rfl, Or.inl (le_antisymm hnone hleft)⟩
    · next hsome =>
      have hpos : 0 < s.2 := not_le.mp hsome
      have hcapped := hwithin.capped a ha
      dsimp only
      split
      · next hroom =>
        have hnonneg := hwithin.nonneg a
        have hnext := ih (s := (Function.update s.1 a (s.1 a + min (cap a - s.1 a) s.2),
          s.2 - min (cap a - s.1 a) s.2)) hrest
          (hwithin.update ha (by omega) (by omega)) (by dsimp only; omega)
        refine ⟨hnext.toWithin, ?_, ?_⟩
        · rw [hnext.total]
          rw [totalOver_update hl ha]
          ring
        · rcases hnext.left_or_full with hzero | ⟨hover, hfull⟩
          · exact Or.inl hzero
          · -- what is left after `a` was not taken by `a`, so `a` is full
            refine Or.inr ⟨hover, List.forall_mem_cons.mpr ⟨?_, hfull⟩⟩
            refine spill_full ?_
            dsimp only
            rw [Function.update_self]
            by_contra hne
            rw [spill_of_nothing (by dsimp only; omega)] at hover
            omega
      · next hfull =>
        have hself : s.1 a = cap a := by omega
        obtain ⟨hin, htotal, hend⟩ := ih hrest hwithin hleft
        refine ⟨hin, htotal, hend.imp_right fun h ↦ ⟨h.1, ?_⟩⟩
        exact List.forall_mem_cons.mpr ⟨spill_full hself, h.2⟩

/-! ## Helping those with nothing -/

/-- The first of those that have most. -/
def richest (counts : α → ℤ) (l : List α) : Option α :=
  @List.argmax α ℤ Int.instLinearOrder.toPreorder _ counts l

/-- Give one to a member that has nothing, from the first of those that have most, if that one has
more than one. -/
def helpOne (cap : α → ℤ) (l : List α) (counts : α → ℤ) (a : α) : α → ℤ :=
  if counts a = 0 ∧ 0 < cap a then
    match richest counts l with
    | some donor =>
      if 1 < counts donor then
        let less := Function.update counts donor (counts donor - 1)
        Function.update less a (less a + 1)
      else counts
    | none => counts
  else counts

/-- Help every member that has nothing. -/
def helpEmpty (cap : α → ℤ) (l : List α) (counts : α → ℤ) : α → ℤ := l.foldl (helpOne cap l) counts

/-- What helping one may do: nothing, or give it one of a donor's. -/
theorem helpOne_cases (cap : α → ℤ) (l : List α) (counts : α → ℤ) (a : α) :
    helpOne cap l counts a = counts ∧
        (counts a = 0 → 0 < cap a → ∀ donor ∈ richest counts l, counts donor ≤ 1) ∨
      ∃ donor ∈ l, counts a = 0 ∧ 0 < cap a ∧ 1 < counts donor ∧ helpOne cap l counts a =
        Function.update (Function.update counts donor (counts donor - 1)) a 1 := by
  rw [helpOne]
  split
  · next h =>
    cases hmax : richest counts l with
    | none => exact Or.inl ⟨rfl, nofun⟩
    | some donor =>
      dsimp only
      split
      · next hdonor =>
        have hne : a ≠ donor := by
          rintro rfl
          omega
        refine Or.inr ⟨donor, List.argmax_mem hmax, h.1, h.2, hdonor, ?_⟩
        rw [Function.update_of_ne hne, h.1, zero_add]
      · next hdonor =>
        refine Or.inl ⟨rfl, fun _ _ d hd ↦ ?_⟩
        rw [← Option.some.inj hd]
        exact not_lt.mp hdonor
  · next h => exact Or.inl ⟨rfl, fun h1 h2 ↦ absurd ⟨h1, h2⟩ h⟩

theorem helpOne_pos {b : α} (hb : 0 < counts b) : 0 < helpOne cap l counts a b := by
  rcases helpOne_cases cap l counts a with ⟨heq, -⟩ | ⟨donor, -, hzero, -, hdonor, heq⟩
  · rwa [heq]
  · have hne : b ≠ a := by
      rintro rfl
      omega
    rw [heq, Function.update_of_ne hne, Function.update_apply]
    split
    · omega
    · exact hb

theorem helpOne_within (hl : l.Nodup) (h : Within l cap counts) (ha : a ∈ l) :
    Within l cap (helpOne cap l counts a) ∧
      totalOver l (helpOne cap l counts a) = totalOver l counts := by
  rcases helpOne_cases cap l counts a with ⟨heq, -⟩ | ⟨donor, hmem, hzero, hcap, hdonor, heq⟩
  · rw [heq]
    exact ⟨h, rfl⟩
  · have hne : a ≠ donor := by
      rintro rfl
      omega
    have hmax := h.capped donor hmem
    rw [heq]
    refine ⟨(h.update hmem (by omega) (by omega)).update ha zero_le_one (by omega), ?_⟩
    rw [totalOver_update hl ha, totalOver_update hl hmem, Function.update_of_ne hne, hzero]
    ring

/-- If there is enough for everybody, somebody who is helped gets something. -/
theorem helpOne_self (hl : l.Nodup) (h : Within l cap counts) (ha : a ∈ l) (hcap : 0 < cap a)
    (henough : (l.length : ℤ) ≤ totalOver l counts) : 0 < helpOne cap l counts a a := by
  rcases helpOne_cases cap l counts a with ⟨heq, hpoor⟩ | ⟨donor, -, -, -, -, heq⟩
  · rw [heq]
    by_contra hnone
    have hzero : counts a = 0 := le_antisymm (not_lt.mp hnone) (h.nonneg a)
    -- nobody has more than one, and `a` has nothing, so there was not enough
    have hone : ∀ b ∈ l, counts b ≤ 1 := by
      intro b hb
      have hsome : richest counts l ≠ none := fun hnone ↦
        List.ne_nil_of_mem hb (List.argmax_eq_none.mp hnone)
      obtain ⟨donor, hmax⟩ := Option.ne_none_iff_exists'.mp hsome
      exact (List.le_of_mem_argmax hb hmax).trans (hpoor hzero hcap donor hmax)
    have hmore := @totalOver_update α _ l counts a hl ha 1
    have hall := @totalOver_le α l (fun _ ↦ 1) (Function.update counts a 1)
      fun b hb ↦ by
        rw [Function.update_apply]
        split
        · exact le_rfl
        · exact hone b hb
    have hlength : totalOver l (fun _ ↦ 1) = l.length := by simp [totalOver]
    omega
  · rw [heq, Function.update_self]
    exact one_pos

/-- **Helping** keeps the total and the capacities, and leaves nobody without anything if there is
enough for everybody. -/
theorem helpEmpty_spec (hl : l.Nodup) (h : Within l cap counts) :
    Within l cap (helpEmpty cap l counts) ∧
      totalOver l (helpEmpty cap l counts) = totalOver l counts ∧
      ((∀ a ∈ l, 0 < cap a) → (l.length : ℤ) ≤ totalOver l counts →
        ∀ a ∈ l, 0 < helpEmpty cap l counts a) := by
  have hrun : ∀ (rest done : List α) (f : α → ℤ), (∀ a ∈ rest, a ∈ l) → Within l cap f →
      totalOver l f = totalOver l counts →
      ((∀ a ∈ l, 0 < cap a) → (l.length : ℤ) ≤ totalOver l counts → ∀ a ∈ done, 0 < f a) →
      Within l cap (rest.foldl (helpOne cap l) f) ∧
        totalOver l (rest.foldl (helpOne cap l) f) = totalOver l counts ∧
        ((∀ a ∈ l, 0 < cap a) → (l.length : ℤ) ≤ totalOver l counts →
          ∀ a ∈ rest.reverse ++ done, 0 < rest.foldl (helpOne cap l) f a) := by
    intro rest
    induction rest with
    | nil => exact fun done f _ hf htotal hdone ↦ ⟨hf, htotal, hdone⟩
    | cons a rest ih =>
      intro done f hrest hf htotal hdone
      obtain ⟨ha, hrest⟩ := List.forall_mem_cons.mp hrest
      obtain ⟨hnext, hsame⟩ := helpOne_within hl hf ha
      have htail := ih (a :: done) _ hrest hnext (hsame.trans htotal) fun hcap henough ↦
        List.forall_mem_cons.mpr ⟨helpOne_self hl hf ha (hcap a ha) (htotal ▸ henough),
          fun b hb ↦ helpOne_pos (hdone hcap henough b hb)⟩
      rwa [List.reverse_cons, List.append_assoc, List.singleton_append, List.foldl_cons]
  obtain ⟨hwithin, htotal, hpos⟩ := hrun l [] counts (fun _ ↦ id) h rfl fun _ _ ↦ nofun
  exact ⟨hwithin, htotal, fun hcap henough a ha ↦ hpos hcap henough a (by simpa using ha)⟩

end Lib
