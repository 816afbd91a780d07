import Mathlib.Data.List.Sort
import Mathlib.Data.List.Dedup

/-!
# Sorting by a key, and sets as sorted lists

`sortedBy key l` is the stable sort by a key into a linear order: a permutation of `l`
(`sortedBy_perm`) in which keys never decrease (`sortedBy_pairwise`), equal keys staying in the
order `l` had them.  It is an insertion sort, hence structurally recursive: a test can run it.

`SortedSet α` is a finite set kept as its strictly increasing list of members.  Two of them are
equal as soon as they have the same members (`SortedSet.ext`), so a `SortedSet` may key a
dictionary, and listing one never depends on the order its members were added in.
-/

set_option autoImplicit false

namespace Lib

/-- A list with two different members has a length of two at least. -/
theorem one_lt_length_of_mem {α : Type} {l : List α} {a b : α} (hne : a ≠ b) (ha : a ∈ l)
    (hb : b ∈ l) : 1 < l.length := by
  cases l with
  | nil => exact absurd ha List.not_mem_nil
  | cons c l =>
    cases l with
    | nil => exact absurd ((List.mem_singleton.mp ha).trans (List.mem_singleton.mp hb).symm) hne
    | cons d l =>
      rw [List.length_cons, List.length_cons]
      omega

/-! ## Stable sorting by a key -/

section SortedBy

variable {α κ : Type} [LinearOrder κ]

/-- The stable sort by `key`. -/
def sortedBy (key : α → κ) (l : List α) : List α :=
  l.insertionSort fun a b ↦ key a ≤ key b

theorem sortedBy_perm (key : α → κ) (l : List α) : (sortedBy key l).Perm l :=
  List.perm_insertionSort _ l

variable {key : α → κ} {l : List α}

@[simp] theorem mem_sortedBy {a : α} : a ∈ sortedBy key l ↔ a ∈ l :=
  (sortedBy_perm key l).mem_iff

theorem sortedBy_pairwise (key : α → κ) (l : List α) :
    (sortedBy key l).Pairwise fun a b ↦ key a ≤ key b := by
  exact List.pairwise_insertionSort _ l

/-- **Where keys tell elements apart, the sort forgets the order it was given.** -/
theorem sortedBy_eq_of_perm {l' : List α} (h : l.Perm l')
    (hinj : ∀ a ∈ l, ∀ b ∈ l, key a = key b → a = b) : sortedBy key l = sortedBy key l' := by
  have hperm := ((sortedBy_perm key l).trans h).trans (sortedBy_perm key l').symm
  refine hperm.eq_of_pairwise (fun a b ha hb hab hba ↦ ?_) (sortedBy_pairwise key l)
    (sortedBy_pairwise key l')
  exact hinj a (mem_sortedBy.mp ha) b (h.mem_iff.mpr (mem_sortedBy.mp hb)) (le_antisymm hab hba)

theorem sortedBy_id_eq_of_perm {l l' : List κ} (h : l.Perm l') : sortedBy id l = sortedBy id l' :=
  sortedBy_eq_of_perm h fun _ _ _ _ ↦ id

theorem sortedBy_map {β μ : Type} [LinearOrder μ] {key' : β → μ} {e : β → α} {l : List β}
    (h : ∀ a ∈ l, ∀ b ∈ l, key' a ≤ key' b ↔ key (e a) ≤ key (e b)) :
    sortedBy key (l.map e) = (sortedBy key' l).map e :=
  (List.map_insertionSort _ _ e l h).symm

@[simp] theorem sortedBy_eq_nil : sortedBy key l = [] ↔ l = [] := by
  rw [← List.length_eq_zero_iff, (sortedBy_perm key l).length_eq, List.length_eq_zero_iff]

theorem sortedBy_eq_self (h : l.Pairwise fun a b ↦ key a ≤ key b) : sortedBy key l = l :=
  List.Pairwise.insertionSort_eq h

/-- What is inserted below everything goes first. -/
theorem orderedInsert_of_forall_le {a : α} (h : ∀ b ∈ l, key a ≤ key b) :
    l.orderedInsert (fun a b ↦ key a ≤ key b) a = a :: l := by
  cases l with
  | nil => rfl
  | cons b l => rw [List.orderedInsert_cons, if_pos (h b List.mem_cons_self)]

theorem filter_orderedInsert (p : α → Bool) (h : l.Pairwise fun a b ↦ key a ≤ key b) (a : α) :
    (l.orderedInsert (fun a b ↦ key a ≤ key b) a).filter p =
      if p a then (l.filter p).orderedInsert (fun a b ↦ key a ≤ key b) a else l.filter p := by
  induction l with
  | nil => simp [List.filter_cons]
  | cons b l ih =>
    obtain ⟨hb, hl⟩ := List.pairwise_cons.mp h
    rw [List.orderedInsert_cons]
    split
    · next hab =>
      -- `a` goes first, before the filter and after it
      have hfirst : ∀ c ∈ (b :: l).filter p, key a ≤ key c := fun c hc ↦
        (List.mem_cons.mp (List.mem_of_mem_filter hc)).elim (fun e ↦ e ▸ hab)
          fun hc ↦ hab.trans (hb c hc)
      rw [orderedInsert_of_forall_le hfirst, List.filter_cons]
    · next hab =>
      rw [List.filter_cons, List.filter_cons, ih hl]
      split
      · split
        · rw [List.orderedInsert_cons, if_neg hab]
        · rfl
      · rfl

/-- **The sort is stable, so it commutes with every filter.** -/
theorem sortedBy_filter (key : α → κ) (p : α → Bool) (l : List α) :
    sortedBy key (l.filter p) = (sortedBy key l).filter p := by
  induction l with
  | nil => rfl
  | cons a l ih =>
    have hcons : ∀ l : List α, sortedBy key (a :: l) =
        (sortedBy key l).orderedInsert (fun a b ↦ key a ≤ key b) a := fun _ ↦ rfl
    rw [hcons, filter_orderedInsert p (sortedBy_pairwise key l), List.filter_cons]
    split
    · rw [hcons, ih]
    · exact ih

end SortedBy

/-! ## Sets as sorted lists -/

/-- A finite set, kept as the strictly increasing list of its members. -/
structure SortedSet (α : Type) [LinearOrder α] where
  /-- The members, in increasing order. -/
  toList : List α
  /-- Strictly increasing: sorted, and no member twice. -/
  sorted : toList.Pairwise (· < ·)
deriving DecidableEq

namespace SortedSet

variable {α : Type} [LinearOrder α]

instance : Membership α (SortedSet α) := ⟨fun s a ↦ a ∈ s.toList⟩

instance (a : α) (s : SortedSet α) : Decidable (a ∈ s) :=
  inferInstanceAs (Decidable (a ∈ s.toList))

variable {s : SortedSet α}

variable {a : α}

theorem mem_def : a ∈ s ↔ a ∈ s.toList := Iff.rfl

theorem nodup (s : SortedSet α) : s.toList.Nodup :=
  s.sorted.imp fun h ↦ ne_of_lt h

/-- **Two sets with the same members are equal.** -/
@[ext] theorem ext {t : SortedSet α} (h : ∀ a, a ∈ s ↔ a ∈ t) : s = t := by
  obtain ⟨l, hl⟩ := s
  obtain ⟨m, hm⟩ := t
  have hlm : l.Perm m := (List.perm_ext_iff_of_nodup (hl.imp ne_of_lt) (hm.imp ne_of_lt)).mpr h
  have : l = m := hlm.eq_of_pairwise (fun a b _ _ hab hba ↦ absurd hab (lt_asymm hba)) hl hm
  simp only [this]

/-- Put `a` into a strictly increasing list, unless it is there. -/
def insertIn (a : α) : List α → List α
  | [] => [a]
  | b :: l => if a < b then a :: b :: l else if a = b then b :: l else b :: insertIn a l

variable {x : α}

theorem mem_insertIn {l : List α} : x ∈ insertIn a l ↔ x = a ∨ x ∈ l := by
  induction l with
  | nil => simp [insertIn]
  | cons b l ih =>
    rw [insertIn]
    split
    · simp
    · split
      · next h => subst h; simp
      · rw [List.mem_cons, ih, List.mem_cons]
        tauto

theorem insertIn_sorted {l : List α} (h : l.Pairwise (· < ·)) :
    (insertIn a l).Pairwise (· < ·) := by
  induction l with
  | nil => simp [insertIn]
  | cons b l ih =>
    obtain ⟨hb, hl⟩ := List.pairwise_cons.mp h
    rw [insertIn]
    split
    · next hab =>
      refine List.pairwise_cons.mpr ⟨fun x hx ↦ ?_, h⟩
      rcases List.mem_cons.mp hx with rfl | hx
      · exact hab
      · exact hab.trans (hb x hx)
    · next hab =>
      split
      · exact h
      · next hne =>
        refine List.pairwise_cons.mpr ⟨fun x hx ↦ ?_, ih hl⟩
        rcases mem_insertIn.mp hx with rfl | hx
        · exact lt_of_le_of_ne (not_lt.mp hab) (Ne.symm hne)
        · exact hb x hx

/-- The empty set. -/
def empty : SortedSet α := ⟨[], List.Pairwise.nil⟩

/-- Add one member. -/
def insert (a : α) (s : SortedSet α) : SortedSet α :=
  ⟨insertIn a s.toList, insertIn_sorted s.sorted⟩

/-- Add the members of a list. -/
def insertAll (s : SortedSet α) (l : List α) : SortedSet α := l.foldl (fun s a ↦ s.insert a) s

/-- The set of the members of a list. -/
def ofList (l : List α) : SortedSet α := empty.insertAll l

/-- The first member from `a` on. -/
def firstFrom (s : SortedSet α) (a : α) : Option α := s.toList.find? fun x ↦ a ≤ x

/-- The members from `a` on, in increasing order. -/
def membersFrom (s : SortedSet α) (a : α) : List α := s.toList.filter fun x ↦ a ≤ x

theorem mem_of_firstFrom {b : α} (h : s.firstFrom a = some b) : b ∈ s ∧ a ≤ b := by
  exact ⟨List.mem_of_find?_eq_some h, by simpa using List.find?_some h⟩

/-- **Nothing lies between `a` and the first member from `a` on.** -/
theorem le_of_firstFrom {b : α} (h : s.firstFrom a = some b) (hx : x ∈ s) (hax : a ≤ x) :
    b ≤ x := by
  obtain ⟨-, pre, post, hl, hpre⟩ := List.find?_eq_some_iff_append.mp h
  have hs := s.sorted
  rw [mem_def, hl, List.mem_append] at hx
  rcases hx with hx | hx
  · exact absurd hax (by simpa using hpre x hx)
  · rw [hl] at hs
    rcases List.mem_cons.mp hx with rfl | hx
    · exact le_refl x
    · exact le_of_lt ((List.pairwise_cons.mp (List.pairwise_append.mp hs).2.1).1 x hx)

@[simp] theorem notMem_empty (a : α) : a ∉ (empty : SortedSet α) := List.not_mem_nil

@[simp] theorem mem_insert : x ∈ s.insert a ↔ x = a ∨ x ∈ s :=
  mem_insertIn

@[simp] theorem mem_insertAll {l : List α} : x ∈ s.insertAll l ↔ x ∈ s ∨ x ∈ l := by
  induction l generalizing s with
  | nil => simp [insertAll]
  | cons a l ih =>
    have h : s.insertAll (a :: l) = (s.insert a).insertAll l := rfl
    rw [h, ih, mem_insert, List.mem_cons]
    tauto

@[simp] theorem mem_ofList {l : List α} : x ∈ ofList l ↔ x ∈ l := by
  simp [ofList]

end SortedSet

end Lib
