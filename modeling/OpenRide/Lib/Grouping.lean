import OpenRide.Lib.Sorted

/-!
# Cutting a sorted list into its groups

A list that is sorted by a key falls into one piece for each key: `sorted_split` cuts it before and
after a key.  `firstOf` lists the keys with the place where each first occurs, and `cuts` takes the
pieces between one such place and the next; `cuts_firstOf` says that the piece of a key is what a
filter by this key would keep.
-/

set_option autoImplicit false

namespace Lib

variable {α κ : Type} [LinearOrder κ] {key : α → κ} {l : List α}

/-- **A sorted list** is what is below a key, what has it, and what is above. -/
theorem sorted_split (h : l.Pairwise fun a b ↦ key a ≤ key b) (v : κ) :
    l = l.filter (key · < v) ++ (l.filter (key · = v) ++ l.filter (v < key ·)) := by
  induction l with
  | nil => rfl
  | cons a l ih =>
    obtain ⟨ha, hl⟩ := List.pairwise_cons.mp h
    have hsplit := ih hl
    rcases lt_trichotomy (key a) v with hlt | heq | hgt
    · have hne : ¬ key a = v := hlt.ne
      have hng : ¬ v < key a := hlt.asymm
      simp only [List.filter_cons, hlt, hne, hng, decide_true, decide_false, if_true,
        List.cons_append]
      exact congrArg (a :: ·) hsplit
    · have hnone : l.filter (key · < v) = [] := by
        rw [List.filter_eq_nil_iff]
        intro b hb hbv
        exact absurd (of_decide_eq_true hbv) (not_lt.mpr (heq ▸ ha b hb))
      rw [hnone, List.nil_append] at hsplit
      simp only [List.filter_cons, heq, lt_irrefl, decide_true, decide_false, if_true, hnone,
        List.cons_append]
      exact congrArg (a :: ·) hsplit
    · have hnone : ∀ p : α → Bool, (∀ b ∈ l, p b = true → key b ≤ v) → l.filter p = [] := by
        intro p hp
        rw [List.filter_eq_nil_iff]
        intro b hb hbp
        exact absurd (hgt.trans_le (ha b hb)) (not_lt.mpr (hp b hb hbp))
      have hbelow := hnone (key · < v) fun b _ hb ↦ (of_decide_eq_true hb).le
      have hhere := hnone (key · = v) fun b _ hb ↦ (of_decide_eq_true hb).le
      rw [hbelow, hhere, List.nil_append, List.nil_append] at hsplit
      have hnl : ¬ key a < v := hgt.asymm
      have hne : ¬ key a = v := hgt.ne'
      simp only [List.filter_cons, hgt, hne, hnl, decide_true, decide_false, if_true, hbelow, hhere]
      exact congrArg (a :: ·) hsplit

/-- How many elements are below a key. -/
def below (key : α → κ) (l : List α) (v : κ) : ℕ := (l.filter (key · < v)).length

/-- **A key first occurs** behind everything below it. -/
theorem idxOf_eq_below (h : l.Pairwise fun a b ↦ key a ≤ key b) {v : κ} (hv : v ∈ l.map key) :
    (l.map key).idxOf v = below key l v := by
  have hsplit := sorted_split h v
  have hhere : (l.filter (key · = v)).map key ≠ [] := by
    obtain ⟨a, ha, rfl⟩ := List.mem_map.mp hv
    intro hnil
    have hempty := List.filter_eq_nil_iff.mp (List.map_eq_nil_iff.mp hnil) a ha
    exact hempty (decide_eq_true rfl)
  have hnot : v ∉ (l.filter (key · < v)).map key := by
    intro hm
    obtain ⟨a, ha, hav⟩ := List.mem_map.mp hm
    exact absurd (of_decide_eq_true (List.mem_filter.mp ha).2) (by rw [hav]; exact lt_irrefl v)
  have hfirst : ∀ l' : List κ, l' ≠ [] → (∀ x ∈ l', x = v) → ∀ r, (l' ++ r).idxOf v = 0 := by
    intro l' hne hall r
    cases l' with
    | nil => exact absurd rfl hne
    | cons x l' =>
      rw [List.cons_append, hall x List.mem_cons_self, List.idxOf_cons_self]
  have hmap := congrArg (List.map key) hsplit
  rw [List.map_append, List.map_append] at hmap
  rw [hmap, List.idxOf_append_of_notMem hnot, hfirst _ hhere]
  · rw [List.length_map, Nat.add_zero, below]
  · intro x hx
    obtain ⟨a, ha, rfl⟩ := List.mem_map.mp hx
    exact of_decide_eq_true (List.mem_filter.mp ha).2

/-- The elements from one place on, up to another. -/
def slice (l : List α) (a b : ℕ) : List α := (l.drop a).take (b - a)

/-- What lies between the first element with a key and the first one above it. -/
theorem slice_group (h : l.Pairwise fun a b ↦ key a ≤ key b) (v : κ) :
    slice l (below key l v) (below key l v + (l.filter (key · = v)).length) =
      l.filter (key · = v) := by
  have hsplit := sorted_split h v
  rw [slice, Nat.add_sub_cancel_left]
  calc (l.drop (below key l v)).take (l.filter (key · = v)).length
      = ((l.filter (key · < v) ++ (l.filter (key · = v) ++ l.filter (v < key ·))).drop
          (below key l v)).take (l.filter (key · = v)).length := by rw [← hsplit]
    _ = l.filter (key · = v) := by
        rw [below, List.drop_left, List.take_left]

/-- The keys of a list, each with the place where it first occurs. -/
def firstOf (keys : List κ) : List (κ × ℕ) :=
  (sortedBy id keys.dedup).map fun v ↦ (v, keys.idxOf v)

/-- Between one place and the next, the last piece ending at `n`. -/
def cuts (n : ℕ) (starts : List (κ × ℕ)) : List (κ × ℕ × ℕ) :=
  let bounds := starts.map Prod.snd ++ [n]
  (starts.map Prod.fst).zip (bounds.zip bounds.tail)

/-- Between two keys that follow each other nothing is left out. -/
theorem below_next (h : l.Pairwise fun a b ↦ key a ≤ key b) {v w : κ} (hvw : v < w)
    (hgap : ∀ a ∈ l, key a < w → key a ≤ v) :
    below key l w = below key l v + (l.filter (key · = v)).length := by
  have hsplit := sorted_split h v
  have hkeep : ∀ l' : List α, (∀ a ∈ l', key a ≤ v) → l'.filter (key · < w) = l' := fun l' hl' ↦
    List.filter_eq_self.mpr fun a ha ↦ decide_eq_true ((hl' a ha).trans_lt hvw)
  have hdrop : (l.filter (v < key ·)).filter (key · < w) = [] := by
    rw [List.filter_eq_nil_iff]
    intro a ha haw
    obtain ⟨hal, hva⟩ := List.mem_filter.mp ha
    exact absurd (of_decide_eq_true hva) (not_lt.mpr (hgap a hal (of_decide_eq_true haw)))
  have hfilter : l.filter (key · < w) = l.filter (key · < v) ++ l.filter (key · = v) := by
    calc l.filter (key · < w)
        = (l.filter (key · < v) ++ (l.filter (key · = v) ++ l.filter (v < key ·))).filter
            (key · < w) := by rw [← hsplit]
      _ = l.filter (key · < v) ++ l.filter (key · = v) := by
          rw [List.filter_append, List.filter_append, hdrop, List.append_nil, hkeep, hkeep]
          · exact fun a ha ↦ (of_decide_eq_true (List.mem_filter.mp ha).2).le
          · exact fun a ha ↦ (of_decide_eq_true (List.mem_filter.mp ha).2).le
  rw [below, hfilter, List.length_append, below]

/-- The pieces of the largest keys of a list. -/
theorem cuts_of_suffix (h : l.Pairwise fun a b ↦ key a ≤ key b) {vs : List κ}
    (hvs : vs.Pairwise (· < ·)) (hall : ∀ a ∈ l, key a ∈ vs ∨ ∀ v ∈ vs, key a < v) :
    cuts l.length (vs.map fun v ↦ (v, below key l v)) = vs.map fun v ↦
      (v, below key l v, below key l v + (l.filter (key · = v)).length) := by
  induction vs with
  | nil => rfl
  | cons v vs ih =>
    obtain ⟨hv, hvs⟩ := List.pairwise_cons.mp hvs
    have hrest : ∀ a ∈ l, key a ∈ vs ∨ ∀ w ∈ vs, key a < w := by
      intro a ha
      rcases hall a ha with hmem | hlt
      · rcases List.mem_cons.mp hmem with heq | hmem
        · exact Or.inr fun w hw ↦ heq ▸ hv w hw
        · exact Or.inl hmem
      · exact Or.inr fun w hw ↦ hlt w (List.mem_cons_of_mem v hw)
    cases vs with
    | nil =>
      have hnone : l.filter (v < key ·) = [] := by
        rw [List.filter_eq_nil_iff]
        intro a ha hva
        rcases hall a ha with hmem | hlt
        · rw [List.mem_singleton.mp hmem] at hva
          exact absurd (of_decide_eq_true hva) (lt_irrefl v)
        · exact absurd (of_decide_eq_true hva) (hlt v List.mem_cons_self).asymm
      have hlength := congrArg List.length (sorted_split h v)
      rw [hnone, List.append_nil, List.length_append] at hlength
      rw [hlength]
      rfl
    | cons w vs =>
      have hvw := hv w List.mem_cons_self
      have hgap : ∀ a ∈ l, key a < w → key a ≤ v := by
        intro a ha haw
        rcases hall a ha with hmem | hlt
        · rcases List.mem_cons.mp hmem with heq | hmem
          · exact heq.le
          · rcases List.mem_cons.mp hmem with heq | hmem
            · exact absurd haw (heq ▸ lt_irrefl w)
            · exact absurd ((List.pairwise_cons.mp hvs).1 _ hmem) haw.asymm
        · exact (hlt v List.mem_cons_self).le
      show (v, below key l v, below key l w) ::
        cuts l.length ((w :: vs).map fun v ↦ (v, below key l v)) = _
      rw [ih hvs hrest, below_next h hvw hgap]
      rfl

theorem mem_keys {v : κ} : v ∈ sortedBy id (l.map key).dedup ↔ v ∈ l.map key := by
  rw [mem_sortedBy, List.mem_dedup]

theorem firstOf_eq (h : l.Pairwise fun a b ↦ key a ≤ key b) :
    firstOf (l.map key) = (sortedBy id (l.map key).dedup).map fun v ↦ (v, below key l v) := by
  refine List.map_congr_left fun v hv ↦ ?_
  rw [idxOf_eq_below h (mem_keys.mp hv)]

theorem keys_pairwise : (sortedBy id (l.map key).dedup).Pairwise (· < ·) := by
  have hle := sortedBy_pairwise id (l.map key).dedup
  have hnodup : (sortedBy id (l.map key).dedup).Nodup :=
    (sortedBy_perm id (l.map key).dedup).nodup_iff.mpr (List.nodup_dedup _)
  exact hle.imp₂ (fun v w hvw hne ↦ lt_of_le_of_ne hvw hne) hnodup

/-- The places come in the order of the keys. -/
theorem firstOf_sorted (h : l.Pairwise fun a b ↦ key a ≤ key b) :
    sortedBy Prod.snd (firstOf (l.map key)) = firstOf (l.map key) := by
  refine sortedBy_eq_self ?_
  rw [firstOf_eq h, List.pairwise_map]
  refine keys_pairwise.imp fun {v w} hvw ↦ ?_
  refine (List.monotone_filter_right l ?_).length_le
  intro a ha
  exact decide_eq_true ((of_decide_eq_true ha).trans hvw)

/-- **The pieces of a sorted list** are its groups, one for each key, in the order of the keys. -/
theorem cuts_firstOf (h : l.Pairwise fun a b ↦ key a ≤ key b) :
    (cuts l.length (firstOf (l.map key))).map (fun c ↦ (c.1, slice l c.2.1 c.2.2)) =
      (sortedBy id (l.map key).dedup).map fun v ↦ (v, l.filter (key · = v)) := by
  rw [firstOf_eq h, cuts_of_suffix h keys_pairwise, List.map_map]
  · refine List.map_congr_left fun v _ ↦ ?_
    rw [Function.comp_apply, slice_group h]
  · exact fun a ha ↦ Or.inl (mem_keys.mpr (List.mem_map_of_mem ha))

end Lib
