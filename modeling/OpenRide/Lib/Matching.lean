import Mathlib.Data.List.Nodup
import Mathlib.Data.List.Perm.Subperm
import Mathlib.Data.Set.Function
import Mathlib.Data.Set.Finite.Lemmas
import Mathlib.Tactic.Common

/-!
# Greedy matchings

A candidate has two ends, read by `f` and `g`; a matching is a set of candidates no two of which
share an end, and it is *maximal* when every candidate shares an end with a member.  That is what
`MaximalMatching f g C M` says, over arbitrary sets.

`sweep f g l` walks a list of candidates and takes each one whose two ends are both still free.
Whatever order the list is in, what it takes is a maximal matching of the list
(`sweep_maximalMatching`): the order decides who wins, never whether a candidate is left over
with both ends free.  In particular a sweep over a nonempty list takes something.

When the list is sorted by a key the sweep takes a *greedy* matching (`sweep_greedyMatching`): what
blocks a candidate has a key no larger than its own.  Where keys tell candidates apart there is
only one such matching (`GreedyMatching.unique`), so any two ways to find one agree.
-/

set_option autoImplicit false

namespace Lib

variable {α β γ : Type}

/-! ## Maximal matchings -/

/-- `M` is a matching inside `C` that no member of `C` can be added to. -/
structure MaximalMatching (f : α → β) (g : α → γ) (C M : Set α) : Prop where
  /-- Only candidates are matched. -/
  subset : M ⊆ C
  /-- No two members share their first end. -/
  injOn_left : Set.InjOn f M
  /-- No two members share their second end. -/
  injOn_right : Set.InjOn g M
  /-- Every candidate is blocked by a member. -/
  blocked : ∀ c ∈ C, ∃ m ∈ M, f m = f c ∨ g m = g c

theorem MaximalMatching.nonempty {f : α → β} {g : α → γ} {C M : Set α}
    (h : MaximalMatching f g C M) (hC : C.Nonempty) : M.Nonempty := by
  obtain ⟨c, hc⟩ := hC
  obtain ⟨m, hm, -⟩ := h.blocked c hc
  exact ⟨m, hm⟩

/-- What of a matching has an end among those of `m` is no longer than `m`. -/
theorem length_filter_le {δ : Type} {f : α → β} {f' : δ → β} {l : List α} {m : List δ}
    (hf : (l.map f).Nodup) {p : α → Bool} (h : ∀ a ∈ l, p a = true → f a ∈ m.map f') :
    (l.filter p).length ≤ m.length := by
  have hsub : ((l.filter p).map f).Subperm (m.map f') := by
    refine List.subperm_of_subset (hf.sublist (List.filter_sublist.map f)) fun b hb ↦ ?_
    obtain ⟨a, ha, rfl⟩ := List.mem_map.mp hb
    exact h a (List.mem_filter.mp ha).1 (List.mem_filter.mp ha).2
  simpa using hsub.length_le

/-- **A matching is at most twice as long as what blocks it**: when every member of `l` shares an
end with a member of `m`, each member of `m` accounts for at most two of `l`. -/
theorem length_le_two_mul_of_blocked [DecidableEq β] {δ : Type} {f : α → β} {g : α → γ}
    {f' : δ → β} {g' : δ → γ} {l : List α} {m : List δ} (hf : (l.map f).Nodup)
    (hg : (l.map g).Nodup) (hb : ∀ a ∈ l, f a ∈ m.map f' ∨ g a ∈ m.map g') :
    l.length ≤ 2 * m.length := by
  rw [List.length_eq_length_filter_add fun a ↦ decide (f a ∈ m.map f'), Nat.two_mul]
  refine Nat.add_le_add (length_filter_le hf fun _ _ ↦ of_decide_eq_true)
    (length_filter_le hg fun a ha hn ↦ (hb a ha).resolve_left ?_)
  exact of_decide_eq_false (Bool.not_eq_true' _ ▸ hn)

/-! ## Greedy matchings -/

section Greedy

variable {κ : Type} [LinearOrder κ] {f : α → β} {g : α → γ} {key : α → κ}

/-- `M` is a matching inside `C` that blocks every member of `C` by one whose key is no larger. -/
structure GreedyMatching (f : α → β) (g : α → γ) (key : α → κ) (C M : Set α) : Prop where
  /-- Only candidates are matched. -/
  subset : M ⊆ C
  /-- No two members share their first end. -/
  injOn_left : Set.InjOn f M
  /-- No two members share their second end. -/
  injOn_right : Set.InjOn g M
  /-- Every candidate is blocked by a member that comes before it. -/
  blocked : ∀ c ∈ C, ∃ m ∈ M, (f m = f c ∨ g m = g c) ∧ key m ≤ key c

variable {C M N : Set α}

theorem GreedyMatching.empty (hC : ∀ c, c ∉ C) (hM : ∀ m, m ∉ M) : GreedyMatching f g key C M :=
  ⟨fun m hm ↦ absurd hm (hM m), fun m hm ↦ absurd hm (hM m), fun m hm ↦ absurd hm (hM m),
    fun c hc ↦ absurd hc (hC c)⟩

/-- The least member of one greedy matching that another one lacks does not exist. -/
theorem GreedyMatching.not_least (h : GreedyMatching f g key C M) (k : GreedyMatching f g key C N)
    (hkey : Set.InjOn key C) {c : α} (hc : c ∈ M) (hcN : c ∉ N)
    (hleast : ∀ m ∈ N, key m < key c → m ∈ M) : False := by
  obtain ⟨m, hm, hend, hle⟩ := k.blocked c (h.subset hc)
  have hne : m ≠ c := by
    rintro rfl
    exact hcN hm
  have hlt : key m < key c := by
    refine lt_of_le_of_ne hle fun heq ↦ ?_
    exact hne (hkey (k.subset hm) (h.subset hc) heq)
  have hmM := hleast m hm hlt
  rcases hend with hf | hg
  · exact hne (h.injOn_left hmM hc hf)
  · exact hne (h.injOn_right hmM hc hg)

/-- **Where keys tell candidates apart there is one greedy matching.** -/
theorem GreedyMatching.unique (hfin : C.Finite) (hkey : Set.InjOn key C)
    (h : GreedyMatching f g key C M) (k : GreedyMatching f g key C N) : M = N := by
  by_contra hne
  have hdiff : ((M \ N) ∪ (N \ M)).Nonempty := by
    rw [Set.nonempty_iff_ne_empty]
    intro hempty
    obtain ⟨h1, h2⟩ := Set.union_empty_iff.mp hempty
    exact hne (Set.Subset.antisymm (Set.sdiff_eq_empty.mp h1) (Set.sdiff_eq_empty.mp h2))
  have hfinite : ((M \ N) ∪ (N \ M)).Finite := by
    refine hfin.subset (Set.union_subset ?_ ?_)
    · exact Set.sdiff_subset.trans h.subset
    · exact Set.sdiff_subset.trans k.subset
  obtain ⟨c, hc, hmin⟩ := Set.exists_min_image _ key hfinite hdiff
  have hleast : ∀ m, key m < key c → (m ∈ M ↔ m ∈ N) := by
    intro m hlt
    by_contra hiff
    have hmem : m ∈ (M \ N) ∪ (N \ M) := by
      by_cases hm : m ∈ M
      · exact Or.inl ⟨hm, fun hmN ↦ hiff (iff_of_true hm hmN)⟩
      · exact Or.inr ⟨by_contra fun hmN ↦ hiff (iff_of_false hm hmN), hm⟩
    exact absurd (hmin m hmem) (not_le.mpr hlt)
  rcases hc with ⟨hc, hcN⟩ | ⟨hc, hcN⟩
  · exact h.not_least k hkey hc hcN fun m hm hlt ↦ (hleast m hlt).mpr hm
  · exact k.not_least h hkey hc hcN fun m hm hlt ↦ (hleast m hlt).mp hm

/-- **Greedy matchings of separate families make one of the whole.** -/
theorem GreedyMatching.iUnion {ι : Type} {I : Set ι} {C M : ι → Set α}
    (h : ∀ i ∈ I, GreedyMatching f g key (C i) (M i))
    (hsep : ∀ i ∈ I, ∀ j ∈ I, ∀ a ∈ C i, ∀ b ∈ C j, f a = f b ∨ g a = g b → i = j) :
    GreedyMatching f g key {a | ∃ i ∈ I, a ∈ C i} {a | ∃ i ∈ I, a ∈ M i} where
  subset := by
    rintro a ⟨i, hi, ha⟩
    exact ⟨i, hi, (h i hi).subset ha⟩
  injOn_left := by
    rintro a ⟨i, hi, ha⟩ b ⟨j, hj, hb⟩ hab
    obtain rfl := hsep i hi j hj a ((h i hi).subset ha) b ((h j hj).subset hb) (Or.inl hab)
    exact (h i hi).injOn_left ha hb hab
  injOn_right := by
    rintro a ⟨i, hi, ha⟩ b ⟨j, hj, hb⟩ hab
    obtain rfl := hsep i hi j hj a ((h i hi).subset ha) b ((h j hj).subset hb) (Or.inr hab)
    exact (h i hi).injOn_right ha hb hab
  blocked := by
    rintro c ⟨i, hi, hc⟩
    obtain ⟨m, hm, hend, hle⟩ := (h i hi).blocked c hc
    exact ⟨m, ⟨i, hi, hm⟩, hend, hle⟩

/-- The same for two families. -/
theorem GreedyMatching.union {D : Set α} (h : GreedyMatching f g key C M)
    (k : GreedyMatching f g key D N) (hsep : ∀ a ∈ C, ∀ b ∈ D, ¬ (f a = f b ∨ g a = g b)) :
    GreedyMatching f g key (C ∪ D) (M ∪ N) where
  subset := Set.union_subset_union h.subset k.subset
  injOn_left := by
    rintro a (ha | ha) b (hb | hb) hab
    · exact h.injOn_left ha hb hab
    · exact absurd (Or.inl hab) (hsep a (h.subset ha) b (k.subset hb))
    · exact absurd (Or.inl hab.symm) (hsep b (h.subset hb) a (k.subset ha))
    · exact k.injOn_left ha hb hab
  injOn_right := by
    rintro a (ha | ha) b (hb | hb) hab
    · exact h.injOn_right ha hb hab
    · exact absurd (Or.inr hab) (hsep a (h.subset ha) b (k.subset hb))
    · exact absurd (Or.inr hab.symm) (hsep b (h.subset hb) a (k.subset ha))
    · exact k.injOn_right ha hb hab
  blocked := by
    rintro c (hc | hc)
    · obtain ⟨m, hm, hm'⟩ := h.blocked c hc
      exact ⟨m, Or.inl hm, hm'⟩
    · obtain ⟨m, hm, hm'⟩ := k.blocked c hc
      exact ⟨m, Or.inr hm, hm'⟩

/-- A greedy matching read through a map that keeps ends and keys. -/
theorem GreedyMatching.image {δ : Type} {e : δ → α} {key' : δ → κ} {C M : Set δ}
    (h : GreedyMatching (fun d ↦ f (e d)) (fun d ↦ g (e d)) key' C M)
    (hkey : ∀ d ∈ C, key' d = key (e d)) : GreedyMatching f g key (e '' C) (e '' M) where
  subset := Set.image_mono h.subset
  injOn_left := by
    rintro _ ⟨a, ha, rfl⟩ _ ⟨b, hb, rfl⟩ hab
    exact congrArg e (h.injOn_left ha hb hab)
  injOn_right := by
    rintro _ ⟨a, ha, rfl⟩ _ ⟨b, hb, rfl⟩ hab
    exact congrArg e (h.injOn_right ha hb hab)
  blocked := by
    rintro _ ⟨c, hc, rfl⟩
    obtain ⟨m, hm, hend, hle⟩ := h.blocked c hc
    refine ⟨e m, ⟨m, hm, rfl⟩, hend, ?_⟩
    rw [← hkey m (h.subset hm), ← hkey c hc]
    exact hle

end Greedy

/-! ## The sweep -/

section Sweep

variable [DecidableEq β] [DecidableEq γ] (f : α → β) (g : α → γ)

/-- Take every candidate of the list whose ends are in neither of the two lists of used ends,
marking the ends of what is taken as used. -/
def sweepFrom : List β → List γ → List α → List α
  | _, _, [] => []
  | us, vs, a :: l =>
    if f a ∈ us ∨ g a ∈ vs then sweepFrom us vs l
    else a :: sweepFrom (f a :: us) (g a :: vs) l

/-- The greedy sweep, with nothing used at the start. -/
def sweep (l : List α) : List α := sweepFrom f g [] [] l

theorem sweepFrom_sublist (us : List β) (vs : List γ) (l : List α) :
    (sweepFrom f g us vs l).Sublist l := by
  induction l generalizing us vs with
  | nil => exact List.Sublist.refl _
  | cons a l ih =>
    rw [sweepFrom]
    split
    · exact (ih us vs).cons a
    · exact (ih _ _).cons_cons a

variable {l : List α} {a : α}

/-- What is taken avoids the ends that were used at the start. -/
theorem sweepFrom_fresh {us : List β} {vs : List γ} (h : a ∈ sweepFrom f g us vs l) :
    f a ∉ us ∧ g a ∉ vs := by
  induction l generalizing us vs with
  | nil => simp [sweepFrom] at h
  | cons b l ih =>
    rw [sweepFrom] at h
    split at h
    · exact ih h
    · next hb =>
      rcases List.mem_cons.mp h with rfl | h
      · exact not_or.mp hb
      · obtain ⟨h1, h2⟩ := ih h
        exact ⟨fun hm ↦ h1 (List.mem_cons_of_mem _ hm), fun hm ↦ h2 (List.mem_cons_of_mem _ hm)⟩

theorem sweepFrom_nodup (us : List β) (vs : List γ) (l : List α) :
    ((sweepFrom f g us vs l).map f).Nodup ∧ ((sweepFrom f g us vs l).map g).Nodup := by
  induction l generalizing us vs with
  | nil => simp [sweepFrom]
  | cons a l ih =>
    rw [sweepFrom]
    split
    · exact ih us vs
    · obtain ⟨h1, h2⟩ := ih (f a :: us) (g a :: vs)
      refine ⟨List.nodup_cons.mpr ⟨fun hm ↦ ?_, h1⟩, List.nodup_cons.mpr ⟨fun hm ↦ ?_, h2⟩⟩
      · obtain ⟨b, hb, he⟩ := List.mem_map.mp hm
        exact (sweepFrom_fresh f g hb).1 (by simp [he])
      · obtain ⟨b, hb, he⟩ := List.mem_map.mp hm
        exact (sweepFrom_fresh f g hb).2 (by simp [he])

/-- **What blocks a candidate was met no later than it**: a candidate is blocked at the start, or by
something taken that is the candidate itself or stands before it. -/
theorem sweepFrom_blocked_upTo (us : List β) (vs : List γ) (pre : List α) (a : α)
    (post : List α) :
    (f a ∈ us ∨ g a ∈ vs) ∨
      ∃ b ∈ sweepFrom f g us vs (pre ++ a :: post), (b = a ∨ b ∈ pre) ∧
        (f b = f a ∨ g b = g a) := by
  induction pre generalizing us vs with
  | nil =>
    rw [List.nil_append, sweepFrom]
    by_cases hused : f a ∈ us ∨ g a ∈ vs
    · exact Or.inl hused
    · rw [if_neg hused]
      exact Or.inr ⟨a, List.mem_cons_self, Or.inl rfl, Or.inl rfl⟩
  | cons b pre ih =>
    rw [List.cons_append, sweepFrom]
    by_cases hused : f b ∈ us ∨ g b ∈ vs
    · rw [if_pos hused]
      rcases ih us vs with h | ⟨c, hc, hcp, he⟩
      · exact Or.inl h
      · exact Or.inr ⟨c, hc, hcp.imp_right (List.mem_cons_of_mem b), he⟩
    · rw [if_neg hused]
      rcases ih (f b :: us) (g b :: vs) with h | ⟨c, hc, hcp, he⟩
      · simp only [List.mem_cons] at h
        rcases h with (h | h) | (h | h)
        · exact Or.inr ⟨b, List.mem_cons_self, Or.inr List.mem_cons_self, Or.inl h.symm⟩
        · exact Or.inl (Or.inl h)
        · exact Or.inr ⟨b, List.mem_cons_self, Or.inr List.mem_cons_self, Or.inr h.symm⟩
        · exact Or.inl (Or.inr h)
      · refine Or.inr ⟨c, List.mem_cons_of_mem _ hc, ?_, he⟩
        exact hcp.imp_right (List.mem_cons_of_mem b)

/-- A candidate is either blocked at the start or blocked by something that was taken. -/
theorem sweepFrom_blocked (us : List β) (vs : List γ) (h : a ∈ l) :
    (f a ∈ us ∨ g a ∈ vs) ∨ ∃ b ∈ sweepFrom f g us vs l, f b = f a ∨ g b = g a := by
  obtain ⟨pre, post, rfl⟩ := List.append_of_mem h
  refine (sweepFrom_blocked_upTo f g us vs pre a post).imp_right ?_
  rintro ⟨b, hb, -, he⟩
  exact ⟨b, hb, he⟩

/-- A sweep of an image is the image of the sweep that reads the ends through the map. -/
theorem sweepFrom_map {δ : Type} (e : δ → α) (us : List β) (vs : List γ) (l : List δ) :
    sweepFrom f g us vs (l.map e) =
      (sweepFrom (fun d ↦ f (e d)) (fun d ↦ g (e d)) us vs l).map e := by
  induction l generalizing us vs with
  | nil => rfl
  | cons d l ih =>
    rw [List.map_cons, sweepFrom, sweepFrom]
    split
    · exact ih us vs
    · rw [ih, List.map_cons]

theorem mem_of_mem_sweep (h : a ∈ sweep f g l) : a ∈ l :=
  (sweepFrom_sublist f g [] [] l).subset h

/-- **A sweep takes a maximal matching.** -/
theorem sweep_maximalMatching (l : List α) :
    MaximalMatching f g {a | a ∈ l} {a | a ∈ sweep f g l} where
  subset _ h := mem_of_mem_sweep f g h
  injOn_left := fun _ ha _ hb h ↦ List.inj_on_of_nodup_map (sweepFrom_nodup f g [] [] l).1 ha hb h
  injOn_right := fun _ ha _ hb h ↦ List.inj_on_of_nodup_map (sweepFrom_nodup f g [] [] l).2 ha hb h
  blocked := by
    intro c hc
    rcases sweepFrom_blocked f g [] [] hc with h | h
    · simp at h
    · exact h

/-- In a list sorted by a key what blocks a candidate has a key no larger. -/
theorem sweepFrom_blocked_before {κ : Type} [LinearOrder κ] {key : α → κ} (us : List β)
    (vs : List γ) (hl : l.Pairwise fun a b ↦ key a ≤ key b) (h : a ∈ l) :
    (f a ∈ us ∨ g a ∈ vs) ∨
      ∃ b ∈ sweepFrom f g us vs l, (f b = f a ∨ g b = g a) ∧ key b ≤ key a := by
  obtain ⟨pre, post, rfl⟩ := List.append_of_mem h
  refine (sweepFrom_blocked_upTo f g us vs pre a post).imp_right ?_
  rintro ⟨b, hb, hpre, he⟩
  refine ⟨b, hb, he, ?_⟩
  rcases hpre with rfl | hpre
  · exact le_refl _
  · exact (List.pairwise_append.mp hl).2.2 b hpre a List.mem_cons_self

/-- **A sweep of a sorted list takes a greedy matching.** -/
theorem sweep_greedyMatching {κ : Type} [LinearOrder κ] {key : α → κ}
    (hl : l.Pairwise fun a b ↦ key a ≤ key b) :
    GreedyMatching f g key {a | a ∈ l} {a | a ∈ sweep f g l} where
  subset := (sweep_maximalMatching f g l).subset
  injOn_left := (sweep_maximalMatching f g l).injOn_left
  injOn_right := (sweep_maximalMatching f g l).injOn_right
  blocked := by
    intro c hc
    rcases sweepFrom_blocked_before f g [] [] hl hc with h | h
    · simp at h
    · exact h

end Sweep

end Lib
