import OpenRide.Lib.Sorted
import Mathlib.Data.List.TakeWhile

/-!
# The first of a ranking

A list is sorted by a key and cut after `n` members.  Where equal keys straddle the cut, it depends
on the order of the list who is kept, and each of the members in question is kept if it comes first
(`mem_take_sortedBy_cons`).  Where they do not, those are kept who have fewer than `n` members ahead
of them (`take_sortedBy_perm`).
-/

set_option autoImplicit false

namespace Lib

variable {α κ : Type} [LinearOrder κ] {key : α → κ} {l : List α} {n : ℕ} {a : α}

/-- How many have a smaller key. -/
def ahead (key : α → κ) (l : List α) (a : α) : ℕ := l.countP fun b ↦ key b < key a

/-- No equal keys straddle a cut after `n` members. -/
def NoTieAt (key : α → κ) (l : List α) (n : ℕ) : Prop :=
  ∀ a ∈ l, ahead key l a < n → (l.countP fun b ↦ key b ≤ key a) ≤ n

theorem ahead_mono {b : α} (h : key a ≤ key b) : ahead key l a ≤ ahead key l b :=
  List.countP_mono_left fun c _ hc ↦ by
    rw [decide_eq_true_eq] at hc ⊢
    exact hc.trans_le h

theorem ahead_of_perm {l' : List α} (h : l.Perm l') : ahead key l = ahead key l' :=
  funext fun _ ↦ h.countP_eq _

theorem ahead_map {β : Type} (f : β → α) (l : List β) (b : β) :
    ahead key (l.map f) (f b) = ahead (key ∘ f) l b := by
  rw [ahead, List.countP_map]
  rfl

theorem ahead_congr {key' : α → κ} (h : ∀ b ∈ l, key' b = key b) (ha : a ∈ l) :
    ahead key' l a = ahead key l a :=
  List.countP_congr fun b hb ↦ by rw [h b hb, h a ha]

theorem NoTieAt.congr {key' : α → κ} (h : ∀ b ∈ l, key' b = key b) (hl : NoTieAt key l n) :
    NoTieAt key' l n := by
  intro a ha hahead
  refine (List.countP_congr fun b hb ↦ ?_).trans_le
      (hl a ha ((ahead_congr h ha).symm.trans_lt hahead))
  rw [h b hb, h a ha]

theorem NoTieAt.of_perm {l' : List α} (h : l.Perm l') (hl : NoTieAt key l n) :
    NoTieAt key l' n := by
  intro a ha hahead
  rw [← h.countP_eq]
  exact hl a (h.mem_iff.mpr ha) (by rwa [ahead_of_perm h])

theorem noTieAt_map {β : Type} (f : β → α) {l : List β} :
    NoTieAt key (l.map f) n ↔ NoTieAt (key ∘ f) l n := by
  simp only [NoTieAt, List.forall_mem_map, ahead_map, List.countP_map]
  rfl

/-- Lists with the same keys show the same, if what they show is a matter of the key. -/
theorem map_perm_of_keys {β γ : Type} {f : α → γ} {g : α → β} {l l' : List α}
    (h : (l.map f).Perm (l'.map f)) (hg : ∀ a ∈ l, ∀ b ∈ l', f a = f b → g a = g b) :
    (l.map g).Perm (l'.map g) := by
  induction l generalizing l' with
  | nil =>
    obtain rfl := List.map_eq_nil_iff.mp h.nil_eq.symm
    exact .rfl
  | cons a l ih =>
    obtain ⟨b, hb, hab⟩ := List.mem_map.mp (h.subset List.mem_cons_self)
    obtain ⟨s, t, rfl⟩ := List.append_of_mem hb
    have hfirst : (s ++ b :: t).Perm (b :: (s ++ t)) := List.perm_middle
    have hrest : (l.map f).Perm ((s ++ t).map f) := by
      have hcons := h.trans (hfirst.map f)
      rw [List.map_cons, List.map_cons, hab] at hcons
      exact hcons.cons_inv
    refine List.Perm.trans ?_ (hfirst.map g).symm
    rw [List.map_cons, List.map_cons, hg a List.mem_cons_self b hb hab.symm]
    refine (ih hrest fun x hx y hy ↦ hg x (List.mem_cons_of_mem _ hx) y ?_).cons _
    exact hfirst.mem_iff.mpr (List.mem_cons_of_mem _ hy)

/-! ## Who is kept -/

/-- What is not kept does not rank before what is. -/
theorem key_le_of_take_drop {b : α} (ha : a ∈ (sortedBy key l).take n)
    (hb : b ∈ (sortedBy key l).drop n) : key a ≤ key b := by
  have hsorted := sortedBy_pairwise key l
  rw [← List.take_append_drop n (sortedBy key l), List.pairwise_append] at hsorted
  exact hsorted.2.2 a ha b hb

/-- **Who comes first is kept**, if fewer than `n` members have a smaller key. -/
theorem mem_take_sortedBy_cons (h : ahead key (a :: l) a < n) :
    a ∈ (sortedBy key (a :: l)).take n := by
  rw [sortedBy, List.insertionSort_cons_eq_take_drop]
  set before := (l.insertionSort fun b c ↦ key b ≤ key c).takeWhile fun b ↦ ¬ key a ≤ key b
  have hbefore : before.length ≤ ahead key (a :: l) a := by
    have hsub : before.Sublist (sortedBy key l) := List.takeWhile_sublist _
    have hall : before.countP (fun b ↦ key b < key a) = before.length := by
      refine List.countP_eq_length.mpr fun b hb ↦ ?_
      have hnot := List.mem_takeWhile_imp hb
      simpa using hnot
    rw [← hall, ahead, List.countP_cons_of_neg (by simp), ← (sortedBy_perm key l).countP_eq]
    exact hsub.countP_le
  have hlt := hbefore.trans_lt h
  rw [List.take_append, List.mem_append]
  refine Or.inr ?_
  obtain ⟨k, hk⟩ := Nat.exists_eq_succ_of_ne_zero (Nat.sub_ne_zero_of_lt hlt)
  rw [hk, List.take_succ_cons]
  exact List.mem_cons_self

/-- **Without a tie at the cut**, those are kept who have fewer than `n` members ahead of them. -/
theorem take_sortedBy_perm (h : NoTieAt key l n) :
    ((sortedBy key l).take n).Perm (l.filter fun a ↦ ahead key l a < n) := by
  have hperm := sortedBy_perm key l
  have htie : NoTieAt key (sortedBy key l) n := h.of_perm hperm.symm
  have hcut := fun a b ↦ @key_le_of_take_drop α κ _ key l n a b
  rw [← ahead_of_perm hperm]
  refine List.Perm.trans (.of_eq ?_) (hperm.filter _)
  generalize sortedBy key l = s at htie hcut
  have hkept : ∀ a ∈ s.take n, ahead key s a < n := by
    intro a ha
    -- all that count are kept, and `a` itself does not count
    have hdropped : (s.drop n).countP (fun b ↦ key b < key a) = 0 := by
      refine List.countP_eq_zero.mpr fun b hb ↦ ?_
      simpa using hcut a b ha hb
    have hfew : (s.take n).countP (fun b ↦ key b < key a) < (s.take n).length := by
      refine lt_of_le_of_ne List.countP_le_length fun hall ↦ ?_
      simpa using List.countP_eq_length.mp hall a ha
    rw [ahead, ← List.take_append_drop n s, List.countP_append, hdropped, Nat.add_zero]
    exact hfew.trans_le (List.length_take_le _ _)
  have hlost : ∀ b ∈ s.drop n, ¬ ahead key s b < n := by
    intro b hb hfew
    have hlength : n < s.length := by
      have hpos := List.length_pos_of_mem hb
      rw [List.length_drop] at hpos
      omega
    have hall : (s.take n).countP (fun c ↦ key c ≤ key b) = n := by
      rw [List.countP_eq_length.mpr fun a ha ↦ by simpa using hcut a b ha hb, List.length_take]
      omega
    have hself : 0 < (s.drop n).countP (fun c ↦ key c ≤ key b) :=
      List.countP_pos_iff.mpr ⟨b, hb, by simp⟩
    have hle := htie b (List.mem_of_mem_drop hb) hfew
    rw [← List.take_append_drop n s, List.countP_append, hall] at hle
    omega
  rw [← List.take_append_drop n s, List.filter_append, List.take_append_drop,
    List.filter_eq_self.mpr fun a ha ↦ by simpa using hkept a ha,
    List.filter_eq_nil_iff.mpr fun b hb ↦ by simpa using hlost b hb, List.append_nil]

end Lib
