import OpenRide.Lib.LargestRemainder
import OpenRide.Datagen.SlugAgain

/-!
# Dealing out by share

Trucks and orders are dealt to the hauliers in proportion to their shares.  The counts are those of
the method of largest remainders (`shareCounts_eq`), and the rounds of the dealing hand out just
these counts (`dealRounds_spec`).  So the list that is dealt has the length asked for, and every
haulier occurs in it as often as its quota, rounded down or up.

The hauliers dealt to are those of the list normalised once more.  A haulier whose id is another
then is not found in what was dealt, whatever its share (`distributeByShare_fair_iff`).
-/

namespace OpenRide.Datagen

open Lib

/-! ## How many each gets -/

section

variable {n : ℕ} {shares : List ℚ}

/-- What a share of a hundred is a quota of. -/
def quota (n : ℕ) (share : ℚ) : ℚ := share / haulierShareTotal * n

theorem quotas_eq (hpos : ∀ x ∈ shares, 0 ≤ x) (hsum : shares.sum = haulierShareTotal) :
    quotas n shares = shares.map (quota n) := by
  have hself : shares.map (max 0) = shares := by
    calc shares.map (max 0) = shares.map id :=
          List.map_congr_left fun x hx ↦ max_eq_right (hpos x hx)
      _ = shares := List.map_id shares
  have htotal : ¬ (100 : ℚ) ≤ 0 := by norm_num
  simp only [quotas, shareWeights, hself, hsum, haulierShareTotal, if_neg htotal]
  rfl

theorem quotas_nonneg (hpos : ∀ x ∈ shares, 0 ≤ x) : ∀ x ∈ shares.map (quota n), 0 ≤ x := by
  intro y hy
  obtain ⟨x, hx, rfl⟩ := List.mem_map.mp hy
  exact mul_nonneg (div_nonneg (hpos x hx) (by norm_num [haulierShareTotal])) (Nat.cast_nonneg n)

theorem sum_quotas (hsum : shares.sum = haulierShareTotal) : (shares.map (quota n)).sum = n := by
  have hmul : ∀ l : List ℚ, (l.map (quota n)).sum = l.sum / haulierShareTotal * n := by
    intro l
    induction l with
    | nil => simp
    | cons x l ih =>
      simp only [List.map_cons, List.sum_cons, ih, quota]
      ring
  rw [hmul, hsum, haulierShareTotal]
  norm_num

/-- The order in which the hauliers get one more. -/
def remainderOrder (n : ℕ) (shares : List ℚ) : List ℕ :=
  let raw := quotas n shares
  sortedBy (fun i ↦ ((raw.map fun x ↦ ⌊x⌋₊).getD i 0 : ℚ) - raw.getD i 0) (List.range raw.length)

theorem byRemainder_remainderOrder : ByRemainder (quotas n shares) (remainderOrder n shares) := by
  have hperm := sortedBy_perm (fun i ↦ (((quotas n shares).map fun x ↦ ⌊x⌋₊).getD i 0 : ℚ) -
    (quotas n shares).getD i 0) (List.range (quotas n shares).length)
  refine ⟨hperm, ?_⟩
  have hkey : ∀ i ∈ remainderOrder n shares,
      (((quotas n shares).map fun x ↦ ⌊x⌋₊).getD i 0 : ℚ) - (quotas n shares).getD i 0 =
        -remainder ((quotas n shares).getD i 0) := by
    intro i hi
    have hlt : i < (quotas n shares).length := by simpa using hperm.mem_iff.mp hi
    simp [remainder, hlt]
  refine (sortedBy_pairwise _ _).imp_of_mem fun {i j} hi hj hij ↦ ?_
  rw [hkey i hi, hkey j hj] at hij
  linarith

/-- **The counts are those of the largest remainders**: the ones left over go round at most once. -/
theorem shareCounts_eq (hpos : ∀ x ∈ quotas n shares, 0 ≤ x) (hsum : (quotas n shares).sum = n) :
    shareCounts n shares = remainderSplit n (quotas n shares) (remainderOrder n shares) := by
  have hleft := (left_le_countP (@byRemainder_remainderOrder n shares) hpos
    hsum).trans List.countP_le_length
  have hplaces : ∀ r ≤ (remainderOrder n shares).length,
      (List.range r).map (fun i ↦ (remainderOrder n shares).getD
        (i % (remainderOrder n shares).length) 0) = (remainderOrder n shares).take r := by
    intro r hr
    refine List.ext_getElem (by simp [hr]) fun i h₁ h₂ ↦ ?_
    have hi : i < (remainderOrder n shares).length := by
      simp at h₁
      omega
    simp [Nat.mod_eq_of_lt hi, hi]
  rw [remainderSplit, ← hplaces _ hleft, bumped, List.foldl_map]
  rfl

end

/-! ## Dealing in rounds -/

/-- The pools that are dealt from in a round. -/
theorem count_round {pools : List ℕ} {i : ℕ} :
    ((List.range pools.length).filter fun i ↦ 0 < pools.getD i 0).count i =
      if 0 < pools.getD i 0 then 1 else 0 := by
  have hnodup : ((List.range pools.length).filter fun i ↦ 0 < pools.getD i 0).Nodup :=
    List.nodup_range.filter _
  rw [List.Nodup.count hnodup]
  refine if_congr ?_ rfl rfl
  simp only [List.mem_filter, List.mem_range, decide_eq_true_eq, and_iff_right_iff_imp]
  intro hpos
  by_contra hge
  simp [hge] at hpos

theorem length_round (pools : List ℕ) :
    ((List.range pools.length).filter fun i ↦ 0 < pools.getD i 0).length +
      (pools.map (· - 1)).sum = pools.sum := by
  have hpool : ∀ pools : List ℕ, pools.countP (0 < ·) + (pools.map (· - 1)).sum = pools.sum := by
    intro pools
    induction pools with
    | nil => simp
    | cons a pools ih =>
      by_cases ha : 0 < a
      · simp [ha]
        omega
      · simp [ha]
        omega
  have hself : (List.range pools.length).map (fun i ↦ pools.getD i 0) = pools := by
    refine List.ext_getElem (by simp) fun i h₁ h₂ ↦ ?_
    simp [h₂]
  rw [← hpool pools, ← List.countP_eq_length_filter]
  conv_rhs => enter [1]; rw [← hself]
  rw [List.countP_map]
  rfl

/-- **The rounds deal out the pools**: where the pools hold just what is missing, everything in them
is dealt, and nothing else. -/
theorem dealRounds_spec {n fuel : ℕ} {pools result : List ℕ}
    (hmissing : result.length + pools.sum = n) (hfuel : pools.sum ≤ fuel) :
    (dealRounds n fuel pools result).length = n ∧
      ∀ i, (dealRounds n fuel pools result).count i = result.count i + pools.getD i 0 := by
  have hempty : ∀ pools : List ℕ, pools.sum = 0 → ∀ i, pools.getD i 0 = 0 := by
    intro pools h i
    rcases lt_or_ge i pools.length with hi | hi
    · simpa [hi] using List.sum_eq_zero_iff.mp h _ (List.getElem_mem hi)
    · simp [hi]
  induction fuel generalizing pools result with
  | zero =>
    have hnone : pools.sum = 0 := by omega
    refine ⟨?_, fun i ↦ ?_⟩
    · show result.length = n
      omega
    · rw [hempty pools hnone]
      rfl
  | succ fuel ih =>
    rw [dealRounds]
    split
    · have hnone : pools.sum = 0 := by omega
      refine ⟨by omega, fun i ↦ ?_⟩
      rw [hempty pools hnone]
      rfl
    · next hopen =>
      have hround := length_round pools
      -- somebody is dealt something in the round, so one round of fuel less is enough
      have hsome : 0 < ((List.range pools.length).filter fun i ↦ 0 < pools.getD i 0).length := by
        have hpool : ∃ a ∈ pools, a ≠ 0 := by
          by_contra hall
          push Not at hall
          have hzero := List.sum_eq_zero_iff.mpr hall
          omega
        obtain ⟨a, ha, hne⟩ := hpool
        obtain ⟨i, hi, rfl⟩ := List.getElem_of_mem ha
        refine List.length_pos_of_mem (a := i) ?_
        simp [hi]
        omega
      have htake : ((List.range pools.length).filter fun i ↦ 0 < pools.getD i 0).take
          (n - result.length) = (List.range pools.length).filter fun i ↦ 0 < pools.getD i 0 :=
        List.take_of_length_le (by omega)
      simp only [htake]
      obtain ⟨hlength, hcount⟩ := @ih (pools.map (· - 1))
        (result ++ (List.range pools.length).filter fun i ↦ 0 < pools.getD i 0)
        (by rw [List.length_append]; omega) (by omega)
      refine ⟨hlength, fun i ↦ ?_⟩
      have hless : (pools.map (· - 1)).getD i 0 = pools.getD i 0 - 1 := by
        rcases lt_or_ge i pools.length with hi | hi
        · simp [hi]
        · simp [hi]
      rw [hcount, List.count_append, count_round, hless]
      split
      · omega
      · omega

/-! ## What is dealt -/

/-- So many trucks or orders, of a share of all. -/
def InBand (n : ℕ) (share : ℚ) (k : ℕ) : Prop := k = ⌊quota n share⌋₊ ∨ k = ⌈quota n share⌉₊

/-- **A fair deal**: as many places as asked for, and of each haulier its quota, rounded. -/
theorem dealt_spec {n : ℕ} {shares : List ℚ} (hpos : ∀ x ∈ shares, 0 ≤ x)
    (hsum : shares.sum = haulierShareTotal) : (dealt n shares).length = n ∧
      ∀ i < shares.length, InBand n (shares.getD i 0) ((dealt n shares).count i) := by
  have hquotas := quotas_eq (n := n) hpos hsum
  have hqpos : ∀ x ∈ quotas n shares, 0 ≤ x := hquotas ▸ quotas_nonneg hpos
  have hqsum : (quotas n shares).sum = n := hquotas ▸ sum_quotas hsum
  have horder := @byRemainder_remainderOrder n shares
  rw [dealt]
  split
  · next hn =>
    refine ⟨hn.symm, fun i _ ↦ Or.inl ?_⟩
    simp [hn, quota]
  · split
    · next hone =>
      obtain ⟨x, rfl⟩ := List.length_eq_one_iff.mp hone
      have hx : quota n x = n := by simpa using sum_quotas (n := n) hsum
      refine ⟨List.length_replicate, fun i hi ↦ Or.inl ?_⟩
      obtain rfl : i = 0 := by simpa using hi
      simp [hx]
    · have hcounts := shareCounts_eq hqpos hqsum
      have htotal := sum_remainderSplit horder hqpos hqsum
      rw [← hcounts] at htotal
      obtain ⟨hlength, hcount⟩ := @dealRounds_spec n n (shareCounts n shares) []
        (by simpa using htotal) htotal.le
      refine ⟨hlength, fun i hi ↦ ?_⟩
      have hband := remainderSplit_band horder hqpos hqsum (i := i) (by simpa [hquotas] using hi)
      have hget : (quotas n shares).getD i 0 = quota n (shares.getD i 0) := by
        rw [hquotas]
        simp [hi]
      rw [← hcounts, hget] at hband
      rw [hcount]
      simpa [InBand] using hband

/-- Of a list without repetition, an element is dealt as often as its place. -/
theorem count_map_getD {α : Type} [DecidableEq α] {l : List α} (hl : l.Nodup) {i : ℕ}
    (hi : i < l.length) (d : α) {places : List ℕ} (hplaces : ∀ j ∈ places, j < l.length) :
    (places.map fun j ↦ l.getD j d).count l[i] = places.count i := by
  induction places with
  | nil => rfl
  | cons j places ih =>
    obtain ⟨hj, hrest⟩ := List.forall_mem_cons.mp hplaces
    have hsame : l[j] = l[i] ↔ j = i := hl.getElem_inj_iff
    rw [List.map_cons, List.count_cons, List.count_cons, ih hrest]
    simp [hj, hsame]

theorem dealRounds_lt {n fuel : ℕ} {pools result : List ℕ} {m : ℕ} (hpools : pools.length = m)
    (hresult : ∀ i ∈ result, i < m) : ∀ i ∈ dealRounds n fuel pools result, i < m := by
  induction fuel generalizing pools result with
  | zero => exact hresult
  | succ fuel ih =>
    rw [dealRounds]
    split
    · exact hresult
    · refine ih (by simpa using hpools) fun i hi ↦ ?_
      rcases List.mem_append.mp hi with hi | hi
      · exact hresult i hi
      · have hround := List.mem_of_mem_take hi
        simp at hround
        omega

theorem shareCounts_length {n : ℕ} {shares : List ℚ} :
    (shareCounts n shares).length = shares.length := by
  have hweights : (shareWeights shares).length = shares.length := by
    rw [shareWeights]
    split
    · simp
    · simp
  have hfold : ∀ (places : List ℕ) (f : ℕ → ℕ) (counts : List ℕ),
      (places.foldl (fun counts i ↦ counts.modify (f i) (· + 1)) counts).length =
        counts.length := by
    intro places f counts
    induction places generalizing counts with
    | nil => rfl
    | cons i places ih => simp [ih]
  rw [shareCounts, hfold]
  simp [quotas, hweights]

theorem dealt_lt {n : ℕ} {shares : List ℚ} : ∀ i ∈ dealt n shares, i < shares.length := by
  rw [dealt]
  split
  · simp
  · split
    · next hone =>
      intro i hi
      rw [List.eq_of_mem_replicate hi]
      omega
    · exact dealRounds_lt shareCounts_length (by simp)

/-! ## Whom it is dealt to -/

section

variable (H : PyHost)

/-- **Dealing by share is fair to the hauliers of the list normalised once more**, and to those of
the list just when each of them is still there, or has a quota below one. -/
theorem distributeByShare_fair_iff {raw : Raw} {hs : List Haulier} {key : ShareKey}
    (h : normalizeHauliers H raw = .ok hs) (hsum : shareTotal hs key = haulierShareTotal) (n : ℕ) :
    ∃ result, distributeByShare H n (hauliersRaw hs) key = .ok result ∧ result.length = n ∧
      (∀ g ∈ renormalise hs, InBand n (g.share key) (result.count g)) ∧
      ((∀ g ∈ hs, InBand n (g.share key) (result.count g)) ↔
        ∀ g ∈ hs, g ∈ renormalise hs ∨ quota n (g.share key) < 1) := by
  have hnormal := normalizeHauliers_normal H h
  have hagain := hnormal.renormalise
  have hshares : (renormalise hs).map (fun g ↦ g.share key) = hs.map fun g ↦ g.share key :=
    map_share_renormalise hs key
  have hnodup : (renormalise hs).Nodup :=
    (NormalHauliers.nodup_ids (normalizeHauliers_toRaw H hnormal)).of_map _
  have hpos : ∀ x ∈ hs.map (fun g ↦ g.share key), 0 ≤ x := by
    intro x hx
    obtain ⟨g, hg, rfl⟩ := List.mem_map.mp hx
    exact hnormal.nonneg g hg key
  obtain ⟨hlength, hband⟩ := dealt_spec (n := n) hpos hsum
  have hlen : (renormalise hs).length = (hs.map fun g ↦ g.share key).length := by
    rw [← hshares, List.length_map]
  have hplaces : ∀ j ∈ dealt n (hs.map fun g ↦ g.share key), j < (renormalise hs).length := by
    rw [hlen]
    exact dealt_lt
  have hfair : ∀ g ∈ renormalise hs, InBand n (g.share key)
      (((dealt n (hs.map fun g ↦ g.share key)).map fun i ↦
        (renormalise hs).getD i defaultHaulier).count g) := by
    intro g hg
    obtain ⟨i, hi, rfl⟩ := List.getElem_of_mem hg
    have hget : (hs.map fun g ↦ g.share key).getD i 0 = (renormalise hs)[i].share key := by
      rw [← hshares]
      simp [hi]
    rw [count_map_getD hnodup hi _ hplaces, ← hget]
    exact hband i (hlen ▸ hi)
  refine ⟨_, distributeByShare_toRaw H hnormal n key, by simpa using hlength, hfair,
    forall₂_congr fun g hg ↦ ?_⟩
  by_cases hmem : g ∈ renormalise hs
  · exact ⟨fun _ ↦ Or.inl hmem, fun _ ↦ hfair g hmem⟩
  · have hnone : ((dealt n (hs.map fun g ↦ g.share key)).map fun i ↦
        (renormalise hs).getD i defaultHaulier).count g = 0 := by
      refine List.count_eq_zero.mpr fun hdealt ↦ hmem ?_
      obtain ⟨i, hi, rfl⟩ := List.mem_map.mp hdealt
      simp [hplaces i hi]
    rw [Int.toNat_natCast, hnone, InBand, or_iff_right hmem, ← Nat.floor_eq_zero]
    constructor
    · rintro (hfloor | hceil)
      · exact hfloor.symm
      · exact Nat.le_zero.mp (hceil ▸ Nat.floor_le_ceil _)
    · intro hfloor
      exact Or.inl hfloor.symm

end

/-- Seven loads of three companies: the quotas are 3.5, 2.1 and 1.4, and the load left over goes to
the largest of the fractions. -/
theorem distributeByShare_fair_iff_three : ∃ result,
    distributeByShare asciiHost (7 : ℕ) (hauliersRaw northHauliers) .orderShare = .ok result ∧
      result.length = 7 ∧ ∀ g ∈ northHauliers, InBand 7 (g.share .orderShare) (result.count g) := by
  obtain ⟨result, hresult, hlength, -, hfair⟩ := @distributeByShare_fair_iff asciiHost northTwice _
    .orderShare normalizeHauliers_northTwice (by decide +kernel) 7
  exact ⟨result, hresult, hlength, hfair.mpr (by decide +kernel)⟩

/-- A company whose id is cut after a separator gets nothing of the one load, though it is alone. -/
theorem nothing_dealt : normalizeHauliers asciiHost longNamed = .ok [longHaulier] ∧
    shareTotal [longHaulier] .orderShare = haulierShareTotal ∧
    ∃ result, distributeByShare asciiHost 1 (hauliersRaw [longHaulier]) .orderShare = .ok result ∧
      ¬ InBand 1 (longHaulier.share .orderShare) (result.count longHaulier) := by
  have hdealt : (distributeByShare asciiHost 1 (hauliersRaw [longHaulier]) .orderShare).map
      (List.count longHaulier) = .ok 0 := by decide +kernel
  refine ⟨by decide +kernel, by decide +kernel, ?_⟩
  cases h : distributeByShare asciiHost 1 (hauliersRaw [longHaulier]) .orderShare with
  | error e =>
    rw [h] at hdealt
    cases hdealt
  | ok result =>
    rw [h] at hdealt
    have hnone : result.count longHaulier = 0 := Except.ok.inj hdealt
    have hquota : quota 1 (longHaulier.share .orderShare) = 1 := by
      have hshare : longHaulier.share .orderShare = 100 := rfl
      norm_num [quota, haulierShareTotal, hshare]
    exact ⟨result, rfl, by simp [InBand, hnone, hquota]⟩

end OpenRide.Datagen
