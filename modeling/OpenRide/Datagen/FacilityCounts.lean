import OpenRide.Datagen.Codes
import OpenRide.Lib.Allotment
import Mathlib.Data.Rat.Floor
import Mathlib.Algebra.Order.BigOperators.Group.List

/-!
# How many facilities each code gets

The facilities of a scenario are split among the location codes by their weights: by largest
remainders first, then cut down to the addresses there are.  What was cut off spills over to the
codes of the highest weight, and a code that got nothing takes a facility from the largest holder.

The steps are those of `Lib.Allotment`, so the split adds up to the facilities asked for or to all
addresses, never exceeds the addresses of a code, and leaves out none of the codes if there are
enough facilities (`allocateFacilityCounts_fair`).
-/

namespace OpenRide.Datagen

open Lib

/-! ## The split -/

/-- `available.get(code, 0)`. -/
def addresses (available : Dict String ℕ) (code : String) : ℤ := ((available.get? code).getD 0 : ℕ)

/-- `weighted`: the codes with addresses and a weight, or else those with addresses. -/
def weightedCodes (available : Dict String ℕ) (registry : CodeRegistry) : List String :=
  let weighted := registry.codes.filter fun c ↦ 0 < addresses available c ∧ 0 < registry.weight c
  if weighted = [] then registry.codes.filter fun c ↦ 0 < addresses available c else weighted

/-- `registry.weight(c) or 1.0`. -/
def splitWeight (registry : CodeRegistry) (code : String) : ℚ :=
  if registry.weight code = 0 then 1 else registry.weight code

/-- `exact[c]`. -/
def exactCount (n : ℤ) (weighted : List String) (weight : String → ℚ) (code : String) : ℚ :=
  let total := (weighted.map weight).sum
  n * weight code / if total = 0 then (weighted.length : ℚ) else total

/-- The largest remainders: `exact` rounded down, and what remains in the order of what was taken
off. -/
def dealRemainders (n : ℤ) (weighted : List String) (exact : String → ℚ) : String → ℤ :=
  let counts := fun c ↦ if c ∈ weighted then ⌊exact c⌋ else 0
  let byFrac := sortedBy (fun c ↦ (counts c : ℚ) - exact c) weighted
  let remainder := n - totalOver weighted counts
  handOut counts ((List.range remainder.toNat).map fun i ↦ byFrac.getD (i % weighted.length) "")

/-- `_allocate_facility_counts`. -/
def allocateFacilityCounts (n : ℤ) (available : Dict String ℕ) (registry : CodeRegistry) :
    Dict String ℤ :=
  let n := max 1 n
  let weighted := weightedCodes available registry
  if weighted = [] then Dict.ofList (registry.codes.map fun c ↦ (c, 0))
  else
    let weight := splitWeight registry
    let dealt := dealRemainders n weighted (exactCount n weighted weight)
    let cut := cutDown (addresses available) weighted dealt
    let spilled := spill (addresses available) (sortedBy (fun c ↦ -weight c) weighted) cut
    let counts := helpEmpty (addresses available) weighted spilled.1
    Dict.ofList (registry.codes.map fun c ↦ (c, counts c))

/-! ## A fair split -/

/-- Has a code addresses and a weight? -/
def Weighted (available : Dict String ℕ) (registry : CodeRegistry) (code : String) : Prop :=
  0 < addresses available code ∧ 0 < registry.weight code

/-- The facilities are split fairly within the addresses there are. -/
structure FairCounts (n : ℤ) (available : Dict String ℕ) (registry : CodeRegistry)
    (counts : Dict String ℤ) : Prop where
  codes : counts.keys = registry.codes
  nonneg : ∀ c k, counts.get? c = some k → 0 ≤ k
  capped : ∀ c k, counts.get? c = some k → k ≤ addresses available c
  unweighted : (∃ c ∈ registry.codes, Weighted available registry c) →
    ∀ c k, counts.get? c = some k → ¬ Weighted available registry c → k = 0
  total : counts.values.sum =
    min (max 1 n) ((weightedCodes available registry).map (addresses available)).sum
  everyCode : ((weightedCodes available registry).length : ℤ) ≤ n →
    ∀ c ∈ weightedCodes available registry, ∀ k, counts.get? c = some k → 1 ≤ k

section

variable {available : Dict String ℕ} {registry : CodeRegistry} {n : ℤ} {weighted : List String}
  {weight : String → ℚ}

theorem addresses_nonneg (available : Dict String ℕ) (code : String) :
    0 ≤ addresses available code :=
  Int.natCast_nonneg _

theorem weightedCodes_nodup : (weightedCodes available registry).Nodup := by
  rw [weightedCodes]
  split
  · exact registry.codes_nodup.filter _
  · exact registry.codes_nodup.filter _

/-- Where some code has addresses and a weight, the weighted codes are those that have. -/
theorem mem_weightedCodes (h : ∃ c ∈ registry.codes, Weighted available registry c) {c : String} :
    c ∈ weightedCodes available registry ↔ c ∈ registry.codes ∧ Weighted available registry c := by
  obtain ⟨d, hd, hweighted⟩ := h
  have hne : registry.codes.filter
      (fun c ↦ 0 < addresses available c ∧ 0 < registry.weight c) ≠ [] := by
    refine List.ne_nil_of_mem (a := d) (List.mem_filter.mpr ⟨hd, ?_⟩)
    exact decide_eq_true hweighted
  rw [weightedCodes, if_neg hne, List.mem_filter, decide_eq_true_eq]
  rfl

theorem of_mem_weightedCodes {c : String} (h : c ∈ weightedCodes available registry) :
    c ∈ registry.codes ∧ 0 < addresses available c := by
  rw [weightedCodes] at h
  split at h
  · simpa using h
  · rw [List.mem_filter, decide_eq_true_eq] at h
    exact ⟨h.1, h.2.1⟩

theorem splitWeight_pos (c : String) : 0 < splitWeight registry c := by
  rw [splitWeight]
  split
  · exact one_pos
  · next hne => exact lt_of_le_of_ne (registry.weight_nonneg c) (Ne.symm hne)

/-! ### The largest remainders -/

theorem exactCount_nonneg (hn : 0 ≤ n) (hweight : ∀ c, 0 < weight c) (c : String) :
    0 ≤ exactCount n weighted weight c := by
  have hsum : 0 ≤ (weighted.map weight).sum := by
    refine List.sum_nonneg fun x hx ↦ ?_
    obtain ⟨d, -, rfl⟩ := List.mem_map.mp hx
    exact (hweight d).le
  have hn' : (0 : ℚ) ≤ n := by exact_mod_cast hn
  rw [exactCount]
  split
  · exact div_nonneg (mul_nonneg hn' (hweight c).le) (Nat.cast_nonneg _)
  · exact div_nonneg (mul_nonneg hn' (hweight c).le) hsum

theorem sum_exactCount (hne : weighted ≠ []) (hweight : ∀ c, 0 < weight c) :
    (weighted.map (exactCount n weighted weight)).sum = n := by
  have hpos : 0 < (weighted.map weight).sum := by
    refine List.sum_pos _ (fun x hx ↦ ?_) (by simpa using hne)
    obtain ⟨d, -, rfl⟩ := List.mem_map.mp hx
    exact hweight d
  have hmul : ∀ l : List String, (l.map (exactCount n weighted weight)).sum =
      n * (l.map weight).sum / (weighted.map weight).sum := by
    intro l
    induction l with
    | nil => simp
    | cons c l ih =>
      simp only [List.map_cons, List.sum_cons, ih, exactCount, if_neg hpos.ne']
      ring
  rw [hmul, mul_div_cancel_right₀ _ hpos.ne']

theorem totalOver_floor_le (l : List String) (exact : String → ℚ) :
    (totalOver l (fun c ↦ ⌊exact c⌋) : ℚ) ≤ (l.map exact).sum := by
  induction l with
  | nil => simp [totalOver]
  | cons c l ih =>
    simp only [totalOver, List.map_cons, List.sum_cons, Int.cast_add] at ih ⊢
    exact add_le_add (Int.floor_le _) ih

/-- **Everything is dealt**, to weighted codes. -/
theorem dealRemainders_spec (hnodup : weighted.Nodup) (hne : weighted ≠ []) {exact : String → ℚ}
    (hexact : ∀ c, 0 ≤ exact c) (hsum : (weighted.map exact).sum = n) :
    Allotted weighted (dealRemainders n weighted exact) ∧
      totalOver weighted (dealRemainders n weighted exact) = n := by
  have hfloors : Allotted weighted fun c ↦ if c ∈ weighted then ⌊exact c⌋ else 0 := by
    refine ⟨fun c ↦ ?_, fun c hc ↦ if_neg hc⟩
    split
    · exact Int.floor_nonneg.mpr (hexact c)
    · exact le_rfl
  have hle : totalOver weighted (fun c ↦ if c ∈ weighted then ⌊exact c⌋ else 0) ≤ n := by
    rw [totalOver_congr fun c hc ↦ if_pos hc]
    exact_mod_cast (totalOver_floor_le weighted exact).trans_eq hsum
  have hplaces : ∀ byFrac : List String, byFrac.Perm weighted → ∀ rounds : List ℕ,
      ∀ c ∈ rounds.map (fun i ↦ byFrac.getD (i % weighted.length) ""), c ∈ weighted := by
    intro byFrac hperm rounds c hc
    obtain ⟨i, -, rfl⟩ := List.mem_map.mp hc
    have hi : i % weighted.length < byFrac.length := by
      rw [hperm.length_eq]
      exact Nat.mod_lt _ (List.length_pos_iff.mpr hne)
    rw [List.getD_eq_getElem?_getD, List.getElem?_eq_getElem hi]
    exact hperm.mem_iff.mp (List.getElem_mem hi)
  have hperm := sortedBy_perm
    (fun c ↦ (((if c ∈ weighted then ⌊exact c⌋ else 0 : ℤ) : ℚ)) - exact c) weighted
  obtain ⟨hin, htotal⟩ := handOut_spec hnodup hfloors (hplaces _ hperm
    (List.range (n - totalOver weighted fun c ↦ if c ∈ weighted then ⌊exact c⌋ else 0).toNat))
  refine ⟨hin, htotal.trans ?_⟩
  rw [List.length_map, List.length_range, Int.toNat_of_nonneg (sub_nonneg.mpr hle)]
  ring

/-! ### All steps -/

theorem split_spec (hn : 0 ≤ n) (hne : weighted ≠ []) (hnodup : weighted.Nodup)
    (hweight : ∀ c, 0 < weight c) (haddresses : ∀ c ∈ weighted, 0 < addresses available c) :
    let dealt := dealRemainders n weighted (exactCount n weighted weight)
    let cut := cutDown (addresses available) weighted dealt
    let spilled := spill (addresses available) (sortedBy (fun c ↦ -weight c) weighted) cut
    let counts := helpEmpty (addresses available) weighted spilled.1
    Within weighted (addresses available) counts ∧
      totalOver weighted counts = min n (totalOver weighted (addresses available)) ∧
      ((weighted.length : ℤ) ≤ n → ∀ c ∈ weighted, 0 < counts c) := by
  intro dealt cut spilled counts
  obtain ⟨hdealt, htotal⟩ := dealRemainders_spec hnodup hne (exactCount_nonneg hn hweight)
    (sum_exactCount hne hweight)
  have hcut := cutDown_spec hnodup (fun c _ ↦ addresses_nonneg available c) hdealt
  have hspilled : Spilled weighted _ _ _ spilled := spill_spec hnodup
    (fun c ↦ mem_sortedBy.mp) ⟨hcut.toAllotted, hcut.capped⟩ hcut.left_nonneg
  obtain ⟨hwithin, hsame, hpos⟩ := helpEmpty_spec hnodup hspilled.toWithin
  have hsum : totalOver weighted spilled.1 = min n (totalOver weighted (addresses available)) := by
    have hall : totalOver weighted spilled.1 + spilled.2 = n :=
      hspilled.total.trans (hcut.total.trans htotal)
    have hle := totalOver_le hspilled.capped
    rcases hspilled.left_or_full with hnone | ⟨hleft, hfull⟩
    · omega
    · have hfull := totalOver_congr fun c hc ↦ hfull c (mem_sortedBy.mpr hc)
      omega
  refine ⟨hwithin, hsame.trans hsum, fun henough c hc ↦ hpos haddresses ?_ c hc⟩
  rw [hsum]
  exact le_min henough (length_le_totalOver haddresses)

end

/-! ## The counts of all codes -/

theorem ofList_codes (registry : CodeRegistry) (counts : String → ℤ) :
    (Dict.ofList (registry.codes.map fun c ↦ (c, counts c))).keys = registry.codes ∧
      (Dict.ofList (registry.codes.map fun c ↦ (c, counts c))).values =
        registry.codes.map counts ∧
      ∀ c k, (Dict.ofList (registry.codes.map fun c ↦ (c, counts c))).get? c = some k ↔
        c ∈ registry.codes ∧ counts c = k := by
  have hkeys : (registry.codes.map fun c ↦ (c, counts c)).map Prod.fst = registry.codes := by
    rw [List.map_map]
    exact List.map_id _
  have hnodup : ((registry.codes.map fun c ↦ (c, counts c)).map Prod.fst).Nodup :=
    hkeys.symm ▸ registry.codes_nodup
  have hentries := Dict.ofList_entries ⟨registry.codes.map fun c ↦ (c, counts c), hnodup⟩
  refine ⟨?_, ?_, fun c k ↦ ?_⟩
  · exact (congrArg Dict.keys hentries).trans hkeys
  · refine (congrArg Dict.values hentries).trans ?_
    rw [Dict.values, List.map_map]
    rfl
  · rw [Dict.get?_ofList hnodup, List.mem_map]
    constructor
    · rintro ⟨d, hd, heq⟩
      obtain ⟨rfl, rfl⟩ := Prod.mk.inj heq
      exact ⟨hd, rfl⟩
    · rintro ⟨hc, rfl⟩
      exact ⟨c, hc, rfl⟩

theorem sum_counts {codes weighted : List String}
    (hsub : ∃ p : String → Bool, weighted = codes.filter p) {counts : String → ℤ}
    (houtside : ∀ c ∉ weighted, counts c = 0) :
      (codes.map counts).sum = totalOver weighted counts := by
  obtain ⟨p, rfl⟩ := hsub
  have hzero : ∀ c ∈ codes, p c = false → counts c = 0 := fun c _ hp ↦
    houtside c fun hmem ↦ by simp [hp] at hmem
  clear houtside
  induction codes with
  | nil => rfl
  | cons c codes ih =>
    obtain ⟨hc, hrest⟩ := List.forall_mem_cons.mp hzero
    rw [List.map_cons, List.sum_cons, ih hrest, List.filter_cons]
    split
    · simp [totalOver]
    · next hp => rw [hc (Bool.eq_false_iff.mpr hp), zero_add]

theorem weightedCodes_eq_filter (available : Dict String ℕ) (registry : CodeRegistry) :
    ∃ p : String → Bool, weightedCodes available registry = registry.codes.filter p := by
  rw [weightedCodes]
  split
  · exact ⟨_, rfl⟩
  · exact ⟨_, rfl⟩

/-- **The split is fair**, within the addresses there are. -/
theorem allocateFacilityCounts_fair (n : ℤ) (available : Dict String ℕ) (registry : CodeRegistry) :
    FairCounts n available registry (allocateFacilityCounts n available registry) := by
  rw [allocateFacilityCounts]
  dsimp only
  split
  · next hnone =>
    obtain ⟨hkeys, hvalues, hget⟩ := ofList_codes registry fun _ ↦ 0
    refine ⟨hkeys, fun c k h ↦ ?_, fun c k h ↦ ?_, fun _ c k h _ ↦ ?_, ?_, fun _ c hc ↦ ?_⟩
    · exact ((hget c k).mp h).2.le
    · exact ((hget c k).mp h).2 ▸ addresses_nonneg available c
    · exact ((hget c k).mp h).2.symm
    · rw [hvalues, hnone, List.map_nil, List.sum_nil]
      simp
    · rw [hnone] at hc
      cases hc
  · next hsome =>
    obtain ⟨hwithin, htotal, hpos⟩ := @split_spec available (max 1 n) _ (splitWeight registry)
      (by omega) hsome weightedCodes_nodup splitWeight_pos
      fun c (hc : c ∈ weightedCodes available registry) ↦ (of_mem_weightedCodes hc).2
    obtain ⟨hkeys, hvalues, hget⟩ := ofList_codes registry _
    refine ⟨hkeys, fun c k h ↦ ?_, fun c k h ↦ ?_, fun hsome c k h hnot ↦ ?_, ?_,
      fun henough c hc k h ↦ ?_⟩
    · exact ((hget c k).mp h).2 ▸ hwithin.nonneg c
    · obtain ⟨-, rfl⟩ := (hget c k).mp h
      by_cases hc : c ∈ weightedCodes available registry
      · exact hwithin.capped c hc
      · exact (hwithin.outside c hc).trans_le (addresses_nonneg available c)
    · obtain ⟨-, rfl⟩ := (hget c k).mp h
      exact hwithin.outside c fun hc ↦ hnot ((mem_weightedCodes hsome).mp hc).2
    · rw [hvalues, sum_counts (weightedCodes_eq_filter available registry) hwithin.outside, htotal]
      rfl
    · obtain ⟨-, rfl⟩ := (hget c k).mp h
      exact hpos (henough.trans (le_max_right 1 n)) c hc

end OpenRide.Datagen
