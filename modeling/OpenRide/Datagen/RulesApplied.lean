import OpenRide.Datagen.FacilityRules

/-!
# What facility rules come to

A list of rules that was accepted settles every key of every facility: its value is that of the one
rule of highest rank among those that match the facility and mention the key, and where no rule does
both, that of the blanket (`Effective`).  Rejecting conflicts by the names of facilities is enough
for there to be one such rule, and the value determines how the facility ends up.

So resolving never raises, does not depend on the order of the rules, and changes nothing when it is
repeated on its own result (`facilityRules_settled`): rules look only at fields that no rule sets.
-/

namespace OpenRide.Datagen

open Lib

section

variable (H : PyHost)

/-! ## The value of a key -/

/-- A field of a facility or of the blanket, `null` if it is missing. -/
def keyOf (d : Dict String Raw) (k : SettableKey) : Raw := (d.get? k.key).getD .null

/-- The rule matches the facility and mentions the key. -/
def Rule.Addresses (r : Rule) (site : Site) (k : SettableKey) : Prop :=
  r.matchesSite H site = true ∧ (r.value? k).isSome = true

/-- The value an author means: `null`, or the value normalised. -/
inductive Means (k : SettableKey) : Raw → Raw → Prop where
  | null : Means k .null .null
  | read {value v : Raw} (hv : value.isNull = false) (h : k.read H value = .ok v) : Means k value v

/-- The value the blanket gives to a key: its own, else what the facility was placed with; a rebate
has no place on a facility but from the blanket. -/
def BlanketGives (blanket : Dict String Raw) (site : Site) (k : SettableKey) (v : Raw) : Prop :=
  match k with
  | .rebate => Means H .rebate (keyOf blanket .rebate) v
  | _ => v = if (keyOf blanket k).isNull then keyOf site k else keyOf blanket k

/-- The value a key ends up with. -/
inductive Effective (rules : List Rule) (blanket : Dict String Raw) (site : Site)
    (k : SettableKey) : Raw → Prop where
  | rule {winner : Rule} {rest : List Rule} {value v : Raw} (hrules : rules.Perm (winner :: rest))
      (hmatch : winner.matchesSite H site = true) (hvalue : winner.value? k = some value)
      (hmost : ∀ r ∈ rest, r.Addresses H site k → r.rank < winner.rank) (hv : Means H k value v) :
      Effective rules blanket site k v
  | blanket {v : Raw} (hnone : ∀ r ∈ rules, ¬ r.Addresses H site k)
      (hv : BlanketGives H blanket site k v) : Effective rules blanket site k v

/-- The blanket was stamped onto the facility; its rebate may still be as authored. -/
structure Stamped (blanket : Dict String Raw) (site : Site) : Prop where
  counts : ∀ k ≠ SettableKey.rebate, (keyOf blanket k).isNull = false →
    keyOf site k = keyOf blanket k
  rebate : ∃ v, BlanketGives H blanket site .rebate v ∧
    ((keyOf site .rebate).isNull = true ∨ keyOf site .rebate = v)

/-- A facility and what the rules make of it. -/
structure SiteSettled (rules : List Rule) (blanket : Dict String Raw) (site site' : Site) :
    Prop where
  keys : ∀ k, ∃ v, Effective H rules blanket site k v ∧
    site'.get? k.key = if k = .rebate ∧ v.isNull then none else some v
  others : ∀ x, x ∉ SettableKey.all.map SettableKey.key → site'.get? x = site.get? x

variable {H}

theorem Means.unique {k : SettableKey} {value v w : Raw} (h : Means H k value v)
    (h' : Means H k value w) : v = w := by
  cases h with
  | null =>
    cases h' with
    | null => rfl
    | read hv _ => cases hv
  | read hv h =>
    cases h' with
    | null => cases hv
    | read _ h' => exact Except.ok.inj (h.symm.trans h')

theorem BlanketGives.unique {blanket : Dict String Raw} {site : Site} {k : SettableKey} {v w : Raw}
    (h : BlanketGives H blanket site k v) (h' : BlanketGives H blanket site k w) : v = w := by
  cases k with
  | rebate => exact Means.unique h h'
  | gateCount => exact Eq.trans h (Eq.symm h')
  | serviceTime => exact Eq.trans h (Eq.symm h')

variable {rules rules' : List Rule} {blanket : Dict String Raw} {site : Site} {k : SettableKey}

/-- **A key has one value.** -/
theorem Effective.unique {v w : Raw} (h : Effective H rules blanket site k v)
    (h' : Effective H rules blanket site k w) : v = w := by
  have haddr : ∀ {winner : Rule} {value : Raw}, winner.matchesSite H site = true →
      winner.value? k = some value → winner.Addresses H site k :=
    fun hmatch hvalue ↦ ⟨hmatch, by simp [hvalue]⟩
  cases h with
  | @rule winner rest value _ hrules hmatch hvalue hmost hv =>
    cases h' with
    | @rule winner' rest' value' _ hrules' hmatch' hvalue' hmost' hv' =>
      -- of two different winners each would outrank the other
      have hsame : winner' = winner := by
        by_contra hne
        have hmem : winner' ∈ winner :: rest :=
          hrules.mem_iff.mp (hrules'.mem_iff.mpr List.mem_cons_self)
        have hmem' : winner ∈ winner' :: rest' :=
          hrules'.mem_iff.mp (hrules.mem_iff.mpr List.mem_cons_self)
        have hlt := hmost _ ((List.mem_cons.mp hmem).resolve_left hne) (haddr hmatch' hvalue')
        have hlt' := hmost' _ ((List.mem_cons.mp hmem').resolve_left (Ne.symm hne))
          (haddr hmatch hvalue)
        omega
      subst hsame
      obtain rfl := Option.some.inj (hvalue.symm.trans hvalue')
      exact hv.unique hv'
    | blanket hnone _ =>
      exact absurd (haddr hmatch hvalue) (hnone _ (hrules.mem_iff.mpr List.mem_cons_self))
  | blanket hnone hv =>
    cases h' with
    | rule hrules hmatch hvalue _ _ =>
      exact absurd (haddr hmatch hvalue) (hnone _ (hrules.mem_iff.mpr List.mem_cons_self))
    | blanket _ hv' => exact hv.unique hv'

/-- **The order of the rules does not matter.** -/
theorem Effective.perm {v : Raw} (h : Effective H rules blanket site k v)
    (hperm : rules'.Perm rules) : Effective H rules' blanket site k v := by
  cases h with
  | rule hrules hmatch hvalue hmost hv =>
    exact .rule (hperm.trans hrules) hmatch hvalue hmost hv
  | blanket hnone hv => exact .blanket (fun r hr ↦ hnone r (hperm.mem_iff.mp hr)) hv

/-! ## What is accepted -/

/-- The values of a rule can be read. -/
def Rule.Readable (H : PyHost) (r : Rule) : Prop :=
  ∀ k value, r.value? k = some value → ∃ v, Means H k value v

/-- Of two rules of equal rank that match a facility, no key is mentioned by both. -/
def Apart (H : PyHost) (site : Site) (r r' : Rule) : Prop :=
  ∀ k, r.rank = r'.rank → r.Addresses H site k → ¬ r'.Addresses H site k

theorem Apart.symm {r r' : Rule} (h : Apart H site r r') : Apart H site r' r :=
  fun k hrank haddr haddr' ↦ h k hrank.symm haddr' haddr

/-- What is accepted in the `set` of a rule means something. -/
theorem validateSetEntry_means {whr : String} {entry : String × Raw} {e : SettableKey × Raw}
    (h : validateSetEntry H whr entry = .ok e) : ∃ v, Means H e.1 e.2 v := by
  unfold validateSetEntry at h
  split at h
  · cases h
  · next k _ =>
    split at h
    · next hnull =>
      split at h
      · cases h
        obtain ⟨_, value⟩ := entry
        cases value with
        | null => exact ⟨.null, .null⟩
        | _ => cases hnull
      · cases h
    · next hnull =>
      obtain ⟨v, hv, h⟩ := bind_eq_ok.mp h
      cases h
      exact ⟨v, .read (by simpa using hnull) (raiseAs_eq_ok.mp hv)⟩

theorem validateRule_readable {sites : List Site} {codes : List String} {rule : Raw}
    {whr : String} {r : Rule} (h : validateRule H sites codes rule whr = .ok r) : r.Readable H := by
  have hset : ∀ {rawSet : Raw} {set : List (SettableKey × Raw)},
      validateSet H rawSet whr = .ok set → ∀ e ∈ set, ∃ v, Means H e.1 e.2 v := by
    intro rawSet set h e he
    unfold validateSet at h
    split at h
    · cases h
    · obtain ⟨entry, -, hentry⟩ := mem_of_each h he
      exact validateSetEntry_means hentry
    · cases h
  unfold validateRule at h
  split at h
  · simp only at h
    split at h
    · cases h
    · split at h
      · obtain ⟨matched, -, h⟩ := bind_eq_ok.mp h
        obtain ⟨set, hvalid, h⟩ := bind_eq_ok.mp h
        obtain ⟨_, -, h⟩ := bind_eq_ok.mp h
        cases h
        exact fun k value hvalue ↦ hset hvalid (k, value) (Dict.mem_of_lookupIn hvalue)
      · cases h
      · cases h
  · cases h

theorem validateRules_readable {sites : List Site} {codes : List String} {slug : String}
    {entries : List Raw} {idx : ℕ} (h : validateRules H sites codes slug idx entries = .ok rules) :
    ∀ r ∈ rules, r.Readable H := by
  induction entries generalizing idx rules with
  | nil =>
    cases h
    simp
  | cons entry entries ih =>
    obtain ⟨first, hfirst, h⟩ := bind_eq_ok.mp h
    obtain ⟨rest, hrest, h⟩ := bind_eq_ok.mp h
    cases h
    exact List.forall_mem_cons.mpr ⟨validateRule_readable hfirst, ih hrest⟩

theorem firstConflict_eq_none {conflict : Rule × ℕ → Rule × ℕ → Option RulesError}
    {l : List (Rule × ℕ)} :
    firstConflict conflict l = none ↔ l.Pairwise fun a b ↦ conflict a b = none := by
  induction l with
  | nil => simp [firstConflict]
  | cons a l ih => simp [firstConflict, ih]

theorem pairwise_zipIdx {R : Rule → Rule → Prop} (n : ℕ) :
    (rules.zipIdx n).Pairwise (fun a b ↦ R a.1 b.1) ↔ rules.Pairwise R := by
  conv_rhs => rw [← List.zipIdx_map_fst n rules, List.pairwise_map]

/-- **Names are enough**: rules without a conflict are apart at every facility. -/
theorem apart_of_rejectEqualRankConflicts {sites : List Site} {slug : String}
    (h : rejectEqualRankConflicts H rules sites slug = .ok ()) (hsite : site ∈ sites) :
    rules.Pairwise (Apart H site) := by
  have hnone : ∀ rank ∈ [10, 30], ∀ k ∈ SettableKey.sorted,
      firstConflict (conflictOf H sites slug k) (rulesAbout rules rank k) = none := by
    unfold rejectEqualRankConflicts at h
    split at h
    · next hnil =>
      intro rank hrank k hk
      have hrank' := List.flatMap_eq_nil_iff.mp hnil rank hrank
      exact List.filterMap_eq_nil_iff.mp hrank' k hk
    · cases h
  have hpair : ∀ k, rules.zipIdx.Pairwise fun a b ↦ a.1.rank = b.1.rank →
      a.1.Addresses H site k → ¬ b.1.Addresses H site k := by
    intro k
    have hrank : ∀ r : Rule, r.rank ∈ [10, 30] := by
      intro r
      rw [Rule.rank]
      cases r.matcher <;> decide
    have hk : k ∈ SettableKey.sorted := by cases k <;> decide
    have hconflict : ∀ rank ∈ [10, 30], rules.zipIdx.Pairwise fun a b ↦
        a.1.rank = rank → b.1.rank = rank → (a.1.value? k).isSome = true →
        (b.1.value? k).isSome = true → sharedNames H sites a.1 b.1 = [] := by
      intro rank hmem
      have hpairwise := firstConflict_eq_none.mp (hnone rank hmem k hk)
      rw [rulesAbout, List.pairwise_filter] at hpairwise
      refine hpairwise.imp fun {a b} hab ha hb hav hbv ↦ ?_
      have hshared := hab (by simp [ha, hav]) (by simp [hb, hbv])
      unfold conflictOf at hshared
      split at hshared
      · assumption
      · cases hshared
    have hten := hconflict 10 (by simp)
    have hthirty := hconflict 30 (by simp)
    refine (hten.and hthirty).imp fun {a b} hab hsame haddr haddr' ↦ ?_
    have hshared : sharedNames H sites a.1 b.1 = [] := by
      rcases List.mem_pair.mp (hrank a.1) with ha | ha
      · exact hab.1 ha (hsame ▸ ha) haddr.2 haddr'.2
      · exact hab.2 ha (hsame ▸ ha) haddr.2 haddr'.2
    have hmem : ∀ r : Rule, r.matchesSite H site = true →
        nameText H site ∈ matchedNames H sites r := by
      intro r hr
      exact SortedSet.mem_ofList.mpr (List.mem_map_of_mem (by simp [hsite, hr]))
    have hname : nameText H site ∈ sharedNames H sites a.1 b.1 := by
      rw [sharedNames, List.mem_filter]
      exact ⟨hmem _ haddr.1, by simpa using hmem _ haddr'.1⟩
    simp [hshared] at hname
  rw [← pairwise_zipIdx 0]
  have hall := (hpair .gateCount).and ((hpair .serviceTime).and (hpair .rebate))
  refine hall.imp fun {a b} hab k ↦ ?_
  cases k with
  | gateCount => exact hab.1
  | serviceTime => exact hab.2.1
  | rebate => exact hab.2.2

/-- **What acceptance gives**: values that can be read, and no two rules at odds. -/
theorem validateFacilityRules_ok {rawRules : Raw} {sites : List Site} {codes : List String}
    {slug : String} (h : validateFacilityRules H rawRules sites codes slug = .ok rules) :
    (∀ r ∈ rules, r.Readable H) ∧ ∀ site ∈ sites, rules.Pairwise (Apart H site) := by
  unfold validateFacilityRules at h
  split at h
  · cases h
    exact ⟨by simp, fun _ _ ↦ List.Pairwise.nil⟩
  · obtain ⟨rules', hrules, h⟩ := bind_eq_ok.mp h
    obtain ⟨⟨⟩, hconflicts, h⟩ := bind_eq_ok.mp h
    cases h
    exact ⟨validateRules_readable hrules,
      fun _ hsite ↦ apart_of_rejectEqualRankConflicts hconflicts hsite⟩
  · cases h

/-! ## One key of one facility -/

/-- The fold with which the best rank is found. -/
theorem foldl_max_spec (l : List ℕ) (a : ℕ) :
    (∀ x ∈ l, x ≤ l.foldl max a) ∧ a ≤ l.foldl max a ∧ (l.foldl max a = a ∨ l.foldl max a ∈ l) := by
  induction l generalizing a with
  | nil => simp
  | cons x l ih =>
    obtain ⟨hall, hstart, hmem⟩ := ih (max a x)
    simp only [List.foldl_cons, List.mem_cons, forall_eq_or_imp]
    refine ⟨⟨by omega, hall⟩, by omega, ?_⟩
    rcases hmem with hmem | hmem
    · rw [hmem]
      omega
    · exact Or.inr (Or.inr hmem)

theorem mem_candidates {r : Rule} {i : ℕ} (h : (r, i) ∈ candidates H rules site k) :
    r ∈ rules ∧ r.Addresses H site k := by
  simp only [candidates, List.mem_filter, Bool.and_eq_true] at h
  exact ⟨List.fst_mem_of_mem_zipIdx h.1, h.2⟩

theorem exists_mem_candidates {r : Rule} (hr : r ∈ rules) (haddr : r.Addresses H site k) :
    ∃ i, (r, i) ∈ candidates H rules site k := by
  obtain ⟨i, hi, rfl⟩ := List.getElem_of_mem hr
  refine ⟨i, ?_⟩
  simp only [candidates, List.mem_filter, Bool.and_eq_true]
  exact ⟨List.mk_mem_zipIdx_iff_getElem?.mpr (List.getElem?_eq_getElem hi), haddr⟩

theorem ruleValue_eq {value v : Raw} {whr : String} (h : Means H k value v) :
    ruleValue H k value whr = .ok v := by
  cases h with
  | null => rfl
  | read hv h =>
    rw [ruleValue, hv, if_neg Bool.false_ne_true]
    exact raiseAs_eq_ok.mpr h

/-- **One winner**: of the candidates, one has the best rank. -/
theorem winner_unique (hapart : rules.Pairwise (Apart H site))
    (hsome : candidates H rules site k ≠ []) :
    ∃ winner, (candidates H rules site k).filter (fun p ↦ p.1.rank =
      ((candidates H rules site k).map fun p ↦ p.1.rank).foldl max 0) = [winner] := by
  obtain ⟨hle, -, hbest⟩ := foldl_max_spec ((candidates H rules site k).map fun p ↦ p.1.rank) 0
  generalize ((candidates H rules site k).map fun p ↦ p.1.rank).foldl max 0 = best at hle hbest ⊢
  have hpairwise : (candidates H rules site k).Pairwise fun a b ↦ Apart H site a.1 b.1 :=
    ((pairwise_zipIdx 0).mpr hapart).filter _
  have hreached : ∃ p ∈ candidates H rules site k, p.1.rank = best := by
    rcases hbest with hzero | hmem
    · obtain ⟨p, hp⟩ := List.exists_mem_of_ne_nil _ hsome
      have hrank := hle p.1.rank (List.mem_map_of_mem hp)
      exact ⟨p, hp, by omega⟩
    · obtain ⟨p, hp, hrank⟩ := List.mem_map.mp hmem
      exact ⟨p, hp, hrank⟩
  obtain ⟨p, hp, hrank⟩ := hreached
  have hmem : p ∈ (candidates H rules site k).filter fun p ↦ p.1.rank = best := by
    simp [hp, hrank]
  cases hlist : (candidates H rules site k).filter fun p ↦ p.1.rank = best with
  | nil => simp [hlist] at hmem
  | cons a rest =>
    cases rest with
    | nil => exact ⟨a, rfl⟩
    | cons b rest =>
      -- two winners have equal ranks, so they are apart, and both mention the key
      have hwinners := hpairwise.filter fun p ↦ decide (p.1.rank = best)
      rw [hlist] at hwinners
      have hab := (List.pairwise_cons.mp hwinners).1 b (by simp)
      have hin : ∀ c ∈ [a, b], c ∈ candidates H rules site k ∧ c.1.rank = best := by
        intro c hc
        have hc' : c ∈ (candidates H rules site k).filter fun p ↦ p.1.rank = best := by
          rw [hlist]
          simp at hc ⊢
          tauto
        simpa using hc'
      obtain ⟨ha, hra⟩ := hin a (by simp)
      obtain ⟨hb, hrb⟩ := hin b (by simp)
      exact absurd (mem_candidates hb).2 (hab k (hra.trans hrb.symm) (mem_candidates ha).2)

/-- **A key is resolved**: its value is that of the winner, or what the blanket layer gives. -/
theorem resolveKey_spec {slug : String} {base : Raw × String}
    (hread : ∀ r ∈ rules, r.Readable H) (hapart : rules.Pairwise (Apart H site))
    (hbase : blanketValue H k site blanket = .ok base) :
    ∃ r, resolveKey H rules site blanket slug k = .ok r ∧ r.key = k ∧
      (Effective H rules blanket site k r.value ∨
        (∀ r ∈ rules, ¬ r.Addresses H site k) ∧ r.value = base.1) := by
  rw [resolveKey, hbase, ok_bind]
  by_cases hempty : candidates H rules site k = []
  · simp only [hempty, List.isEmpty_nil, if_true]
    refine ⟨_, rfl, rfl, Or.inr ⟨fun r hr haddr ↦ ?_, rfl⟩⟩
    obtain ⟨i, hi⟩ := exists_mem_candidates hr haddr
    simp [hempty] at hi
  · obtain ⟨⟨winner, i⟩, hwinner⟩ := winner_unique hapart hempty
    have hmem : (winner, i) ∈ (candidates H rules site k).filter fun p ↦ p.1.rank =
        ((candidates H rules site k).map fun p ↦ p.1.rank).foldl max 0 := by
      rw [hwinner]
      exact List.mem_singleton_self _
    obtain ⟨hcandidate, hrank⟩ := List.mem_filter.mp hmem
    obtain ⟨hrule, haddr⟩ := mem_candidates hcandidate
    obtain ⟨value, hvalue⟩ := Option.isSome_iff_exists.mp haddr.2
    obtain ⟨v, hv⟩ := hread winner hrule k value hvalue
    simp only [List.isEmpty_iff, hempty, if_false, hwinner, hvalue, Option.getD_some,
      ruleValue_eq hv, ok_bind]
    refine ⟨_, rfl, rfl, Or.inl ?_⟩
    obtain ⟨before, later, hsplit⟩ := List.append_of_mem hrule
    have hperm : rules.Perm (winner :: (before ++ later)) := by
      rw [hsplit]
      exact List.perm_middle
    refine .rule hperm haddr.1 hvalue (fun r hr haddr' ↦ ?_) hv
    have hapart' := (hperm.pairwise_iff fun h ↦ h.symm).mp hapart
    have hne : winner.rank ≠ r.rank := fun he ↦
      (List.pairwise_cons.mp hapart').1 r hr k he haddr haddr'
    obtain ⟨j, hj⟩ := exists_mem_candidates
      (hperm.mem_iff.mpr (List.mem_cons_of_mem _ hr)) haddr'
    have hle := (foldl_max_spec ((candidates H rules site k).map fun p ↦ p.1.rank) 0).1 r.rank
      (List.mem_map_of_mem hj)
    have hbest := of_decide_eq_true hrank
    simp only at hbest
    omega

/-! ## One facility -/

/-- The blanket layer comes to what the blanket gives, wherever no rule speaks. -/
def BlanketHolds (H : PyHost) (rules : List Rule) (blanket : Dict String Raw) (site : Site) :
    Prop :=
  ∀ k, ∃ base, blanketValue H k site blanket = .ok base ∧
    ((∀ r ∈ rules, ¬ r.Addresses H site k) → BlanketGives H blanket site k base.1)

/-- The facility with these values. -/
def settledWith (v : SettableKey → Raw) (site : Site) : Site :=
  (SettableKey.all.map fun k ↦ (⟨k, v k, ""⟩ : Resolved)).foldl applyValue site

/-- **A facility is resolved**: every key has its value. -/
theorem resolveSite_spec {slug : String} (hread : ∀ r ∈ rules, r.Readable H)
    (hapart : rules.Pairwise (Apart H site)) (hblanket : BlanketHolds H rules blanket site) :
    ∃ values, resolveSite H rules blanket slug site = .ok values ∧
      ∃ v, (∀ k, Effective H rules blanket site k (v k)) ∧
        values.foldl applyValue site = settledWith v site := by
  have hkey : ∀ k, ∃ r, resolveKey H rules site blanket slug k = .ok r ∧ r.key = k ∧
      Effective H rules blanket site k r.value := by
    intro k
    obtain ⟨base, hbase, hgives⟩ := hblanket k
    obtain ⟨r, hr, hk, heff | ⟨hnone, hvalue⟩⟩ := resolveKey_spec hread hapart hbase
    · exact ⟨r, hr, hk, heff⟩
    · exact ⟨r, hr, hk, .blanket hnone (hvalue ▸ hgives hnone)⟩
  choose r hr hk heff using hkey
  refine ⟨SettableKey.all.map r, ?_, fun k ↦ (r k).value, heff, ?_⟩
  · rw [resolveSite, each_eq_ok, List.forall₂_map_right_iff]
    exact List.forall₂_same.mpr fun k _ ↦ hr k
  · have happly : ∀ (site : Site) (k : SettableKey),
        applyValue site (r k) = applyValue site ⟨k, (r k).value, ""⟩ := by
      intro site k
      simp [applyValue, hk]
    simp [settledWith, List.foldl_map, happly]

/-! ## Stamping -/

/-- What a facility holds under a key that has this value. -/
def stampedValue (k : SettableKey) (v : Raw) : Option Raw :=
  if k = .rebate ∧ v.isNull then none else some v

theorem get?_applyValue (site : Site) (r : Resolved) (x : String) :
    (applyValue site r).get? x =
      if x = r.key.key then stampedValue r.key r.value else site.get? x := by
  by_cases hnone : r.key = .rebate ∧ r.value.isNull = true
  · rw [applyValue, if_pos hnone, stampedValue, if_pos hnone, Dict.get?_erase]
  · rw [applyValue, if_neg hnone, stampedValue, if_neg hnone, Dict.get?_set]

theorem applyValue_self {r : Resolved} (h : site.get? r.key.key = stampedValue r.key r.value) :
    applyValue site r = site := by
  rw [stampedValue] at h
  rw [applyValue]
  split at h
  · next hnone =>
    rw [if_pos hnone]
    obtain ⟨entries, hnodup⟩ := site
    have hself : entries.filter (fun p ↦ p.1 ≠ r.key.key) = entries := by
      refine List.filter_eq_self.mpr fun p hp ↦ ?_
      have hne := Dict.lookupIn_eq_none.mp h
      have hkey : p.1 ≠ r.key.key := fun he ↦ hne (he ▸ List.mem_map_of_mem hp)
      simpa using hkey
    simp only [Dict.erase, hself]
  · next hnone =>
    rw [if_neg hnone]
    exact Dict.set_of_get? h

theorem get?_settledWith (v : SettableKey → Raw) (site : Site) (k : SettableKey) :
    (settledWith v site).get? k.key = stampedValue k (v k) := by
  cases k with
  | gateCount => simp [settledWith, SettableKey.all, get?_applyValue, SettableKey.key]
  | serviceTime => simp [settledWith, SettableKey.all, get?_applyValue, SettableKey.key]
  | rebate => simp [settledWith, SettableKey.all, get?_applyValue, SettableKey.key]

theorem get?_settledWith_of_notMem {v : SettableKey → Raw} {x : String}
    (h : x ∉ SettableKey.all.map SettableKey.key) : (settledWith v site).get? x = site.get? x := by
  simp only [SettableKey.all, List.map_cons, List.map_nil, List.mem_cons, List.not_mem_nil,
    or_false, not_or] at h
  simp [settledWith, SettableKey.all, get?_applyValue, h]

theorem settledWith_settledWith (v : SettableKey → Raw) (site : Site) :
    settledWith v (settledWith v site) = settledWith v site := by
  have hself : ∀ k, applyValue (settledWith v site) ⟨k, v k, ""⟩ = settledWith v site :=
    fun k ↦ applyValue_self (get?_settledWith v site k)
  conv_lhs => rw [settledWith]
  simp [SettableKey.all, hself]

/-- No rule sets a field that rules look at. -/
theorem matchesSite_settledWith (r : Rule) (v : SettableKey → Raw) (site : Site) :
    r.matchesSite H (settledWith v site) = r.matchesSite H site := by
  have hkey : r.matcher.key ∉ SettableKey.all.map SettableKey.key := by
    cases r.matcher <;> decide
  rw [Rule.matchesSite, get?_settledWith_of_notMem hkey, Rule.matchesSite]

theorem addresses_settledWith {r : Rule} {v : SettableKey → Raw} :
    r.Addresses H (settledWith v site) k ↔ r.Addresses H site k := by
  rw [Rule.Addresses, matchesSite_settledWith, Rule.Addresses]

theorem keyOf_settledWith {v : SettableKey → Raw} (h : k ≠ .rebate ∨ (v k).isNull = false) :
    keyOf (settledWith v site) k = v k := by
  have hkey : ¬ (k = .rebate ∧ (v k).isNull = true) := by
    rintro ⟨rfl, hnull⟩
    simp [hnull] at h
  rw [keyOf, get?_settledWith, stampedValue, if_neg hkey, Option.getD_some]

theorem keyOf_settledWith_null {v : SettableKey → Raw} (h : (v .rebate).isNull = true) :
    keyOf (settledWith v site) .rebate = .null := by
  rw [keyOf, get?_settledWith, stampedValue, if_pos ⟨rfl, h⟩, Option.getD_none]

/-! ## The blanket layer -/

/-- The blanket layer of a rebate: what the facility has, else what the blanket means. -/
theorem blanketValue_rebate {v : Raw} (h : Means H .rebate (keyOf blanket .rebate) v) :
    ∃ source, blanketValue H .rebate site blanket =
      .ok (if (keyOf site .rebate).isNull then v else keyOf site .rebate, source) := by
  change ∃ source, (if !(keyOf site .rebate).isNull then
      Except.ok (keyOf site .rebate, "overrides.facility")
    else if (keyOf blanket .rebate).isNull then .ok (.null, "datagen default (no schedule)")
    else SettableKey.rebate.coerce H (keyOf blanket .rebate) "overrides.facility.rebate" >>=
      fun value ↦ .ok (value, "overrides.facility")) = _
  cases (keyOf site .rebate).isNull with
  | false => exact ⟨_, rfl⟩
  | true =>
    generalize keyOf blanket .rebate = value at h ⊢
    cases h with
    | null => exact ⟨_, rfl⟩
    | read hv h =>
      have hcoerce : SettableKey.rebate.coerce H value "overrides.facility.rebate" = .ok v :=
        raiseAs_eq_ok.mpr h
      simp only [Bool.not_true, Bool.false_eq_true, if_false, hv, hcoerce, ok_bind, if_true]
      exact ⟨_, rfl⟩

theorem blanketValue_count (hk : k ≠ .rebate) : ∃ source, blanketValue H k site blanket =
    .ok (if (keyOf blanket k).isNull then keyOf site k else keyOf blanket k, source) := by
  cases k with
  | rebate => exact absurd rfl hk
  | gateCount =>
    change ∃ source, (if !(keyOf blanket .gateCount).isNull then
      Except.ok (keyOf blanket .gateCount, "overrides.facility")
      else .ok (keyOf site .gateCount, "datagen default")) = _
    cases (keyOf blanket .gateCount).isNull with
    | true => exact ⟨_, rfl⟩
    | false => exact ⟨_, rfl⟩
  | serviceTime =>
    change ∃ source, (if !(keyOf blanket .serviceTime).isNull then
      Except.ok (keyOf blanket .serviceTime, "overrides.facility")
      else .ok (keyOf site .serviceTime, "datagen default")) = _
    cases (keyOf blanket .serviceTime).isNull with
    | true => exact ⟨_, rfl⟩
    | false => exact ⟨_, rfl⟩

theorem blanketGives_count {v : Raw} (hk : k ≠ .rebate) : BlanketGives H blanket site k v ↔
    v = if (keyOf blanket k).isNull then keyOf site k else keyOf blanket k := by
  cases k with
  | rebate => exact absurd rfl hk
  | gateCount => rfl
  | serviceTime => rfl

theorem Stamped.blanketHolds (h : Stamped H blanket site) : BlanketHolds H rules blanket site := by
  intro k
  by_cases hk : k = .rebate
  · subst hk
    obtain ⟨v, hv, hsite⟩ := h.rebate
    obtain ⟨source, hvalue⟩ := blanketValue_rebate hv
    refine ⟨_, hvalue, fun _ ↦ ?_⟩
    split
    · exact hv
    · next hnull => exact (hsite.resolve_left hnull) ▸ hv
  · obtain ⟨source, hvalue⟩ := @blanketValue_count H blanket site k hk
    exact ⟨_, hvalue, fun _ ↦ (blanketGives_count hk).mpr rfl⟩

/-- After rules were applied, the blanket layer is still there where no rule speaks. -/
theorem blanketHolds_settledWith {v : SettableKey → Raw}
    (heff : ∀ k, Effective H rules blanket site k (v k))
    (hrebate : ∃ w, Means H .rebate (keyOf blanket .rebate) w) :
    BlanketHolds H rules blanket (settledWith v site) := by
  have hgives : ∀ k, (∀ r ∈ rules, ¬ r.Addresses H (settledWith v site) k) →
      BlanketGives H blanket site k (v k) := by
    intro k hnone
    cases heff k with
    | rule hrules hmatch hvalue _ _ =>
      refine absurd ?_ (hnone _ (hrules.mem_iff.mpr List.mem_cons_self))
      exact addresses_settledWith.mpr ⟨hmatch, by simp [hvalue]⟩
    | blanket _ hv => exact hv
  intro k
  by_cases hk : k = .rebate
  · subst hk
    obtain ⟨w, hw⟩ := hrebate
    obtain ⟨source, hvalue⟩ := @blanketValue_rebate H blanket (settledWith v site) w hw
    refine ⟨_, hvalue, fun hnone ↦ ?_⟩
    have hsame : v .rebate = w := Means.unique (hgives .rebate hnone) hw
    split
    · exact hw
    · next hnull =>
      have hnull' : (v .rebate).isNull = false := by
        by_contra h
        rw [keyOf_settledWith_null (by simpa using h)] at hnull
        exact hnull rfl
      rw [keyOf_settledWith (Or.inr hnull'), hsame]
      exact hw
  · obtain ⟨source, hvalue⟩ := @blanketValue_count H blanket (settledWith v site) k hk
    refine ⟨_, hvalue, fun _ ↦ (blanketGives_count hk).mpr rfl⟩

/-- The value of a key is its value also after it was stamped. -/
theorem effective_settledWith {v : SettableKey → Raw}
    (h : Effective H rules blanket site k (v k)) :
    Effective H rules blanket (settledWith v site) k (v k) := by
  cases h with
  | rule hrules hmatch hvalue hmost hv =>
    refine .rule hrules (by rwa [matchesSite_settledWith]) hvalue (fun r hr haddr ↦ ?_) hv
    exact hmost r hr (addresses_settledWith.mp haddr)
  | blanket hnone hv =>
    refine .blanket (fun r hr haddr ↦ hnone r hr (addresses_settledWith.mp haddr)) ?_
    by_cases hk : k = .rebate
    · subst hk
      exact hv
    · rw [blanketGives_count hk] at hv ⊢
      rw [keyOf_settledWith (Or.inl hk)]
      split
      · rfl
      · next hnull => rwa [if_neg hnull] at hv

/-! ## All facilities -/

/-- Every facility is resolved and stamped on its own. -/
theorem resolveAndApply_spec {slug : String} {sites : List Site} {P : Site → Site → Prop}
    (h : ∀ s ∈ sites, ∃ values, resolveSite H rules blanket slug s = .ok values ∧
      P s (values.foldl applyValue s)) :
    ∃ sites', resolveAndApply H rules sites blanket slug = .ok sites' ∧
      List.Forall₂ P sites sites' := by
  have hall : ∃ perSite, each (resolveSite H rules blanket slug) sites = .ok perSite ∧
      sites.length = perSite.length ∧
      List.Forall₂ P sites
        (sites.zipWith (fun site values ↦ values.foldl applyValue site) perSite) := by
    induction sites with
    | nil => exact ⟨[], rfl, rfl, .nil⟩
    | cons s sites ih =>
      obtain ⟨⟨values, hvalues, hP⟩, hrest⟩ := List.forall_mem_cons.mp h
      obtain ⟨perSite, hper, hlength, hforall⟩ := ih hrest
      refine ⟨values :: perSite, ?_, congrArg Nat.succ hlength, .cons hP hforall⟩
      rw [each, hvalues, ok_bind, hper]
      rfl
  obtain ⟨perSite, hper, hlength, hforall⟩ := hall
  refine ⟨_, ?_, hforall⟩
  rw [resolveAndApply, resolveFacilityRules, hper]
  simp [applyResolution, hlength]

/-- What one resolution makes of a facility. -/
def Settles (H : PyHost) (rules : List Rule) (blanket : Dict String Raw) (site site' : Site) :
    Prop :=
  ∃ v, (∀ k, Effective H rules blanket site k (v k)) ∧ site' = settledWith v site

theorem Settles.unique {site₁ site₂ : Site} (h : Settles H rules blanket site site₁)
    (h' : Settles H rules blanket site site₂) : site₁ = site₂ := by
  obtain ⟨v, hv, rfl⟩ := h
  obtain ⟨w, hw, rfl⟩ := h'
  have hsame : v = w := funext fun k ↦ (hv k).unique (hw k)
  rw [hsame]

theorem Settles.siteSettled {site' : Site} (h : Settles H rules blanket site site') :
    SiteSettled H rules blanket site site' := by
  obtain ⟨v, hv, rfl⟩ := h
  exact ⟨fun k ↦ ⟨v k, hv k, get?_settledWith v site k⟩, fun _ hx ↦ get?_settledWith_of_notMem hx⟩

/-- **Rules that are in order settle every facility.** -/
theorem resolveAndApply_settles {slug : String} {sites : List Site}
    (hread : ∀ r ∈ rules, r.Readable H)
    (hapart : ∀ site ∈ sites, rules.Pairwise (Apart H site))
    (hblanket : ∀ site ∈ sites, BlanketHolds H rules blanket site) :
    ∃ sites', resolveAndApply H rules sites blanket slug = .ok sites' ∧
      List.Forall₂ (Settles H rules blanket) sites sites' := by
  refine resolveAndApply_spec fun s hs ↦ ?_
  obtain ⟨values, hvalues, v, hv, hfold⟩ := resolveSite_spec hread (hapart s hs) (hblanket s hs)
  exact ⟨values, hvalues, v, hv, hfold⟩

/-- **A second resolution changes nothing.** -/
theorem resolveAndApply_again {slug : String} {sites sites' : List Site}
    (hread : ∀ r ∈ rules, r.Readable H)
    (hapart : ∀ site ∈ sites, rules.Pairwise (Apart H site))
    (hstamped : ∀ site ∈ sites, Stamped H blanket site)
    (hsettles : List.Forall₂ (Settles H rules blanket) sites sites') :
    resolveAndApply H rules sites' blanket slug = .ok sites' := by
  have hagain : ∀ s' ∈ sites', ∃ values, resolveSite H rules blanket slug s' = .ok values ∧
      s' = values.foldl applyValue s' := by
    intro s' hs'
    obtain ⟨s, hs, v, hv, heq⟩ := exists_mem_of_forall₂ hsettles hs'
    rw [heq]
    obtain ⟨w, hw, -⟩ := (hstamped s hs).rebate
    have hapart' : rules.Pairwise (Apart H (settledWith v s)) :=
      (hapart s hs).imp fun hrr k hrank haddr haddr' ↦
        hrr k hrank (addresses_settledWith.mp haddr) (addresses_settledWith.mp haddr')
    obtain ⟨values, hvalues, v', hv', hfold⟩ :=
      @resolveSite_spec H rules blanket (settledWith v s) slug hread hapart'
        (blanketHolds_settledWith hv ⟨w, hw⟩)
    have hsame : v' = v := funext fun k ↦ (hv' k).unique (effective_settledWith (hv k))
    refine ⟨values, hvalues, ?_⟩
    rw [hfold, hsame, settledWith_settledWith]
  obtain ⟨sites'', hrun, hforall⟩ :=
    @resolveAndApply_spec H rules blanket slug sites' (· = ·) hagain
  rw [List.forall₂_eq_eq_eq] at hforall
  rw [hrun, hforall]

variable (H)

/-- **Facility rules settle every key of every facility**: in any order, and once for all. -/
theorem facilityRules_settled {rawRules : Raw} {sites : List Site} {codes : List String}
    {slug : String} (hvalid : validateFacilityRules H rawRules sites codes slug = .ok rules)
    (hstamped : ∀ site ∈ sites, Stamped H blanket site) :
    ∃ sites', resolveAndApply H rules sites blanket slug = .ok sites' ∧
      List.Forall₂ (SiteSettled H rules blanket) sites sites' ∧
      (∀ rules', rules'.Perm rules →
        resolveAndApply H rules' sites blanket slug = .ok sites') ∧
      resolveAndApply H rules sites' blanket slug = .ok sites' := by
  obtain ⟨hread, hapart⟩ := validateFacilityRules_ok hvalid
  obtain ⟨sites', hrun, hsettles⟩ := @resolveAndApply_settles H rules blanket slug sites hread
    hapart fun site hs ↦ (hstamped site hs).blanketHolds
  refine ⟨sites', hrun, hsettles.imp fun _ _ h ↦ h.siteSettled, fun rules' hperm ↦ ?_,
    resolveAndApply_again hread hapart hstamped hsettles⟩
  obtain ⟨sites'', hrun', hsettles'⟩ := @resolveAndApply_settles H rules' blanket slug sites
    (fun r hr ↦ hread r (hperm.mem_iff.mp hr))
    (fun site hs ↦ (hperm.pairwise_iff fun h ↦ h.symm).mpr (hapart site hs))
    fun site hs ↦ (hstamped site hs).blanketHolds
  have hback : List.Forall₂ (Settles H rules blanket) sites sites'' :=
    hsettles'.imp fun _ _ ⟨v, hv, he⟩ ↦ ⟨v, fun k ↦ (hv k).perm hperm.symm, he⟩
  have hsame : sites'' = sites' :=
    Relator.RightUnique.forall₂ (fun _ _ _ h h' ↦ h.unique h') hback hsettles
  rw [hrun', hsame]

end

/-! ## The blanket as the compiler stamps it -/

/-! ### Two terminals -/

/-- Two terminals, as placed and stamped. -/
def twoTerminals : List Site :=
  ["ct_000", "ct_001"].map fun name ↦ Dict.ofList
    [("name", .str name), ("code", .str "CT"), ("gate_count", .int 1), ("service_time", .int 1800)]

/-- Three gates and no schedule for all terminals, and five gates for the first. -/
def gateRules : List Rule :=
  [⟨.code, "CT", [(.gateCount, .int 3), (.rebate, .null)]⟩,
    ⟨.name, "ct_000", [(.gateCount, .int 5)]⟩]

/-- The rules as authored. -/
def gateRulesRaw : Raw :=
  .list [.dict [("match", .dict [("code", .str "CT")]),
      ("set", .dict [("gate_count", .int 3), ("rebate", .null)])],
    .dict [("match", .dict [("name", .str "ct_000")]), ("set", .dict [("gate_count", .int 5)])]]

theorem facilityRules_settled_terminals : ∃ sites',
    resolveAndApply asciiHost gateRules twoTerminals facilityProfile "port" = .ok sites' ∧
      List.Forall₂ (SiteSettled asciiHost gateRules facilityProfile) twoTerminals sites' ∧
      (∀ rules', rules'.Perm gateRules →
        resolveAndApply asciiHost rules' twoTerminals facilityProfile "port" = .ok sites') ∧
      resolveAndApply asciiHost gateRules sites' facilityProfile "port" = .ok sites' := by
  have hstamped : ∀ site ∈ twoTerminals, Stamped asciiHost facilityProfile site := by
    intro site hsite
    obtain ⟨name, -, rfl⟩ := List.mem_map.mp hsite
    refine ⟨fun k hk _ ↦ ?_, .null, .null, Or.inl rfl⟩
    cases k with
    | rebate => exact absurd rfl hk
    | gateCount => rfl
    | serviceTime => rfl
  exact @facilityRules_settled asciiHost gateRules facilityProfile gateRulesRaw twoTerminals ["CT"]
    "port" rfl hstamped

end OpenRide.Datagen
