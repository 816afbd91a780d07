import OpenRide.Datagen.CooperationIds
import OpenRide.Datagen.Values

/-!
# Which entries cooperate

A compiled structure has an edge as soon as its entry names two different hauliers, in one edge or
in one pool (`ne_nil_of_namesTwo`): self-loops and pools of one member are dropped, but nothing else
is.  An entry with neither edges nor pools has none (`edges_eq_nil_of_no_content`).
-/

namespace OpenRide.Datagen

open Lib

section

variable {T : PyText} {known : SortedSet String}

/-- The id under which a haulier is named. -/
def namedHaulier (T : PyText) (value : Raw) : String := haulierSlug T value ""

variable {whr : String}

theorem cooperationMember_eq {a : String} {value : Raw}
    (h : cooperationMember T known whr value = .ok a) : namedHaulier T value = a ∧ a ∈ known := by
  rw [cooperationMember] at h
  split at h
  · next hk =>
    obtain rfl := Except.ok.inj h
    exact ⟨rfl, hk⟩
  · cases h

/-! ## Edges -/

variable {idx : ℕ} {entries : List Raw}

/-- An edge of two different hauliers is kept, like every edge before it. -/
theorem mem_of_edgesFrom {acc s : EdgeSet} (h : edgesFrom T known whr idx entries acc = .ok s) :
    (∀ e ∈ acc.edges, e ∈ s.edges) ∧
      ∀ x y, .list [x, y] ∈ entries → namedHaulier T x ≠ namedHaulier T y →
        sortedPair (namedHaulier T x) (namedHaulier T y) ∈ s.edges := by
  induction entries generalizing idx acc with
  | nil =>
    cases h
    exact ⟨fun _ he ↦ he, nofun⟩
  | cons entry rest ih =>
    rw [edgesFrom] at h
    split at h
    · cases h
    · next u v hpair =>
      have hentry : entry = .list [u, v] := by
        unfold Raw.pair? at hpair
        split at hpair
        · obtain ⟨rfl, rfl⟩ := Prod.mk.inj (Option.some.inj hpair)
          rfl
        · cases hpair
      split at h
      · cases h
      · next a ha =>
        split at h
        · cases h
        · next b hb =>
          obtain ⟨hold, hnew⟩ := ih h
          obtain ⟨rfl, -⟩ := cooperationMember_eq ha
          obtain ⟨rfl, -⟩ := cooperationMember_eq hb
          refine ⟨fun e he ↦ hold e ?_, fun x y hmem hne ↦ ?_⟩
          · split
            · exact he
            · exact EdgeSet.mem_link.mpr (Or.inr he)
          · rcases List.mem_cons.mp hmem with heq | hmem
            · rw [hentry] at heq
              cases heq
              refine hold _ ?_
              rw [if_neg hne]
              exact EdgeSet.mem_link.mpr (Or.inl rfl)
            · exact hnew x y hmem hne

/-! ## Pools -/

theorem mem_of_membersFrom {ms : List Raw} {acc s : SortedSet String}
    (h : membersFrom T known whr ms acc = .ok s) :
    (∀ x, x ∈ s ↔ x ∈ acc ∨ ∃ m ∈ ms, namedHaulier T m = x) ∧ ∀ m ∈ ms,
      namedHaulier T m ∈ known := by
  induction ms generalizing acc with
  | nil =>
    cases h
    exact ⟨fun x ↦ by simp, nofun⟩
  | cons m rest ih =>
    rw [membersFrom] at h
    split at h
    · cases h
    · next member hmember =>
      obtain ⟨rfl, hknown⟩ := cooperationMember_eq hmember
      obtain ⟨hmem, hall⟩ := ih h
      refine ⟨fun x ↦ ?_, List.forall_mem_cons.mpr ⟨hknown, hall⟩⟩
      rw [hmem, SortedSet.mem_insert, List.exists_mem_cons_iff, or_assoc, or_left_comm, eq_comm]

theorem rawMembers_eq_ok {value : Raw} {ms : List Raw} (h : rawMembers whr value = .ok ms) :
    value = .null ∧ ms = [] ∨ value = .list ms := by
  cases value with
  | null => exact Or.inl ⟨rfl, (Except.ok.inj h).symm⟩
  | list xs =>
    cases h
    exact Or.inr rfl
  | _ => cases h

/-- Two different hauliers of one pool are members of one compiled pool. -/
theorem coMember_of_poolsFrom {seen : List String} {out out' : List PoolEntry}
    (h : poolsFrom T known whr idx entries seen out = .ok out') :
    (∀ p ∈ out, p ∈ out') ∧
      ∀ p ms x y, .dict p ∈ entries → Raw.field p "members" = .list ms → x ∈ ms → y ∈ ms →
        namedHaulier T x ≠ namedHaulier T y →
          CoMember out' (namedHaulier T x) (namedHaulier T y) := by
  induction entries generalizing idx seen out with
  | nil =>
    cases h
    exact ⟨fun _ hp ↦ hp, nofun⟩
  | cons entry rest ih =>
    cases entry with
    | dict fields =>
      rw [poolsFrom] at h
      split at h
      · cases h
      · next ms hms =>
        split at h
        · cases h
        · next members hmembers =>
          obtain ⟨hmem, -⟩ := mem_of_membersFrom hmembers
          have hmember : ∀ m ∈ ms, namedHaulier T m ∈ members.toList := fun m hm ↦
            SortedSet.mem_def.mp ((hmem _).mpr (Or.inr ⟨m, hm, rfl⟩))
          have hlist : ∀ ms', Raw.field fields "members" = .list ms' → ms' = ms := by
            intro ms' hms'
            rcases rawMembers_eq_ok hms with ⟨hnull, -⟩ | hsame
            · rw [hnull] at hms'
              cases hms'
            · exact Raw.list.inj (hms'.symm.trans hsame)
          split at h
          · next hfew =>
            obtain ⟨hold, hnew⟩ := ih h
            refine ⟨hold, fun p ms' x y hp hms' hx hy hne ↦ ?_⟩
            rcases List.mem_cons.mp hp with heq | hp
            · obtain rfl := Raw.dict.inj heq
              obtain rfl := hlist ms' hms'
              exact absurd (one_lt_length_of_mem hne (hmember x hx) (hmember y hy)) (by omega)
            · exact hnew p ms' x y hp hms' hx hy hne
          · obtain ⟨hold, hnew⟩ := ih h
            refine ⟨fun p hp ↦ hold p (List.mem_append_left _ hp),
              fun p ms' x y hp hms' hx hy hne ↦ ?_⟩
            rcases List.mem_cons.mp hp with heq | hp
            · obtain rfl := Raw.dict.inj heq
              obtain rfl := hlist ms' hms'
              exact ⟨_, hold _ (List.mem_append_right _ (List.mem_singleton_self _)), hmember x hx,
                hmember y hy⟩
            · exact hnew p ms' x y hp hms' hx hy hne
    | _ => cases h

/-! ## Entries -/

/-- An entry names two different hauliers, in one edge or in one pool. -/
def NamesTwo (T : PyText) (fields : List (String × Raw)) : Prop :=
  (∃ entries x y, Raw.field fields "edges" = .list entries ∧ .list [x, y] ∈ entries ∧
    namedHaulier T x ≠ namedHaulier T y) ∨
  ∃ pools p ms x y, Raw.field fields "pools" = .list pools ∧ .dict p ∈ pools ∧
    Raw.field p "members" = .list ms ∧ x ∈ ms ∧ y ∈ ms ∧ namedHaulier T x ≠ namedHaulier T y

variable {rawEdges : Raw}

theorem mem_of_normalizeEdges {s : EdgeSet} (h : normalizeEdges T known rawEdges whr = .ok s)
    {x y : Raw} (hraw : rawEdges = .list entries) (hmem : .list [x, y] ∈ entries)
    (hne : namedHaulier T x ≠ namedHaulier T y) :
    sortedPair (namedHaulier T x) (namedHaulier T y) ∈ s.edges := by
  subst hraw
  exact (mem_of_edgesFrom h).2 x y hmem hne

variable {authored : AuthoredStructure}

theorem compilePools_eq_ok {rawPools : Raw} {sid : String}
    (h : compilePools T known rawPools rawEdges whr sid = .ok authored) :
    normalizePools T known rawPools whr = .ok authored.pools ∧
      authored.edges = (deriveEdgesFromPools authored.pools).edges ∧
      (rawEdges ≠ .null → ∃ s, normalizeEdges T known rawEdges whr = .ok s ∧
        authored.edges = s.edges) := by
  rw [compilePools] at h
  split at h
  · cases h
  · next pools hp =>
    dsimp only at h
    split at h
    · cases h
      exact ⟨hp, rfl, fun hne ↦ absurd rfl hne⟩
    · split at h
      · cases h
      · next s hs =>
        split at h
        · next hagree =>
          cases h
          exact ⟨hp, rfl, fun _ ↦ ⟨s, hs, hagree⟩⟩
        · cases h

/-- **An entry that names two hauliers compiles to a structure with an edge.** -/
theorem ne_nil_of_namesTwo {fields : List (String × Raw)}
    (h : compileEntry T known idx (.dict fields) = .ok authored) (hn : NamesTwo T fields) :
    authored.edges ≠ [] := by
  have hcompiled := compileEntry_compiled h
  have hedge : ∀ e, e ∈ authored.edges → authored.edges ≠ [] := fun e he ↦ List.ne_nil_of_mem he
  rw [compileEntry] at h
  split at h
  · next hnull =>
    rcases hn with ⟨entries, x, y, hraw, hmem, hne⟩ | ⟨pools, p, ms, x, y, hpools, -⟩
    · rw [compileEdges] at h
      split at h
      · cases h
      · next s hs =>
        cases h
        exact hedge _ (mem_of_normalizeEdges hs hraw hmem hne)
    · rw [hnull] at hpools
      cases hpools
  · obtain ⟨hpools, -, hagree⟩ := compilePools_eq_ok h
    rcases hn with ⟨entries, x, y, hraw, hmem, hne⟩ |
      ⟨pools, p, ms, x, y, hraw, hp, hms, hx, hy, hne⟩
    · obtain ⟨s, hs, hsame⟩ := hagree (by rw [hraw]; exact Raw.noConfusion)
      rw [hsame] at hedge ⊢
      exact hedge _ (mem_of_normalizeEdges hs hraw hmem hne)
    · rw [hraw] at hpools
      rw [normalizePools] at hpools
      split at hpools
      · cases hpools
      · next out hout =>
        have hco := (coMember_of_poolsFrom hout).2 p ms x y hp hms hx hy hne
        have hco' := (coMember_perm (sortedBy_perm PoolEntry.id out) _ _).mpr hco
        rw [Except.ok.inj hpools] at hco'
        exact hedge _ ((hcompiled.coMember_iff _ _ hne).mp hco')

/-- An entry without edges and pools compiles to a structure without edges. -/
theorem edges_eq_nil_of_no_content {fields : List (String × Raw)}
    (h : compileEntry T known idx (.dict fields) = .ok authored)
    (hedges : (Raw.field fields "edges").truthy = false)
    (hpools : (Raw.field fields "pools").truthy = false) : authored.edges = [] := by
  have hnone : ∀ {whr s}, normalizeEdges T known (Raw.field fields "edges") whr = .ok s →
      s.edges = [] := by
    intro whr s hs
    unfold normalizeEdges at hs
    split at hs
    · cases hs
      rfl
    · next entries hentries =>
      rw [hentries, Raw.truthy, Bool.not_eq_false', List.isEmpty_iff] at hedges
      subst hedges
      cases hs
      rfl
    · cases hs
  rw [compileEntry] at h
  split at h
  · rw [compileEdges] at h
    split at h
    · cases h
    · next s hs =>
      cases h
      exact hnone hs
  · obtain ⟨hnorm, hderived, -⟩ := compilePools_eq_ok h
    unfold normalizePools at hnorm
    split at hnorm
    · rw [hderived, ← Except.ok.inj hnorm]
      rfl
    · next entries hentries =>
      rw [hentries, Raw.truthy, Bool.not_eq_false', List.isEmpty_iff] at hpools
      subst hpools
      rw [hderived, ← Except.ok.inj hnorm]
      rfl
    · cases hnorm

/-! ## Other hauliers -/

variable {known' : SortedSet String}

variable {whr' : String}

theorem edgesFrom_known {idx' : ℕ} {acc s s' : EdgeSet}
    (h : edgesFrom T known whr idx entries acc = .ok s)
    (h' : edgesFrom T known' whr' idx' entries acc = .ok s') : s' = s := by
  induction entries generalizing idx idx' acc with
  | nil => exact (Except.ok.inj h').symm.trans (Except.ok.inj h)
  | cons entry rest ih =>
    rw [edgesFrom] at h h'
    cases hpair : entry.pair? with
    | none =>
      rw [hpair] at h
      cases h
    | some p =>
      rw [hpair] at h h'
      dsimp only at h h'
      split at h
      · cases h
      · next a ha =>
        split at h
        · cases h
        · next b hb =>
          split at h'
          · cases h'
          · next a' ha' =>
            split at h'
            · cases h'
            · next b' hb' =>
              obtain rfl := (cooperationMember_eq ha).1.symm.trans (cooperationMember_eq ha').1
              obtain rfl := (cooperationMember_eq hb).1.symm.trans (cooperationMember_eq hb').1
              exact ih h h'

theorem normalizeEdges_known {s s' : EdgeSet} (h : normalizeEdges T known rawEdges whr = .ok s)
    (h' : normalizeEdges T known' rawEdges whr' = .ok s') : s' = s := by
  cases rawEdges with
  | null => exact (Except.ok.inj h').symm.trans (Except.ok.inj h)
  | list entries => exact edgesFrom_known h h'
  | _ => cases h

theorem poolsFrom_known {idx' : ℕ} {seen : List String} {out r r' : List PoolEntry}
    (h : poolsFrom T known whr idx entries seen out = .ok r)
    (h' : poolsFrom T known' whr' idx' entries seen out = .ok r') : r' = r := by
  induction entries generalizing idx idx' seen out with
  | nil => exact (Except.ok.inj h').symm.trans (Except.ok.inj h)
  | cons entry rest ih =>
    cases entry with
    | dict fields =>
      rw [poolsFrom] at h h'
      split at h
      · cases h
      · next ms hms =>
        split at h'
        · cases h'
        · next ms' hms' =>
          obtain rfl : ms' = ms := by
            rcases rawMembers_eq_ok hms with ⟨hnull, rfl⟩ | hlist
            · rcases rawMembers_eq_ok hms' with ⟨-, rfl⟩ | hlist'
              · rfl
              · rw [hnull] at hlist'
                cases hlist'
            · rcases rawMembers_eq_ok hms' with ⟨hnull, -⟩ | hlist'
              · rw [hnull] at hlist
                cases hlist
              · exact Raw.list.inj (hlist'.symm.trans hlist)
          split at h
          · cases h
          · next members hmembers =>
            split at h'
            · cases h'
            · next members' hmembers' =>
              obtain rfl : members' = members := SortedSet.ext fun x ↦
                ((mem_of_membersFrom hmembers').1 x).trans ((mem_of_membersFrom hmembers).1 x).symm
              split at h
              · next hfew =>
                rw [if_pos hfew] at h'
                exact ih h h'
              · next hfew =>
                rw [if_neg hfew] at h'
                exact ih h h'
    | _ => cases h

theorem normalizePools_known {rawPools : Raw} {pools pools' : List PoolEntry}
    (h : normalizePools T known rawPools whr = .ok pools)
    (h' : normalizePools T known' rawPools whr' = .ok pools') : pools' = pools := by
  cases rawPools with
  | null => exact (Except.ok.inj h').symm.trans (Except.ok.inj h)
  | list entries =>
    rw [normalizePools] at h h'
    split at h
    · cases h
    · next out hout =>
      split at h'
      · cases h'
      · next out' hout' =>
        rw [← Except.ok.inj h, ← Except.ok.inj h', poolsFrom_known hout hout']
  | _ => cases h

theorem compileEdges_known {sid sid' : String} {authored' : AuthoredStructure}
    (h : compileEdges T known rawEdges whr sid = .ok authored)
    (h' : compileEdges T known' rawEdges whr' sid' = .ok authored') :
    authored'.edges = authored.edges := by
  rw [compileEdges] at h h'
  split at h
  · cases h
  · next s hs =>
    split at h'
    · cases h'
    · next s' hs' =>
      rw [← Except.ok.inj h, ← Except.ok.inj h', normalizeEdges_known hs hs']

/-- **The edges of an entry do not depend on which hauliers are known**, as long as its own are. -/
theorem compileEntry_known {entry : Raw} {authored' : AuthoredStructure}
    (h : compileEntry T known idx entry = .ok authored)
    (h' : compileEntry T known' idx entry = .ok authored') : authored'.edges = authored.edges := by
  cases entry with
  | dict fields =>
    rw [compileEntry] at h h'
    cases hpools : Raw.field fields "pools" with
    | null =>
      rw [hpools] at h h'
      exact compileEdges_known h h'
    | _ =>
      rw [hpools] at h h'
      obtain ⟨hnorm, hedges, -⟩ := compilePools_eq_ok h
      obtain ⟨hnorm', hedges', -⟩ := compilePools_eq_ok h'
      rw [hedges, hedges', normalizePools_known hnorm hnorm']
  | list pairs => exact compileEdges_known h h'
  | null | bool | int | float | str => cases h

end

end OpenRide.Datagen
