import OpenRide.Datagen.CooperationPairs

/-!
# When a compiled block is usable

A run picks a structure by its id, and may always fall back to one without edges.  Normalising a
block adds such a structure when the author wrote none, under the id `no-coop`, or `baseline` if
`no-coop` is taken.  Whether `baseline` is taken as well is not looked at, so a block whose
structures all have edges and go by both names ends up with two structures of one id.

`normalizeCooperation_usable_iff` says that this is all that can go wrong: apart from it an accepted
block has ids that differ, a structure without edges that its id leads to, and an active id that
names one structure; and a block that is not accepted is refused with a `ValueError`.
-/

namespace OpenRide.Datagen

open Lib

section

variable {T : PyText} {known : SortedSet String}

/-! ## Which entries have an edge -/

/-- An entry names two different hauliers, in an edge or in a pool. -/
def LinksTwo (T : PyText) : Raw → Prop
  | .dict fields => NamesTwo T fields
  | .list pairs => ∃ x y, .list [x, y] ∈ pairs ∧ namedHaulier T x ≠ namedHaulier T y
  | _ => False

variable {whr : String} {entries : List Raw}

/-- An edge comes from a pair of two different hauliers. -/
theorem exists_of_edgesFrom {idx : ℕ} {acc s : EdgeSet}
    (h : edgesFrom T known whr idx entries acc = .ok s) {e : String × String} (he : e ∈ s.edges) :
    e ∈ acc.edges ∨
      ∃ x y, .list [x, y] ∈ entries ∧ namedHaulier T x ≠ namedHaulier T y := by
  induction entries generalizing idx acc with
  | nil =>
    cases h
    exact Or.inl he
  | cons entry rest ih =>
    rw [edgesFrom] at h
    split at h
    · cases h
    · next u v hpair =>
      have hentry : entry = .list [u, v] := by
        unfold Raw.pair? at hpair
        split at hpair
        · simp_all
        · cases hpair
      split at h
      · cases h
      · next a ha =>
        split at h
        · cases h
        · next b hb =>
          obtain ⟨rfl, -⟩ := cooperationMember_eq ha
          obtain ⟨rfl, -⟩ := cooperationMember_eq hb
          rcases ih h with hold | ⟨x, y, hmem, hne⟩
          · split at hold
            · exact Or.inl hold
            · next hne => exact Or.inr ⟨u, v, by simp [hentry], hne⟩
          · exact Or.inr ⟨x, y, List.mem_cons_of_mem _ hmem, hne⟩

theorem exists_of_normalizeEdges {rawEdges : Raw} {s : EdgeSet}
    (h : normalizeEdges T known rawEdges whr = .ok s) (hne : s.edges ≠ []) :
    ∃ entries x y, rawEdges = .list entries ∧ .list [x, y] ∈ entries ∧
      namedHaulier T x ≠ namedHaulier T y := by
  obtain ⟨e, he⟩ := List.exists_mem_of_ne_nil _ hne
  unfold normalizeEdges at h
  split at h
  · cases h
    simp [EdgeSet.mem_empty] at he
  · next entries =>
    rcases exists_of_edgesFrom h he with hacc | ⟨x, y, hmem, hxy⟩
    · simp [EdgeSet.mem_empty] at hacc
    · exact ⟨entries, x, y, rfl, hmem, hxy⟩
  · cases h

/-- A pool with two members comes from an authored pool that names them. -/
theorem exists_of_poolsFrom {idx : ℕ} {seen : List String} {out out' : List PoolEntry}
    (h : poolsFrom T known whr idx entries seen out = .ok out') {a b : String}
    (hab : CoMember out' a b) (hne : a ≠ b) :
    CoMember out a b ∨ ∃ p ms x y, .dict p ∈ entries ∧ Raw.field p "members" = .list ms ∧
      x ∈ ms ∧ y ∈ ms ∧ namedHaulier T x ≠ namedHaulier T y := by
  induction entries generalizing idx seen out with
  | nil =>
    cases h
    exact Or.inl hab
  | cons entry rest ih =>
    cases entry with
    | dict fields =>
      have hlater : (∃ p ms x y, .dict p ∈ rest ∧ Raw.field p "members" = .list ms ∧
          x ∈ ms ∧ y ∈ ms ∧ namedHaulier T x ≠ namedHaulier T y) →
          ∃ p ms x y, .dict p ∈ Raw.dict fields :: rest ∧ Raw.field p "members" = .list ms ∧
            x ∈ ms ∧ y ∈ ms ∧ namedHaulier T x ≠ namedHaulier T y :=
        fun ⟨p, ms, x, y, hp, hrest⟩ ↦ ⟨p, ms, x, y, List.mem_cons_of_mem _ hp, hrest⟩
      rw [poolsFrom] at h
      split at h
      · cases h
      · next ms hms =>
        split at h
        · cases h
        · next members hmembers =>
          obtain ⟨hmem, -⟩ := mem_of_membersFrom hmembers
          split at h
          · exact (ih h).imp_right hlater
          · rcases ih h with ⟨p, hp, ha, hb⟩ | hex
            · rcases List.mem_append.mp hp with hp | hp
              · exact Or.inl ⟨p, hp, ha, hb⟩
              · -- the pool of this entry: its members are named by the entry
                obtain rfl := List.mem_singleton.mp hp
                have hnamed : ∀ c ∈ members.toList, ∃ m ∈ ms, namedHaulier T m = c := by
                  intro c hc
                  exact ((hmem c).mp (SortedSet.mem_def.mpr hc)).resolve_left
                    (SortedSet.notMem_empty c)
                obtain ⟨x, hx, rfl⟩ := hnamed a ha
                obtain ⟨y, hy, rfl⟩ := hnamed b hb
                rcases rawMembers_eq_ok hms with ⟨-, rfl⟩ | hlist
                · simp at hx
                · exact Or.inr ⟨fields, ms, x, y, List.mem_cons_self, hlist, hx, hy, hne⟩
            · exact Or.inr (hlater hex)
    | _ => cases h

/-- **An entry compiles to a structure with an edge just when it names two hauliers.** -/
theorem compileEntry_edges {idx : ℕ} {entry : Raw} {authored : AuthoredStructure}
    (h : compileEntry T known idx entry = .ok authored) :
    authored.edges ≠ [] ↔ LinksTwo T entry := by
  cases entry with
  | dict fields =>
    refine ⟨fun hne ↦ ?_, ne_nil_of_namesTwo h⟩
    have hcompiled := compileEntry_compiled h
    rw [compileEntry] at h
    split at h
    · rw [compileEdges] at h
      split at h
      · cases h
      · next s hs =>
        cases h
        exact Or.inl (exists_of_normalizeEdges hs hne)
    · obtain ⟨hpools, -, -⟩ := compilePools_eq_ok h
      obtain ⟨e, he⟩ := List.exists_mem_of_ne_nil _ hne
      have hlt := (hcompiled.goodEdges e he).1
      have hco : CoMember authored.pools e.1 e.2 := by
        refine (hcompiled.coMember_iff _ _ hlt.ne).mpr ?_
        rw [sortedPair_of_lt hlt]
        exact he
      unfold normalizePools at hpools
      split at hpools
      · rw [← Except.ok.inj hpools] at hco
        obtain ⟨p, hp, -⟩ := hco
        simp at hp
      · next pools hraw =>
        split at hpools
        · cases hpools
        · next out hout =>
          rw [← Except.ok.inj hpools] at hco
          have hco' := (coMember_perm (sortedBy_perm PoolEntry.id out) _ _).mp hco
          rcases exists_of_poolsFrom hout hco' hlt.ne with ⟨p, hp, -⟩ | ⟨p, ms, x, y, hex⟩
          · simp at hp
          · exact Or.inr ⟨pools, p, ms, x, y, hraw, hex⟩
      · cases hpools
  | list pairs =>
    rw [compileEntry, compileEdges] at h
    split at h
    · cases h
    · next s hs =>
      cases h
      constructor
      · intro hne
        obtain ⟨entries, x, y, hraw, hmem, hxy⟩ := exists_of_normalizeEdges hs hne
        obtain rfl := Raw.list.inj hraw
        exact ⟨x, y, hmem, hxy⟩
      · rintro ⟨x, y, hmem, hxy⟩
        exact List.ne_nil_of_mem (mem_of_normalizeEdges hs rfl hmem hxy)
  | null | bool | int | float | str => cases h

/-! ## What a refused block raises -/

/-- No `KeyError` escapes. -/
def NoKeyError {α : Type} (x : Except CooperationError α) : Prop := x ≠ .error .keyError

/-- An exception that is passed on is the one that was raised. -/
theorem NoKeyError.carried {α β : Type} {x : Except CooperationError α} {e : CooperationError}
    (h : NoKeyError x) (he : x = .error e) : NoKeyError (.error e : Except CooperationError β) := by
  subst he
  simpa [NoKeyError] using h

theorem cooperationMember_noKeyError (whr : String) (value : Raw) :
    NoKeyError (cooperationMember T known whr value) := by
  simp only [NoKeyError, cooperationMember]
  split <;> simp

theorem edgesFrom_noKeyError (whr : String) (idx : ℕ) (entries : List Raw) (acc : EdgeSet) :
    NoKeyError (edgesFrom T known whr idx entries acc) := by
  induction entries generalizing idx acc with
  | nil => simp [NoKeyError, edgesFrom]
  | cons entry rest ih =>
    rw [edgesFrom]
    split
    · simp [NoKeyError]
    · split
      · next e he => exact (cooperationMember_noKeyError _ _).carried he
      · split
        · next e he => exact (cooperationMember_noKeyError _ _).carried he
        · exact ih _ _

theorem normalizeEdges_noKeyError (rawEdges : Raw) (whr : String) :
    NoKeyError (normalizeEdges T known rawEdges whr) := by
  unfold normalizeEdges
  split
  · simp [NoKeyError]
  · exact edgesFrom_noKeyError _ _ _ _
  · simp [NoKeyError]

theorem membersFrom_noKeyError (whr : String) (ms : List Raw) (acc : SortedSet String) :
    NoKeyError (membersFrom T known whr ms acc) := by
  induction ms generalizing acc with
  | nil => simp [NoKeyError, membersFrom]
  | cons m rest ih =>
    rw [membersFrom]
    split
    · next e he => exact (cooperationMember_noKeyError _ _).carried he
    · exact ih _

theorem rawMembers_noKeyError (whr : String) (value : Raw) :
    NoKeyError (rawMembers whr value) := by
  cases value <;> simp [NoKeyError, rawMembers]

theorem poolsFrom_noKeyError (whr : String) (idx : ℕ) (entries : List Raw) (seen : List String)
    (out : List PoolEntry) : NoKeyError (poolsFrom T known whr idx entries seen out) := by
  induction entries generalizing idx seen out with
  | nil => simp [NoKeyError, poolsFrom]
  | cons entry rest ih =>
    cases entry with
    | dict fields =>
      rw [poolsFrom]
      split
      · next e he => exact (rawMembers_noKeyError _ _).carried he
      · split
        · next e he => exact (membersFrom_noKeyError _ _ _).carried he
        · split
          · exact ih _ _ _
          · exact ih _ _ _
    | _ => simp [NoKeyError, poolsFrom]

theorem normalizePools_noKeyError (rawPools : Raw) (whr : String) :
    NoKeyError (normalizePools T known rawPools whr) := by
  unfold normalizePools
  split
  · simp [NoKeyError]
  · split
    · next e he => exact (poolsFrom_noKeyError _ _ _ _ _).carried he
    · simp [NoKeyError]
  · simp [NoKeyError]

theorem compileEdges_noKeyError (rawEdges : Raw) (whr sid : String) :
    NoKeyError (compileEdges T known rawEdges whr sid) := by
  rw [compileEdges]
  split
  · next e he => exact (normalizeEdges_noKeyError _ _).carried he
  · simp [NoKeyError]

theorem compileEntry_noKeyError (idx : ℕ) (entry : Raw) :
    NoKeyError (compileEntry T known idx entry) := by
  cases entry with
  | dict fields =>
    rw [compileEntry]
    split
    · exact compileEdges_noKeyError _ _ _
    · rw [compilePools]
      split
      · next e he => exact (normalizePools_noKeyError _ _).carried he
      · dsimp only
        split
        · simp [NoKeyError]
        · split
          · next e he => exact (normalizeEdges_noKeyError _ _).carried he
          · split <;> simp [NoKeyError]
  | list pairs => exact compileEdges_noKeyError _ _ _
  | _ => simp [NoKeyError, compileEntry]

theorem structuresFrom_noKeyError (idx : ℕ) (entries : List Raw) (seen : List String)
    (out : List CoopStructure) : NoKeyError (structuresFrom T known idx entries seen out) := by
  induction entries generalizing idx seen out with
  | nil => simp [NoKeyError, structuresFrom]
  | cons entry rest ih =>
    rw [structuresFrom]
    split
    · next e he => exact (compileEntry_noKeyError _ _).carried he
    · next authored ha =>
      obtain ⟨components, hcomponents, -⟩ :=
        componentsOf_spec (compileEntry_compiled ha).goodEdges.mem_known
      rw [hcomponents]
      exact ih _ _ _

theorem activeId_noKeyError (activeRaw : Raw) (declared structures : List CoopStructure) :
    NoKeyError (activeId T activeRaw declared structures) := by
  have hwanted : ∀ wanted message, NoKeyError
      (if wanted ∈ structures.map CoopStructure.id then Except.ok wanted
        else Except.error (CooperationError.valueError message)) := by
    intro wanted message
    split <;> simp [NoKeyError]
  cases activeRaw with
  | int n =>
    rw [activeId]
    split <;> simp [NoKeyError]
  | null | bool => simp [NoKeyError, activeId]
  | float | str | list | dict => exact hwanted _ _

theorem authoredStructures_noKeyError (raw : Raw) : NoKeyError (authoredStructures raw) := by
  unfold authoredStructures
  split
  any_goals simp [NoKeyError]
  split <;> simp

/-- **A block that is refused is refused with a `ValueError`.** -/
theorem normalizeCooperation_noKeyError (raw : Raw) (haulierIds : List String) :
    NoKeyError (normalizeCooperation T raw haulierIds) := by
  rw [normalizeCooperation]
  split
  · simp [NoKeyError]
  · dsimp only
    split
    · next e he => exact (authoredStructures_noKeyError raw).carried he
    · split
      · next e he => exact (structuresFrom_noKeyError _ _ _ _).carried he
      · next declared hdeclared =>
        obtain ⟨structures, hstructures⟩ :=
          withBaseline_isOk (SortedSet.ofList haulierIds) declared
        simp only [hstructures]
        split
        · next e he => exact (activeId_noKeyError _ _ _).carried he
        · simp [NoKeyError]

/-! ## Usable blocks -/

/-- The structure an id leads to: `\x7bs["id"]: s for s in structures\x7d[sid]`. -/
def structureById (structures : List CoopStructure) (sid : String) : Option CoopStructure :=
  (Dict.ofList (structures.map fun s ↦ (s.id, s))).get? sid

/-- What a run relies on in a compiled block. -/
structure Cooperation.Usable (coop : Cooperation) : Prop where
  distinct : (coop.structures.map CoopStructure.id).Nodup
  baseline : ∃ s ∈ coop.structures, s.edges = [] ∧ structureById coop.structures s.id = some s
  active : (coop.structures.map CoopStructure.id).count coop.active = 1

/-- Every authored structure links two hauliers, and both names for one that links none are given
to some of them. -/
def BaselineNamesTaken (T : PyText) (raw : Raw) : Prop :=
  ∃ entries activeRaw, authoredStructures raw = .ok (entries, activeRaw) ∧
    (∀ entry ∈ entries, LinksTwo T entry) ∧ "no-coop" ∈ assignedIds T entries ∧
    "baseline" ∈ assignedIds T entries

/-- The declared structures have the ids given to their entries, and an edge where their entry
links two hauliers. -/
theorem declared_spec {declared : List CoopStructure}
    (h : structuresFrom T known 0 entries [] [] = .ok declared) :
    declared.map CoopStructure.id = assignedIds T entries ∧
      ((∀ s ∈ declared, s.edges ≠ []) ↔ ∀ entry ∈ entries, LinksTwo T entry) := by
  obtain ⟨rest, hrest, hids, hspec⟩ := structuresFrom_spec h
  subst hrest
  have hlength : declared.length = entries.length := by
    rw [← List.length_map CoopStructure.id, hids, length_assignedIdsFrom]
  refine ⟨hids, ⟨fun hall entry hentry ↦ ?_, fun hall s hs ↦ ?_⟩⟩
  · obtain ⟨i, hi⟩ := List.mem_iff_getElem?.mp hentry
    obtain ⟨s, authored, hs, ha, hedges, -⟩ := hspec i entry hi
    rw [← compileEntry_edges ha, ← hedges]
    exact hall s (List.mem_of_getElem? hs)
  · obtain ⟨i, hi⟩ := List.mem_iff_getElem?.mp hs
    have hlt : i < entries.length := by
      rw [← hlength]
      exact (List.getElem?_eq_some_iff.mp hi).1
    obtain ⟨s', authored, hs', ha, hedges, -⟩ :=
      hspec i entries[i] (List.getElem?_eq_getElem hlt)
    obtain rfl := Option.some.inj (hi.symm.trans hs')
    rw [hedges, compileEntry_edges ha]
    exact hall _ (List.getElem_mem hlt)

/-- Where ids differ, an id leads to its structure. -/
theorem structureById_of_nodup {structures : List CoopStructure}
    (h : (structures.map CoopStructure.id).Nodup) {s : CoopStructure} (hs : s ∈ structures) :
    structureById structures s.id = some s := by
  rw [structureById, Dict.get?_ofList]
  · exact List.mem_map_of_mem hs
  · rwa [List.map_map]

end

/-- **A compiled block is usable** unless all its structures link hauliers and both names of the
structure to fall back to are taken; and one that is refused is refused with a `ValueError`. -/
theorem normalizeCooperation_usable_iff (T : PyText) (raw : Raw) (haulierIds : List String) :
    (∀ e, normalizeCooperation T raw haulierIds = .error e → ∃ message, e = .valueError message) ∧
    ∀ coop, normalizeCooperation T raw haulierIds = .ok coop →
      (coop.Usable ↔ ¬ BaselineNamesTaken T raw) := by
  refine ⟨fun e he ↦ ?_, fun coop h ↦ ?_⟩
  · cases e with
    | valueError message => exact ⟨message, rfl⟩
    | keyError => exact absurd he (normalizeCooperation_noKeyError raw haulierIds)
  · obtain ⟨entries, activeRaw, declared, hentries, hdeclared, hstructures, -⟩ :=
      normalizeCooperation_eq_ok h
    obtain ⟨hids, hlinks⟩ := declared_spec hdeclared
    have hdistinct := nodup_assignedIds (T := T) entries
    have hactive := (normalizeCooperation_settled h).2
    have htaken : BaselineNamesTaken T raw ↔ (∀ s ∈ declared, s.edges ≠ []) ∧
        "no-coop" ∈ declared.map CoopStructure.id ∧ "baseline" ∈ declared.map CoopStructure.id := by
      rw [hlinks, hids]
      constructor
      · rintro ⟨entries', activeRaw', hentries', htaken⟩
        obtain ⟨rfl, -⟩ := Prod.mk.inj (Except.ok.inj (hentries'.symm.trans hentries))
        exact htaken
      · exact fun htaken ↦ ⟨entries, activeRaw, hentries, htaken⟩
    -- it is enough that the ids differ and some structure has no edges
    have husable : (coop.structures.map CoopStructure.id).Nodup →
        (∃ s ∈ coop.structures, s.edges = []) → coop.Usable := by
      rintro hnodup ⟨s, hs, hedges⟩
      exact ⟨hnodup, ⟨s, hs, hedges, structureById_of_nodup hnodup hs⟩,
        List.count_eq_one_of_mem hnodup hactive⟩
    rw [htaken]
    rw [withBaseline] at hstructures
    split at hstructures
    · next hany =>
      obtain ⟨s, hs, hedges⟩ := List.any_eq_true.mp hany
      rw [List.isEmpty_iff] at hedges
      have hsame := Except.ok.inj hstructures
      refine iff_of_true (husable ?_ ⟨s, hsame ▸ hs, hedges⟩) fun hall ↦ hall.1 s hs hedges
      rw [← hsame, hids]
      exact hdistinct
    · next hany =>
      have hall : ∀ s ∈ declared, s.edges ≠ [] := by
        intro s hs hedges
        exact hany (List.any_eq_true.mpr ⟨s, hs, by rw [hedges]; rfl⟩)
      split at hstructures
      · cases hstructures
      · have hsame := Except.ok.inj hstructures
        constructor
        · rintro ⟨hnodup, -, -⟩ ⟨-, hnocoop, hbaseline⟩
          rw [← hsame, List.map_cons, List.nodup_cons] at hnodup
          refine hnodup.1 ?_
          simpa [defaultStructureId, hnocoop] using hbaseline
        · intro hfree
          refine husable ?_ ⟨_, hsame ▸ List.mem_cons_self, rfl⟩
          rw [← hsame, List.map_cons, List.nodup_cons]
          refine ⟨?_, hids ▸ hdistinct⟩
          by_cases hnocoop : "no-coop" ∈ declared.map CoopStructure.id
          · simpa only [defaultStructureId, hnocoop, if_true] using
              fun hbaseline ↦ hfree ⟨hall, hnocoop, hbaseline⟩
          · simpa only [defaultStructureId, hnocoop, if_false] using hnocoop

/-- A printing of values that shows nothing. -/
def blankText : PyText := ⟨fun _ ↦ "", fun _ ↦ ""⟩

/-- A block of two structures that link the same two hauliers, under these ids. -/
def twoLinks (first second : String) : Raw :=
  .dict [("structures", .list [
    .dict [("id", .str first), ("edges", .list [.list [.str "anna", .str "bert"]])],
    .dict [("id", .str second), ("edges", .list [.list [.str "anna", .str "bert"]])]])]

theorem normalizeCooperation_usable_iff_named : ∀ coop,
    normalizeCooperation blankText (twoLinks "ring" "star") ["anna", "bert"] = .ok coop →
      (coop.Usable ↔ ¬ BaselineNamesTaken blankText (twoLinks "ring" "star")) :=
  (normalizeCooperation_usable_iff blankText (twoLinks "ring" "star") ["anna", "bert"]).2

/-- Structures under both names: the one that is added has the id of another. -/
theorem baseline_twice : ∃ coop,
    normalizeCooperation blankText (twoLinks "no-coop" "baseline") ["anna", "bert"] = .ok coop ∧
      ¬ coop.Usable := by
  have hids : (normalizeCooperation blankText (twoLinks "no-coop" "baseline")
      ["anna", "bert"]).map (fun coop ↦ coop.structures.map CoopStructure.id) =
      .ok ["baseline", "no-coop", "baseline"] := by decide +kernel
  cases h : normalizeCooperation blankText (twoLinks "no-coop" "baseline") ["anna", "bert"] with
  | error e => simp [h, Except.map] at hids
  | ok coop =>
    refine ⟨coop, rfl, fun husable ↦ ?_⟩
    have hdistinct := husable.distinct
    simp only [h, Except.map, Except.ok.injEq] at hids
    rw [hids] at hdistinct
    exact absurd hdistinct (by decide)

end OpenRide.Datagen
