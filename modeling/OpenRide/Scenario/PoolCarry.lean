import OpenRide.Scenario.Save

/-!
# Handing authored pools on

`carryAuthoredPools` changes a cooperation block in one way only: a structure that comes without
pools gets those that a saved structure of the same id was authored with (`PoolsAdded`).  Where no
two structures share an id, one with pools and one without, a block takes nothing from itself
(`carryAuthoredPools_self`).
-/

namespace OpenRide.Scenario

open Lib Datagen

/-! ## Fields of entries -/

theorem strOrEmpty_str {T : PyText} (s : String) : T.strOrEmpty (.str s) = s := by
  rw [PyText.strOrEmpty]
  split
  · rfl
  · next hempty =>
    rw [Raw.truthy_str, not_not] at hempty
    exact hempty.symm

variable {fields : List (String × Raw)}

@[simp] theorem dictOf?_eq_some {v : Raw} : dictOf? v = some fields ↔ v = .dict fields := by
  cases v with
  | dict entries => simp [dictOf?]
  | _ => simp [dictOf?]

variable {entries : List Raw}

theorem mem_filterMap_dictOf? : fields ∈ entries.filterMap dictOf? ↔ .dict fields ∈ entries := by
  simp [List.mem_filterMap]

theorem cooperationStructures_of_list {block : List (String × Raw)}
    (h : Raw.field block "structures" = .list entries) :
    cooperationStructures (.dict block) = entries.filterMap dictOf? := by
  simp only [cooperationStructures, h]

theorem mem_cooperationStructures {block : List (String × Raw)}
    (h : Raw.field block "structures" = .list entries) :
    fields ∈ cooperationStructures (.dict block) ↔ .dict fields ∈ entries := by
  rw [cooperationStructures_of_list h, mem_filterMap_dictOf?]

section

variable {T : PyText}

variable {block : Raw} {sid : String}

theorem mem_cooperationContentStructureIds :
    sid ∈ cooperationContentStructureIds T block ↔ sid ≠ "" ∧
      ∃ fields ∈ cooperationStructures block, hasContent fields = true ∧
        structureId T fields = sid := by
  rw [cooperationContentStructureIds, List.mem_filter, List.mem_map, decide_eq_true_iff, and_comm]
  refine and_congr_right fun _ ↦ exists_congr fun fields ↦ ?_
  rw [List.mem_filter, and_assoc]

/-! ## The pools by id -/

variable {pools : List Raw}

theorem authoredPools_eq_some {fields : List (String × Raw)}
    (h : authoredPools T fields = .ok (some pools)) :
    ∃ written, Raw.field fields "pools" = .list written ∧
      each (authoredPool T) (written.filterMap dictOf?) = .ok pools := by
  rw [authoredPools] at h
  split at h
  · next written hwritten =>
    obtain ⟨pools', hpools, hsome⟩ := bind_eq_ok.mp h
    obtain rfl := Option.some.inj (Except.ok.inj hsome)
    exact ⟨written, hwritten, hpools⟩
  · cases h

variable {structures : List (List (String × Raw))} {prevPools : Dict String (List Raw)}

/-- The pools on record are those of some structure of that id. -/
theorem exists_of_prevPoolsFrom {acc : Dict String (List Raw)}
    (h : prevPoolsFrom T structures acc = .ok prevPools) (hget : prevPools.get? sid = some pools) :
    acc.get? sid = some pools ∨ ∃ fields ∈ structures, structureId T fields = sid ∧
      authoredPools T fields = .ok (some pools) := by
  induction structures generalizing acc with
  | nil =>
    cases h
    exact Or.inl hget
  | cons fields rest ih =>
    obtain ⟨authored, hauthored, hrest⟩ := bind_eq_ok.mp h
    have hlater : ∀ acc' : Dict String (List Raw), prevPoolsFrom T rest acc' = .ok prevPools →
        acc'.get? sid = some pools ∨ ∃ f ∈ fields :: rest, structureId T f = sid ∧
          authoredPools T f = .ok (some pools) := by
      intro acc' h'
      refine (ih h').imp_right ?_
      rintro ⟨f, hf, hspec⟩
      exact ⟨f, List.mem_cons_of_mem _ hf, hspec⟩
    cases authored with
    | none => exact hlater acc hrest
    | some pools' =>
      rcases hlater _ hrest with hacc | hmem
      · split at hacc
        · exact Or.inl hacc
        · rw [Dict.get?_set] at hacc
          split at hacc
          · next hsid =>
            cases hacc
            exact Or.inr ⟨fields, List.mem_cons_self, hsid.symm, hauthored⟩
          · exact Or.inl hacc
      · exact Or.inr hmem

/-- What is on record stays on record, if only under its id. -/
theorem isSome_of_prevPoolsFrom {acc : Dict String (List Raw)}
    (h : prevPoolsFrom T structures acc = .ok prevPools) (hsid : sid ≠ "")
    (hon : (acc.get? sid).isSome ∨ ∃ fields ∈ structures, structureId T fields = sid ∧
      ∃ written, Raw.field fields "pools" = .list written)
    : (prevPools.get? sid).isSome := by
  induction structures generalizing acc with
  | nil =>
    cases h
    rcases hon with hon | ⟨fields, hfields, -⟩
    · exact hon
    · cases hfields
  | cons fields rest ih =>
    obtain ⟨authored, hauthored, hrest⟩ := bind_eq_ok.mp h
    cases authored with
    | none =>
      refine ih hrest (hon.imp_right ?_)
      rintro ⟨f, hf, hid, written, hwritten⟩
      rcases List.mem_cons.mp hf with rfl | hf
      · rw [authoredPools, hwritten] at hauthored
        obtain ⟨_, -, hnone⟩ := bind_eq_ok.mp hauthored
        cases hnone
      · exact ⟨f, hf, hid, written, hwritten⟩
    | some pools =>
      refine ih hrest ?_
      rcases hon with hon | ⟨f, hf, hid, hwritten⟩
      · left
        split
        · exact hon
        · rw [Dict.get?_set]
          split
          · rfl
          · exact hon
      · rcases List.mem_cons.mp hf with rfl | hf
        · left
          rw [if_neg (by rw [hid]; exact hsid), Dict.get?_set, if_pos hid.symm]
          rfl
        · exact Or.inr ⟨f, hf, hid, hwritten⟩

theorem prevPoolsFrom_isOk (h : ∀ fields ∈ structures, ∃ pools, authoredPools T fields = .ok pools)
    (acc : Dict String (List Raw)) :
    ∃ prevPools, prevPoolsFrom T structures acc = .ok prevPools := by
  induction structures generalizing acc with
  | nil => exact ⟨acc, rfl⟩
  | cons fields rest ih =>
    obtain ⟨authored, hauthored⟩ := h fields List.mem_cons_self
    have hrest := ih fun f hf ↦ h f (List.mem_cons_of_mem _ hf)
    rw [prevPoolsFrom, hauthored, ok_bind]
    cases authored with
    | none => exact hrest acc
    | some pools => exact hrest _

/-! ## One entry -/

theorem carryEntry_dict (prevPools : Dict String (List Raw)) (fields : List (String × Raw)) :
    carryEntry T prevPools (.dict fields) = .dict fields ∨
      Raw.field fields "pools" = .null ∧ ∃ pools,
        prevPools.get? (structureId T fields) = some pools ∧
        carryEntry T prevPools (.dict fields) =
          .dict (Dict.setIn "pools" (.list pools) fields) := by
  rw [carryEntry]
  split
  · next pools hnull hget => exact Or.inr ⟨hnull, pools, hget, rfl⟩
  · exact Or.inl rfl

theorem carryEntry_of_not_dict (prevPools : Dict String (List Raw)) {entry : Raw}
    (h : dictOf? entry = none) : carryEntry T prevPools entry = entry := by
  cases entry with
  | dict fields => cases h
  | _ => rfl

theorem carryEntry_of_get? {fields : List (String × Raw)} (hnull : Raw.field fields "pools" = .null)
    (hget : prevPools.get? (structureId T fields) = some pools) :
    carryEntry T prevPools (.dict fields) = .dict (Dict.setIn "pools" (.list pools) fields) := by
  simp only [carryEntry, hnull, hget]

/-! ## A block -/

/-- A block with pools added to structures that come without. -/
structure PoolsAdded (incoming block : Raw) : Prop where
  rest : ∀ key, key ≠ "structures" →
    Raw.field block.asDict key = Raw.field incoming.asDict key
  structures :
    List.Forall₂ (fun s s' ↦ (∀ key, key ≠ "pools" → Raw.field s' key = Raw.field s key) ∧
      ((Raw.field s "pools").isNull = false → Raw.field s' "pools" = Raw.field s "pools"))
    (cooperationStructures incoming) (cooperationStructures block)

theorem PoolsAdded.refl (block : Raw) : PoolsAdded block block :=
  ⟨fun _ _ ↦ rfl, List.forall₂_same.mpr fun _ _ ↦ ⟨fun _ _ ↦ rfl, fun _ ↦ rfl⟩⟩

theorem forall₂_carryEntry (prevPools : Dict String (List Raw)) (entries : List Raw) :
    List.Forall₂ (fun s s' ↦ (∀ key, key ≠ "pools" → Raw.field s' key = Raw.field s key) ∧
        ((Raw.field s "pools").isNull = false → Raw.field s' "pools" = Raw.field s "pools"))
      (entries.filterMap dictOf?) ((entries.map (carryEntry T prevPools)).filterMap dictOf?) := by
  induction entries with
  | nil => exact List.Forall₂.nil
  | cons entry rest ih =>
    rw [List.map_cons]
    cases hentry : dictOf? entry with
    | none =>
      rw [carryEntry_of_not_dict _ hentry, List.filterMap_cons_none hentry,
        List.filterMap_cons_none hentry]
      exact ih
    | some fields =>
      obtain rfl := dictOf?_eq_some.mp hentry
      rcases carryEntry_dict (T := T) prevPools fields with hsame | ⟨hnull, pools, -, hset⟩
      · rw [hsame, List.filterMap_cons_some hentry]
        exact List.Forall₂.cons ⟨fun _ _ ↦ rfl, fun _ ↦ rfl⟩ ih
      · rw [hset, List.filterMap_cons_some (dictOf?_eq_some.mpr rfl)]
        refine List.Forall₂.cons ⟨fun key hkey ↦ Raw.field_setIn_ne _ _ hkey, fun h ↦ ?_⟩ ih
        rw [hnull] at h
        cases h

/-- What carrying returns, by the shape of the block. -/
theorem carryAuthoredPools_eq_ok {incoming previous : Raw}
    (h : carryAuthoredPools T incoming previous = .ok block) :
    ∃ prevPools, prevPoolsFrom T (cooperationStructures previous) Dict.empty = .ok prevPools ∧
      ((∃ fields entries, incoming = .dict fields ∧ Raw.field fields "structures" = .list entries ∧
          block = .dict (Dict.setIn "structures"
            (.list (entries.map (carryEntry T prevPools))) fields)) ∨
        block = incoming ∧ cooperationStructures incoming = []) := by
  obtain ⟨prevPools, hprev, h⟩ := bind_eq_ok.mp h
  refine ⟨prevPools, hprev, ?_⟩
  cases incoming with
  | dict fields =>
    dsimp only at h
    split at h
    · next entries hentries =>
      exact Or.inl ⟨fields, entries, rfl, hentries, (Except.ok.inj h).symm⟩
    · next hnone =>
      refine Or.inr ⟨(Except.ok.inj h).symm, ?_⟩
      rw [cooperationStructures]
      split
      · next entries hentries => exact absurd hentries (hnone entries)
      · rfl
  | _ => exact Or.inr ⟨(Except.ok.inj h).symm, rfl⟩

/-- **Carrying only adds pools**, to structures that come without. -/
theorem poolsAdded_of_carryAuthoredPools {incoming previous : Raw}
    (h : carryAuthoredPools T incoming previous = .ok block) : PoolsAdded incoming block := by
  obtain ⟨prevPools, -, ⟨fields, entries, rfl, hentries, rfl⟩ | ⟨rfl, -⟩⟩ :=
    carryAuthoredPools_eq_ok h
  · refine ⟨fun key hkey ↦ Raw.field_setIn_ne _ _ hkey, ?_⟩
    rw [cooperationStructures_of_list hentries,
      cooperationStructures_of_list (Raw.field_setIn_self _ _ _)]
    exact forall₂_carryEntry prevPools entries
  · exact PoolsAdded.refl _

/-! ## A block that takes nothing from itself -/

/-- The pools of a block can be read, and no two of its structures share an id, one with pools and
one without. -/
structure SettledBlock (T : PyText) (block : Raw) : Prop where
  readable : ∀ fields ∈ cooperationStructures block, ∃ pools, authoredPools T fields = .ok pools
  apart : ∀ s ∈ cooperationStructures block, ∀ s' ∈ cooperationStructures block,
    structureId T s = structureId T s' → Raw.field s "pools" = .null →
      ∀ written, Raw.field s' "pools" ≠ .list written

/-- **A settled block takes nothing from itself.** -/
theorem SettledBlock.carryAuthoredPools_self (h : SettledBlock T block) :
    carryAuthoredPools T block block = .ok block := by
  obtain ⟨prevPools, hprev⟩ := prevPoolsFrom_isOk h.readable Dict.empty
  rw [carryAuthoredPools, hprev, ok_bind]
  split
  · next fields =>
    split
    · next entries hentries =>
      have hself : entries.map (carryEntry T prevPools) = entries := by
        refine (List.map_congr_left fun entry hentry ↦ ?_).trans (List.map_id entries)
        cases hdict : dictOf? entry with
        | none => exact carryEntry_of_not_dict prevPools hdict
        | some s =>
          obtain rfl := dictOf?_eq_some.mp hdict
          rcases carryEntry_dict (T := T) prevPools s with hsame | ⟨hnull, pools, hget, -⟩
          · exact hsame
          -- pools on record under its own id belong to another structure of that id
          · rcases exists_of_prevPoolsFrom hprev hget with hempty | ⟨s', hs', hid, hpools⟩
            · cases hempty
            · obtain ⟨written, hwritten, -⟩ := authoredPools_eq_some hpools
              have hs := (mem_cooperationStructures hentries).mpr hentry
              exact absurd hwritten (h.apart s hs s' hs' hid.symm hnull written)
      rw [hself, Raw.setIn_of_field hentries rfl]
      rfl
    · rfl
  · rfl

end

end OpenRide.Scenario
