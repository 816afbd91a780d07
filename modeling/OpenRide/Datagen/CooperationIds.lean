import OpenRide.Datagen.CooperationEcho
import OpenRide.Datagen.Hauliers

/-!
# Which structure is compiled from which entry

The structures of a compiled cooperation block are its entries in order, possibly with one more in
front that has no edges (`normalizeCooperation_eq_ok`, `withBaseline_cases`).  The `i`-th has the
edges and the pools of the `i`-th entry and the `i`-th of the `assignedIds`, which are different
from one another (`structuresFrom_spec`).
-/

namespace OpenRide.Datagen

open Lib

section

variable {T : PyText} {known : SortedSet String}

/-! ## The ids of the entries -/

/-- The id an entry asks for. -/
def askedId (T : PyText) (idx : ℕ) (entry : Raw) : String :=
  match entry with
  | .dict fields => structureIdSlug T (Raw.field fields "id") s!"structure-{idx}"
  | _ => s!"structure-{idx}"

/-- The ids that are given to some entries, from the `idx`-th on. -/
def assignedIdsFrom (T : PyText) : ℕ → List Raw → List String → List String
  | _, [], _ => []
  | idx, entry :: rest, seen =>
    let sid := freshId seen (askedId T idx entry)
    sid :: assignedIdsFrom T (idx + 1) rest (seen ++ [sid])

/-- The ids that are given to the entries of a block. -/
def assignedIds (T : PyText) (entries : List Raw) : List String := assignedIdsFrom T 0 entries []

variable {entries : List Raw}

variable {idx : ℕ} {seen : List String}

theorem notMem_of_mem_assignedIdsFrom {sid : String} (h : sid ∈ assignedIdsFrom T idx entries seen)
    : sid ∉ seen := by
  induction entries generalizing idx seen with
  | nil => cases h
  | cons entry rest ih =>
    rcases List.mem_cons.mp h with rfl | h
    · exact freshId_notMem _ _
    · exact fun hs ↦ ih h (List.mem_append_left _ hs)

/-- **No id is given twice.** -/
theorem nodup_assignedIdsFrom (idx : ℕ) (entries : List Raw) (seen : List String) :
    (assignedIdsFrom T idx entries seen).Nodup := by
  induction entries generalizing idx seen with
  | nil => exact List.nodup_nil
  | cons entry rest ih =>
    refine List.nodup_cons.mpr ⟨fun h ↦ ?_, ih _ _⟩
    exact notMem_of_mem_assignedIdsFrom h (List.mem_append_right _ (List.mem_singleton_self _))

theorem nodup_assignedIds (entries : List Raw) : (assignedIds T entries).Nodup :=
  nodup_assignedIdsFrom 0 entries []

theorem compileEntry_sid {entry : Raw} {authored : AuthoredStructure}
    (h : compileEntry T known idx entry = .ok authored) : authored.sid = askedId T idx entry := by
  cases entry with
  | dict fields =>
    rw [compileEntry] at h
    split at h
    · exact compileEdges_sid h
    · exact compilePools_sid h
  | list pairs => exact compileEdges_sid h
  | null | bool | int | float | str => cases h

/-! ## Structures and entries -/

/-- **The structures are compiled from the entries in order**, under the ids given to them. -/
theorem structuresFrom_spec {out structures : List CoopStructure}
    (h : structuresFrom T known idx entries seen out = .ok structures) :
    ∃ rest, structures = out ++ rest ∧
      rest.map CoopStructure.id = assignedIdsFrom T idx entries seen ∧
      ∀ i entry, entries[i]? = some entry → ∃ s authored, rest[i]? = some s ∧
        compileEntry T known (idx + i) entry = .ok authored ∧ s.edges = authored.edges ∧
        s.pools = authored.pools := by
  induction entries generalizing idx seen out with
  | nil =>
    cases h
    exact ⟨[], (List.append_nil _).symm, rfl, fun i entry hi ↦ by simp at hi⟩
  | cons entry rest ih =>
    rw [structuresFrom] at h
    split at h
    · cases h
    · next authored ha =>
      split at h
      · cases h
      · obtain ⟨later, rfl, hids, hspec⟩ := ih h
        refine ⟨_ :: later, List.append_assoc _ _ _, ?_, fun i e hi ↦ ?_⟩
        · rw [List.map_cons, hids, assignedIdsFrom, compileEntry_sid ha]
        · cases i with
          | zero =>
            cases hi
            exact ⟨_, authored, rfl, ha, rfl, rfl⟩
          | succ i =>
            obtain ⟨s, authored', hs, ha', hrest⟩ := hspec i e hi
            exact ⟨s, authored', hs, by rwa [Nat.add_right_comm, Nat.add_assoc] at ha', hrest⟩

variable {s : CoopStructure}

theorem withBaseline_cases {declared structures : List CoopStructure}
    (h : withBaseline known declared = .ok structures) (hs : s ∈ structures) :
    s ∈ declared ∨ s.edges = [] ∧ (s.id = "no-coop" ∨ s.id = "baseline") := by
  rw [withBaseline] at h
  split at h
  · cases h
    exact Or.inl hs
  · split at h
    · cases h
    · cases h
      rcases List.mem_cons.mp hs with rfl | hs
      · refine Or.inr ⟨rfl, ?_⟩
        split
        · exact Or.inr rfl
        · exact Or.inl rfl
      · exact Or.inl hs

/-- The structure compiled from the `i`-th of some entries: a structure that is added stands in
front. -/
def structureOf (coop : Cooperation) (entries : List Raw) (i : ℕ) : Option CoopStructure :=
  (coop.structures.drop (coop.structures.length - entries.length))[i]?

theorem length_assignedIdsFrom (idx : ℕ) (entries : List Raw) (seen : List String) :
    (assignedIdsFrom T idx entries seen).length = entries.length := by
  induction entries generalizing idx seen with
  | nil => rfl
  | cons entry rest ih => rw [assignedIdsFrom, List.length_cons, List.length_cons, ih]

variable {coop : Cooperation}

/-- The structures of a block whose entries are counted from behind. -/
theorem structureOf_eq {declared : List CoopStructure}
    (hstructures : withBaseline known declared = .ok coop.structures)
    (hdeclared : structuresFrom T known 0 entries [] [] = .ok declared) (i : ℕ) :
    structureOf coop entries i = declared[i]? := by
  obtain ⟨rest, hrest, hids, -⟩ := structuresFrom_spec hdeclared
  subst hrest
  have hlength : declared.length = entries.length := by
    rw [← List.length_map CoopStructure.id, hids, length_assignedIdsFrom]
  rw [structureOf]
  rw [withBaseline] at hstructures
  split at hstructures
  · rw [← Except.ok.inj hstructures, hlength, Nat.sub_self, List.drop_zero]
  · split at hstructures
    · cases hstructures
    · rw [← Except.ok.inj hstructures, List.length_cons, hlength, Nat.add_sub_cancel_left]
      rfl

variable {haulierIds : List String}

/-- **Every entry of a block has its structure**, with the id that was given to it. -/
theorem exists_structureOf {raw : Raw} (h : normalizeCooperation T raw haulierIds = .ok coop)
    {activeRaw : Raw} (hentries : authoredStructures raw = .ok (entries, activeRaw)) {i : ℕ}
    {entry : Raw} (hi : entries[i]? = some entry) :
    ∃ s authored, structureOf coop entries i = some s ∧ s ∈ coop.structures ∧
      compileEntry T (SortedSet.ofList haulierIds) i entry = .ok authored ∧
      s.edges = authored.edges ∧ s.pools = authored.pools ∧
      (assignedIds T entries)[i]? = some s.id := by
  obtain ⟨entries', activeRaw', declared, hentries', hdeclared, hstructures, -⟩ :=
    normalizeCooperation_eq_ok h
  obtain ⟨rfl, rfl⟩ := Prod.mk.inj (Except.ok.inj (hentries'.symm.trans hentries))
  have hof := structureOf_eq hstructures hdeclared i
  obtain ⟨rest, hrest, hids, hspec⟩ := structuresFrom_spec hdeclared
  subst hrest
  obtain ⟨s, authored, hs, hauthored, hedges, hpools⟩ := hspec i entry hi
  rw [Nat.zero_add] at hauthored
  have hid : (assignedIds T entries')[i]? = some s.id := by
    rw [assignedIds, ← hids, List.getElem?_map, hs]
    rfl
  exact ⟨s, authored, hof.trans hs, (withBaseline_spec hstructures).1 s (List.mem_of_getElem? hs),
    hauthored, hedges, hpools, hid⟩

/-- **A structure with an edge is the structure of an entry.** -/
theorem exists_entry_of_edges {raw : Raw} (h : normalizeCooperation T raw haulierIds = .ok coop)
    (hs : s ∈ coop.structures) (hedges : s.edges ≠ []) :
    ∃ entries activeRaw i entry, authoredStructures raw = .ok (entries, activeRaw) ∧
      entries[i]? = some entry ∧ structureOf coop entries i = some s := by
  obtain ⟨entries, activeRaw, declared, hentries, hdeclared, hstructures, -⟩ :=
    normalizeCooperation_eq_ok h
  rcases withBaseline_cases hstructures hs with hmem | ⟨hnone, -⟩
  · obtain ⟨i, hi⟩ := List.mem_iff_getElem?.mp hmem
    have hof := structureOf_eq hstructures hdeclared i
    obtain ⟨rest, hrest, hids, -⟩ := structuresFrom_spec hdeclared
    subst hrest
    have hlt : i < entries.length := by
      rw [← length_assignedIdsFrom 0 entries [] (T := T), ← hids, List.length_map]
      exact (List.getElem?_eq_some_iff.mp hi).1
    exact ⟨entries, activeRaw, i, entries[i], hentries, List.getElem?_eq_getElem hlt, hof.trans hi⟩
  · exact absurd hnone hedges

/-! ## Ids without white space -/

/-- No character is white space. -/
def NoSpace (s : String) : Prop := ∀ c ∈ s.toList, isPySpace c = false

theorem NoSpace.append {s t : String} (hs : NoSpace s) (ht : NoSpace t) : NoSpace (s ++ t) := by
  intro c hc
  rw [String.toList_append] at hc
  exact (List.mem_append.mp hc).elim (hs c) (ht c)

theorem IsHaulierId.noSpace {s : String} (h : IsHaulierId s) : NoSpace s := by
  intro c hc
  rcases h c hc with rfl | hslug
  · decide
  · exact isPySpace_of_isSlugChar hslug

theorem noSpace_slug {s fallback : String} (h : NoSpace fallback) :
    NoSpace (slug '-' s fallback) := by
  rw [slug]
  split
  · exact h
  · intro c hc
    rw [String.toList_ofList] at hc
    rcases mem_slugChars hc with rfl | hslug
    · decide
    · exact isPySpace_of_isSlugChar hslug

theorem noSpace_dash : NoSpace "-" := by
  intro c hc
  rw [List.mem_singleton.mp hc]
  decide

theorem NoSpace.freshId {base : String} (h : NoSpace base) (seen : List String) :
    NoSpace (freshId seen base) := by
  have hsuffixed : ∀ k, NoSpace (suffixed base k) :=
    fun k ↦ (h.append noSpace_dash).append (isHaulierId_toString k).noSpace
  have hfresh : ∀ n k, NoSpace (freshSuffix seen base n k) := by
    intro n
    induction n with
    | zero => exact hsuffixed
    | succ n ih =>
      intro k
      rw [freshSuffix]
      split
      · exact ih (k + 1)
      · exact hsuffixed k
  rw [Datagen.freshId]
  split
  · exact hfresh _ 1
  · exact h

theorem noSpace_structure (idx : ℕ) : NoSpace s!"structure-{idx}" := by
  have hall : "structure-".toList.all (isPySpace · = false) = true := by decide
  have hlead : NoSpace "structure-" :=
    fun c hc ↦ of_decide_eq_true (List.all_eq_true.mp hall c hc)
  exact hlead.append (isHaulierId_toString idx).noSpace

theorem noSpace_askedId (idx : ℕ) (entry : Raw) : NoSpace (askedId T idx entry) := by
  have hfallback := noSpace_structure idx
  unfold askedId
  split
  · rw [structureIdSlug]
    exact noSpace_slug hfallback
  · exact hfallback

theorem noSpace_of_mem_assignedIdsFrom {sid : String} (h : sid ∈ assignedIdsFrom T idx entries seen)
    : NoSpace sid := by
  induction entries generalizing idx seen with
  | nil => cases h
  | cons entry rest ih =>
    rcases List.mem_cons.mp h with rfl | h
    · exact (noSpace_askedId idx entry).freshId seen
    · exact ih h

/-- **The ids of a compiled block are free of white space.** -/
theorem normalizeCooperation_noSpace {raw : Raw}
    (h : normalizeCooperation T raw haulierIds = .ok coop) (hs : s ∈ coop.structures) :
    NoSpace s.id := by
  obtain ⟨entries, activeRaw, declared, -, hdeclared, hstructures, -⟩ :=
    normalizeCooperation_eq_ok h
  rcases withBaseline_cases hstructures hs with hmem | ⟨-, he⟩
  · obtain ⟨rest, rfl, hids, -⟩ := structuresFrom_spec hdeclared
    have hid : s.id ∈ assignedIdsFrom T 0 entries [] := by
      rw [← hids]
      exact List.mem_map_of_mem hmem
    exact noSpace_of_mem_assignedIdsFrom hid
  · have hall : ["no-coop", "baseline"].all (·.toList.all (isPySpace · = false)) = true := by decide
    have hs := List.all_eq_true.mp hall _ (by simpa using he)
    exact fun c hc ↦ of_decide_eq_true (List.all_eq_true.mp hs c hc)

end

end OpenRide.Datagen
