import OpenRide.Datagen.FacilityCounts
import OpenRide.Datagen.FacilityRules

/-!
# The names of the facilities

The facilities of a code are called by the prefix of the code and a number that starts at zero for
every code.  The number is what follows the last underscore (`siteName_inj`), so names tell the
facilities of one code apart, and those of codes with different prefixes.  Nobody checks that the
prefixes are different: where two codes with facilities have the same, a name stands for two sites
(`facilitySites_names_iff`).
-/

namespace OpenRide.Datagen

open Lib

/-! ## The catalog -/

/-- What is drawn from: `rng.sample` gives as many members of a list as are asked for, if there are
that many. -/
structure Sampler (S α : Type) where
  sample : S → List α → ℕ → List α × S
  length_sample : ∀ s l k, k ≤ l.length → (sample s l k).1.length = k

/-- The addresses of each code, as longitude and latitude. -/
structure LocationCatalog where
  byCode : Dict String (List (ℚ × ℚ))

namespace LocationCatalog

/-- `catalog.codes()`. -/
def codes (catalog : LocationCatalog) : List String := sortedBy id catalog.byCode.keys

/-- `catalog.available()`. -/
def available (catalog : LocationCatalog) : Dict String ℕ := catalog.byCode.mapValues List.length

/-- The addresses of one code. -/
def pool (catalog : LocationCatalog) (code : String) : List (ℚ × ℚ) :=
  (catalog.byCode.get? code).getD []

theorem addresses_available (catalog : LocationCatalog) (code : String) :
    addresses catalog.available code = (catalog.pool code).length := by
  rw [addresses, available, Dict.get?_mapValues, pool]
  cases catalog.byCode.get? code with
  | none => rfl
  | some l => rfl

end LocationCatalog

/-! ## The sites -/

/-- `f"{i:03d}"`. -/
def padded (i : ℕ) : List Char :=
  List.replicate (3 - (Nat.toDigits 10 i).length) '0' ++ Nat.toDigits 10 i

/-- `f"{prefix}_{i:03d}"`. -/
def siteName (pre : String) (i : ℕ) : String := pre ++ String.ofList ('_' :: padded i)

section

variable (H : PyLetters) {S : Type} (sampler : Sampler S (ℚ × ℚ))
  (lookup : String → ℚ → ℚ → Option Raw)

/-- The entries of a site. -/
def siteAt (registry : CodeRegistry) (gateCount serviceTime : ℤ) (code : String) (i : ℕ)
    (at_ : ℚ × ℚ) : Site :=
  let site := Dict.ofList [("name", .str (siteName (registry.namePrefix H code) i)),
    ("lat", .num at_.2), ("lon", .num at_.1), ("gate_count", .int gateCount),
    ("service_time", .int serviceTime), ("code", .str code),
    ("facility_type", registry.label H code)]
  match lookup code at_.1 at_.2 with
  | some footprint => site.set "footprint" footprint
  | none => site

/-- The addresses that are chosen for a code. -/
def chosenAddresses (catalog : LocationCatalog) (counts : Dict String ℤ) (s : S) (code : String) :
    List (ℚ × ℚ) × S :=
  let want := (counts.get? code).getD 0
  let pool := catalog.pool code
  if want ≤ 0 ∨ pool = [] then ([], s)
  else if (pool.length : ℤ) ≤ want then (pool, s)
  else sampler.sample s pool want.toNat

/-- The sites of the codes, one after the other. -/
def sitesOf (catalog : LocationCatalog) (registry : CodeRegistry) (gateCount serviceTime : ℤ)
    (counts : Dict String ℤ) : S → List String → List Site
  | _, [] => []
  | s, code :: rest =>
    let chosen := chosenAddresses sampler catalog counts s code
    chosen.1.mapIdx (siteAt H lookup registry gateCount serviceTime code) ++
      sitesOf catalog registry gateCount serviceTime counts chosen.2 rest

/-- `LocationCatalog.facility_sites`. -/
def LocationCatalog.facilitySites (catalog : LocationCatalog) (seed : S) (n : ℤ)
    (registry : CodeRegistry) (gateCount serviceTime : ℤ) : List Site :=
  sitesOf H sampler lookup catalog registry gateCount serviceTime
    (allocateFacilityCounts n catalog.available registry) seed registry.codes

/-! ## Which names are the same -/

variable {H} {sampler} {lookup} {catalog : LocationCatalog} {registry : CodeRegistry}
  {gateCount serviceTime : ℤ} {counts : Dict String ℤ}

theorem padded_injective : Function.Injective padded := by
  intro i j h
  have hread := congrArg (fun l ↦ Nat.ofDigitChars 10 l 0) h
  simpa [padded, Nat.ofDigitChars_append] using hread

theorem underscore_notMem_padded (i : ℕ) : '_' ∉ padded i := by
  rw [padded, List.mem_append, List.mem_replicate, not_or]
  refine ⟨fun h ↦ absurd h.2 (by decide), fun h ↦ ?_⟩
  exact absurd (Nat.isDigit_of_mem_toDigits (by decide) (by decide) h) (by decide)

/-- What follows the last separator says what stands before it. -/
theorem append_cons_inj {α : Type} {sep : α} {l l' m m' : List α} (hm : sep ∉ m) (hm' : sep ∉ m')
    (h : l ++ sep :: m = l' ++ sep :: m') : l = l' ∧ m = m' := by
  rcases List.append_eq_append_iff.mp h with ⟨k, rfl, hk⟩ | ⟨k, rfl, hk⟩
  · cases k with
    | nil => exact ⟨(List.append_nil l).symm, (List.cons.inj hk).2⟩
    | cons x k =>
      obtain ⟨-, rfl⟩ := List.cons.inj hk
      exact absurd (List.mem_append_right k List.mem_cons_self) hm
  · cases k with
    | nil => exact ⟨List.append_nil l', (List.cons.inj hk).2.symm⟩
    | cons x k =>
      obtain ⟨-, rfl⟩ := List.cons.inj hk
      exact absurd (List.mem_append_right k List.mem_cons_self) hm'

/-- **A name gives its prefix and its number.** -/
theorem siteName_inj {p q : String} {i j : ℕ} : siteName p i = siteName q j ↔ p = q ∧ i = j := by
  constructor
  · intro h
    have hlist := congrArg String.toList h
    simp only [siteName, String.toList_append, String.toList_ofList] at hlist
    obtain ⟨hp, hi⟩ := append_cons_inj (underscore_notMem_padded i)
      (underscore_notMem_padded j) hlist
    exact ⟨String.toList_injective hp, padded_injective hi⟩
  · rintro ⟨rfl, rfl⟩
    rfl

theorem nameText_siteAt (code : String) (i : ℕ) (at_ : ℚ × ℚ) :
    nameText H.toPyHost (siteAt H lookup registry gateCount serviceTime code i at_) =
      siteName (registry.namePrefix H code) i := by
  rw [siteAt, nameText]
  cases lookup code at_.1 at_.2 with
  | none => rfl
  | some footprint =>
    have hkey : "name" ≠ "footprint" := by decide
    exact congrArg (fun v ↦ H.strOf (v.getD .null)) (Dict.get?_set_ne _ footprint hkey)

/-- Has a code facilities? -/
def HasFacilities (catalog : LocationCatalog) (counts : Dict String ℤ) (code : String) : Prop :=
  0 < (counts.get? code).getD 0 ∧ 0 < addresses catalog.available code

/-- A code with facilities has at least one address chosen, any other none. -/
theorem length_chosenAddresses_pos {s : S} {code : String} :
    0 < (chosenAddresses sampler catalog counts s code).1.length ↔
      HasFacilities catalog counts code := by
  rw [HasFacilities, LocationCatalog.addresses_available, Int.natCast_pos, List.length_pos_iff,
    List.length_pos_iff, chosenAddresses]
  split
  · next hnone =>
    refine iff_of_false (fun h ↦ h rfl) fun h ↦ ?_
    exact hnone.elim (not_le.mpr h.1) h.2
  · next hsome =>
    rw [not_or, not_le] at hsome
    split
    · exact iff_of_true hsome.2 hsome
    · next hfew =>
      have hle : ((counts.get? code).getD 0).toNat ≤ (catalog.pool code).length := by omega
      refine iff_of_true (fun hnil ↦ ?_) hsome
      have hlength := sampler.length_sample s _ _ hle
      rw [hnil, List.length_nil] at hlength
      omega

/-- The names of the sites of the codes. -/
def namesOf (sampler : Sampler S (ℚ × ℚ)) (catalog : LocationCatalog) (counts : Dict String ℤ)
    (pre : String → String) : S → List String → List String
  | _, [] => []
  | s, code :: rest =>
    let chosen := chosenAddresses sampler catalog counts s code
    (List.range chosen.1.length).map (siteName (pre code)) ++
      namesOf sampler catalog counts pre chosen.2 rest

theorem map_nameText_sitesOf (s : S) (codes : List String) :
    (sitesOf H sampler lookup catalog registry gateCount serviceTime counts s codes).map
        (nameText H.toPyHost) =
      namesOf sampler catalog counts (registry.namePrefix H) s codes := by
  induction codes generalizing s with
  | nil => rfl
  | cons code rest ih =>
    rw [sitesOf, namesOf, List.map_append, ih]
    congr 1
    refine List.ext_getElem (by simp) fun i hi hi' ↦ ?_
    simp [nameText_siteAt]

variable {pre : String → String} {codes : List String}

theorem mem_namesOf {s : S} {name : String} (h : name ∈ namesOf sampler catalog counts pre s codes)
    : ∃ code ∈ codes, HasFacilities catalog counts code ∧ ∃ i, name = siteName (pre code) i := by
  induction codes generalizing s with
  | nil => cases h
  | cons code rest ih =>
    rw [namesOf, List.mem_append, List.mem_map] at h
    rcases h with ⟨i, hi, rfl⟩ | h
    · refine ⟨code, List.mem_cons_self, ?_, i, rfl⟩
      exact length_chosenAddresses_pos.mp (Nat.zero_lt_of_lt (List.mem_range.mp hi))
    · obtain ⟨d, hd, hsome, hname⟩ := ih h
      exact ⟨d, List.mem_cons_of_mem _ hd, hsome, hname⟩

theorem first_mem_namesOf {s : S} {code : String} (hcode : code ∈ codes)
    (h : HasFacilities catalog counts code) :
    siteName (pre code) 0 ∈ namesOf sampler catalog counts pre s codes := by
  induction codes generalizing s with
  | nil => cases hcode
  | cons d rest ih =>
    rw [namesOf, List.mem_append]
    rcases List.mem_cons.mp hcode with rfl | hcode
    · refine Or.inl (List.mem_map_of_mem (List.mem_range.mpr ?_))
      exact length_chosenAddresses_pos.mpr h
    · exact Or.inr (ih hcode)

/-- **Names are different** if and only if the prefixes of the codes with facilities are. -/
theorem nodup_namesOf {s : S} (hcodes : codes.Nodup) :
    (namesOf sampler catalog counts pre s codes).Nodup ↔
      ∀ c ∈ codes, ∀ d ∈ codes, HasFacilities catalog counts c → HasFacilities catalog counts d →
        pre c = pre d → c = d := by
  induction codes generalizing s with
  | nil => simp [namesOf]
  | cons code rest ih =>
    obtain ⟨hnew, hrest⟩ := List.nodup_cons.mp hcodes
    have hown : ∀ k, ((List.range k).map (siteName (pre code))).Nodup := fun k ↦
      List.nodup_range.map fun i j h ↦ (siteName_inj.mp h).2
    rw [namesOf, List.nodup_append, ih hrest]
    constructor
    · rintro ⟨-, hothers, hapart⟩ c hc d hd hcsome hdsome hsame
      -- the first facilities of two codes with one prefix have the same name
      have hclash : ∀ e ∈ rest, HasFacilities catalog counts code → HasFacilities catalog counts e →
          pre code ≠ pre e := by
        intro e he hcode hesome heq
        refine hapart (siteName (pre code) 0) (List.mem_map_of_mem (List.mem_range.mpr ?_))
          (siteName (pre e) 0) (first_mem_namesOf he hesome) (by rw [heq])
        exact length_chosenAddresses_pos.mpr hcode
      rw [List.mem_cons] at hc hd
      rcases hc with rfl | hc <;> rcases hd with rfl | hd
      · rfl
      · exact absurd hsame (hclash d hd hcsome hdsome)
      · exact absurd hsame.symm (hclash c hc hdsome hcsome)
      · exact hothers c hc d hd hcsome hdsome hsame
    · intro h
      refine ⟨hown _, fun c hc d hd ↦ h c (List.mem_cons_of_mem _ hc) d (List.mem_cons_of_mem _ hd),
        ?_⟩
      rintro _ hname name hother rfl
      obtain ⟨i, hi, rfl⟩ := List.mem_map.mp hname
      obtain ⟨e, he, hesome, j, heq⟩ := mem_namesOf hother
      have hsome : HasFacilities catalog counts code :=
        length_chosenAddresses_pos.mp (Nat.zero_lt_of_lt (List.mem_range.mp hi))
      obtain rfl := h code List.mem_cons_self e (List.mem_cons_of_mem _ he) hsome hesome
        (siteName_inj.mp heq).1
      exact hnew he

variable (sampler) (lookup) in
/-- **Names identify facilities** if and only if no two codes that get facilities derive the same
prefix. -/
theorem facilitySites_names_iff (seed : S) (n gateCount serviceTime : ℤ) (catalog : LocationCatalog)
    (tripMatrix : Option Grid) (metadata : CodeMetadata) {registry : CodeRegistry}
    (hbuild : CodeRegistry.build H catalog.codes tripMatrix metadata = .ok registry) :
    ((catalog.facilitySites H sampler lookup seed n registry gateCount serviceTime).map
        (nameText H.toPyHost)).Nodup ↔
      ∀ c ∈ registry.codes, ∀ d ∈ registry.codes,
        HasFacilities catalog (allocateFacilityCounts n catalog.available registry) c →
        HasFacilities catalog (allocateFacilityCounts n catalog.available registry) d →
        derivePrefix H c (deriveLabel H c metadata) metadata =
          derivePrefix H d (deriveLabel H d metadata) metadata → c = d := by
  rw [LocationCatalog.facilitySites, map_nameText_sitesOf, nodup_namesOf registry.codes_nodup]
  refine forall₂_congr fun c hc ↦ forall₂_congr fun d hd ↦ ?_
  rw [CodeRegistry.namePrefix_of_build H hbuild hc, CodeRegistry.namePrefix_of_build H hbuild hd]

end

/-! ### A port and a code called so -/

/-- The first addresses. -/
def Sampler.first (α : Type) : Sampler Unit α where
  sample s l k := (l.take k, s)
  length_sample _ _ _ h := List.length_take_of_le h

/-- What is said of the built-in codes. -/
def builtInMetadata : CodeMetadata :=
  Dict.ofList [("CT", [("label", .str "Port"), ("prefix", .str "port")]),
    ("CU", [("label", .str "Warehouse"), ("prefix", .str "customer")]),
    ("MT", [("label", .str "Depot"), ("prefix", .str "depot")])]

/-- One address of a port, and one of something else. -/
def portAnd (code : String) : LocationCatalog := ⟨Dict.ofList [("CT", [(1, 1)]), (code, [(2, 2)])]⟩

/-- The names of two facilities of a catalog. -/
def twoNames (catalog : LocationCatalog) : Except PyError (List String) := do
  let registry ← CodeRegistry.build asciiLetters catalog.codes none builtInMetadata
  let sites := catalog.facilitySites asciiLetters (.first _) (fun _ _ _ ↦ none) () 2 registry 1 1800
  return sites.map (nameText asciiHost)

/-- A port and a depot have names of their own. -/
theorem port_and_depot : ∃ registry,
    CodeRegistry.build asciiLetters (portAnd "MT").codes none builtInMetadata = .ok registry ∧
      (∀ c ∈ registry.codes, ∀ d ∈ registry.codes,
        HasFacilities (portAnd "MT") (allocateFacilityCounts 2 (portAnd "MT").available registry)
          c →
        HasFacilities (portAnd "MT") (allocateFacilityCounts 2 (portAnd "MT").available registry)
          d →
        derivePrefix asciiLetters c (deriveLabel asciiLetters c builtInMetadata) builtInMetadata =
          derivePrefix asciiLetters d (deriveLabel asciiLetters d builtInMetadata) builtInMetadata →
        c = d) := by
  have hnames : twoNames (portAnd "MT") = .ok ["port_000", "depot_000"] := by decide +kernel
  obtain ⟨registry, hbuild, hnames⟩ := bind_eq_ok.mp hnames
  have hdifferent := facilitySites_names_iff (.first _) (fun _ _ _ ↦ none)
      () 2 1 1800 (portAnd "MT")
    none builtInMetadata hbuild
  refine ⟨registry, hbuild, hdifferent.mp ?_⟩
  exact (congrArg List.Nodup (Except.ok.inj hnames)).mpr (by decide)

/-- A code `PORT` without metadata has the prefix of the ports, so two sites have one name. -/
theorem port_twice : ¬ ∀ registry,
    CodeRegistry.build asciiLetters (portAnd "PORT").codes none builtInMetadata = .ok registry →
      (((portAnd "PORT").facilitySites asciiLetters (.first _) (fun _ _ _ ↦ none) () 2 registry 1
        1800).map (nameText asciiHost)).Nodup := by
  intro h
  have hnames : twoNames (portAnd "PORT") = .ok ["port_000", "port_000"] := by decide +kernel
  obtain ⟨registry, hbuild, hnames⟩ := bind_eq_ok.mp hnames
  have hnodup := h registry hbuild
  rw [Except.ok.inj hnames] at hnodup
  exact absurd hnodup (by decide)

end OpenRide.Datagen
