import OpenRide.Datagen.TripMatrix

/-!
# The registry of location codes

No location codes are built in: those with addresses are found in the address book.  How a code is
shown, how its facilities are called and how many of them there are comes from metadata, where there
are any, and is derived from the code otherwise.

The prefix of the names is the label in small letters, with an underscore for everything that is
neither a letter nor a digit (`derivePrefix`), so codes with different labels may have the same one.
-/

namespace OpenRide.Datagen

open Lib

/-- How the language changes the case of a text, and which characters are letters or digits. -/
structure PyLetters extends PyHost where
  /-- `text.lower()`. -/
  lower : String → String
  /-- `text.title()`. -/
  title : String → String
  /-- `str.isalnum` of one character. -/
  isAlnum : Char → Bool

/-- ASCII letters, in texts of one word. -/
def asciiLetters : PyLetters where
  toPyHost := asciiHost
  lower s := String.ofList (s.toList.map Char.toLower)
  title s :=
    match s.toList with
    | [] => ""
    | c :: cs => String.ofList (c.toUpper :: cs.map Char.toLower)
  isAlnum := Char.isAlphanum

/-- What is said of the codes: for each a dictionary. -/
abbrev CodeMetadata := Dict String (List (String × Raw))

/-- `(metadata or {}).get(code) or {}`. -/
def CodeMetadata.entry (metadata : CodeMetadata) (code : String) : List (String × Raw) :=
  (metadata.get? code).getD []

structure LocationType where
  code : String
  label : Raw
  namePrefix : String
  facilityWeight : ℚ
  maskFile : Option Raw
  weight_nonneg : 0 ≤ facilityWeight

section

variable (H : PyLetters)

/-- `derive_label`. -/
def deriveLabel (code : String) (metadata : CodeMetadata) : Raw :=
  let code := codeKey H.toPyHost code
  (Raw.field (metadata.entry code) "label").orElse
    (.str (if code = "" then "Unknown" else H.title code))

/-- A text as a part of a name: `"".join(ch if ch.isalnum() else "_" ...)`, stripped. -/
def nameSlug (text : String) : String :=
  String.ofList (stripBy (· == '_')
    ((H.lower (pyStrip text)).toList.map fun ch ↦ if H.isAlnum ch then ch else '_'))

/-- `_derive_prefix`. -/
def derivePrefix (code : String) (label : Raw) (metadata : CodeMetadata) : String :=
  let raw := ((Raw.field (metadata.entry code) "prefix").orElse label).orElse (.str code)
  let slug := nameSlug H (H.strOf raw)
  if slug = "" then H.lower code else slug

/-- `trip_matrix_marginals`, for one code. -/
def marginal (tripMatrix : Option Grid) (code : String) : ℚ :=
  ((tripMatrix.getD []).map fun row ↦
    (row.2.map fun cell ↦
      (if row.1 = code then cell.2 else 0) + if cell.1 = code then cell.2 else 0).sum).sum

/-- A registry: the types of the codes, in the order in which the codes were given. -/
structure CodeRegistry where
  types : Dict String LocationType

namespace CodeRegistry

def codes (r : CodeRegistry) : List String := r.types.keys

/-- `registry.prefix`. -/
def namePrefix (r : CodeRegistry) (code : String) : String :=
  match r.types.get? code with
  | some t => t.namePrefix
  | none => H.lower code

/-- `registry.label`, which is also the facility type. -/
def label (r : CodeRegistry) (code : String) : Raw :=
  match r.types.get? code with
  | some t => t.label
  | none => deriveLabel H code Dict.empty

def weight (r : CodeRegistry) (code : String) : ℚ :=
  match r.types.get? code with
  | some t => t.facilityWeight
  | none => 0

theorem weight_nonneg (r : CodeRegistry) (code : String) : 0 ≤ r.weight code := by
  rw [weight]
  cases r.types.get? code with
  | none => exact le_rfl
  | some t => exact t.weight_nonneg

theorem codes_nodup (r : CodeRegistry) : r.codes.Nodup := r.types.nodup

end CodeRegistry

/-! ## Building a registry -/

/-- `max(0.0, float(weight))`, of a number that is not negative. -/
def floorWeight (x : Double) : Except PyError {q : ℚ // 0 ≤ q} :=
  match h : atLeastZero x with
  | .ok q => .ok ⟨q, nonneg_of_atLeastZero h⟩
  | .error e => .error e

/-- The type of one code. -/
def locationType (tripMatrix : Option Grid) (metadata : CodeMetadata) (code : String) :
    Except PyError LocationType := do
  let label := deriveLabel H code metadata
  let entry := metadata.entry code
  let authored := Raw.field entry "weight"
  let weight ← pyFloat H.toPyHost
    (if authored.isNull then .num (marginal tripMatrix code) else authored)
  let weight ← floorWeight weight
  let maskFile := Raw.field entry "mask_file"
  return { code, label, namePrefix := derivePrefix H code label metadata, facilityWeight := weight.1
           maskFile := if maskFile.truthy then some maskFile else none, weight_nonneg := weight.2 }

/-- The weight of a type made one. -/
def LocationType.equalSplit (t : LocationType) : LocationType :=
  { t with facilityWeight := 1, weight_nonneg := zero_le_one }

/-- `CodeRegistry.build`. -/
def CodeRegistry.build (addressCodes : List String) (tripMatrix : Option Grid)
    (metadata : CodeMetadata) : Except PyError CodeRegistry := do
  let codes := (Dict.ofList ((addressCodes.filter (· ≠ "")).map fun c ↦
    (codeKey H.toPyHost c, ()))).keys
  let types ← each (fun code ↦ do return (code, ← locationType H tripMatrix metadata code)) codes
  let types := Dict.ofList types
  if (types.values.map LocationType.facilityWeight).sum ≤ 0 then
    return ⟨types.mapValues LocationType.equalSplit⟩
  else return ⟨types⟩

/-- What building a registry gives a code: its prefix is the derived one. -/
theorem CodeRegistry.namePrefix_of_build {addressCodes : List String} {tripMatrix : Option Grid}
    {metadata : CodeMetadata} {r : CodeRegistry}
    (h : CodeRegistry.build H addressCodes tripMatrix metadata = .ok r) {code : String}
    (hcode : code ∈ r.codes) :
    r.namePrefix H code = derivePrefix H code (deriveLabel H code metadata) metadata := by
  obtain ⟨types, htypes, h⟩ := bind_eq_ok.mp h
  have hentry : ∀ c t, (Dict.ofList types).get? c = some t →
      t.namePrefix = derivePrefix H c (deriveLabel H c metadata) metadata := by
    intro c t hget
    obtain ⟨c', -, hmade⟩ := mem_of_each htypes (Dict.mem_of_get?_ofList hget)
    obtain ⟨t', ht', hpair⟩ := bind_eq_ok.mp hmade
    obtain ⟨rfl, rfl⟩ := Prod.mk.inj (Except.ok.inj hpair)
    obtain ⟨x, -, hmade⟩ := bind_eq_ok.mp ht'
    obtain ⟨w, -, hmade⟩ := bind_eq_ok.mp hmade
    cases hmade
    rfl
  obtain ⟨t, ht⟩ := Dict.mem_keys_iff.mp hcode
  rw [CodeRegistry.namePrefix, ht]
  dsimp only at h ⊢
  split at h
  · cases h
    rw [Dict.get?_mapValues, Option.map_eq_some_iff] at ht
    obtain ⟨t', ht', rfl⟩ := ht
    exact hentry code t' ht'
  · cases h
    exact hentry code t ht

end

end OpenRide.Datagen
