import Mathlib.Algebra.BigOperators.Group.List.Basic
import Mathlib.Algebra.Order.Field.Basic
import Mathlib.Algebra.Order.Ring.Rat
import Mathlib.Data.Nat.Cast.Order.Ring
import Mathlib.Data.Rat.Floor
import OpenRide.Datagen.Values
import OpenRide.Lib.Sorted

/-!
# Hauliers and their shares

A scenario names its hauliers, each with a share of the fleet and a share of the orders, in percent
of the whole.  `normalizeHauliers` gives every haulier an id (a slug of what was authored, told
apart by `_1`, `_2`, …) and fills in missing shares; `distributeByShare` normalises the list once
more and deals out trucks or orders in proportion to the shares.

A list that was normalised already is normalised to itself except for the ids
(`normalizeHauliers_toRaw`): names and shares are kept, while an id is cut to 64 characters after
its separators were stripped and before a suffix is appended, so that the slug of an id need not
be that id.
-/

namespace OpenRide.Datagen

open Lib

/-! ## Hauliers -/

/-- A haulier as normalised. -/
structure Haulier where
  id : String
  name : String
  fleetShare : ℚ
  orderShare : ℚ
deriving DecidableEq

/-- The two kinds of share. -/
inductive ShareKey where
  | fleetShare
  | orderShare
deriving DecidableEq

/-- The key a share is authored under. -/
def ShareKey.name : ShareKey → String
  | .fleetShare => "fleet_share"
  | .orderShare => "order_share"

/-- A share of a haulier. -/
def Haulier.share (h : Haulier) : ShareKey → ℚ
  | .fleetShare => h.fleetShare
  | .orderShare => h.orderShare

/-- `HAULIER_SHARE_TOTAL`. -/
def haulierShareTotal : ℚ := 100

/-- `_HAULIER_SHARE_TOLERANCE`. -/
def haulierShareTolerance : ℚ := 1 / 100

/-- The only haulier of a scenario that names none. -/
def defaultHaulier : Haulier := ⟨"haulier", "Haulier", 100, 100⟩

/-- `DEFAULT_HAULIERS`. -/
def defaultHauliers : List Haulier := [defaultHaulier]

/-- A haulier as the dictionary that is persisted. -/
def Haulier.toRaw (h : Haulier) : Raw :=
  .dict [("id", .str h.id), ("name", .str h.name), ("fleet_share", .num h.fleetShare),
    ("order_share", .num h.orderShare)]

/-- The list that is persisted. -/
def hauliersRaw (hs : List Haulier) : Raw := .list (hs.map Haulier.toRaw)

/-- A haulier whose missing shares are not filled in yet. -/
structure HaulierDraft where
  id : String
  name : String
  fleetShare : Option ℚ
  orderShare : Option ℚ
deriving DecidableEq

/-! ## Ids -/

/-- The `k`-th way to write a repeated haulier id. -/
def haulierSuffixed (base : String) (k : ℕ) : String := base ++ "_" ++ toString k

/-- The first suffix from `k` on that is not taken, tried at most `n` times. -/
def freshHaulierSuffix (seen : List String) (base : String) : ℕ → ℕ → String
  | 0, k => haulierSuffixed base k
  | n + 1, k =>
    if haulierSuffixed base k ∈ seen then freshHaulierSuffix seen base n (k + 1)
    else haulierSuffixed base k

/-- A haulier id that is not taken: the given one, or the given one with a suffix. -/
def freshHaulierId (seen : List String) (base : String) : String :=
  if base ∈ seen then freshHaulierSuffix seen base seen.length 1 else base

/-- The id is written in letters, digits and underscores. -/
def IsHaulierId (s : String) : Prop := ∀ c ∈ s.toList, c = '_' ∨ isSlugChar c = true

theorem IsHaulierId.append {s t : String} (hs : IsHaulierId s) (ht : IsHaulierId t) :
    IsHaulierId (s ++ t) := by
  intro c hc
  rw [String.toList_append] at hc
  exact (List.mem_append.mp hc).elim (hs c) (ht c)

theorem isHaulierId_toString (k : ℕ) : IsHaulierId (toString k) := by
  intro c hc
  rw [Nat.toString_eq_repr, Nat.toList_repr] at hc
  have hdigit := Nat.isDigit_of_mem_toDigits (by decide) (by decide) hc
  rw [Char.isDigit, Bool.and_eq_true, decide_eq_true_eq, decide_eq_true_eq] at hdigit
  refine Or.inr ?_
  rw [isSlugChar, Bool.or_eq_true, Bool.and_eq_true, Bool.and_eq_true]
  exact Or.inr ⟨decide_eq_true hdigit.1, decide_eq_true hdigit.2⟩

theorem isHaulierId_slug {s fallback : String} (h : IsHaulierId fallback) :
    IsHaulierId (slug '_' s fallback) := by
  rw [slug]
  split
  · exact h
  · intro c hc
    rw [String.toList_ofList] at hc
    exact mem_slugChars hc

theorem IsHaulierId.pyStrip_eq {s : String} (h : IsHaulierId s) : pyStrip s = s := by
  refine pyStrip_eq_self fun c hc ↦ ?_
  rcases h c hc with rfl | hslug
  · decide
  · exact isPySpace_of_isSlugChar hslug

theorem freshHaulierSuffix_eq (seen : List String) (base : String) (n k : ℕ) :
    ∃ j, freshHaulierSuffix seen base n k = haulierSuffixed base j := by
  induction n generalizing k with
  | zero => exact ⟨k, rfl⟩
  | succ n ih =>
    rw [freshHaulierSuffix]
    split
    · exact ih (k + 1)
    · exact ⟨k, rfl⟩

/-- A fresh haulier id is the one asked for, possibly with a suffix. -/
theorem freshHaulierId_eq (seen : List String) (base : String) :
    freshHaulierId seen base = base ∨ ∃ k, freshHaulierId seen base = haulierSuffixed base k := by
  rw [freshHaulierId]
  split
  · exact Or.inr (freshHaulierSuffix_eq seen base _ 1)
  · exact Or.inl rfl

theorem IsHaulierId.freshHaulierId {base : String} (h : IsHaulierId base) (seen : List String) :
    IsHaulierId (freshHaulierId seen base) := by
  have hsep : IsHaulierId "_" := by
    intro c hc
    exact Or.inl (List.mem_singleton.mp hc)
  rcases freshHaulierId_eq seen base with he | ⟨k, he⟩
  · rw [he]
    exact h
  · rw [he]
    exact (h.append hsep).append (isHaulierId_toString k)

theorem HasSlugChar.freshHaulierId {base : String} (h : HasSlugChar base) (seen : List String) :
    HasSlugChar (freshHaulierId seen base) := by
  rcases freshHaulierId_eq seen base with he | ⟨k, he⟩
  · rw [he]
    exact h
  · rw [he]
    exact (h.append "_").append (toString k)

theorem mem_or_freshHaulierId_eq (seen : List String) (base : String) :
    base ∈ seen ∨ freshHaulierId seen base = base := by
  by_cases h : base ∈ seen
  · exact Or.inl h
  · exact Or.inr (if_neg h)

section

variable (H : PyHost)

/-! ## Normalisation -/

/-- `_share`. -/
def haulierShare (hid : String) (key : ShareKey) (entry : List (String × Raw)) :
    Except PyError (Option ℚ) :=
  match Raw.field entry key.name with
  | .null => .ok none
  | rawVal => do
    match ← caught (pyFloat H rawVal) with
    | none => return none
    | some val =>
      let keyName := key.name
      let negative (shown : String) : PyError := .valueError
        s!"Haulier '{hid}' has a negative {keyName} ({shown}); percentages must be >= 0."
      match val with
      | .fin val => if val < 0 then throw (negative (H.general val)) else return some val
      | .negInf => throw (negative "-inf")
      | _ => throw .inexact

/-- The hauliers of a list of authored ones, from the `idx`-th on, with the ids already taken.
What is not a dictionary is skipped. -/
def draftsFrom : ℕ → List Raw → List String → Except PyError (List HaulierDraft)
  | _, [], _ => .ok []
  | idx, .dict entry :: rest, seen => do
    let rawId := Raw.field entry "id"
    let ordinal := idx + 1
    let name := pyStrip (H.strOf
      ((Raw.field entry "name").orElse (rawId.orElse (.str s!"Haulier {ordinal}"))))
    let hid := freshHaulierId seen
      (haulierSlug H.toPyText (rawId.orElse (.str name)) s!"haulier_{idx}")
    let fleet ← haulierShare H hid .fleetShare entry
    let order ← haulierShare H hid .orderShare entry
    let drafts ← draftsFrom (idx + 1) rest (seen ++ [hid])
    return ⟨hid, if name = "" then hid else name, fleet, order⟩ :: drafts
  | idx, _ :: rest, seen => draftsFrom (idx + 1) rest seen

/-- A share, filled in: equal shares if nobody has one, else nothing. -/
def filledShare (drafts : List HaulierDraft) (get : HaulierDraft → Option ℚ) (d : HaulierDraft) :
    ℚ :=
  if drafts.all fun d ↦ (get d).isNone then haulierShareTotal / drafts.length
  else (get d).getD 0

/-- A draft with its shares filled in. -/
def HaulierDraft.finish (drafts : List HaulierDraft) (d : HaulierDraft) : Haulier :=
  ⟨d.id, d.name, filledShare drafts HaulierDraft.fleetShare d,
    filledShare drafts HaulierDraft.orderShare d⟩

/-- The sum of a kind of share. -/
def shareTotal (hs : List Haulier) (key : ShareKey) : ℚ := (hs.map fun h ↦ h.share key).sum

/-- `_validate_share_total`. -/
def validateShareTotal (hs : List Haulier) (key : ShareKey) : Except PyError Unit :=
  if haulierShareTolerance < |shareTotal hs key - haulierShareTotal| then
    let keyName := key.name
    let total := H.general haulierShareTotal
    let got := H.general (shareTotal hs key)
    let count := hs.length
    let breakdown := ", ".intercalate (hs.map fun h ↦ h.id ++ "=" ++ H.general (h.share key))
    .error (.valueError (s!"Haulier '{keyName}' percentages must sum to {total} " ++
      s!"(got {got} across {count} haulier(s): {breakdown})."))
  else .ok ()

/-- `normalize_hauliers`. -/
def normalizeHauliers (raw : Raw) : Except PyError (List Haulier) :=
  match raw with
  | .list (entry :: rest) => do
    let drafts ← draftsFrom H 0 (entry :: rest) []
    if drafts.isEmpty then return defaultHauliers
    let hs := drafts.map (HaulierDraft.finish drafts)
    validateShareTotal H hs .fleetShare
    validateShareTotal H hs .orderShare
    return hs
  | _ => .ok defaultHauliers

/-! ## What is normalised -/

/-- A list of hauliers as `normalize_hauliers` returns it. -/
structure NormalHauliers (hs : List Haulier) : Prop where
  ne_nil : hs ≠ []
  id : ∀ h ∈ hs, HasSlugChar h.id
  name : ∀ h ∈ hs, h.name ≠ "" ∧ pyStrip h.name = h.name
  nonneg : ∀ h ∈ hs, ∀ key, 0 ≤ h.share key
  total : ∀ key, |shareTotal hs key - haulierShareTotal| ≤ haulierShareTolerance

theorem normalHauliers_default : NormalHauliers defaultHauliers := by
  constructor
  · exact List.cons_ne_nil _ _
  · intro h hh
    rw [List.mem_singleton.mp hh]
    exact ⟨'h', by decide, by decide⟩
  · intro h hh
    rw [List.mem_singleton.mp hh]
    exact ⟨by decide, by decide +kernel⟩
  · intro h hh key
    rw [List.mem_singleton.mp hh]
    cases key <;> decide +kernel
  · intro key
    cases key <;> decide +kernel

theorem haulierShare_nonneg {hid : String} {key : ShareKey} {entry : List (String × Raw)}
    {val : ℚ} (h : haulierShare H hid key entry = .ok (some val)) : 0 ≤ val := by
  rw [haulierShare] at h
  split at h
  · cases h
  · obtain ⟨read, -, h⟩ := bind_eq_ok.mp h
    split at h
    · cases h
    · dsimp only at h
      split at h
      · split at h
        · cases h
        · next hval =>
          obtain rfl := Option.some_inj.mp (Except.ok.inj h)
          exact not_lt.mp hval
      · cases h
      · cases h

/-- A draft whose id and name are settled and whose shares are not negative. -/
structure HaulierDraft.Good (d : HaulierDraft) : Prop where
  id : HasSlugChar d.id
  name : d.name ≠ "" ∧ pyStrip d.name = d.name
  fleet : ∀ q ∈ d.fleetShare, 0 ≤ q
  order : ∀ q ∈ d.orderShare, 0 ≤ q

theorem fallback_good (idx : ℕ) :
    HasSlugChar s!"haulier_{idx}" ∧ IsHaulierId s!"haulier_{idx}" := by
  have hall : "haulier_".toList.all (fun c ↦ c = '_' ∨ isSlugChar c = true) = true := by decide
  have hlead : HasSlugChar "haulier_" ∧ IsHaulierId "haulier_" :=
    ⟨⟨'h', by decide, by decide⟩, fun c hc ↦ of_decide_eq_true (List.all_eq_true.mp hall c hc)⟩
  exact ⟨hlead.1.append _, hlead.2.append (isHaulierId_toString idx)⟩

theorem draftsFrom_good {idx : ℕ} {entries : List Raw} {seen : List String}
    {drafts : List HaulierDraft} (h : draftsFrom H idx entries seen = .ok drafts) :
    ∀ d ∈ drafts, d.Good := by
  induction entries generalizing idx seen drafts with
  | nil =>
    cases h
    simp
  | cons entry rest ih =>
    cases entry with
    | dict entry =>
      obtain ⟨fleet, hfleet, h⟩ := bind_eq_ok.mp h
      obtain ⟨order, horder, h⟩ := bind_eq_ok.mp h
      obtain ⟨drafts', hdrafts, h⟩ := bind_eq_ok.mp h
      cases h
      intro d hd
      rcases List.mem_cons.mp hd with rfl | hd
      · refine ⟨(hasSlugChar_slug (fallback_good idx).1).freshHaulierId seen, ?_, ?_, ?_⟩
        · dsimp only
          split
          · exact ⟨((hasSlugChar_slug (fallback_good idx).1).freshHaulierId seen).ne_empty,
              ((isHaulierId_slug (fallback_good idx).2).freshHaulierId seen).pyStrip_eq⟩
          · next hname => exact ⟨hname, pyStrip_pyStrip _⟩
        · rintro q rfl
          exact haulierShare_nonneg H hfleet
        · rintro q rfl
          exact haulierShare_nonneg H horder
      · exact ih hdrafts d hd
    | null | bool | int | float | str | list => exact ih h

theorem filledShare_nonneg {drafts : List HaulierDraft} {get : HaulierDraft → Option ℚ}
    {d : HaulierDraft} (h : ∀ q ∈ get d, 0 ≤ q) : 0 ≤ filledShare drafts get d := by
  rw [filledShare]
  split
  · exact div_nonneg (by decide +kernel) (Nat.cast_nonneg _)
  · cases hget : get d with
    | none => exact le_refl 0
    | some q => exact h q hget

variable {hs : List Haulier}

theorem validateShareTotal_eq_ok {key : ShareKey} :
    validateShareTotal H hs key = .ok () ↔
      |shareTotal hs key - haulierShareTotal| ≤ haulierShareTolerance := by
  rw [validateShareTotal]
  split
  · next h =>
    constructor
    · intro h'
      cases h'
    · intro h'
      exact absurd h (not_lt.mpr h')
  · next h =>
    exact ⟨fun _ ↦ not_lt.mp h, fun _ ↦ rfl⟩

/-- **Normalised hauliers are normal**: readable ids, stripped names, shares that add up. -/
theorem normalizeHauliers_normal {raw : Raw} (h : normalizeHauliers H raw = .ok hs) :
    NormalHauliers hs := by
  unfold normalizeHauliers at h
  split at h
  · next entry rest =>
    obtain ⟨drafts, hdrafts, h⟩ := bind_eq_ok.mp h
    split at h
    · cases h
      exact normalHauliers_default
    · next hne =>
      obtain ⟨_, hfleet, h⟩ := bind_eq_ok.mp h
      obtain ⟨_, horder, h⟩ := bind_eq_ok.mp h
      cases h
      have hgood := draftsFrom_good H hdrafts
      constructor
      · intro hnil
        rw [List.map_eq_nil_iff] at hnil
        rw [hnil] at hne
        exact hne rfl
      · rintro h hh
        obtain ⟨d, hd, rfl⟩ := List.mem_map.mp hh
        exact (hgood d hd).id
      · rintro h hh
        obtain ⟨d, hd, rfl⟩ := List.mem_map.mp hh
        exact (hgood d hd).name
      · rintro h hh key
        obtain ⟨d, hd, rfl⟩ := List.mem_map.mp hh
        cases key with
        | fleetShare => exact filledShare_nonneg (hgood d hd).fleet
        | orderShare => exact filledShare_nonneg (hgood d hd).order
      · intro key
        cases key with
        | fleetShare => exact (validateShareTotal_eq_ok H).mp hfleet
        | orderShare => exact (validateShareTotal_eq_ok H).mp horder
  · cases h
    exact normalHauliers_default

/-! ## Normalising again -/

/-- The ids of a list of hauliers, normalised once more, from the `idx`-th on. -/
def renormIdsFrom : ℕ → List String → List String → List String
  | _, [], _ => []
  | idx, id :: ids, seen =>
    let hid := freshHaulierId seen (slug '_' id s!"haulier_{idx}")
    hid :: renormIdsFrom (idx + 1) ids (seen ++ [hid])

/-- The ids of a list of hauliers, normalised once more. -/
def renormIds (ids : List String) : List String := renormIdsFrom 0 ids []

/-- Hauliers under other ids. -/
def withIds (hs : List Haulier) (ids : List String) : List Haulier :=
  hs.zipWith (fun h id ↦ { h with id := id }) ids

/-- A list of hauliers, normalised once more. -/
def renormalise (hs : List Haulier) : List Haulier := withIds hs (renormIds (hs.map Haulier.id))

/-- The draft of a haulier that is authored as it was persisted. -/
def Haulier.draft (h : Haulier) : HaulierDraft :=
  ⟨h.id, h.name, some h.fleetShare, some h.orderShare⟩

theorem haulierShare_toRaw (hid : String) (key : ShareKey) {h : Haulier} (hpos : 0 ≤ h.share key) :
    haulierShare H hid key [("id", .str h.id), ("name", .str h.name),
      ("fleet_share", .num h.fleetShare), ("order_share", .num h.orderShare)] =
      .ok (some (h.share key)) := by
  have hfield : Raw.field [("id", .str h.id), ("name", .str h.name),
      ("fleet_share", .num h.fleetShare), ("order_share", .num h.orderShare)] key.name =
      .num (h.share key) := by
    cases key <;> rfl
  rw [haulierShare, hfield]
  show (caught (pyFloat H (.num (h.share key))) >>= _) = _
  rw [pyFloat_num, caught_ok, ok_bind]
  dsimp only
  rw [if_neg (not_lt.mpr hpos)]
  rfl

theorem draftsFrom_toRaw (hid : ∀ h ∈ hs, HasSlugChar h.id)
    (hname : ∀ h ∈ hs, h.name ≠ "" ∧ pyStrip h.name = h.name)
    (hpos : ∀ h ∈ hs, ∀ key, 0 ≤ h.share key) (idx : ℕ) (seen : List String) :
    draftsFrom H idx (hs.map Haulier.toRaw) seen =
      .ok ((withIds hs (renormIdsFrom idx (hs.map Haulier.id) seen)).map Haulier.draft) := by
  induction hs generalizing idx seen with
  | nil => rfl
  | cons h hs ih =>
    have hne := (hid h List.mem_cons_self).ne_empty
    obtain ⟨hn, hstrip⟩ := hname h List.mem_cons_self
    have hslug : haulierSlug H.toPyText (.str h.id) s!"haulier_{idx}" =
        slug '_' h.id s!"haulier_{idx}" := by
      rw [haulierSlug, PyText.strOrEmpty, if_pos (Raw.truthy_str.mpr hne)]
      rfl
    have hrawId : Raw.field (Haulier.toRaw h).asDict "id" = .str h.id := rfl
    have hrawName : Raw.field (Haulier.toRaw h).asDict "name" = .str h.name := rfl
    have hshare : ∀ hid key, haulierShare H hid key (Haulier.toRaw h).asDict =
        .ok (some (h.share key)) :=
      fun hid key ↦ haulierShare_toRaw H hid key (hpos h List.mem_cons_self key)
    have hih := ih (fun g hg ↦ hid g (List.mem_cons_of_mem _ hg))
      (fun g hg ↦ hname g (List.mem_cons_of_mem _ hg))
      (fun g hg ↦ hpos g (List.mem_cons_of_mem _ hg))
    have hdict : Haulier.toRaw h = .dict (Haulier.toRaw h).asDict := rfl
    rw [List.map_cons, hdict, draftsFrom]
    simp only [hrawId, hrawName, Raw.orElse_str hne, Raw.orElse_str hn, hslug, hshare, hih, ok_bind]
    have hshown : pyStrip (H.strOf (.str h.name)) = h.name := hstrip
    rw [hshown, if_neg hn]
    rfl

theorem length_renormIdsFrom (idx : ℕ) (ids seen : List String) :
    (renormIdsFrom idx ids seen).length = ids.length := by
  induction ids generalizing idx seen with
  | nil => rfl
  | cons id ids ih => exact congrArg (· + 1) (ih _ _)

variable {ids : List String}

theorem length_withIds (h : ids.length = hs.length) : (withIds hs ids).length = hs.length := by
  rw [withIds, List.length_zipWith, h, min_self]

theorem map_withIds {β : Type} {f : Haulier → β} (hf : ∀ h id, f { h with id := id } = f h)
    (h : ids.length = hs.length) : (withIds hs ids).map f = hs.map f := by
  induction hs generalizing ids with
  | nil => rfl
  | cons g hs ih =>
    cases ids with
    | nil => cases h
    | cons id ids =>
      have htail := ih (Nat.succ.inj h)
      rw [withIds, List.zipWith_cons_cons, List.map_cons, List.map_cons, hf, ← htail]
      rfl

theorem map_id_withIds (h : ids.length = hs.length) : (withIds hs ids).map Haulier.id = ids := by
  induction hs generalizing ids with
  | nil => exact (List.length_eq_zero_iff.mp h).symm
  | cons g hs ih =>
    cases ids with
    | nil => cases h
    | cons id ids => exact congrArg (id :: ·) (ih (Nat.succ.inj h))

theorem withIds_withIds {ids' : List String} (h : ids.length = hs.length) :
    withIds (withIds hs ids) ids' = withIds hs ids' := by
  induction hs generalizing ids ids' with
  | nil => rfl
  | cons g hs ih =>
    cases ids with
    | nil => cases h
    | cons a ids =>
      cases ids' with
      | nil => rfl
      | cons b ids' => exact congrArg ({ g with id := b } :: ·) (ih (Nat.succ.inj h))

theorem length_renormIds (hs : List Haulier) :
    (renormIds (hs.map Haulier.id)).length = hs.length := by
  rw [renormIds, length_renormIdsFrom, List.length_map]

theorem map_share_renormalise (hs : List Haulier) (key : ShareKey) :
    (renormalise hs).map (fun h ↦ h.share key) = hs.map fun h ↦ h.share key :=
  map_withIds (fun h id ↦ by cases key <;> rfl) (length_renormIds hs)

theorem map_id_renormalise (hs : List Haulier) :
    (renormalise hs).map Haulier.id = renormIds (hs.map Haulier.id) :=
  map_id_withIds (length_renormIds hs)

theorem finish_draft {h : Haulier} (hh : h ∈ hs) :
    (Haulier.draft h).finish (hs.map Haulier.draft) = h := by
  have hall : ∀ get : HaulierDraft → Option ℚ, (∀ g, get (Haulier.draft g) ≠ none) →
      (hs.map Haulier.draft).all (fun d ↦ (get d).isNone) = false := by
    intro get hget
    refine List.all_eq_false.mpr ⟨h.draft, List.mem_map_of_mem hh, ?_⟩
    rw [Option.isNone_iff_eq_none]
    exact hget h
  rw [HaulierDraft.finish, filledShare, filledShare, hall _ fun g ↦ Option.some_ne_none _,
    hall _ fun g ↦ Option.some_ne_none _]
  rfl

theorem hasSlugChar_of_mem_renormIdsFrom {idx : ℕ} {seen : List String} :
    ∀ id ∈ renormIdsFrom idx ids seen, HasSlugChar id := by
  induction ids generalizing idx seen with
  | nil => exact nofun
  | cons a ids ih =>
    exact List.forall_mem_cons.mpr
      ⟨(hasSlugChar_slug (fallback_good idx).1).freshHaulierId seen, ih⟩

theorem NormalHauliers.renormalise (h : NormalHauliers hs) : NormalHauliers (renormalise hs) := by
  have hlen := length_renormIds hs
  constructor
  · intro hnil
    have h0 := length_withIds hlen
    rw [← Datagen.renormalise, hnil] at h0
    exact h.ne_nil (List.length_eq_zero_iff.mp h0.symm)
  · intro g hg
    have hmem := List.mem_map_of_mem (f := Haulier.id) hg
    rw [map_id_renormalise] at hmem
    exact hasSlugChar_of_mem_renormIdsFrom _ hmem
  · intro g hg
    have hmem := List.mem_map_of_mem (f := Haulier.name) hg
    rw [Datagen.renormalise, map_withIds (fun _ _ ↦ rfl) hlen] at hmem
    obtain ⟨g', hg', he⟩ := List.mem_map.mp hmem
    rw [← he]
    exact h.name g' hg'
  · intro g hg key
    have hmem := List.mem_map_of_mem (f := fun h ↦ Haulier.share h key) hg
    rw [map_share_renormalise] at hmem
    obtain ⟨g', hg', he⟩ := List.mem_map.mp hmem
    rw [← he]
    exact h.nonneg g' hg' key
  · intro key
    rw [shareTotal, map_share_renormalise]
    exact h.total key

/-- **Normalising a normalised list** changes nothing but the ids. -/
theorem normalizeHauliers_toRaw (h : NormalHauliers hs) :
    normalizeHauliers H (hauliersRaw hs) = .ok (Datagen.renormalise hs) := by
  have hdrafts : draftsFrom H 0 (hs.map Haulier.toRaw) [] =
      .ok ((Datagen.renormalise hs).map Haulier.draft) :=
        draftsFrom_toRaw H h.id h.name h.nonneg 0 []
  have hnormal := h.renormalise
  have hfinish : ((Datagen.renormalise hs).map Haulier.draft).map
      (HaulierDraft.finish ((Datagen.renormalise hs).map Haulier.draft)) =
      Datagen.renormalise hs := by
    rw [List.map_map]
    exact (List.map_congr_left fun g hg ↦ finish_draft hg).trans (List.map_id _)
  have hempty : ((Datagen.renormalise hs).map Haulier.draft).isEmpty = false := by
    rw [List.isEmpty_eq_false_iff, ne_eq, List.map_eq_nil_iff]
    exact hnormal.ne_nil
  obtain ⟨g, hs', rfl⟩ := List.exists_cons_of_ne_nil h.ne_nil
  rw [List.map_cons] at hdrafts
  rw [hauliersRaw, List.map_cons]
  unfold normalizeHauliers
  dsimp only
  rw [hdrafts, ok_bind, hempty, if_neg Bool.false_ne_true, hfinish,
    (validateShareTotal_eq_ok H).mpr (hnormal.total _), ok_bind,
    (validateShareTotal_eq_ok H).mpr (hnormal.total _), ok_bind]
  rfl

/-! ### Where an id goes -/

theorem slug_mem_renormIdsFrom {idx : ℕ} {seen : List String} {m : String} (hm : m ∈ ids)
    (h : HasSlugChar m) : slug '_' m "" ∈ seen ∨ slug '_' m "" ∈ renormIdsFrom idx ids seen := by
  induction ids generalizing idx seen with
  | nil => exact absurd hm List.not_mem_nil
  | cons a ids ih =>
    rw [renormIdsFrom]
    rcases List.mem_cons.mp hm with rfl | hm
    · have hslug : slug '_' m s!"haulier_{idx}" = slug '_' m "" :=
        (h.slug_eq (by decide) _).trans (h.slug_eq (by decide) _).symm
      rw [hslug]
      rcases mem_or_freshHaulierId_eq seen (slug '_' m "") with hseen | hfresh
      · exact Or.inl hseen
      · rw [hfresh]
        exact Or.inr List.mem_cons_self
    · rcases @ih (idx + 1) _ hm with hseen | hmem
      · rcases List.mem_append.mp hseen with hseen | hnew
        · exact Or.inl hseen
        · rw [List.mem_singleton.mp hnew]
          exact Or.inr List.mem_cons_self
      · exact Or.inr (List.mem_cons_of_mem _ hmem)

/-! ## Dealing out by share -/

/-- The weights of the shares: equal ones if no share is positive. -/
def shareWeights (shares : List ℚ) : List ℚ :=
  let weights := shares.map (max 0)
  if weights.sum ≤ 0 then shares.map fun _ ↦ 1 else weights

/-- What each would get of `n` if they could be split. -/
def quotas (n : ℕ) (shares : List ℚ) : List ℚ :=
  let weights := shareWeights shares
  weights.map fun w ↦ w / weights.sum * n

/-- How many each gets: its quota rounded down, and one more for the largest remainders. -/
def shareCounts (n : ℕ) (shares : List ℚ) : List ℕ :=
  let raw := quotas n shares
  let counts := raw.map fun x ↦ ⌊x⌋₊
  let order := sortedBy (fun i ↦ (counts.getD i 0 : ℚ) - raw.getD i 0) (List.range raw.length)
  (List.range (n - counts.sum)).foldl
    (fun counts i ↦ counts.modify (order.getD (i % order.length) 0) (· + 1)) counts

/-- Deal out in rounds, one from every pool that is not empty, until `n` are dealt.  `fuel` bounds
the number of rounds. -/
def dealRounds (n : ℕ) : ℕ → List ℕ → List ℕ → List ℕ
  | 0, _, result => result
  | fuel + 1, pools, result =>
    if n ≤ result.length then result else
      let round := (List.range pools.length).filter fun i ↦ 0 < pools.getD i 0
      dealRounds n fuel (pools.map (· - 1)) (result ++ round.take (n - result.length))

/-- The places in the list of hauliers that `n` trucks or orders are dealt to, in turn. -/
def dealt (n : ℕ) (shares : List ℚ) : List ℕ :=
  if n = 0 then []
  else if shares.length = 1 then List.replicate n 0
  else dealRounds n n (shareCounts n shares) []

/-- `distribute_by_share`. -/
def distributeByShare (n : ℤ) (hauliers : Raw) (key : ShareKey) :
    Except PyError (List Haulier) := do
  let hs ← normalizeHauliers H hauliers
  return (dealt n.toNat (hs.map fun h ↦ h.share key)).map fun i ↦ hs.getD i defaultHaulier

/-- Who gets the trucks or orders, the hauliers being normalised already. -/
theorem distributeByShare_toRaw (h : NormalHauliers hs) (n : ℤ) (key : ShareKey) :
    distributeByShare H n (hauliersRaw hs) key =
      .ok ((dealt n.toNat (hs.map fun h ↦ h.share key)).map fun i ↦
        (renormalise hs).getD i defaultHaulier) := by
  rw [distributeByShare, normalizeHauliers_toRaw H h, ok_bind, map_share_renormalise]
  rfl

theorem getD_withIds {ids' : List String} (h : ids.length = hs.length)
    (h' : ids'.length = hs.length) (i : ℕ) :
    (withIds hs ids).getD i defaultHaulier = (withIds hs ids').getD i defaultHaulier ↔
      ids.getD i "" = ids'.getD i "" := by
  induction hs generalizing ids ids' i with
  | nil =>
    obtain rfl := List.length_eq_zero_iff.mp h
    obtain rfl := List.length_eq_zero_iff.mp h'
    exact ⟨fun _ ↦ rfl, fun _ ↦ rfl⟩
  | cons g hs ih =>
    cases ids with
    | nil => cases h
    | cons a ids =>
      cases ids' with
      | nil => cases h'
      | cons b ids' =>
        cases i with
        | zero =>
          constructor
          · intro he
            exact congrArg Haulier.id he
          · rintro rfl
            rfl
        | succ i => exact ih (Nat.succ.inj h) (Nat.succ.inj h') i

/-- **Dealing to a list normalised once more** gives the same hauliers just when those who are
dealt anything keep their ids. -/
theorem deal_renormalise_iff (hs : List Haulier) (l : List ℕ) :
    (l.map fun i ↦ (renormalise (renormalise hs)).getD i defaultHaulier) =
      (l.map fun i ↦ (renormalise hs).getD i defaultHaulier) ↔
    ∀ i ∈ l, (renormIds (renormIds (hs.map Haulier.id))).getD i "" =
      (renormIds (hs.map Haulier.id)).getD i "" := by
  have hlen := length_renormIds hs
  have hlen' : (renormIds (renormIds (hs.map Haulier.id))).length = hs.length := by
    rw [renormIds, length_renormIdsFrom, hlen]
  have hrenorm : renormalise (renormalise hs) =
      withIds hs (renormIds (renormIds (hs.map Haulier.id))) := by
    rw [renormalise, map_id_renormalise, renormalise, withIds_withIds hlen]
  rw [List.map_inj_left]
  refine forall₂_congr fun i _ ↦ ?_
  rw [hrenorm]
  exact getD_withIds hlen' hlen i

end

end OpenRide.Datagen
