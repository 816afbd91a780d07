import Mathlib.Data.List.Perm.Subperm
import Mathlib.Data.String.Basic
import Mathlib.Order.Nat
import OpenRide.Lib.Dict
import OpenRide.Lib.Double

/-!
# Authored values and their slugs

What an author writes in a scenario is a JSON value, `Raw`.  Ids are taken from it as *slugs*:
lower-cased, every run of characters other than letters and digits replaced by one separator,
separators stripped from both ends, at most 64 characters.

Two facts about slugs carry the cooperation structures.  A slug consists of letters, digits and
its separator (`mem_slug`), so the ids of two pools derived from two different pairs of members
differ.  And the suffix `-1`, `-2`, … that keeps a repeated id apart is always found
(`freshId_notMem`): among one more suffixes than there are ids, one is free.
-/

namespace OpenRide.Datagen

open Lib

/-! ## Authored values -/

/-- A JSON value.  A tuple is read like a list everywhere here. -/
inductive Raw where
  | null
  | bool (b : Bool)
  | int (n : ℤ)
  | float (x : Double)
  | str (s : String)
  | list (xs : List Raw)
  | dict (entries : List (String × Raw))

namespace Raw

/-- The truth value of `bool(value)`. -/
def truthy : Raw → Bool
  | null => false
  | bool b => b
  | int n => n ≠ 0
  | float x => x ≠ .fin 0
  | str s => s ≠ ""
  | list xs => !xs.isEmpty
  | dict entries => !entries.isEmpty

/-- `value.get(key)` of a dict: `null` when the key is missing. -/
def field (entries : List (String × Raw)) (key : String) : Raw :=
  (Dict.lookupIn key entries).getD null

/-- The two elements of a two-element list. -/
def pair? : Raw → Option (Raw × Raw)
  | list [a, b] => some (a, b)
  | _ => none

/-- Is this a list of two strings? -/
def isStringPair : Raw → Bool
  | list [str _, str _] => true
  | _ => false

end Raw

/-- How values are printed: `str` and `repr`.  Only the printing of numbers and of nested values
is left open; a string prints as itself. -/
structure PyText where
  str : Raw → String
  repr : Raw → String

namespace PyText

/-- `str(value)`. -/
def strOf (T : PyText) : Raw → String
  | .str s => s
  | v => T.str v

/-- `str(value or "")`. -/
def strOrEmpty (T : PyText) (v : Raw) : String := if v.truthy then T.strOf v else ""

end PyText

/-! ## Slugs -/

/-- The characters `str.strip` removes. -/
def isPySpace (c : Char) : Bool :=
  (9 ≤ c.toNat && c.toNat ≤ 13) || (28 ≤ c.toNat && c.toNat ≤ 32) || c.toNat == 0x85 ||
    c.toNat == 0xa0 || c.toNat == 0x1680 || (0x2000 ≤ c.toNat && c.toNat ≤ 0x200a) ||
    c.toNat == 0x2028 || c.toNat == 0x2029 || c.toNat == 0x202f || c.toNat == 0x205f ||
    c.toNat == 0x3000

/-- `str.lower` of one character.  Of the characters outside ASCII only two, the Kelvin sign and
the dotted capital I, have an ASCII letter in their lower case; no slug keeps any of the others,
in either case. -/
def lowerChar (c : Char) : List Char :=
  if 'A' ≤ c ∧ c ≤ 'Z' then [Char.ofNat (c.toNat + 32)]
  else if c.toNat = 0x212a then ['k']
  else if c.toNat = 0x130 then ['i', Char.ofNat 0x307]
  else [c]

/-- The class `[a-z0-9]`. -/
def isSlugChar (c : Char) : Bool := ('a' ≤ c && c ≤ 'z') || ('0' ≤ c && c ≤ '9')

/-- Drop a kind of character from both ends. -/
def stripBy (drop : Char → Bool) (l : List Char) : List Char :=
  ((l.dropWhile drop).reverse.dropWhile drop).reverse

/-- Replace the runs of a kind of character by `sep`, inside a run or not. -/
def subRunsFrom (drop : Char → Bool) (sep : Char) : Bool → List Char → List Char
  | _, [] => []
  | inRun, c :: cs =>
    if drop c then
      if inRun then subRunsFrom drop sep true cs else sep :: subRunsFrom drop sep true cs
    else c :: subRunsFrom drop sep false cs

/-- `re.sub(r"[...]+", sep, text)`. -/
def subRuns (drop : Char → Bool) (sep : Char) (l : List Char) : List Char :=
  subRunsFrom drop sep false l

/-- The characters of a slug. -/
def slugChars (sep : Char) (s : String) : List Char :=
  let lowered := (stripBy isPySpace s.toList).flatMap lowerChar
  let separated := subRuns (fun c ↦ !isSlugChar c) sep lowered
  (stripBy (fun c ↦ c == sep) (subRuns (fun c ↦ c == sep) sep separated)).take 64

/-- A slug, or the fallback if nothing is left. -/
def slug (sep : Char) (s fallback : String) : String :=
  if (slugChars sep s).isEmpty then fallback else String.ofList (slugChars sep s)

/-- `haulier_slug`. -/
def haulierSlug (T : PyText) (value : Raw) (fallback : String) : String :=
  slug '_' (T.strOrEmpty value) fallback

/-- `structure_id_slug`. -/
def structureIdSlug (T : PyText) (value : Raw) (fallback : String) : String :=
  slug '-' (T.strOrEmpty value) fallback

/-- `pool_id_slug`. -/
def poolIdSlug (T : PyText) (value : Raw) (fallback : String) : String :=
  slug '-' (T.strOrEmpty value) fallback

/-! ### Stripping -/

/-- No character to drop stands at either end. -/
def IsStripped (drop : Char → Bool) (l : List Char) : Prop :=
  (∀ c ∈ l.head?, drop c = false) ∧ ∀ c ∈ l.getLast?, drop c = false

variable {drop : Char → Bool} {l : List Char}

theorem dropWhile_eq_self_of_head? (h : ∀ c ∈ l.head?, drop c = false) : l.dropWhile drop = l := by
  cases l with
  | nil => rfl
  | cons c l => rw [List.dropWhile_cons_of_neg (by rw [h c rfl]; exact Bool.false_ne_true)]

theorem head?_dropWhile_drop (drop : Char → Bool) (l : List Char) :
    ∀ c ∈ (l.dropWhile drop).head?, drop c = false := by
  intro c hc
  have h := List.head?_dropWhile_not drop l
  rw [Option.mem_def.mp hc] at h
  exact h

theorem IsStripped.stripBy_eq (h : IsStripped drop l) : stripBy drop l = l := by
  rw [stripBy, dropWhile_eq_self_of_head? h.1, dropWhile_eq_self_of_head?, List.reverse_reverse]
  intro c hc
  rw [List.head?_reverse] at hc
  exact h.2 c hc

theorem isStripped_stripBy (drop : Char → Bool) (l : List Char) :
    IsStripped drop (stripBy drop l) := by
  refine ⟨fun c hc ↦ ?_, fun c hc ↦ ?_⟩
  · rw [stripBy, List.head?_reverse] at hc
    obtain ⟨t, ht⟩ := List.dropWhile_suffix drop (l := (l.dropWhile drop).reverse)
    refine head?_dropWhile_drop drop l c ?_
    rw [← List.getLast?_reverse, ← ht, List.getLast?_append, Option.mem_def.mp hc]
    rfl
  · rw [stripBy, List.getLast?_reverse] at hc
    exact head?_dropWhile_drop drop _ c hc

@[simp] theorem stripBy_stripBy (drop : Char → Bool) (l : List Char) :
    stripBy drop (stripBy drop l) = stripBy drop l :=
  (isStripped_stripBy drop l).stripBy_eq

/-! ### What a slug is made of -/

variable {c : Char}

theorem mem_stripBy (h : c ∈ stripBy drop l) : c ∈ l := by
  rw [stripBy, List.mem_reverse] at h
  have h' := (List.dropWhile_sublist drop).subset h
  rw [List.mem_reverse] at h'
  exact (List.dropWhile_sublist drop).subset h'

variable {sep : Char}

theorem mem_subRunsFrom {inRun : Bool} (h : c ∈ subRunsFrom drop sep inRun l) :
    c = sep ∨ c ∈ l ∧ drop c = false := by
  induction l generalizing inRun with
  | nil => simp [subRunsFrom] at h
  | cons a l ih =>
    have hrest : ∀ b, c ∈ subRunsFrom drop sep b l → c = sep ∨ c ∈ a :: l ∧ drop c = false :=
      fun b hb ↦ (ih hb).imp_right fun hc ↦ ⟨List.mem_cons_of_mem _ hc.1, hc.2⟩
    rw [subRunsFrom] at h
    split at h
    · split at h
      · exact hrest _ h
      · rcases List.mem_cons.mp h with rfl | h
        · exact Or.inl rfl
        · exact hrest _ h
    · next hd =>
      rcases List.mem_cons.mp h with rfl | h
      · exact Or.inr ⟨List.mem_cons_self, Bool.eq_false_iff.mpr hd⟩
      · exact hrest _ h

variable {s : String}

theorem mem_slugChars (h : c ∈ slugChars sep s) : c = sep ∨ isSlugChar c = true := by
  have h' := mem_stripBy (List.mem_of_mem_take h)
  rcases mem_subRunsFrom h' with rfl | ⟨h', -⟩
  · exact Or.inl rfl
  · exact (mem_subRunsFrom h').imp_right fun hc ↦ by simpa using hc.2

/-- **A slug is made of letters, digits and its separator.** -/
theorem mem_slug (h : c ∈ (slug sep s "").toList) : c = sep ∨ isSlugChar c = true := by
  rw [slug] at h
  split at h
  · simp at h
  · rw [String.toList_ofList] at h
    exact mem_slugChars h

/-- The `+` that joins the members of a derived pool id occurs in no haulier slug. -/
theorem plus_notMem_haulierSlug (T : PyText) (v : Raw) : '+' ∉ (haulierSlug T v "").toList := by
  intro h
  rcases mem_slug h with h | h
  · exact absurd h (by decide)
  · exact absurd h (by decide)

theorem slug_ne_empty {fallback : String} (h : fallback ≠ "") : slug sep s fallback ≠ "" := by
  rw [slug]
  split
  · exact h
  · next hne =>
    intro he
    rw [← String.toList_inj, String.toList_ofList] at he
    simp [he] at hne

/-! ### What a slug keeps -/

/-- Some letter or digit occurs in the text, so that its slug is made of the text. -/
def HasSlugChar (s : String) : Prop := ∃ c ∈ s.toList, isSlugChar c = true

theorem mem_dropWhile (h : c ∈ l) (hc : drop c = false) : c ∈ l.dropWhile drop := by
  induction l with
  | nil => exact h
  | cons a l ih =>
    rw [List.dropWhile_cons]
    split
    · next ha =>
      rcases List.mem_cons.mp h with rfl | h
      · rw [hc] at ha
        cases ha
      · exact ih h
    · exact h

theorem mem_stripBy_of_mem (h : c ∈ l) (hc : drop c = false) : c ∈ stripBy drop l := by
  rw [stripBy, List.mem_reverse]
  exact mem_dropWhile (List.mem_reverse.mpr (mem_dropWhile h hc)) hc

theorem mem_subRunsFrom_of_mem {inRun : Bool} (h : c ∈ l) (hc : drop c = false) :
    c ∈ subRunsFrom drop sep inRun l := by
  induction l generalizing inRun with
  | nil => exact h
  | cons a l ih =>
    rw [subRunsFrom]
    rcases List.mem_cons.mp h with rfl | h
    · rw [hc, if_neg Bool.false_ne_true]
      exact List.mem_cons_self
    · split
      · split
        · exact ih h
        · exact List.mem_cons_of_mem _ (ih h)
      · exact List.mem_cons_of_mem _ (ih h)

theorem toNat_of_isSlugChar (h : isSlugChar c = true) :
    97 ≤ c.toNat ∧ c.toNat ≤ 122 ∨ 48 ≤ c.toNat ∧ c.toNat ≤ 57 := by
  simp only [isSlugChar, Bool.or_eq_true, Bool.and_eq_true, decide_eq_true_eq, Char.le_def,
    UInt32.le_iff_toNat_le] at h
  exact h

theorem lowerChar_of_isSlugChar (h : isSlugChar c = true) : lowerChar c = [c] := by
  have hn := toNat_of_isSlugChar h
  have hcap : ¬ ('A' ≤ c ∧ c ≤ 'Z') := by
    change ¬ (65 ≤ c.toNat ∧ c.toNat ≤ 90)
    omega
  rw [lowerChar, if_neg hcap, if_neg (by omega), if_neg (by omega)]

theorem isPySpace_of_isSlugChar (h : isSlugChar c = true) : isPySpace c = false := by
  have hn := toNat_of_isSlugChar h
  simp only [isPySpace, Bool.or_eq_false_iff, Bool.and_eq_false_iff, decide_eq_false_iff_not,
    beq_eq_false_iff_ne]
  omega

/-- **A text with a letter or digit has a slug of its own**, no fallback. -/
theorem HasSlugChar.slugChars_ne_nil (h : HasSlugChar s) (hsep : isSlugChar sep = false) :
    slugChars sep s ≠ [] := by
  obtain ⟨c, hc, hslug⟩ := h
  have hne : (c == sep) = false := by
    rw [beq_eq_false_iff_ne]
    rintro rfl
    rw [hslug] at hsep
    cases hsep
  have hlower : c ∈ (stripBy isPySpace s.toList).flatMap lowerChar := by
    refine List.mem_flatMap.mpr ⟨c, mem_stripBy_of_mem hc (isPySpace_of_isSlugChar hslug), ?_⟩
    rw [lowerChar_of_isSlugChar hslug]
    exact List.mem_singleton_self c
  have hsub : c ∈ subRuns (fun c ↦ !isSlugChar c) sep
      ((stripBy isPySpace s.toList).flatMap lowerChar) :=
    mem_subRunsFrom_of_mem hlower (by rw [hslug]; rfl)
  have hsep' : c ∈ subRuns (fun c ↦ c == sep) sep (subRuns (fun c ↦ !isSlugChar c) sep
      ((stripBy isPySpace s.toList).flatMap lowerChar)) := mem_subRunsFrom_of_mem hsub hne
  intro hnil
  rw [slugChars, List.take_eq_nil_iff] at hnil
  rcases hnil with hnil | hnil
  · cases hnil
  · exact absurd (hnil ▸ mem_stripBy_of_mem hsep' hne) List.not_mem_nil

theorem HasSlugChar.slug_eq (h : HasSlugChar s) (hsep : isSlugChar sep = false) (fallback : String)
    : slug sep s fallback = String.ofList (slugChars sep s) := by
  rw [slug, if_neg]
  rw [List.isEmpty_iff]
  exact h.slugChars_ne_nil hsep

theorem exists_isSlugChar_of_slugChars (h : slugChars sep s ≠ []) :
    ∃ c ∈ slugChars sep s, isSlugChar c = true := by
  obtain ⟨c, l, hcl⟩ := List.exists_cons_of_ne_nil h
  have hmem : c ∈ slugChars sep s := hcl ▸ List.mem_cons_self
  have hhead : ∀ m : List Char, m.take 64 = c :: l → m.head? = some c := by
    intro m hm
    have htake : (m.take 64).head? = m.head? := List.head?_take
    rw [← htake, hm]
    rfl
  have hne := (isStripped_stripBy (fun c ↦ c == sep) _).1 c (hhead _ hcl)
  rw [beq_eq_false_iff_ne] at hne
  exact ⟨c, hmem, (mem_slugChars hmem).resolve_left hne⟩

theorem hasSlugChar_slug {fallback : String} (h : HasSlugChar fallback) :
    HasSlugChar (slug sep s fallback) := by
  rw [slug]
  split
  · exact h
  · next hne =>
    rw [List.isEmpty_iff] at hne
    rw [HasSlugChar, String.toList_ofList]
    exact exists_isSlugChar_of_slugChars hne

/-! ## Keeping repeated ids apart -/

/-- The `k`-th way to write a repeated id. -/
def suffixed (base : String) (k : ℕ) : String := base ++ "-" ++ toString k

/-- The first suffix from `k` on that is not taken, tried at most `n` times. -/
def freshSuffix (seen : List String) (base : String) : ℕ → ℕ → String
  | 0, k => suffixed base k
  | n + 1, k => if suffixed base k ∈ seen then freshSuffix seen base n (k + 1) else suffixed base k

/-- An id that is not taken: the given one, or the given one with a suffix. -/
def freshId (seen : List String) (base : String) : String :=
  if base ∈ seen then freshSuffix seen base seen.length 1 else base

theorem append_toString_injective (pre : String) :
    Function.Injective fun k : ℕ ↦ pre ++ toString k := by
  intro k l h
  have hl : (toString k).toList = (toString l).toList := by
    have h' := congrArg String.toList h
    simp only [String.toList_append, List.append_cancel_left_eq] at h'
    exact h'
  have h10 := congrArg (fun cs ↦ Nat.ofDigitChars 10 cs 0) hl
  simpa using h10

theorem suffixed_injective (base : String) : Function.Injective (suffixed base) :=
  append_toString_injective (base ++ "-")

/-- The first of the names from the `k`-th on that is not taken, tried at most `n` times. -/
def firstFree (name : ℕ → String) (seen : List String) : ℕ → ℕ → String
  | 0, k => name k
  | n + 1, k => if name k ∈ seen then firstFree name seen n (k + 1) else name k

/-- Of names that differ, one more than there are taken ones is free. -/
theorem firstFree_notMem {name : ℕ → String} (hname : Function.Injective name)
    {seen : List String} {n k : ℕ} {taken : List String} (htaken : ∀ x ∈ taken, ∃ j < k, x = name j)
    (hnodup : taken.Nodup) (hsub : taken ⊆ seen) (hfuel : seen.length ≤ taken.length + n) :
    firstFree name seen n k ∉ seen := by
  have hnew : name k ∉ taken := by
    intro h
    obtain ⟨j, hj, he⟩ := htaken _ h
    exact absurd (hname he) (Nat.ne_of_gt hj)
  induction n generalizing k taken with
  | zero =>
    intro h
    have hle := ((List.nodup_cons.mpr ⟨hnew, hnodup⟩).subperm
      (List.cons_subset.mpr ⟨h, hsub⟩)).length_le
    rw [List.length_cons] at hle
    omega
  | succ n ih =>
    rw [firstFree]
    split
    · next h =>
      have htaken' : ∀ x ∈ name k :: taken, ∃ j < k + 1, x = name j := by
        intro x hx
        rcases List.mem_cons.mp hx with rfl | hx
        · exact ⟨k, Nat.lt_succ_self k, rfl⟩
        · obtain ⟨j, hj, he⟩ := htaken x hx
          exact ⟨j, Nat.lt_succ_of_lt hj, he⟩
      refine ih htaken' (List.nodup_cons.mpr ⟨hnew, hnodup⟩) (List.cons_subset.mpr ⟨h, hsub⟩)
        (by rw [List.length_cons]; omega) fun h' ↦ ?_
      obtain ⟨j, hj, he⟩ := htaken' _ h'
      exact absurd (hname he) (Nat.ne_of_gt hj)
    · next h => exact h

theorem freshSuffix_eq_firstFree (seen : List String) (base : String) (n k : ℕ) :
    freshSuffix seen base n k = firstFree (suffixed base) seen n k := by
  induction n generalizing k with
  | zero => rfl
  | succ n ih => rw [freshSuffix, firstFree, ih]

/-- **A fresh id is not taken.** -/
theorem freshId_notMem (seen : List String) (base : String) : freshId seen base ∉ seen := by
  rw [freshId]
  split
  · rw [freshSuffix_eq_firstFree]
    exact firstFree_notMem (suffixed_injective base) (by simp) List.nodup_nil (List.nil_subset _)
      (by simp)
  · next h => exact h

theorem suffixed_ne_empty (base : String) (k : ℕ) : suffixed base k ≠ "" := by
  intro h
  have h' := congrArg String.toList h
  simp [suffixed] at h'

theorem freshSuffix_ne_empty (seen : List String) (base : String) (n k : ℕ) :
    freshSuffix seen base n k ≠ "" := by
  induction n generalizing k with
  | zero => exact suffixed_ne_empty base k
  | succ n ih =>
    rw [freshSuffix]
    split
    · exact ih (k + 1)
    · exact suffixed_ne_empty base k

variable {base : String}

theorem freshId_ne_empty {seen : List String} (h : base ≠ "") : freshId seen base ≠ "" := by
  rw [freshId]
  split
  · exact freshSuffix_ne_empty seen base _ 1
  · exact h

/-! ### Ids stay readable -/

theorem HasSlugChar.append (h : HasSlugChar s) (t : String) : HasSlugChar (s ++ t) := by
  obtain ⟨c, hc, hslug⟩ := h
  refine ⟨c, ?_, hslug⟩
  rw [String.toList_append]
  exact List.mem_append_left _ hc

theorem HasSlugChar.ne_empty (h : HasSlugChar s) : s ≠ "" := by
  rintro rfl
  obtain ⟨c, hc, -⟩ := h
  cases hc

theorem HasSlugChar.suffixed (h : HasSlugChar base) (k : ℕ) : HasSlugChar (suffixed base k) :=
  (h.append "-").append (toString k)

theorem HasSlugChar.freshSuffix (h : HasSlugChar base) (seen : List String) (n k : ℕ) :
    HasSlugChar (freshSuffix seen base n k) := by
  induction n generalizing k with
  | zero => exact h.suffixed k
  | succ n ih =>
    rw [Datagen.freshSuffix]
    split
    · exact ih (k + 1)
    · exact h.suffixed k

theorem HasSlugChar.freshId (h : HasSlugChar base) (seen : List String) :
    HasSlugChar (freshId seen base) := by
  rw [Datagen.freshId]
  split
  · exact h.freshSuffix seen _ 1
  · exact h

theorem mem_or_freshId_eq (seen : List String) (base : String) :
    base ∈ seen ∨ freshId seen base = base := by
  by_cases h : base ∈ seen
  · exact Or.inl h
  · exact Or.inr (if_neg h)

end OpenRide.Datagen
