import Mathlib.Data.List.Chain
import OpenRide.Datagen.CooperationPairs

/-!
# Slugs of slugs

A slug is stripped of separators and then cut to 64 characters, so a long one may end in a separator
again; its own slug is then shorter.  `slug_eq_self_iff` says which texts are their own slug: those
written in letters and digits with single separators between them, of at most 64 characters.  A slug
is among them unless it was cut right after a separator (`slug_slug_iff`).

Haulier ids are such slugs, possibly with a suffix that tells repeated ones apart, and every reader
of an id takes its slug.  A list of hauliers is normalised to itself, and its ids name its hauliers,
as long as no id was cut after a separator and none is longer than 64 characters with its suffix
(`normalizeHauliers_again_iff`).
-/

namespace OpenRide.Datagen

open Lib

/-! ## Texts that are their own slug -/

/-- What a separator of slugs has to be. -/
structure IsSeparator (sep : Char) : Prop where
  slugChar : isSlugChar sep = false
  space : isPySpace sep = false
  lower : lowerChar sep = [sep]

theorem isSeparator_underscore : IsSeparator '_' := ⟨by decide, by decide, by decide⟩

/-- Letters and digits with single separators between them. -/
structure IsTidy (sep : Char) (l : List Char) : Prop where
  chars : ∀ c ∈ l, c = sep ∨ isSlugChar c = true
  single : l.IsChain fun a b ↦ ¬ (a = sep ∧ b = sep)
  stripped : IsStripped (fun c ↦ c == sep) l

/-- The slug of a text before it is cut to its length. -/
def uncutSlug (sep : Char) (s : String) : List Char :=
  stripBy (fun c ↦ c == sep) (subRuns (fun c ↦ c == sep) sep
    (subRuns (fun c ↦ !isSlugChar c) sep ((stripBy isPySpace s.toList).flatMap lowerChar)))

/-- The slug of the text is cut right after a separator. -/
def CutAfterSeparator (sep : Char) (s : String) : Prop := (uncutSlug sep s)[63]? = some sep

instance (sep : Char) (s : String) : Decidable (CutAfterSeparator sep s) :=
  inferInstanceAs (Decidable (_ = _))

theorem slugChars_eq (sep : Char) (s : String) : slugChars sep s = (uncutSlug sep s).take 64 := rfl

theorem isInfix_stripBy (drop : Char → Bool) (l : List Char) : stripBy drop l <:+: l := by
  have hsuffix := List.dropWhile_suffix drop (l := (l.dropWhile drop).reverse)
  have hprefix : stripBy drop l <+: l.dropWhile drop := by
    simpa [stripBy] using List.reverse_prefix.mpr hsuffix
  exact hprefix.isInfix.trans (List.dropWhile_suffix drop).isInfix

variable {sep : Char}

variable {l : List Char}

/-- Where runs are single separators, replacing runs changes nothing. -/
theorem subRunsFrom_eq_self {drop : Char → Bool} {inRun : Bool}
    (hsep : ∀ c ∈ l, drop c = true → c = sep)
    (hsingle : l.IsChain fun a b ↦ ¬ (drop a = true ∧ drop b = true))
    (hrun : inRun = true → ∀ c ∈ l.head?, drop c = false) : subRunsFrom drop sep inRun l = l := by
  induction l generalizing inRun with
  | nil => rfl
  | cons a l ih =>
    have hsep' : ∀ c ∈ l, drop c = true → c = sep := fun c hc ↦ hsep c (List.mem_cons_of_mem _ hc)
    rw [List.isChain_cons] at hsingle
    rw [subRunsFrom]
    by_cases ha : drop a = true
    · have hin : inRun = false := by
        by_contra hrun'
        simp [hrun (by simpa using hrun') a (by simp)] at ha
      have hnext : ∀ c ∈ l.head?, drop c = false := by
        intro c hc
        simpa [ha] using hsingle.1 c hc
      rw [if_pos ha, hin, if_neg Bool.false_ne_true, ih hsep' hsingle.2 fun _ ↦ hnext,
        hsep a (by simp) ha]
    · rw [if_neg ha, ih hsep' hsingle.2 (by simp)]

theorem isChain_subRunsFrom (sep : Char) (inRun : Bool) (l : List Char) :
    (subRunsFrom (fun c ↦ c == sep) sep inRun l).IsChain (fun a b ↦ ¬ (a = sep ∧ b = sep)) ∧
      (inRun = true → ∀ c ∈ (subRunsFrom (fun c ↦ c == sep) sep inRun l).head?, c ≠ sep) := by
  induction l generalizing inRun with
  | nil => simp [subRunsFrom]
  | cons a l ih =>
    rw [subRunsFrom]
    by_cases ha : a = sep
    · cases inRun with
      | true => simpa [ha] using ih true
      | false =>
        have hnext := (ih true).symm.imp_left fun hhead ↦ hhead rfl
        simpa [ha, List.isChain_cons] using hnext
    · simpa [ha, List.isChain_cons] using (ih false).1

theorem isTidy_uncutSlug (sep : Char) (s : String) : IsTidy sep (uncutSlug sep s) := by
  refine ⟨fun c hc ↦ ?_, ?_, isStripped_stripBy _ _⟩
  · rcases mem_subRunsFrom (mem_stripBy hc) with rfl | ⟨hc, -⟩
    · exact Or.inl rfl
    · exact (mem_subRunsFrom hc).imp_right fun hc ↦ by simpa using hc.2
  · exact List.IsChain.infix (isChain_subRunsFrom sep false _).1 (isInfix_stripBy _ _)

/-- A text without neighbouring separators is its own slug but for stripping and cutting. -/
theorem slugChars_ofList (hsep : IsSeparator sep) (hchars : ∀ c ∈ l, c = sep ∨ isSlugChar c = true)
    (hsingle : l.IsChain fun a b ↦ ¬ (a = sep ∧ b = sep)) :
    slugChars sep (String.ofList l) = (stripBy (fun c ↦ c == sep) l).take 64 := by
  have hspace : ∀ c ∈ l, isPySpace c = false := fun c hc ↦
    (hchars c hc).elim (fun h ↦ h ▸ hsep.space) isPySpace_of_isSlugChar
  have hstrip : stripBy isPySpace l = l := by
    refine IsStripped.stripBy_eq ⟨fun c hc ↦ hspace c ?_, fun c hc ↦ hspace c ?_⟩
    · exact List.mem_of_mem_head? hc
    · exact List.mem_of_mem_getLast? hc
  have hlower : l.flatMap lowerChar = l := by
    calc l.flatMap lowerChar = l.flatMap fun c ↦ [c] := List.flatMap_congr fun c hc ↦
          (hchars c hc).elim (fun h ↦ h ▸ hsep.lower) lowerChar_of_isSlugChar
      _ = l := List.flatMap_singleton' l
  have hdrop : ∀ c ∈ l, (!isSlugChar c) = true ↔ c = sep := by
    intro c hc
    rcases hchars c hc with rfl | hslug
    · simp [hsep.slugChar]
    · have hne : c ≠ sep := by
        rintro rfl
        simp [hsep.slugChar] at hslug
      simp [hslug, hne]
  have hruns : subRuns (fun c ↦ !isSlugChar c) sep l = l := by
    refine subRunsFrom_eq_self (fun c hc ↦ (hdrop c hc).mp) ?_ (by simp)
    refine hsingle.imp_of_mem_imp fun a b ha hb hab ↦ ?_
    rwa [hdrop a ha, hdrop b hb]
  have hseps : subRuns (fun c ↦ c == sep) sep l = l :=
    subRunsFrom_eq_self (by simp) (by simpa using hsingle) (by simp)
  rw [slugChars_eq, uncutSlug, String.toList_ofList, hstrip, hlower, hruns, hseps]

variable {s : String}

/-- **A text is its own slug** when it is tidy and fits its length. -/
theorem slug_eq_self_iff (hsep : IsSeparator sep) :
    slug sep s "" = s ↔ IsTidy sep s.toList ∧ s.length ≤ 64 := by
  have hslug : slug sep s "" = String.ofList (slugChars sep s) := by
    rw [slug]
    split
    · next h =>
      rw [List.isEmpty_iff.mp h, String.ofList_nil]
    · rfl
  have hself : slug sep s "" = s ↔ slugChars sep s = s.toList := by
    rw [hslug, ← String.toList_inj, String.toList_ofList]
  rw [hself]
  constructor
  · intro h
    have hle : s.toList.length ≤ 64 := by
      rw [← h, slugChars_eq]
      exact List.length_take_le _ _
    have htidy := isTidy_uncutSlug sep s
    have hchars : ∀ c ∈ s.toList, c = sep ∨ isSlugChar c = true := fun c hc ↦
      htidy.chars c (List.mem_of_mem_take (h ▸ hc : c ∈ slugChars sep s))
    have hsingle : s.toList.IsChain fun a b ↦ ¬ (a = sep ∧ b = sep) := by
      rw [← h]
      exact htidy.single.take 64
    have hagain := slugChars_ofList hsep hchars hsingle
    rw [String.ofList_toList, h] at hagain
    refine ⟨⟨hchars, hsingle, ?_⟩, String.length_toList (s := s) ▸ hle⟩
    -- the text is a beginning of what stripping leaves of it, so nothing was stripped
    have hlen := (isInfix_stripBy (fun c ↦ c == sep) s.toList).length_le
    have hfull : stripBy (fun c ↦ c == sep) s.toList = s.toList := by
      have htake' := hagain
      rw [List.take_of_length_le (by omega)] at htake'
      exact htake'.symm
    rw [← hfull]
    exact isStripped_stripBy _ _
  · rintro ⟨htidy, hle⟩
    have hagain := slugChars_ofList hsep htidy.chars htidy.single
    rw [String.ofList_toList, htidy.stripped.stripBy_eq] at hagain
    rw [hagain]
    exact List.take_of_length_le (String.length_toList (s := s) ▸ hle)

/-! ## Slugs of slugs -/

/-- A slug that is not cut after a separator is tidy. -/
theorem isTidy_slugChars_iff : IsTidy sep (slugChars sep s) ↔ ¬ CutAfterSeparator sep s := by
  have htidy := isTidy_uncutSlug sep s
  rw [slugChars_eq, CutAfterSeparator]
  constructor
  · intro h hcut
    have hlast : ((uncutSlug sep s).take 64).getLast? = some sep := by
      rw [List.getLast?_take, if_neg (by omega), hcut]
      rfl
    simpa using h.stripped.2 sep hlast
  · intro h
    refine ⟨fun c hc ↦ htidy.chars c (List.mem_of_mem_take hc), htidy.single.take 64,
      fun c hc ↦ ?_, fun c hc ↦ ?_⟩
    · rw [List.head?_take, if_neg (by omega)] at hc
      exact htidy.stripped.1 c hc
    · by_cases hle : (uncutSlug sep s).length ≤ 64
      · rw [List.take_of_length_le hle] at hc
        exact htidy.stripped.2 c hc
      · rw [List.getLast?_take, if_neg (by omega), List.getElem?_eq_getElem (by omega)] at hc
        rw [List.getElem?_eq_getElem (by omega)] at h
        have hne : c ≠ sep := by
          rintro rfl
          exact h hc
        simpa using hne

variable {fallback : String}

theorem isTidy_slug_iff (hf : IsTidy sep fallback.toList) :
    IsTidy sep (slug sep s fallback).toList ↔ ¬ CutAfterSeparator sep s := by
  rw [slug]
  split
  · next h =>
    have hnil : uncutSlug sep s = [] := by
      have htake := List.isEmpty_iff.mp h
      rw [slugChars_eq, List.take_eq_nil_iff] at htake
      simpa using htake
    simp [hf, CutAfterSeparator, hnil]
  · rw [String.toList_ofList]
    exact isTidy_slugChars_iff

theorem length_slug_le (hf : fallback.length ≤ 64) : (slug sep s fallback).length ≤ 64 := by
  rw [slug]
  split
  · exact hf
  · rw [String.length_ofList, slugChars_eq]
    exact List.length_take_le _ _

/-- **A slug is its own slug** unless it was cut right after a separator. -/
theorem slug_slug_iff (hsep : IsSeparator sep) (hf : IsTidy sep fallback.toList)
    (hne : HasSlugChar fallback) (hlen : fallback.length ≤ 64) :
    slug sep (slug sep s fallback) fallback = slug sep s fallback ↔ ¬ CutAfterSeparator sep s := by
  have hslug : HasSlugChar (slug sep s fallback) := hasSlugChar_slug hne
  have hnone : slug sep (slug sep s fallback) fallback = slug sep (slug sep s fallback) "" :=
    (hslug.slug_eq hsep.slugChar _).trans (hslug.slug_eq hsep.slugChar _).symm
  rw [hnone, slug_eq_self_iff hsep, isTidy_slug_iff hf]
  exact and_iff_left (length_slug_le hlen)

/-! ## Haulier ids -/

theorem digits_slugChar (k : ℕ) : ∀ c ∈ (toString k).toList, isSlugChar c = true := by
  intro c hc
  refine (isHaulierId_toString k c hc).resolve_left ?_
  rintro rfl
  rw [Nat.toString_eq_repr, Nat.toList_repr] at hc
  exact absurd (Nat.isDigit_of_mem_toDigits (by decide) (by decide) hc) (by decide)

theorem toList_toString_ne_nil (k : ℕ) : (toString k).toList ≠ [] := by
  rw [Nat.toString_eq_repr, Nat.toList_repr]
  exact Nat.toDigits_ne_nil

theorem isTidy_of_slugChar (hsep : IsSeparator sep) (h : ∀ c ∈ l, isSlugChar c = true) :
    IsTidy sep l := by
  have hne : ∀ c ∈ l, c ≠ sep := by
    rintro c hc rfl
    simpa [hsep.slugChar] using h c hc
  refine ⟨fun c hc ↦ Or.inr (h c hc), ?_, fun c hc ↦ ?_, fun c hc ↦ ?_⟩
  · refine (List.pairwise_of_forall_mem_list fun a ha b _ ↦ ?_).isChain
    exact fun hab ↦ hne a ha hab.1
  · simpa using hne c (List.mem_of_mem_head? hc)
  · simpa using hne c (List.mem_of_mem_getLast? hc)

/-- A tail of letters and digits after one separator leaves a text as tidy as it was. -/
theorem isTidy_append_iff (hsep : IsSeparator sep) {m : List Char} (hl : l ≠ []) (hm : m ≠ [])
    (hchars : ∀ c ∈ m, isSlugChar c = true) : IsTidy sep (l ++ sep :: m) ↔ IsTidy sep l := by
  have htail := isTidy_of_slugChar hsep hchars
  obtain ⟨a, l', rfl⟩ := List.exists_cons_of_ne_nil hl
  constructor
  · intro h
    obtain ⟨hsingle, -, hjoin⟩ := List.isChain_append.mp h.single
    refine ⟨fun c hc ↦ h.chars c (List.mem_append_left _ hc), hsingle, fun c hc ↦ ?_, fun c hc ↦ ?_⟩
    · exact h.stripped.1 c (by simpa using hc)
    · simpa using hjoin c hc sep rfl
  · intro h
    refine ⟨fun c hc ↦ ?_, List.isChain_append.mpr ⟨h.single, ?_, fun x hx y hy ↦ ?_⟩,
      fun c hc ↦ h.stripped.1 c (by simpa using hc), fun c hc ↦ ?_⟩
    · rcases List.mem_append.mp hc with hc | hc
      · exact h.chars c hc
      · rcases List.mem_cons.mp hc with rfl | hc
        · exact Or.inl rfl
        · exact Or.inr (hchars c hc)
    · refine List.isChain_cons.mpr ⟨fun y hy hys ↦ ?_, htail.single⟩
      simpa [hys.2] using htail.stripped.1 y hy
    · intro hxy
      simpa [hxy.1] using h.stripped.2 x hx
    · rw [List.getLast?_append_of_ne_nil _ (List.cons_ne_nil sep m),
        List.getLast?_cons_of_ne_nil hm] at hc
      exact htail.stripped.2 c hc

/-- A suffix leaves an id as tidy as it was. -/
theorem isTidy_freshHaulierId_iff {seen : List String} {base : String} (h : HasSlugChar base) :
    IsTidy '_' (freshHaulierId seen base).toList ↔ IsTidy '_' base.toList := by
  rcases freshHaulierId_eq seen base with he | ⟨k, he⟩
  · rw [he]
  · have hbase : base.toList ≠ [] := by
      obtain ⟨c, hc, -⟩ := h
      exact List.ne_nil_of_mem hc
    have hparts : (haulierSuffixed base k).toList = base.toList ++ '_' :: (toString k).toList := by
      simp [haulierSuffixed, String.toList_append]
    rw [he, hparts, isTidy_append_iff isSeparator_underscore hbase (toList_toString_ne_nil k)
      (digits_slugChar k)]

theorem isTidy_fallback (idx : ℕ) : IsTidy '_' s!"haulier_{idx}".toList := by
  have hparts : s!"haulier_{idx}".toList = "haulier".toList ++ '_' :: (toString idx).toList := by
    simp [String.toList_append, toString]
  have hchars : "haulier".toList.all isSlugChar = true := by decide
  rw [hparts, isTidy_append_iff isSeparator_underscore (by decide) (toList_toString_ne_nil idx)
    (digits_slugChar idx)]
  exact isTidy_of_slugChar isSeparator_underscore (List.all_eq_true.mp hchars)

theorem freshHaulierSuffix_eq_firstFree (seen : List String) (base : String) (n k : ℕ) :
    freshHaulierSuffix seen base n k = firstFree (haulierSuffixed base) seen n k := by
  induction n generalizing k with
  | zero => rfl
  | succ n ih => rw [freshHaulierSuffix, firstFree, ih]

/-- **A fresh haulier id is not taken.** -/
theorem freshHaulierId_notMem (seen : List String) (base : String) :
    freshHaulierId seen base ∉ seen := by
  rw [freshHaulierId]
  split
  · rw [freshHaulierSuffix_eq_firstFree]
    exact firstFree_notMem (append_toString_injective (base ++ "_")) (by simp) List.nodup_nil
      (List.nil_subset _) (by simp)
  · next h => exact h

section

variable (H : PyHost)

/-- The hauliers of a list of authored ones, from the `idx`-th on: what each is called, and the id
it gets. -/
def namedIdsFrom : ℕ → List Raw → List String → List (String × String)
  | _, [], _ => []
  | idx, .dict entry :: rest, seen =>
    let rawId := Raw.field entry "id"
    let ordinal := idx + 1
    let name := pyStrip (H.strOf
      ((Raw.field entry "name").orElse (rawId.orElse (.str s!"Haulier {ordinal}"))))
    let called := H.strOrEmpty (rawId.orElse (.str name))
    let hid := freshHaulierId seen (slug '_' called s!"haulier_{idx}")
    (called, hid) :: namedIdsFrom (idx + 1) rest (seen ++ [hid])
  | idx, _ :: rest, seen => namedIdsFrom (idx + 1) rest seen

/-- The hauliers an author lists. -/
def namedIds (raw : Raw) : List (String × String) :=
  match raw with
  | .list entries => namedIdsFrom H 0 entries []
  | _ => []

theorem exists_namedIdsFrom (raw : Raw) :
    ∃ entries, namedIds H raw = namedIdsFrom H 0 entries [] := by
  cases raw with
  | list entries => exact ⟨entries, rfl⟩
  | _ => exact ⟨[], rfl⟩

/-- No slug is cut right after a separator, and no id grows beyond the length of a slug by the
suffix that tells it apart. -/
def IdsFit (raw : Raw) : Prop :=
  ∀ p ∈ namedIds H raw, ¬ CutAfterSeparator '_' p.1 ∧ p.2.length ≤ 64

variable {H}

variable {seen : List String}

theorem draftsFrom_ids {idx : ℕ} {entries : List Raw} {drafts : List HaulierDraft}
    (h : draftsFrom H idx entries seen = .ok drafts) :
    drafts.map HaulierDraft.id = (namedIdsFrom H idx entries seen).map Prod.snd := by
  induction entries generalizing idx seen drafts with
  | nil =>
    cases h
    rfl
  | cons entry rest ih =>
    cases entry with
    | dict entry =>
      obtain ⟨fleet, -, h⟩ := bind_eq_ok.mp h
      obtain ⟨order, -, h⟩ := bind_eq_ok.mp h
      obtain ⟨drafts', hdrafts, h⟩ := bind_eq_ok.mp h
      cases h
      exact congrArg (_ :: ·) (ih hdrafts)
    | null | bool | int | float | str | list => exact ih h

/-- Ids differ, also from those taken before. -/
theorem nodup_namedIdsFrom (idx : ℕ) (entries : List Raw) (seen : List String) :
    ((namedIdsFrom H idx entries seen).map Prod.snd).Nodup ∧
      ∀ id ∈ (namedIdsFrom H idx entries seen).map Prod.snd, id ∉ seen := by
  induction entries generalizing idx seen with
  | nil => simp [namedIdsFrom]
  | cons entry rest ih =>
    cases entry with
    | dict entry =>
      obtain ⟨hnodup, hnew⟩ := ih (idx + 1) (seen ++ [freshHaulierId seen _])
      refine ⟨List.nodup_cons.mpr ⟨fun h ↦ ?_, hnodup⟩, List.forall_mem_cons.mpr
        ⟨freshHaulierId_notMem _ _, fun id hid hs ↦ ?_⟩⟩
      · exact hnew _ h (by simp)
      · exact hnew id hid (List.mem_append_left _ hs)
    | null | bool | int | float | str | list => exact ih _ _

/-- **An id is its own slug** just when its haulier is called by a text whose slug is not cut after
a separator, and the id is no longer than a slug. -/
theorem mem_namedIdsFrom {idx : ℕ} {entries : List Raw} {p : String × String}
    (h : p ∈ namedIdsFrom H idx entries seen) :
    slug '_' p.2 "" = p.2 ↔ ¬ CutAfterSeparator '_' p.1 ∧ p.2.length ≤ 64 := by
  induction entries generalizing idx seen with
  | nil => simp [namedIdsFrom] at h
  | cons entry rest ih =>
    cases entry with
    | dict entry =>
      rcases List.mem_cons.mp h with rfl | h
      · rw [slug_eq_self_iff isSeparator_underscore,
          isTidy_freshHaulierId_iff (hasSlugChar_slug (fallback_good idx).1),
          isTidy_slug_iff (isTidy_fallback idx)]
      · exact ih h
    | null | bool | int | float | str | list => exact ih h

/-! ## Normalising again -/

/-- Ids that differ and are their own slugs are the ids of a list normalised once more. -/
theorem renormIdsFrom_eq_self {idx : ℕ} {ids : List String} (hread : ∀ id ∈ ids, HasSlugChar id)
    (hself : ∀ id ∈ ids, slug '_' id "" = id) (hnodup : ids.Nodup) (hnew : ∀ id ∈ ids, id ∉ seen) :
    renormIdsFrom idx ids seen = ids := by
  induction ids generalizing idx seen with
  | nil => rfl
  | cons id ids ih =>
    obtain ⟨hread', hreads⟩ := List.forall_mem_cons.mp hread
    obtain ⟨hself', hselfs⟩ := List.forall_mem_cons.mp hself
    obtain ⟨hnew', hnews⟩ := List.forall_mem_cons.mp hnew
    obtain ⟨hid, hnodup⟩ := List.nodup_cons.mp hnodup
    have hslug : slug '_' id s!"haulier_{idx}" = id := by
      rw [hread'.slug_eq isSeparator_underscore.slugChar,
        ← hread'.slug_eq isSeparator_underscore.slugChar "", hself']
    have hfresh : freshHaulierId seen id = id := if_neg hnew'
    have hrest : renormIdsFrom (idx + 1) ids (seen ++ [id]) = ids := by
      refine ih hreads hselfs hnodup fun x hx hs ↦ ?_
      rcases List.mem_append.mp hs with hs | hs
      · exact hnews x hx hs
      · exact hid (List.mem_singleton.mp hs ▸ hx)
    rw [renormIdsFrom, hslug, hfresh, hrest]

variable {hs : List Haulier}

/-- The ids of a normalised list are those given to its hauliers, unless nobody is listed. -/
theorem normalizeHauliers_ids {raw : Raw} (h : normalizeHauliers H raw = .ok hs) :
    hs = defaultHauliers ∧ namedIds H raw = [] ∨
      hs.map Haulier.id = (namedIds H raw).map Prod.snd := by
  unfold normalizeHauliers at h
  split at h
  · next entry rest =>
    obtain ⟨drafts, hdrafts, h⟩ := bind_eq_ok.mp h
    have hids := draftsFrom_ids hdrafts
    split at h
    · next hempty =>
      cases h
      rw [List.isEmpty_iff.mp hempty] at hids
      exact Or.inl ⟨rfl, List.map_eq_nil_iff.mp hids.symm⟩
    · obtain ⟨_, -, h⟩ := bind_eq_ok.mp h
      obtain ⟨_, -, h⟩ := bind_eq_ok.mp h
      cases h
      rw [List.map_map]
      exact Or.inr hids
  · next hlist =>
    cases h
    refine Or.inl ⟨rfl, ?_⟩
    cases raw with
    | list entries =>
      cases entries with
      | nil => rfl
      | cons entry rest => exact absurd rfl (hlist entry rest)
    | _ => rfl

theorem NormalHauliers.nodup_ids {raw : Raw} (h : normalizeHauliers H raw = .ok hs) :
    (hs.map Haulier.id).Nodup := by
  rcases normalizeHauliers_ids h with ⟨rfl, -⟩ | hids
  · exact List.nodup_singleton _
  · obtain ⟨entries, hentries⟩ := exists_namedIdsFrom H raw
    rw [hids, hentries]
    exact (nodup_namedIdsFrom _ _ _).1

/-- The ids of a normalised list are their own slugs just when they fit. -/
theorem idsFit_iff {raw : Raw} (h : normalizeHauliers H raw = .ok hs) :
    IdsFit H raw ↔ ∀ g ∈ hs, slug '_' g.id "" = g.id := by
  rcases normalizeHauliers_ids h with ⟨rfl, hnone⟩ | hids
  · rw [IdsFit, hnone]
    decide
  · have hmem : (∀ g ∈ hs, slug '_' g.id "" = g.id) ↔
        ∀ p ∈ namedIds H raw, slug '_' p.2 "" = p.2 := by
      rw [← List.forall_mem_map (P := fun id ↦ slug '_' id "" = id), hids, List.forall_mem_map]
    obtain ⟨entries, hentries⟩ := exists_namedIdsFrom H raw
    rw [hmem, IdsFit, hentries]
    exact forall₂_congr fun p hp ↦ (mem_namedIdsFrom hp).symm

theorem withIds_self (hs : List Haulier) : withIds hs (hs.map Haulier.id) = hs := by
  induction hs with
  | nil => rfl
  | cons h hs ih => exact congrArg (h :: ·) ih

/-- What a reader of haulier ids relies on: a list that was normalised is normalised to itself, and
an id, used as a cooperation member, names its haulier. -/
structure IdsStand (H : PyHost) (hs : List Haulier) : Prop where
  again : normalizeHauliers H (hauliersRaw hs) = .ok hs
  member : ∀ g ∈ hs, ∀ whr, cooperationMember H.toPyText (SortedSet.ofList (hs.map Haulier.id)) whr
    (.str g.id) = .ok g.id

/-- **Normalised hauliers stay as they are** just when their ids fit; and the slug of a slug is that
slug just when it was not cut after a separator. -/
theorem normalizeHauliers_again_iff (H : PyHost) :
    (∀ raw hs, normalizeHauliers H raw = .ok hs → (IdsStand H hs ↔ IdsFit H raw)) ∧
    ∀ x, haulierSlug H.toPyText (.str (haulierSlug H.toPyText (.str x) "haulier")) "haulier" =
      haulierSlug H.toPyText (.str x) "haulier" ↔ ¬ CutAfterSeparator '_' x := by
  refine ⟨fun raw hs h ↦ ?_, fun x ↦ ?_⟩
  · have hnormal := normalizeHauliers_normal H h
    have hslug : ∀ g ∈ hs, haulierSlug H.toPyText (.str g.id) "" = slug '_' g.id "" := by
      intro g hg
      rw [haulierSlug, PyText.strOrEmpty, if_pos (Raw.truthy_str.mpr (hnormal.id g hg).ne_empty)]
      rfl
    rw [idsFit_iff h]
    constructor
    · rintro ⟨-, hmember⟩ g hg
      have hg' := (cooperationMember_eq (hmember g hg "")).1
      rwa [namedHaulier, hslug g hg] at hg'
    · intro hself
      have hids : renormIds (hs.map Haulier.id) = hs.map Haulier.id :=
        renormIdsFrom_eq_self (by simpa using hnormal.id) (by simpa using hself)
          (NormalHauliers.nodup_ids h) (by simp)
      refine ⟨?_, fun g hg whr ↦ ?_⟩
      · rw [normalizeHauliers_toRaw H hnormal, renormalise, hids]
        exact congrArg Except.ok (withIds_self hs)
      · rw [cooperationMember, hslug g hg, hself g hg, if_pos]
        exact SortedSet.mem_ofList.mpr (List.mem_map_of_mem hg)
  · have hfallback : IsTidy '_' "haulier".toList := by
      have hchars : "haulier".toList.all isSlugChar = true := by decide
      exact isTidy_of_slugChar isSeparator_underscore (List.all_eq_true.mp hchars)
    have hread : HasSlugChar "haulier" := ⟨'h', by decide, by decide⟩
    have htext : ∀ y, haulierSlug H.toPyText (.str y) "haulier" = slug '_' y "haulier" := by
      intro y
      rw [haulierSlug, PyText.strOrEmpty]
      split
      · rfl
      · next hy => simp at hy; rw [hy]
    rw [htext x, htext]
    exact slug_slug_iff isSeparator_underscore hfallback hread (by decide)

end

/-! ### A name cut after a separator -/

/-- A company whose name has a separator just where ids are cut. -/
def longName : String := String.ofList (List.replicate 63 'a' ++ ['_', 'b'])

/-- The list of that company alone. -/
def longNamed : Raw := .list [.dict [("id", .str longName)]]

/-- The company as normalised: its id ends in a separator. -/
def longHaulier : Haulier := ⟨String.ofList (List.replicate 63 'a' ++ ['_']), longName, 100, 100⟩

/-- Three companies, two of one name, with different shares of the orders. -/
def northTwice : Raw := .list
  [.dict [("id", .str "North Freight"), ("order_share", .int 50)],
    .dict [("id", .str "north-freight"), ("order_share", .int 30)],
    .dict [("name", .str "Harbour Lines"), ("order_share", .int 20)]]

/-- The three as normalised: the name that is repeated carries a suffix. -/
def northHauliers : List Haulier :=
  [⟨"north_freight", "North Freight", 100 / 3, 50⟩,
    ⟨"north_freight_1", "north-freight", 100 / 3, 30⟩,
    ⟨"harbour_lines", "Harbour Lines", 100 / 3, 20⟩]

theorem normalizeHauliers_northTwice :
    normalizeHauliers asciiHost northTwice = .ok northHauliers := by
  decide +kernel

/-- A name that is repeated does no harm while its suffix fits. -/
theorem normalizeHauliers_again_iff_repeated : IdsStand asciiHost northHauliers ∧
    haulierSlug asciiHost.toPyText
        (.str (haulierSlug asciiHost.toPyText (.str " North -- Freight ") "haulier")) "haulier" =
      haulierSlug asciiHost.toPyText (.str " North -- Freight ") "haulier" := by
  have hfit : IdsFit asciiHost northTwice := by
    rw [IdsFit]
    decide +kernel
  obtain ⟨hlist, htext⟩ := normalizeHauliers_again_iff asciiHost
  exact ⟨(hlist northTwice northHauliers normalizeHauliers_northTwice).mpr hfit,
    (htext _).mpr (by decide +kernel)⟩

/-- The company gets another id when it is normalised again, and the slug of a slug is another. -/
theorem renamed_again :
    (normalizeHauliers asciiHost longNamed = .ok [longHaulier] ∧
      ¬ IdsStand asciiHost [longHaulier]) ∧
    haulierSlug asciiHost.toPyText
        (.str (haulierSlug asciiHost.toPyText (.str longName) "haulier")) "haulier" ≠
      haulierSlug asciiHost.toPyText (.str longName) "haulier" := by
  have hnormal : normalizeHauliers asciiHost longNamed = .ok [longHaulier] := by decide +kernel
  have hagain : normalizeHauliers asciiHost (hauliersRaw [longHaulier]) ≠ .ok [longHaulier] := by
    decide +kernel
  exact ⟨⟨hnormal, fun h ↦ hagain h.again⟩, by decide +kernel⟩

end OpenRide.Datagen
