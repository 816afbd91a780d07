import Mathlib.Data.List.Nodup
import Mathlib.Data.List.Perm.Subperm
import Mathlib.Tactic.Common

/-!
# Insertion-ordered dictionaries

A `Dict K V` is an association list in which no key occurs twice, in the order the keys were first
inserted.  That is the dictionary of the language the programs modelled here are written in:
overwriting a key keeps its place, a new key goes to the end, and iteration runs in that order.

The invariant "no key twice" is a field of the structure, so a lookup, an update and an iteration
can never disagree about what a key is bound to.  `get?_set_self`, `get?_set_ne`, `get?_erase_self`
and `get?_erase_ne` are the four equations everything else about a dictionary is read off;
`mem_entries_iff` translates between the lookup and the entries an iteration sees.
-/

set_option autoImplicit false

namespace Lib

/-- An association list without repeated keys, in insertion order. -/
structure Dict (K V : Type) where
  /-- The bindings, oldest key first. -/
  entries : List (K × V)
  /-- No key is bound twice. -/
  nodup : (entries.map Prod.fst).Nodup
deriving DecidableEq

instance stringPair_lawfulBEq : LawfulBEq (String × String) := inferInstance

namespace Dict

variable {K V : Type} [DecidableEq K]

/-! ## Association lists -/

/-- The value an association list binds `k` to. -/
def lookupIn (k : K) : List (K × V) → Option V
  | [] => none
  | (k', v) :: rest => if k' = k then some v else lookupIn k rest

/-- Bind `k` to `v`: in place if the key is there, at the end otherwise. -/
def setIn (k : K) (v : V) : List (K × V) → List (K × V)
  | [] => [(k, v)]
  | (k', v') :: rest => if k' = k then (k, v) :: rest else (k', v') :: setIn k v rest

attribute [local simp] lookupIn setIn

variable {l : List (K × V)} {k : K} {v : V}

omit [DecidableEq K] in
theorem fst_mem_of_mem (h : (k, v) ∈ l) : k ∈ l.map Prod.fst :=
  List.mem_map.mpr ⟨(k, v), h, rfl⟩

variable {x : K}

theorem mem_setIn_keys : x ∈ (setIn k v l).map Prod.fst ↔ x = k ∨ x ∈ l.map Prod.fst := by
  induction l with
  | nil => simp
  | cons p rest ih =>
    rw [setIn]
    split
    · next h => simp [h]
    · rw [List.map_cons, List.mem_cons, ih, List.map_cons, List.mem_cons]
      tauto

theorem setIn_nodup (h : (l.map Prod.fst).Nodup) : ((setIn k v l).map Prod.fst).Nodup := by
  induction l with
  | nil => simp
  | cons p rest ih =>
    obtain ⟨hp, hr⟩ := List.nodup_cons.mp h
    rw [setIn]
    split
    · next hk => exact List.nodup_cons.mpr ⟨hk ▸ hp, hr⟩
    · next hk =>
      refine List.nodup_cons.mpr ⟨fun hm ↦ ?_, ih hr⟩
      exact (mem_setIn_keys.mp hm).elim hk hp

theorem lookupIn_eq_none : lookupIn k l = none ↔ k ∉ l.map Prod.fst := by
  induction l with
  | nil => simp
  | cons p rest ih =>
    rw [lookupIn]
    split
    · next h => simp [h]
    · next h =>
      rw [ih, List.map_cons, List.mem_cons]
      exact ⟨fun hr hc ↦ hc.elim (fun e ↦ h e.symm) hr, fun hc hr ↦ hc (Or.inr hr)⟩

theorem lookupIn_eq_some (hn : (l.map Prod.fst).Nodup) : lookupIn k l = some v ↔ (k, v) ∈ l := by
  induction l with
  | nil => simp
  | cons p rest ih =>
    obtain ⟨hp, hr⟩ := List.nodup_cons.mp hn
    obtain ⟨k', v'⟩ := p
    rw [lookupIn]
    split
    · next h =>
      subst h
      rw [List.mem_cons, Option.some_inj]
      refine ⟨fun e ↦ Or.inl (by rw [e]), fun hc ↦ hc.elim (fun e ↦ by simp_all) fun hm ↦ ?_⟩
      exact absurd (fst_mem_of_mem hm) hp
    · next h =>
      rw [ih hr, List.mem_cons]
      exact ⟨Or.inr, fun hc ↦ hc.elim (fun e ↦ absurd (Prod.mk.inj e).1.symm h) id⟩

theorem mem_of_lookupIn (h : lookupIn x l = some v) : (x, v) ∈ l := by
  induction l with
  | nil => simp at h
  | cons p l ih =>
    obtain ⟨y, w⟩ := p
    rw [lookupIn] at h
    split at h
    next he =>
      cases h
      simp [he]
    next => exact List.mem_cons_of_mem _ (ih h)

theorem lookupIn_setIn : lookupIn x (setIn k v l) = if x = k then some v else lookupIn x l := by
  induction l with
  | nil => simp [eq_comm]
  | cons p rest ih =>
    obtain ⟨k', v'⟩ := p
    rw [setIn]
    by_cases hk : k' = k
    · subst hk
      by_cases hx : x = k'
      · simp [hx]
      · simp [hx, Ne.symm hx]
    · rw [if_neg hk, lookupIn, lookupIn, ih]
      by_cases hx : k' = x
      · subst hx; simp [hk]
      · simp [hx]

theorem setIn_setIn (k : K) (v w : V) (l : List (K × V)) :
    setIn k w (setIn k v l) = setIn k w l := by
  induction l with
  | nil => simp
  | cons p rest ih =>
    rw [setIn]
    split
    · next hk => rw [setIn, setIn, if_pos rfl, if_pos hk]
    · next hk => rw [setIn, setIn, if_neg hk, if_neg hk, ih]

theorem setIn_of_lookupIn (h : lookupIn k l = some v) : setIn k v l = l := by
  induction l with
  | nil => cases h
  | cons p rest ih =>
    rw [lookupIn] at h
    rw [setIn]
    split at h
    · next hk =>
      cases h
      rw [if_pos hk, ← hk]
    · next hk => rw [if_neg hk, ih h]

/-! ## Dictionaries -/

/-- The empty dictionary. -/
def empty : Dict K V := ⟨[], List.nodup_nil⟩

/-- The value bound to `k`, if any. -/
def get? (d : Dict K V) (k : K) : Option V := lookupIn k d.entries

/-- Is `k` a key? -/
def contains (d : Dict K V) (k : K) : Bool := (d.get? k).isSome

/-- `d[k] = v`. -/
def set (d : Dict K V) (k : K) (v : V) : Dict K V := ⟨setIn k v d.entries, setIn_nodup d.nodup⟩

/-- `d.pop(k, None)`, without the returned value. -/
def erase (d : Dict K V) (k : K) : Dict K V :=
  ⟨d.entries.filter fun p ↦ p.1 ≠ k, d.nodup.sublist (List.filter_sublist.map _)⟩

/-- The keys, in insertion order. -/
def keys (d : Dict K V) : List K := d.entries.map Prod.fst

/-- The values, in insertion order. -/
def values (d : Dict K V) : List V := d.entries.map Prod.snd

/-- The number of keys. -/
def size (d : Dict K V) : ℕ := d.entries.length

/-- Insert the pairs of a list one after the other; a later pair overwrites an earlier one. -/
def update (d : Dict K V) (l : List (K × V)) : Dict K V := l.foldl (fun d p ↦ d.set p.1 p.2) d

/-- The dictionary a list of pairs describes, a later pair overwriting an earlier one. -/
def ofList (l : List (K × V)) : Dict K V := empty.update l

@[simp] theorem get?_empty (k : K) : (empty : Dict K V).get? k = none := rfl

theorem get?_set (d : Dict K V) (k x : K) (v : V) :
    (d.set k v).get? x = if x = k then some v else d.get? x :=
  lookupIn_setIn

@[simp] theorem get?_set_self (d : Dict K V) (k : K) (v : V) : (d.set k v).get? k = some v := by
  rw [get?_set, if_pos rfl]

theorem get?_set_ne (d : Dict K V) (v : V) (h : x ≠ k) : (d.set k v).get? x = d.get? x := by
  rw [get?_set, if_neg h]

theorem set_set (d : Dict K V) (k : K) (v w : V) : (d.set k v).set k w = d.set k w := by
  simp only [set, setIn_setIn]

variable {d : Dict K V}

theorem set_of_get? (h : d.get? k = some v) : d.set k v = d := by
  obtain ⟨entries, nodup⟩ := d
  simp only [set]
  congr 1
  exact setIn_of_lookupIn h

theorem mem_entries_iff : (k, v) ∈ d.entries ↔ d.get? k = some v :=
  (lookupIn_eq_some d.nodup).symm

theorem get?_eq_none_iff : d.get? k = none ↔ k ∉ d.keys :=
  lookupIn_eq_none

theorem mem_keys_iff : k ∈ d.keys ↔ ∃ v, d.get? k = some v := by
  rw [← Option.ne_none_iff_exists', ne_eq, get?_eq_none_iff, not_not]

variable {e : Dict K V}

theorem perm_of_get? (h : ∀ k, d.get? k = e.get? k) : d.entries.Perm e.entries :=
  (List.perm_ext_iff_of_nodup (List.Nodup.of_map _ d.nodup) (List.Nodup.of_map _ e.nodup)).mpr
    fun p ↦ mem_entries_iff.trans ((Eq.congr_left (h p.1)).trans mem_entries_iff.symm)

theorem mem_values_iff : v ∈ d.values ↔ ∃ k, d.get? k = some v := by
  rw [values, List.mem_map]
  exact ⟨fun ⟨p, hp, e⟩ ↦ ⟨p.1, mem_entries_iff.mp (e ▸ hp)⟩,
    fun ⟨k, h⟩ ↦ ⟨(k, v), mem_entries_iff.mpr h, rfl⟩⟩

theorem contains_iff : d.contains k = true ↔ ∃ v, d.get? k = some v := by
  rw [contains, Option.isSome_iff_exists]

theorem get?_erase (d : Dict K V) (k x : K) :
    (d.erase k).get? x = if x = k then none else d.get? x := by
  split
  · next h =>
    subst h
    refine get?_eq_none_iff.mpr fun hm ↦ ?_
    obtain ⟨p, hp, he⟩ := List.mem_map.mp hm
    exact (of_decide_eq_true (List.mem_filter.mp hp).2) he
  · next h =>
    refine Option.ext fun v ↦ ?_
    rw [← mem_entries_iff, ← mem_entries_iff]
    simp [erase, h]

@[simp] theorem get?_erase_self (d : Dict K V) (k : K) : (d.erase k).get? k = none := by
  rw [get?_erase, if_pos rfl]

theorem get?_erase_ne (d : Dict K V) (h : x ≠ k) : (d.erase k).get? x = d.get? x := by
  rw [get?_erase, if_neg h]

/-- An update by pairs whose keys are new to each other reads like the pairs first, the old
dictionary second. -/
theorem get?_update_of_notMem (h : x ∉ l.map Prod.fst) : (d.update l).get? x = d.get? x := by
  induction l generalizing d with
  | nil => rfl
  | cons p rest ih =>
    rw [List.map_cons, List.mem_cons, not_or] at h
    exact (ih h.2).trans (get?_set_ne d p.2 h.1)

theorem get?_update_of_mem (hn : (l.map Prod.fst).Nodup) (h : (k, v) ∈ l) :
    (d.update l).get? k = some v := by
  induction l generalizing d with
  | nil => simp at h
  | cons p rest ih =>
    obtain ⟨hp, hr⟩ := List.nodup_cons.mp hn
    rcases List.mem_cons.mp h with rfl | h
    · exact (get?_update_of_notMem hp).trans (get?_set_self d k v)
    · exact ih hr h

theorem get?_ofList (hn : (l.map Prod.fst).Nodup) : (ofList l).get? k = some v ↔ (k, v) ∈ l := by
  refine ⟨fun h ↦ ?_, get?_update_of_mem hn⟩
  by_cases hk : k ∈ l.map Prod.fst
  · obtain ⟨⟨k', v'⟩, hp, rfl⟩ := List.mem_map.mp hk
    have hv : some v = some v' := h.symm.trans (get?_update_of_mem hn hp)
    rw [Option.some_inj.mp hv]
    exact hp
  · rw [ofList, get?_update_of_notMem hk] at h
    exact absurd h (by simp)

theorem mem_keys_update : k ∈ (d.update l).keys ↔ k ∈ d.keys ∨ k ∈ l.map Prod.fst := by
  induction l generalizing d with
  | nil => simp [update]
  | cons p rest ih =>
    refine (ih (d := d.set p.1 p.2)).trans ?_
    rw [List.map_cons, List.mem_cons, keys, set, mem_setIn_keys, keys]
    tauto

theorem mem_of_get?_update (h : (d.update l).get? k = some v) : (k, v) ∈ l ∨ d.get? k = some v := by
  induction l generalizing d with
  | nil => exact Or.inr h
  | cons p rest ih =>
    rcases ih (d := d.set p.1 p.2) h with hm | hd
    · exact Or.inl (List.mem_cons_of_mem _ hm)
    · rw [get?_set] at hd
      split at hd
      · next hk =>
        cases hd
        exact Or.inl (hk ▸ List.mem_cons_self)
      · exact Or.inr hd

theorem mem_of_get?_ofList (h : (ofList l).get? k = some v) : (k, v) ∈ l :=
  (mem_of_get?_update h).resolve_right fun h ↦ nomatch h

/-- A list that binds no key to two values is the dictionary it describes, repetitions or not. -/
theorem get?_ofList_iff (hl : ∀ k v w, (k, v) ∈ l → (k, w) ∈ l → v = w) :
    (ofList l).get? k = some v ↔ (k, v) ∈ l := by
  refine ⟨mem_of_get?_ofList, fun h ↦ ?_⟩
  have hk : k ∈ (ofList l).keys := mem_keys_update.mpr (Or.inr (fst_mem_of_mem h))
  obtain ⟨w, hw⟩ := mem_keys_iff.mp hk
  rw [hw, hl k v w h (mem_of_get?_ofList hw)]

/-! ## Defaults, and updates under a condition -/

/-- Bind `k` to `v` unless it is bound: `d.setdefault(k, v)`. -/
def setDefault (d : Dict K V) (k : K) (v : V) : Dict K V :=
  match d.get? k with
  | none => d.set k v
  | some _ => d

theorem get?_setDefault (d : Dict K V) (k x : K) (v : V) :
    (d.setDefault k v).get? x = if x = k then some ((d.get? k).getD v) else d.get? x := by
  rw [setDefault]
  split
  · next h => rw [get?_set, h, Option.getD_none]
  · next w h =>
    split
    · next hx => rw [hx, h, Option.getD_some]
    · rfl

/-- Set the defaults of a list one after the other. -/
def setDefaults (d : Dict K V) (l : List (K × V)) : Dict K V :=
  l.foldl (fun d p ↦ d.setDefault p.1 p.2) d

theorem get?_setDefaults_of_notMem (h : x ∉ l.map Prod.fst) :
    (d.setDefaults l).get? x = d.get? x := by
  induction l generalizing d with
  | nil => rfl
  | cons p rest ih =>
    rw [List.map_cons, List.mem_cons, not_or] at h
    exact (ih h.2).trans (by rw [get?_setDefault, if_neg h.1])

theorem get?_setDefaults_of_mem (hn : (l.map Prod.fst).Nodup) (h : (k, v) ∈ l) :
    (d.setDefaults l).get? k = some ((d.get? k).getD v) := by
  induction l generalizing d with
  | nil => simp at h
  | cons p rest ih =>
    obtain ⟨hp, hr⟩ := List.nodup_cons.mp hn
    rcases List.mem_cons.mp h with rfl | h
    · exact (get?_setDefaults_of_notMem hp).trans (by rw [get?_setDefault, if_pos rfl])
    · have hne : k ≠ p.1 := fun he ↦ hp (he ▸ fst_mem_of_mem h)
      refine (ih hr h).trans ?_
      rw [get?_setDefault, if_neg hne]

/-- The bindings that satisfy a test, with new values. -/
def selected (d : Dict K V) (p : K → V → Bool) (f : K → V → V) : List (K × V) :=
  (d.entries.filter fun e ↦ p e.1 e.2).map fun e ↦ (e.1, f e.1 e.2)

omit [DecidableEq K] in
theorem selected_nodup (d : Dict K V) (p : K → V → Bool) (f : K → V → V) :
    ((d.selected p f).map Prod.fst).Nodup := by
  rw [selected, List.map_map]
  exact d.nodup.sublist (List.filter_sublist.map _)

variable {p : K → V → Bool}

theorem mem_selected {f : K → V → V} (hv : d.get? k = some v) (hp : p k v = true) :
    (k, f k v) ∈ d.selected p f :=
  List.mem_map.mpr ⟨(k, v), List.mem_filter.mpr ⟨mem_entries_iff.mpr hv, hp⟩, rfl⟩

theorem notMem_selected {f : K → V → V} (h : ∀ v, d.get? k = some v → p k v = false) :
    k ∉ (d.selected p f).map Prod.fst := by
  intro hm
  obtain ⟨e, he, rfl⟩ := List.mem_map.mp hm
  obtain ⟨⟨k, v⟩, hkv, rfl⟩ := List.mem_map.mp he
  obtain ⟨hmem, hp⟩ := List.mem_filter.mp hkv
  exact absurd (h v (mem_entries_iff.mp hmem)) (by rw [hp]; exact Bool.noConfusion)

/-- **Updating the selected bindings** changes exactly those. -/
theorem get?_update_selected (d : Dict K V) (p : K → V → Bool) (f : K → V → V) (k : K) :
    (d.update (d.selected p f)).get? k = (d.get? k).map fun v ↦ if p k v then f k v else v := by
  cases hv : d.get? k with
  | none =>
    rw [get?_update_of_notMem (notMem_selected fun v h ↦ by rw [hv] at h; cases h), hv]
    rfl
  | some v =>
    rw [Option.map_some]
    cases hp : p k v with
    | true => exact get?_update_of_mem (selected_nodup d p f) (mem_selected hv hp)
    | false =>
      refine (get?_update_of_notMem (notMem_selected fun w h ↦ ?_)).trans hv
      rw [hv, Option.some_inj] at h
      exact h ▸ hp

theorem lookupIn_filter_key (p : K → Bool) (k : K) (l : List (K × V)) :
    lookupIn k (l.filter fun e ↦ p e.1) = if p k then lookupIn k l else none := by
  induction l with
  | nil => rw [List.filter_nil, lookupIn, ite_self]
  | cons e l ih =>
    rw [List.filter_cons, lookupIn]
    by_cases hk : e.1 = k
    · cases hp : p e.1 with
      | true => rw [if_pos rfl, lookupIn, if_pos hk, if_pos hk, ← hk, hp, if_pos rfl]
      | false =>
        rw [hk] at hp
        rw [if_neg Bool.false_ne_true, ih, hp, if_neg Bool.false_ne_true, if_neg Bool.false_ne_true]
    · rw [if_neg hk]
      split
      · rw [lookupIn, if_neg hk, ih]
      · exact ih

theorem lookupIn_map_snd {W : Type} (f : V → W) (k : K) (l : List (K × V)) :
    lookupIn k (l.map fun e ↦ (e.1, f e.2)) = (lookupIn k l).map f := by
  induction l with
  | nil => rfl
  | cons e l ih =>
    rw [List.map_cons, lookupIn, lookupIn, ih]
    split
    · rfl
    · rfl

/-- The bindings that satisfy a test. -/
def filter (d : Dict K V) (p : K → V → Bool) : Dict K V :=
  ⟨d.entries.filter fun e ↦ p e.1 e.2, d.nodup.sublist (List.filter_sublist.map _)⟩

theorem get?_filter : (d.filter p).get? k = some v ↔ d.get? k = some v ∧ p k v = true := by
  rw [← mem_entries_iff, ← mem_entries_iff, filter, List.mem_filter]

/-- Every value replaced by its image. -/
def mapValues {W : Type} (d : Dict K V) (f : V → W) : Dict K W :=
  ⟨d.entries.map fun e ↦ (e.1, f e.2), by rw [List.map_map]; exact d.nodup⟩

theorem get?_mapValues {W : Type} (d : Dict K V) (f : V → W) (k : K) :
    (d.mapValues f).get? k = (d.get? k).map f :=
  lookupIn_map_snd f k d.entries

/-- Forget the oldest bindings. -/
def dropOldest (d : Dict K V) (n : ℕ) : Dict K V :=
  ⟨d.entries.drop n, d.nodup.sublist ((List.drop_sublist _ _).map _)⟩

theorem get?_of_get?_dropOldest {n : ℕ} (h : (d.dropOldest n).get? k = some v) :
    d.get? k = some v :=
  mem_entries_iff.mp ((List.drop_sublist _ _).subset (mem_entries_iff.mpr h))

theorem entries_set (v : V) (h : d.get? k = none) :
    (d.set k v).entries = d.entries ++ [(k, v)] := by
  have hall : ∀ l : List (K × V), k ∉ l.map Prod.fst → setIn k v l = l ++ [(k, v)] := by
    intro l
    induction l with
    | nil => exact fun _ ↦ rfl
    | cons p rest ih =>
      intro hl
      rw [List.map_cons, List.mem_cons, not_or] at hl
      rw [setIn, if_neg (Ne.symm hl.1), ih hl.2, List.cons_append]
  exact hall d.entries (get?_eq_none_iff.mp h)

/-- The first key stays the first. -/
theorem head?_keys_set (h : d.keys.head? = some k) (x : K) (v : V) :
    (d.set x v).keys.head? = some k := by
  obtain ⟨entries, hnodup⟩ := d
  cases entries with
  | nil => cases h
  | cons p rest =>
    obtain rfl : p.1 = k := Option.some_inj.mp h
    show ((setIn x v (p :: rest)).map Prod.fst).head? = some p.1
    rw [setIn]
    split
    · next hx => exact congrArg some hx.symm
    · rfl

/-- What was inserted last is forgotten last. -/
theorem get?_dropOldest_set {n : ℕ} (hk : d.get? k = none) (hn : n ≤ d.size) :
    ((d.set k v).dropOldest n).get? k = some v := by
  have hentries : ((d.set k v).dropOldest n).entries = d.entries.drop n ++ [(k, v)] := by
    rw [← List.drop_append_of_le_length hn, ← entries_set v hk]
    rfl
  exact mem_entries_iff.mp (hentries ▸ List.mem_append_right _ (List.mem_singleton_self _))

theorem size_set (d : Dict K V) (k : K) (v : V) :
    (d.set k v).size = if d.contains k then d.size else d.size + 1 := by
  have hall : ∀ l : List (K × V), (setIn k v l).length =
      if (lookupIn k l).isSome then l.length else l.length + 1 := by
    intro l
    induction l with
    | nil => rfl
    | cons p l ih =>
      rw [setIn, lookupIn]
      split
      · simp
      · simp only [List.length_cons, ih]
        split <;> rfl
  exact hall d.entries

/-- `move_to_end`. -/
def moveToEnd (d : Dict K V) (k : K) : Dict K V :=
  match d.get? k with
  | none => d
  | some v => (d.erase k).set k v

theorem get?_moveToEnd (d : Dict K V) (k x : K) : (d.moveToEnd k).get? x = d.get? x := by
  rw [moveToEnd]
  split
  · rfl
  · next v hv =>
    rw [get?_set, get?_erase]
    split
    · next h => rw [h, hv]
    · rfl

theorem size_moveToEnd (d : Dict K V) (k : K) : (d.moveToEnd k).size = d.size :=
  (perm_of_get? (get?_moveToEnd d k)).length_eq

/-- **An update by a dictionary** reads like that dictionary first. -/
theorem get?_update_entries (d e : Dict K V) (k : K) :
    (d.update e.entries).get? k = (e.get? k <|> d.get? k) := by
  cases he : e.get? k with
  | none => exact get?_update_of_notMem (get?_eq_none_iff.mp he)
  | some v => exact get?_update_of_mem e.nodup (mem_entries_iff.mpr he)

/-- What an update makes of a key depends on the dictionary at this key only. -/
theorem get?_update_congr (h : d.get? k = e.get? k) (l : List (K × V)) :
    (d.update l).get? k = (e.update l).get? k := by
  induction l generalizing d e with
  | nil => exact h
  | cons p l ih =>
    refine ih ?_
    rw [get?_set, get?_set, h]

/-- **The bindings of one part replaced**: those that fail the test are dropped, and what is added
fails it. -/
theorem get?_filter_update {p : K → Bool} (hl : ∀ e ∈ l, p e.1 = false) (k : K) :
    ((d.filter fun k _ ↦ p k).update l).get? k =
      if p k = true then d.get? k else (ofList l).get? k := by
  split
  · next hp =>
    have hnot : k ∉ l.map Prod.fst := by
      intro hk
      obtain ⟨e, he, rfl⟩ := List.mem_map.mp hk
      rw [hl e he] at hp
      cases hp
    rw [get?_update_of_notMem hnot]
    refine Option.ext fun v ↦ ?_
    rw [get?_filter]
    exact and_iff_left hp
  · next hp =>
    refine get?_update_congr ?_ l
    rw [get?_empty]
    refine Option.eq_none_iff_forall_ne_some.mpr fun v hv ↦ ?_
    exact hp (get?_filter.mp hv).2

theorem size_erase_lt (h : d.get? k = some v) : (d.erase k).size < d.size := by
  refine List.length_filter_lt_length_iff_exists.mpr ⟨(k, v), mem_entries_iff.mpr h, ?_⟩
  simp

/-- Two dictionaries of the same size have the same keys as soon as one has those of the other. -/
theorem get?_ne_none_of_size_le {W : Type} {e : Dict K W}
    (hsub : ∀ k, e.get? k ≠ none → d.get? k ≠ none) (hsize : d.size ≤ e.size) (hk : d.get? k ≠ none)
    : e.get? k ≠ none := by
  have hkeys : e.keys ⊆ d.keys := by
    intro x hx
    obtain ⟨w, hw⟩ := mem_keys_iff.mp hx
    exact not_not.mp fun hn ↦ hsub x (hw ▸ Option.some_ne_none w) (get?_eq_none_iff.mpr hn)
  have hlength : d.keys.length ≤ e.keys.length := by
    rw [keys, keys, List.length_map, List.length_map]
    exact hsize
  have hperm : e.keys.Perm d.keys :=
    (List.subperm_of_subset e.nodup hkeys).perm_of_length_le hlength
  rw [ne_eq, get?_eq_none_iff, not_not, hperm.mem_iff]
  exact not_not.mp fun hn ↦ hk (get?_eq_none_iff.mpr hn)

/-! ## Grouping -/

/-- Append `v` to the list under `k`: `d.setdefault(k, []).append(v)`. -/
def append (d : Dict K (List V)) (k : K) (v : V) : Dict K (List V) :=
  d.set k ((d.get? k).getD [] ++ [v])

/-- The elements of a list filed under their key, those without a key left out. -/
def groupBy (key : V → Option K) (l : List V) : Dict K (List V) :=
  l.foldl (fun d v ↦ match key v with | some k => d.append k v | none => d) empty

theorem getD_append (d : Dict K (List V)) (k x : K) (v : V) :
    ((d.append k v).get? x).getD [] = (d.get? x).getD [] ++ if x = k then [v] else [] := by
  rw [append, get?_set]
  split
  · next h => rw [h]; rfl
  · rw [List.append_nil]

theorem getD_foldl_append (key : V → Option K) (l : List V) (d : Dict K (List V)) (x : K) :
    ((l.foldl (fun d v ↦ match key v with | some k => d.append k v | none => d) d).get? x).getD [] =
      (d.get? x).getD [] ++ l.filter fun v ↦ key v = some x := by
  induction l generalizing d with
  | nil => simp
  | cons v l ih =>
    rw [List.foldl_cons, ih]
    cases hk : key v with
    | none => simp [hk]
    | some k =>
      rw [getD_append, List.append_assoc]
      by_cases hx : x = k
      · simp [hk, hx]
      · simp [hk, hx, Ne.symm hx]

/-- **A group is the elements with that key, in the order of the list.** -/
theorem getD_groupBy (key : V → Option K) (l : List V) (x : K) :
    ((groupBy key l).get? x).getD [] = l.filter fun v ↦ key v = some x := by
  rw [groupBy, getD_foldl_append]
  rfl

variable {key : V → Option K}

theorem mem_of_get?_groupBy {l g : List V} (h : (groupBy key l).get? x = some g) (hv : v ∈ g) :
    v ∈ l ∧ key v = some x := by
  have hg := getD_groupBy key l x
  rw [h, Option.getD_some] at hg
  rw [hg, List.mem_filter, decide_eq_true_eq] at hv
  exact hv

theorem flatten_setIn_append (k : K) (v : V) (l : List (K × List V)) :
    ((setIn k ((lookupIn k l).getD [] ++ [v]) l).map Prod.snd).flatten.Perm
      (v :: (l.map Prod.snd).flatten) := by
  induction l with
  | nil => simp [lookupIn]
  | cons p l ih =>
    obtain ⟨k', g⟩ := p
    rw [setIn, lookupIn]
    split
    · simp only [Option.getD_some, List.map_cons, List.flatten_cons, List.append_assoc]
      exact List.perm_middle
    · simp only [List.map_cons, List.flatten_cons]
      exact (ih.append_left g).trans List.perm_middle

theorem flatten_values_append (d : Dict K (List V)) (k : K) (v : V) :
    (d.append k v).values.flatten.Perm (v :: d.values.flatten) :=
  flatten_setIn_append k v d.entries

/-- **Grouping loses and repeats nothing**: the groups together are the elements with a key. -/
theorem flatten_values_groupBy (key : V → Option K) (l : List V) :
    (groupBy key l).values.flatten.Perm (l.filter fun v ↦ (key v).isSome) := by
  suffices h : ∀ d : Dict K (List V),
      (l.foldl (fun d v ↦ match key v with | some k => d.append k v | none => d)
        d).values.flatten.Perm
        (d.values.flatten ++ l.filter fun v ↦ (key v).isSome) by
    exact h empty
  induction l with
  | nil => simp
  | cons v l ih =>
    intro d
    rw [List.foldl_cons]
    cases hk : key v with
    | none => simpa [hk] using ih d
    | some k =>
      refine (ih (d.append k v)).trans ?_
      simp only [hk, Option.isSome_some, List.filter_cons_of_pos]
      exact ((flatten_values_append d k v).append_right _).trans List.perm_middle.symm

theorem flatMap_keys {β : Type} (d : Dict K (List V)) (f : K → List V → List β) :
    (d.keys.flatMap fun k ↦ f k ((d.get? k).getD [])) = d.entries.flatMap fun g ↦ f g.1 g.2 := by
  suffices h : ∀ l : List (K × List V), (l.map Prod.fst).Nodup →
      ((l.map Prod.fst).flatMap fun k ↦ f k ((lookupIn k l).getD [])) =
        l.flatMap fun g ↦ f g.1 g.2 by
    exact h d.entries d.nodup
  intro l hl
  induction l with
  | nil => rfl
  | cons p l ih =>
    obtain ⟨k, g⟩ := p
    obtain ⟨hk, hl⟩ := List.nodup_cons.mp hl
    rw [List.map_cons, List.flatMap_cons, List.flatMap_cons, lookupIn, if_pos rfl,
      Option.getD_some, ← ih hl]
    refine congrArg (f k g ++ ·) (List.flatMap_congr fun k' hk' ↦ ?_)
    rw [lookupIn, if_neg fun h : k = k' ↦ hk (h ▸ hk')]

/-- The groups, read in any order of their keys, are the elements with a key. -/
theorem flatMap_keys_groupBy (key : V → Option K) (l : List V) {ks : List K}
    (hks : ks.Perm (groupBy key l).keys) :
    (ks.flatMap fun k ↦ ((groupBy key l).get? k).getD []).Perm
      (l.filter fun v ↦ (key v).isSome) := by
  refine (hks.flatMap_right _).trans ?_
  rw [flatMap_keys (groupBy key l) fun _ g ↦ g]
  exact flatten_values_groupBy key l

/-- **Working group by group is working element by element**, up to the order. -/
theorem flatMap_entries_groupBy {β : Type} (key : V → Option K) (l : List V)
    {f : K → V → List β} {f' : V → List β}
    (hf : ∀ k, ∀ v ∈ l, key v = some k → f k v = f' v) :
    ((groupBy key l).entries.flatMap fun g ↦ g.2.flatMap (f g.1)).Perm
      ((l.filter fun v ↦ (key v).isSome).flatMap f') := by
  have hgroup : ((groupBy key l).entries.flatMap fun g ↦ g.2.flatMap (f g.1)) =
      (groupBy key l).values.flatten.flatMap f' := by
    rw [values, ← List.flatMap_def, List.flatMap_assoc]
    refine List.flatMap_congr fun g hg ↦ List.flatMap_congr fun v hv ↦ ?_
    obtain ⟨hvl, hk⟩ := mem_of_get?_groupBy (mem_entries_iff.mp hg) hv
    exact hf g.1 v hvl hk
  exact hgroup ▸ (flatten_values_groupBy key l).flatMap_right f'

theorem ne_nil_of_get?_groupBy {l g : List V} (h : (groupBy key l).get? x = some g) : g ≠ [] := by
  suffices hall : ∀ d : Dict K (List V), (∀ g, d.get? x = some g → g ≠ []) → ∀ g,
      (l.foldl (fun d v ↦ match key v with | some k => d.append k v | none => d) d).get? x =
        some g →
        g ≠ [] by
    exact hall empty (by simp) g h
  clear h
  induction l with
  | nil => exact fun d hd ↦ hd
  | cons v l ih =>
    intro d hd
    rw [List.foldl_cons]
    refine ih _ fun g hg ↦ ?_
    cases hk : key v with
    | none => exact hd g (by simpa [hk] using hg)
    | some k =>
      rw [hk] at hg
      simp only [append, get?_set] at hg
      split at hg
      · rw [← Option.some_inj.mp hg]
        simp
      · exact hd g hg

theorem mem_keys_groupBy {l : List V} : k ∈ (groupBy key l).keys ↔ ∃ v ∈ l, key v = some k := by
  rw [mem_keys_iff]
  constructor
  · rintro ⟨g, hg⟩
    obtain ⟨v, hv⟩ := List.exists_mem_of_ne_nil g (ne_nil_of_get?_groupBy hg)
    exact ⟨v, mem_of_get?_groupBy hg hv⟩
  · rintro ⟨v, hv, hk⟩
    have hmem : v ∈ ((groupBy key l).get? k).getD [] := by
      rw [getD_groupBy, List.mem_filter]
      exact ⟨hv, decide_eq_true hk⟩
    cases hg : (groupBy key l).get? k with
    | none =>
      rw [hg] at hmem
      exact absurd hmem List.not_mem_nil
    | some g => exact ⟨g, rfl⟩

/-- What holds of all groups, element by element, holds of all elements that have a key. -/
theorem forall_groupBy {l : List V} {C : K → V → Prop} :
    (∀ g ∈ (groupBy key l).entries, ∀ v ∈ g.2, C g.1 v) ↔ ∀ v ∈ l, ∀ k, key v = some k → C k v := by
  constructor
  · intro h v hv k hk
    obtain ⟨g, hg⟩ := mem_keys_iff.mp (mem_keys_groupBy.mpr ⟨v, hv, hk⟩)
    have hmem := getD_groupBy key l k
    rw [hg, Option.getD_some] at hmem
    refine h (k, g) (mem_entries_iff.mpr hg) v ?_
    rw [hmem]
    exact List.mem_filter.mpr ⟨hv, decide_eq_true hk⟩
  · intro h g hg v hv
    obtain ⟨hvl, hk⟩ := mem_of_get?_groupBy (mem_entries_iff.mp hg) hv
    exact h v hvl g.1 hk

/-! ## Updating twice -/

theorem ext_of_keys (hkeys : d.keys = e.keys) (h : ∀ k, d.get? k = e.get? k) : d = e := by
  have hentries : ∀ f : Dict K V, f.entries = f.keys.filterMap fun k ↦ (f.get? k).map (k, ·) := by
    intro f
    calc f.entries = f.entries.filterMap some := List.filterMap_some.symm
      _ = f.entries.filterMap fun p ↦ (f.get? p.1).map (p.1, ·) := by
        refine List.filterMap_congr fun p hp ↦ ?_
        rw [mem_entries_iff.mp hp]
        rfl
      _ = f.keys.filterMap fun k ↦ (f.get? k).map (k, ·) := by
        rw [keys, List.filterMap_map]
        rfl
  have heq : d.entries = e.entries := by
    rw [hentries d, hentries e, hkeys]
    exact List.filterMap_congr fun k _ ↦ by rw [h k]
  obtain ⟨ds, hd⟩ := d
  obtain ⟨es, he⟩ := e
  subst heq
  rfl

theorem keys_set_of_mem (v : V) (h : k ∈ d.keys) : (d.set k v).keys = d.keys := by
  have hall : ∀ l : List (K × V), k ∈ l.map Prod.fst →
      (setIn k v l).map Prod.fst = l.map Prod.fst := by
    intro l
    induction l with
    | nil => exact nofun
    | cons p rest ih =>
      intro hl
      rw [setIn]
      split
      · next hk => rw [List.map_cons, List.map_cons, ← hk]
      · next hk =>
        rw [List.map_cons, List.mem_cons] at hl
        rw [List.map_cons, List.map_cons, ih (hl.resolve_left (Ne.symm hk))]
  exact hall d.entries h

theorem keys_set_of_notMem (v : V) (h : k ∉ d.keys) : (d.set k v).keys = d.keys ++ [k] := by
  rw [keys, entries_set v (get?_eq_none_iff.mpr h), List.map_append]
  rfl

/-- An update keeps the keys, in their order, and appends the new ones. -/
theorem keys_update (hn : (l.map Prod.fst).Nodup) :
    (d.update l).keys = d.keys ++ (l.map Prod.fst).filter fun k ↦ k ∉ d.keys := by
  induction l generalizing d with
  | nil => exact (List.append_nil _).symm
  | cons p rest ih =>
    obtain ⟨hp, hr⟩ := List.nodup_cons.mp hn
    refine (ih (d := d.set p.1 p.2) hr).trans ?_
    by_cases hk : p.1 ∈ d.keys
    · rw [keys_set_of_mem p.2 hk, List.map_cons,
        List.filter_cons_of_neg (by rw [decide_eq_true_eq]; exact not_not.mpr hk)]
    · have hrest : (rest.map Prod.fst).filter (fun k ↦ k ∉ d.keys ++ [p.1]) =
          (rest.map Prod.fst).filter fun k ↦ k ∉ d.keys := by
        refine List.filter_congr fun k hkr ↦ ?_
        have hne : k ≠ p.1 := fun he ↦ hp (he ▸ hkr)
        simp [hne]
      rw [keys_set_of_notMem p.2 hk, hrest, List.map_cons, List.append_assoc,
        List.filter_cons_of_pos (by rw [decide_eq_true_eq]; exact hk), List.singleton_append]

theorem keys_prefix_update (d : Dict K V) (l : List (K × V)) : d.keys <+: (d.update l).keys := by
  induction l generalizing d with
  | nil => exact List.prefix_rfl
  | cons p rest ih =>
    refine List.IsPrefix.trans ?_ (ih (d.set p.1 p.2))
    by_cases hk : p.1 ∈ d.keys
    · exact (keys_set_of_mem p.2 hk).symm ▸ List.prefix_rfl
    · exact (keys_set_of_notMem p.2 hk).symm ▸ List.prefix_append _ _

theorem update_of_get? (h : ∀ p ∈ l, d.get? p.1 = some p.2) : d.update l = d := by
  induction l with
  | nil => rfl
  | cons p rest ih =>
    have hp : d.set p.1 p.2 = d := set_of_get? (h p List.mem_cons_self)
    rw [update, List.foldl_cons, hp]
    exact ih fun q hq ↦ h q (List.mem_cons_of_mem _ hq)

/-- **An update that starts with the keys of the old dictionary replaces it.** -/
theorem update_entries_of_prefix (h : d.keys <+: e.keys) : d.update e.entries = e := by
  obtain ⟨new, hnew⟩ := h
  have hnodup : (d.keys ++ new).Nodup := hnew ▸ e.nodup
  have hfilter : e.keys.filter (fun k ↦ k ∉ d.keys) = new := by
    rw [← hnew, List.filter_append, List.filter_eq_nil_iff.mpr (by simp), List.nil_append,
      List.filter_eq_self]
    intro k hk
    rw [decide_eq_true_eq]
    exact fun hd ↦ (List.nodup_append.mp hnodup).2.2 k hd k hk rfl
  refine ext_of_keys ?_ fun k ↦ ?_
  · rw [keys_update e.nodup]
    exact (congrArg (d.keys ++ ·) hfilter).trans hnew
  · rw [get?_update_entries]
    cases he : e.get? k with
    | some v => rfl
    | none =>
      have hd : k ∉ d.keys := fun hd ↦
        get?_eq_none_iff.mp he (hnew ▸ List.mem_append_left _ hd)
      rw [get?_eq_none_iff.mpr hd]
      rfl

@[simp] theorem ofList_entries (d : Dict K V) : ofList d.entries = d :=
  update_entries_of_prefix List.nil_prefix

end Dict

end Lib
