import Mathlib.Data.List.Perm.Subperm
import Mathlib.Logic.Relation
import OpenRide.Lib.Dict

/-!
# Union-find with path halving

The forest is a dictionary of parent pointers; `find` walks to the root, re-pointing every other
node on the way at its grandparent, and `unionAll` joins the ends of a list of edges.  No ranks
are kept, so a tree may be a path, and the walk is bounded only by the number of nodes.

The invariant is a labelling rather than a shape: `Forest ids p ρ d` says that `ρ` names the root
of every node and that `d` decreases along every pointer that leaves its node.  Halving changes
neither `ρ` nor `d`; a union changes both, by one formula each.  That `d` decreases keeps the
nodes of a walk distinct, and distinct nodes run out (`find_spec`).

`Labels ρ r` then says what the roots mean: two nodes have the same root just when `r` connects
them, `r` being the edges joined so far (`unionAll_spec`).
-/

set_option autoImplicit false

namespace Lib

namespace UnionFind

variable {K : Type} [DecidableEq K]

/-! ## The operations -/

/-- The root of a node, and the forest after the walk; `none` if the walk meets a node without a
parent or does not end within the fuel. -/
def find : ℕ → Dict K K → K → Option (K × Dict K K)
  | 0, _, _ => none
  | n + 1, p, x =>
    match p.get? x with
    | none => none
    | some px =>
      if px = x then some (x, p) else
        match p.get? px with
        | none => none
        | some ppx => find n (p.set x ppx) ppx

/-- Join the ends of one edge. -/
def union (fuel : ℕ) (p : Dict K K) (a b : K) : Option (Dict K K) :=
  match find fuel p a with
  | none => none
  | some (ra, p₁) =>
    match find fuel p₁ b with
    | none => none
    | some (rb, p₂) => some (if ra = rb then p₂ else p₂.set ra rb)

/-- Join the ends of the edges of a list, one after the other. -/
def unionAll (fuel : ℕ) : List (K × K) → Dict K K → Option (Dict K K)
  | [], p => some p
  | e :: es, p =>
    match union fuel p e.1 e.2 with
    | none => none
    | some p' => unionAll fuel es p'

/-- File the nodes of a list under their roots. -/
def groupRoots (fuel : ℕ) : List K → Dict K K → Dict K (List K) → Option (Dict K (List K))
  | [], _, groups => some groups
  | x :: xs, p, groups =>
    match find fuel p x with
    | none => none
    | some (r, p') => groupRoots fuel xs p' (groups.append r x)

/-- Every node is its own root. -/
def singletons (ids : List K) : Dict K K := Dict.ofList (ids.map fun x ↦ (x, x))

/-! ## The invariant -/

/-- `ρ` names the root of every node, and `d` decreases along the pointers that leave their
node. -/
def Forest (ids : List K) (p : Dict K K) (ρ : K → K) (d : K → ℕ) : Prop :=
  ∀ x ∈ ids, ∃ y ∈ ids, p.get? x = some y ∧ ρ y = ρ x ∧ if y = x then ρ x = x else d y < d x

variable {ids : List K} {p : Dict K K} {ρ : K → K} {d : K → ℕ}

theorem singletons_forest (ids : List K) : Forest ids (singletons ids) id fun _ ↦ 0 := by
  intro x hx
  refine ⟨x, hx, ?_, rfl, by simp⟩
  have hmem : x ∈ (singletons ids).keys :=
    Dict.mem_keys_update.mpr (Or.inr (by simpa using hx))
  obtain ⟨v, hv⟩ := Dict.mem_keys_iff.mp hmem
  obtain ⟨y, -, hy⟩ := List.mem_map.mp (Dict.mem_of_get?_ofList hv)
  obtain ⟨rfl, rfl⟩ := Prod.mk.inj hy
  exact hv

/-- **Halving**: pointing a node at its grandparent keeps the invariant. -/
theorem Forest.halve (h : Forest ids p ρ d) {x px ppx : K} (hx : x ∈ ids)
    (hpx : p.get? x = some px) (hne : px ≠ x) (hppx : p.get? px = some ppx) :
    Forest ids (p.set x ppx) ρ d ∧ ppx ∈ ids ∧ ρ ppx = ρ x ∧ d ppx < d x := by
  obtain ⟨y, hy, hget, hρ, hd⟩ := h x hx
  obtain rfl : px = y := Option.some_inj.mp (hpx.symm.trans hget)
  rw [if_neg hne] at hd
  obtain ⟨z, hz, hget', hρ', hd'⟩ := h px hy
  obtain rfl : ppx = z := Option.some_inj.mp (hppx.symm.trans hget')
  have hlt : d ppx < d x := by
    split at hd'
    · next he => exact he ▸ hd
    · exact Nat.lt_trans hd' hd
  refine ⟨fun w hw ↦ ?_, hz, hρ'.trans hρ, hlt⟩
  by_cases hwx : w = x
  · subst hwx
    refine ⟨ppx, hz, Dict.get?_set_self _ _ _, hρ'.trans hρ, ?_⟩
    rw [if_neg fun he ↦ absurd hlt (by simp [he])]
    exact hlt
  · rw [Dict.get?_set_ne _ _ hwx]
    exact h w hw

/-- **The walk ends at the root.**  `seen` is what the walk has left behind: nodes further from
the root than `x`, hence distinct, hence fewer than there are nodes. -/
theorem Forest.find_from {n : ℕ} {x : K} (h : Forest ids p ρ d) (hx : x ∈ ids) {seen : List K}
    (hnodup : seen.Nodup) (hsub : seen ⊆ ids) (hfar : ∀ s ∈ seen, d x < d s)
    (hfuel : ids.length < seen.length + n) :
    ∃ p', find n p x = some (ρ x, p') ∧ Forest ids p' ρ d ∧ ρ x ∈ ids ∧ ρ (ρ x) = ρ x := by
  induction n generalizing p x seen with
  | zero =>
    have hle := (hnodup.subperm hsub).length_le
    omega
  | succ n ih =>
    obtain ⟨y, hy, hget, hρ, hd⟩ := h x hx
    rw [find, hget]
    by_cases hyx : y = x
    · subst hyx
      rw [if_pos rfl] at hd
      exact ⟨p, by simp [hd], h, hd.symm ▸ hx, by rw [hd, hd]⟩
    · obtain ⟨z, hz, hget', -, -⟩ := h y hy
      obtain ⟨hhalf, -, hρz, hdz⟩ := h.halve hx hget hyx hget'
      have hnotin : x ∉ seen := fun hmem ↦ Nat.lt_irrefl _ (hfar x hmem)
      obtain ⟨p', hfind, hp', hroot⟩ := ih hhalf hz (List.nodup_cons.mpr ⟨hnotin, hnodup⟩)
        (List.cons_subset.mpr ⟨hx, hsub⟩)
        (fun s hs ↦ by
          rcases List.mem_cons.mp hs with rfl | hs
          · exact hdz
          · exact Nat.lt_trans hdz (hfar s hs))
        (by rw [List.length_cons]; omega)
      rw [hρz] at hfind hroot
      exact ⟨p', by simpa [hyx, hget'] using hfind, hp', hroot⟩

theorem Forest.find_spec {n : ℕ} {x : K} (h : Forest ids p ρ d) (hx : x ∈ ids)
    (hfuel : ids.length < n) :
    ∃ p', find n p x = some (ρ x, p') ∧ Forest ids p' ρ d ∧ ρ x ∈ ids ∧ ρ (ρ x) = ρ x :=
  h.find_from hx List.nodup_nil (List.nil_subset _) (by simp) (by simpa using hfuel)

/-! ## Unions -/

/-- The labels after the tree of `ra` is hung below `rb`. -/
def relabel (ρ : K → K) (ra rb : K) (x : K) : K := if ρ x = ra then rb else ρ x

theorem Forest.link (h : Forest ids p ρ d) {ra rb : K} (hb : rb ∈ ids) (hra : ρ ra = ra)
    (hrb : ρ rb = rb) (hne : ra ≠ rb) :
    Forest ids (p.set ra rb) (relabel ρ ra rb) fun x ↦ if ρ x = ra then
      d x + d rb + 1 else d x := by
  have hrb' : ρ rb ≠ ra := by rw [hrb]; exact Ne.symm hne
  intro x hx
  by_cases hxa : x = ra
  · subst hxa
    refine ⟨rb, hb, Dict.get?_set_self _ _ _, by simp [relabel, hra, hrb], ?_⟩
    simp only [if_neg (Ne.symm hne), if_neg hrb', if_pos hra]
    omega
  · obtain ⟨y, hy, hget, hρ, hd⟩ := h x hx
    refine ⟨y, hy, by rw [Dict.get?_set_ne _ _ hxa, hget], by rw [relabel, relabel, hρ], ?_⟩
    simp only [hρ]
    by_cases hyx : y = x
    · rw [if_pos hyx] at hd ⊢
      rw [relabel, hd, if_neg hxa]
    · rw [if_neg hyx] at hd ⊢
      by_cases hlab : ρ x = ra <;> simp [hlab, hd]

/-- What the labels mean: two nodes have the same one when `r` connects them. -/
def Labels (ρ : K → K) (r : K → K → Prop) : Prop :=
  ∀ x y, ρ x = ρ y ↔ Relation.EqvGen r x y

/-- One more edge, from `a` to `b`. -/
def AddEdge (r : K → K → Prop) (a b : K) (x y : K) : Prop := r x y ∨ x = a ∧ y = b

omit [DecidableEq K] in
/-- What agrees on related elements agrees on connected ones. -/
theorem eq_of_eqvGen {r : K → K → Prop} {f : K → K} (hr : ∀ x y, r x y → f x = f y) {x y : K}
    (h : Relation.EqvGen r x y) : f x = f y := by
  induction h with
  | rel x y hxy => exact hr x y hxy
  | refl => rfl
  | symm _ _ _ ih => exact ih.symm
  | trans _ _ _ _ _ ih ih' => exact ih.trans ih'

omit [DecidableEq K] in
theorem labels_id : Labels (id : K → K) fun _ _ ↦ False := by
  intro x y
  constructor
  · rintro rfl
    exact .refl _
  · exact eq_of_eqvGen fun _ _ h ↦ h.elim

omit [DecidableEq K] in
theorem Labels.mono {r r' : K → K → Prop} (h : Labels ρ r) (hr : ∀ x y, r x y → r' x y)
    {x y : K} (he : ρ x = ρ y) : Relation.EqvGen r' x y :=
  ((h x y).mp he).mono fun a b ↦ hr a b

omit [DecidableEq K] in
/-- Labels that tell nothing new of an edge whose ends they join already. -/
theorem Labels.addEdge_same {r : K → K → Prop} (h : Labels ρ r) {a b : K} (hab : ρ a = ρ b) :
    Labels ρ (AddEdge r a b) := by
  intro x y
  refine ⟨h.mono fun x y ↦ Or.inl, eq_of_eqvGen fun x y hxy ↦ ?_⟩
  rcases hxy with hxy | ⟨rfl, rfl⟩
  · exact (h x y).mpr (.rel x y hxy)
  · exact hab

/-- **A union connects what its edge connects**, and nothing else. -/
theorem Labels.addEdge {r : K → K → Prop} (h : Labels ρ r) {a b : K} (hab : ρ a ≠ ρ b) :
    Labels (relabel ρ (ρ a) (ρ b)) (AddEdge r a b) := by
  have hmono : ∀ {x y}, ρ x = ρ y → Relation.EqvGen (AddEdge r a b) x y :=
    h.mono fun x y ↦ Or.inl
  have hedge : Relation.EqvGen (AddEdge r a b) a b := .rel a b (Or.inr ⟨rfl, rfl⟩)
  intro x y
  constructor
  · intro he
    rw [relabel, relabel] at he
    by_cases hx : ρ x = ρ a <;> by_cases hy : ρ y = ρ a
    · exact hmono (hx.trans hy.symm)
    · rw [if_pos hx, if_neg hy] at he
      exact ((hmono hx).trans _ _ _ hedge).trans _ _ _ (hmono he)
    · rw [if_neg hx, if_pos hy] at he
      exact ((hmono he).trans _ _ _ (hedge.symm _ _)).trans _ _ _ (hmono hy.symm)
    · rw [if_neg hx, if_neg hy] at he
      exact hmono he
  · refine eq_of_eqvGen fun x y hxy ↦ ?_
    rcases hxy with hxy | ⟨rfl, rfl⟩
    · rw [relabel, relabel, (h x y).mpr (.rel x y hxy)]
    · rw [relabel, relabel, if_pos rfl, if_neg (Ne.symm hab)]

theorem Forest.union_spec {n : ℕ} {r : K → K → Prop} (h : Forest ids p ρ d) (hl : Labels ρ r)
    {a b : K} (ha : a ∈ ids) (hb : b ∈ ids) (hfuel : ids.length < n) :
    ∃ p' ρ' d', union n p a b = some p' ∧ Forest ids p' ρ' d' ∧ Labels ρ' (AddEdge r a b) := by
  obtain ⟨p₁, hfa, h₁, -, hra⟩ := h.find_spec ha hfuel
  obtain ⟨p₂, hfb, h₂, hbin, hrb⟩ := h₁.find_spec hb hfuel
  simp only [union, hfa, hfb]
  by_cases hab : ρ a = ρ b
  · exact ⟨p₂, ρ, d, by rw [if_pos hab], h₂, hl.addEdge_same hab⟩
  · exact ⟨_, _, _, by rw [if_neg hab], h₂.link hbin hra hrb hab, hl.addEdge hab⟩

/-- The relation of a list of edges, on top of `r`. -/
def EdgesOver (r : K → K → Prop) (es : List (K × K)) (x y : K) : Prop := r x y ∨ (x, y) ∈ es

omit [DecidableEq K] in
theorem Labels.congr {r r' : K → K → Prop} (h : Labels ρ r) (hr : ∀ x y, r x y ↔ r' x y) :
    Labels ρ r' := by
  have : r = r' := funext fun x ↦ funext fun y ↦ propext (hr x y)
  exact this ▸ h

theorem Forest.unionAll_spec {n : ℕ} (hfuel : ids.length < n) {es : List (K × K)}
    (hes : ∀ e ∈ es, e.1 ∈ ids ∧ e.2 ∈ ids) {r : K → K → Prop} (h : Forest ids p ρ d)
    (hl : Labels ρ r) :
    ∃ p' ρ' d', unionAll n es p = some p' ∧ Forest ids p' ρ' d' ∧ Labels ρ' (EdgesOver r es) := by
  induction es generalizing p ρ d r with
  | nil => exact ⟨p, ρ, d, rfl, h, hl.congr fun x y ↦ by simp [EdgesOver]⟩
  | cons e es ih =>
    obtain ⟨ha, hb⟩ := hes e List.mem_cons_self
    obtain ⟨p₁, ρ₁, d₁, hu, h₁, hl₁⟩ := h.union_spec hl ha hb hfuel
    obtain ⟨p', ρ', d', hall, h', hl'⟩ :=
      ih (fun e' he' ↦ hes e' (List.mem_cons_of_mem _ he')) h₁ hl₁
    refine ⟨p', ρ', d', by rw [unionAll, hu]; exact hall, h', hl'.congr fun x y ↦ ?_⟩
    obtain ⟨a, b⟩ := e
    simp only [EdgesOver, AddEdge, List.mem_cons, Prod.mk.injEq]
    tauto

/-! ## The groups -/

theorem Forest.groupRoots_spec {n : ℕ} (hfuel : ids.length < n) {xs : List K}
    (hxs : xs ⊆ ids) (h : Forest ids p ρ d) (groups : Dict K (List K)) :
    groupRoots n xs p groups = some (xs.foldl (fun g x ↦ g.append (ρ x) x) groups) := by
  induction xs generalizing p groups with
  | nil => rfl
  | cons x xs ih =>
    obtain ⟨p', hf, h', -⟩ := h.find_spec (hxs List.mem_cons_self) hfuel
    rw [groupRoots, hf]
    exact ih (fun y hy ↦ hxs (List.mem_cons_of_mem _ hy)) h' _

/-- **The connected components.**  Joining the edges and filing the nodes under their roots ends,
and files two nodes together just when the edges connect them. -/
theorem components_spec {n : ℕ} (hfuel : ids.length < n) {es : List (K × K)}
    (hes : ∀ e ∈ es, e.1 ∈ ids ∧ e.2 ∈ ids) :
    ∃ (p : Dict K K) (ρ : K → K), unionAll n es (singletons ids) = some p ∧
      groupRoots n ids p Dict.empty = some (Dict.groupBy (fun x ↦ some (ρ x)) ids) ∧
      ∀ x y, ρ x = ρ y ↔ Relation.EqvGen (fun a b ↦ (a, b) ∈ es) x y := by
  obtain ⟨p, ρ, d, hall, hp, hl⟩ := (singletons_forest ids).unionAll_spec hfuel hes labels_id
  refine ⟨p, ρ, hall, ?_, hl.congr fun x y ↦ by simp [EdgesOver]⟩
  rw [hp.groupRoots_spec hfuel (List.Subset.refl _), Dict.groupBy]

end UnionFind

end Lib
