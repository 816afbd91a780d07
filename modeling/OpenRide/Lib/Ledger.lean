import Mathlib.Algebra.BigOperators.Group.List.Basic
import OpenRide.Lib.Dict

/-!
# Ledgers

A ledger is a dictionary of accounts.  `amend` is the one thing done to it: fetch the account of a
key, open a new one if there is none, rewrite it, file it again.

Two readings of a ledger are kept here.  `total f` adds up `f` over all accounts, in any commutative
monoid; if a new account counts for nothing and rewriting one adds `δ` to it, then the amendment
adds `δ` to the total (`total_amend`).  `look f` reads one account through `f`; two amendments whose
rewritings commute as far as `f` can see leave behind, in either order, what looks the same
(`look_amend_comm`).
-/

set_option autoImplicit false

namespace Lib

namespace Dict

variable {K V : Type} [DecidableEq K]

/-- Rewrite the account of `k` by `f`, opening it as `new` if it is not there. -/
def amend (d : Dict K V) (k : K) (new : V) (f : V → V) : Dict K V :=
  d.set k (f ((d.get? k).getD new))

theorem get?_amend (d : Dict K V) (k x : K) (new : V) (f : V → V) :
    (d.amend k new f).get? x = if x = k then some (f ((d.get? k).getD new)) else d.get? x :=
  get?_set d k x _

@[simp] theorem get?_amend_self (d : Dict K V) (k : K) (new : V) (f : V → V) :
    (d.amend k new f).get? k = some (f ((d.get? k).getD new)) :=
  get?_set_self d k _

theorem get?_amend_ne (d : Dict K V) {k x : K} (new : V) (f : V → V) (h : x ≠ k) :
    (d.amend k new f).get? x = d.get? x :=
  get?_set_ne d _ h

/-- Amendments of different accounts may be made in either order. -/
theorem get?_amend_comm {k k' : K} (hk : k ≠ k') (d : Dict K V) (new new' : V) (f f' : V → V)
    (x : K) : ((d.amend k new f).amend k' new' f').get? x =
      ((d.amend k' new' f').amend k new f).get? x := by
  simp only [get?_amend, if_neg hk, if_neg hk.symm]
  split
  · next hx =>
    subst hx
    rw [if_neg hk.symm]
  · rfl

/-- What holds of a new account, and of an account after rewriting if before, holds of all. -/
theorem forall_amend {P : V → Prop} {d : Dict K V} {k : K} {new : V} {f : V → V}
    (hd : ∀ x v, d.get? x = some v → P v) (hnew : P new) (hf : ∀ v, P v → P (f v)) :
    ∀ x v, (d.amend k new f).get? x = some v → P v := by
  intro x v hv
  rw [get?_amend] at hv
  split at hv
  · cases hv
    refine hf _ ?_
    cases hk : d.get? k with
    | none => exact hnew
    | some w => exact hd k w hk
  · exact hd x v hv

/-! ## Totals -/

section Total

variable {M : Type} [AddCommMonoid M] {f : V → M}

/-- The sum of `f` over all accounts. -/
def total (d : Dict K V) (f : V → M) : M := (d.values.map f).sum

variable {g : V → V}

theorem sum_setIn {new : V} {δ : M} (hnew : f new = 0) (hg : ∀ v, f (g v) = f v + δ) (k : K)
    (l : List (K × V)) :
    (((setIn k (g ((lookupIn k l).getD new)) l).map Prod.snd).map f).sum =
      ((l.map Prod.snd).map f).sum + δ := by
  induction l with
  | nil =>
    show f (g new) + 0 = 0 + δ
    rw [hg, hnew, add_zero]
  | cons p l ih =>
    obtain ⟨k', v⟩ := p
    rw [setIn, lookupIn]
    split
    · show f (g v) + _ = f v + _ + δ
      rw [hg]
      exact add_right_comm _ _ _
    · exact (congrArg (f v + ·) ih).trans (add_assoc _ _ _).symm

/-- **An amendment that adds `δ` to whatever account it rewrites adds `δ` to the total.** -/
theorem total_amend {new : V} {δ : M} (hnew : f new = 0) (hg : ∀ v, f (g v) = f v + δ)
    (d : Dict K V) (k : K) : (d.amend k new g).total f = d.total f + δ :=
  sum_setIn hnew hg k d.entries

theorem total_amend_of_eq {new : V} (hnew : f new = 0) (hg : ∀ v, f (g v) = f v) (d : Dict K V)
    (k : K) : (d.amend k new g).total f = d.total f := by
  rw [total_amend hnew (δ := 0) (fun v ↦ (hg v).trans (add_zero _).symm), add_zero]

end Total

/-! ## Looking at one account -/

section Look

variable {M : Type} {f : V → M}

/-- The account of `k` as `f` shows it, if there is one. -/
def look (d : Dict K V) (f : V → M) (k : K) : Option M := (d.get? k).map f

variable {g : V → V} {G : M → M}

theorem look_amend (hg : ∀ v, f (g v) = G (f v)) (d : Dict K V) (k : K) (new : V) (x : K) :
    (d.amend k new g).look f x =
      if x = k then some (G ((d.look f k).getD (f new))) else d.look f x := by
  rw [look, get?_amend]
  split
  · rw [Option.map_some, hg, look, Option.getD_map]
  · rfl

/-- Amending what looks the same leaves what looks the same. -/
theorem look_amend_congr {g' : V → V} {d d' : Dict K V} {k : K} {new new' : V}
    (hg : ∀ v, f (g v) = G (f v)) (hg' : ∀ v, f (g' v) = G (f v)) (hnew : f new = f new')
    (h : ∀ x, d.look f x = d'.look f x) (x : K) :
    (d.amend k new g).look f x = (d'.amend k new' g').look f x := by
  rw [look_amend hg, look_amend hg', h, h, hnew]

/-- **Amendments whose rewritings commute may be made in either order**, as far as `f` shows. -/
theorem look_amend_comm {g' : V → V} {G' : M → M} {k k' : K} {new new' : V}
    (hg : ∀ v, f (g v) = G (f v)) (hg' : ∀ v, f (g' v) = G' (f v))
    (hcomm : ∀ m, G (G' m) = G' (G m)) (hnew : k = k' → f new = f new') (d : Dict K V) (x : K) :
    ((d.amend k new g).amend k' new' g').look f x =
      ((d.amend k' new' g').amend k new g).look f x := by
  simp only [look_amend hg, look_amend hg']
  by_cases hk : k = k'
  · subst hk
    simp only [hnew rfl, if_pos, Option.getD_some, hcomm]
    split
    · rfl
    · rfl
  · simp only [if_neg hk, if_neg (Ne.symm hk)]
    split
    · next hx =>
      subst hx
      rw [if_neg (Ne.symm hk)]
    · rfl

end Look

/-! ## One amendment for each of many keys -/

section AmendAll

variable {W : Type}

/-- Amend, for each entry of a list, the account of its key. -/
def amendAll (d : Dict K V) (new : K → W → V) (f : K → W → V → V) (l : List (K × W)) :
    Dict K V :=
  l.foldl (fun d p ↦ d.amend p.1 (new p.1 p.2) (f p.1 p.2)) d

theorem get?_amendAll_of_notMem {new : K → W → V} {f : K → W → V → V} {l : List (K × W)} {x : K}
    (hx : x ∉ l.map Prod.fst) (d : Dict K V) : (d.amendAll new f l).get? x = d.get? x := by
  induction l generalizing d with
  | nil => rfl
  | cons p l ih =>
    rw [List.map_cons, List.mem_cons, not_or] at hx
    exact (ih hx.2 _).trans (get?_amend_ne d _ _ hx.1)

/-- Where the keys are distinct, each account is amended once at most. -/
theorem get?_amendAll {new : K → W → V} {f : K → W → V → V} {l : List (K × W)}
    (hn : (l.map Prod.fst).Nodup) (d : Dict K V) (x : K) :
    (d.amendAll new f l).get? x =
      match lookupIn x l with
      | none => d.get? x
      | some w => some (f x w ((d.get? x).getD (new x w))) := by
  induction l generalizing d with
  | nil => rfl
  | cons p l ih =>
    obtain ⟨k, w⟩ := p
    obtain ⟨hk, hn⟩ := List.nodup_cons.mp hn
    by_cases hx : k = x
    · subst hx
      rw [lookupIn, if_pos rfl]
      exact (get?_amendAll_of_notMem hk _).trans (get?_amend_self d k _ _)
    · rw [lookupIn, if_neg hx]
      refine (ih hn _).trans ?_
      rw [get?_amend_ne d _ _ (Ne.symm hx)]

end AmendAll

end Dict

end Lib
