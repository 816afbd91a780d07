import Mathlib.Data.List.Induction
import Mathlib.Logic.Relation

/-!
# State machines and their runs

A machine is a partial step function: `step s e` is the state after event `e`, or `none` when `e`
cannot happen in `s`.  `m.Reach C s t` says that some sequence of events leads from `s` to `t`,
each of them meeting the side condition `C` in the state it happens in; with `C` the trivial
condition this is plain reachability.

`Reach.invariant` is the induction every safety property goes through: what holds at the start and
is kept by each step that meets `C` holds at the end; `exec_induction` is the same rule for what
relates a state to the events that led to it.  `Reach.mono` weakens the side condition.
-/

set_option autoImplicit false

namespace Lib

/-- A deterministic machine: the state after an event, if the event can happen. -/
structure Machine (σ ε : Type) where
  /-- The state after an event. -/
  step : σ → ε → Option σ

namespace Machine

variable {σ ε : Type} (m : Machine σ ε)

/-- One step that meets the side condition. -/
def StepWhen (C : σ → ε → Prop) (s t : σ) : Prop := ∃ e, C s e ∧ m.step s e = some t

/-- A run from `s` to `t` every step of which meets the side condition. -/
def Reach (C : σ → ε → Prop) : σ → σ → Prop := Relation.ReflTransGen (m.StepWhen C)

/-- The states a list of events leads to, `none` when one of them cannot happen. -/
def exec (s : σ) : List ε → Option σ
  | [] => some s
  | e :: es => (m.step s e).bind fun t ↦ exec t es

/-- The state a list of events leads to, `none` when one of them cannot happen or misses the side
condition. -/
def execWhen (C : σ → ε → Prop) [∀ s e, Decidable (C s e)] (s : σ) : List ε → Option σ
  | [] => some s
  | e :: es => if C s e then (m.step s e).bind fun t ↦ execWhen C t es else none

attribute [local simp] exec execWhen

variable {m}

variable {C : σ → ε → Prop}

theorem Reach.refl (s : σ) : m.Reach C s s := Relation.ReflTransGen.refl

variable {s t : σ}

theorem Reach.tail {u : σ} {e : ε} (h : m.Reach C s t) (hC : C t e) (hs : m.step t e = some u) :
    m.Reach C s u :=
  Relation.ReflTransGen.tail h ⟨e, hC, hs⟩

theorem Reach.trans {u : σ} (h : m.Reach C s t) (h' : m.Reach C t u) : m.Reach C s u :=
  Relation.ReflTransGen.trans h h'

theorem Reach.mono {D : σ → ε → Prop} (h : m.Reach C s t) (hCD : ∀ s e, C s e → D s e) :
    m.Reach D s t := by
  induction h with
  | refl => exact Reach.refl s
  | tail _ hs ih =>
    obtain ⟨e, hC, he⟩ := hs
    exact ih.tail (hCD _ e hC) he

/-- **The invariant rule**: what holds at the start and is kept by every step of the run holds at
the end. -/
theorem Reach.invariant (h : m.Reach C s t) {P : σ → Prop} (h0 : P s)
    (hstep : ∀ a e b, P a → C a e → m.step a e = some b → P b) : P t := by
  induction h with
  | refl => exact h0
  | tail _ hs ih =>
    obtain ⟨e, hC, he⟩ := hs
    exact hstep _ e _ ih hC he

theorem exec_append (s : σ) (es es' : List ε) :
    m.exec s (es ++ es') = (m.exec s es).bind fun t ↦ m.exec t es' := by
  induction es generalizing s with
  | nil => rfl
  | cons e es ih =>
    rw [List.cons_append, exec, exec, Option.bind_assoc]
    exact congrArg _ (funext fun t ↦ ih t)

/-- The events of a list form a run. -/
theorem reach_of_exec (es : List ε) (h : m.exec s es = some t) (hC : ∀ a e, e ∈ es → C a e) :
    m.Reach C s t := by
  induction es generalizing s with
  | nil => exact Option.some_inj.mp h ▸ Reach.refl s
  | cons e es ih =>
    rw [exec, Option.bind_eq_some_iff] at h
    obtain ⟨u, hu, h⟩ := h
    refine Relation.ReflTransGen.head ⟨e, hC s e (by simp), hu⟩ (ih h fun a e' he' ↦ ?_)
    exact hC a e' (List.mem_cons_of_mem _ he')

/-- The events of a list that meet a condition one after the other form a run, if for them it gives
the side condition. -/
theorem reach_of_execWhen_imp {D : σ → ε → Prop} [∀ s e, Decidable (C s e)] {es : List ε}
    (h : m.execWhen C s es = some t) (hD : ∀ e ∈ es, ∀ a, C a e → D a e) : m.Reach D s t := by
  induction es generalizing s with
  | nil => exact Option.some_inj.mp h ▸ Reach.refl s
  | cons e es ih =>
    rw [execWhen] at h
    split at h
    · next hC =>
      obtain ⟨u, hu, h⟩ := Option.bind_eq_some_iff.mp h
      exact Relation.ReflTransGen.head ⟨e, hD e List.mem_cons_self s hC, hu⟩
        (ih h fun e' he' ↦ hD e' (List.mem_cons_of_mem _ he'))
    · cases h

/-- The events of a list that meet the side condition one after the other form a run. -/
theorem reach_of_execWhen [∀ s e, Decidable (C s e)] {es : List ε} (h : m.execWhen C s es = some t)
    : m.Reach C s t :=
  reach_of_execWhen_imp h fun _ _ _ hC ↦ hC

/-! ## What holds of every step -/

variable (m)

/-- Every step that a list of events takes satisfies `P`. -/
def Along (P : σ → ε → σ → Prop) : σ → List ε → Prop
  | _, [] => True
  | s, e :: es => ∀ t, m.step s e = some t → P s e t ∧ Along P t es

instance decidableAlong (P : σ → ε → σ → Prop) [∀ s e t, Decidable (P s e t)] :
    ∀ s es, Decidable (m.Along P s es)
  | _, [] => isTrue trivial
  | s, e :: es =>
    match h : m.step s e with
    | none => isTrue fun t ht ↦ by rw [h] at ht; cases ht
    | some t =>
      haveI := decidableAlong P t es
      decidable_of_iff (P s e t ∧ m.Along P t es)
        ⟨fun hP u hu ↦ Option.some_inj.mp (h.symm.trans hu) ▸ hP, fun hP ↦ hP t h⟩

variable {m}

variable {P : σ → ε → σ → Prop} {I : σ → Prop}

theorem along_append {es es' : List ε} : m.Along P s (es ++ es') ↔
    m.Along P s es ∧ ∀ t, m.exec s es = some t → m.Along P t es' := by
  induction es generalizing s with
  | nil => exact ⟨fun h ↦ ⟨trivial, fun t ht ↦ Option.some_inj.mp ht ▸ h⟩, fun h ↦ h.2 s rfl⟩
  | cons e es ih =>
    constructor
    · refine fun h ↦ ⟨fun t ht ↦ ⟨(h t ht).1, (ih.mp (h t ht).2).1⟩, fun u hu ↦ ?_⟩
      obtain ⟨t, ht, hu⟩ := Option.bind_eq_some_iff.mp hu
      exact (ih.mp (h t ht).2).2 u hu
    · exact fun h t ht ↦ ⟨(h.1 t ht).1, ih.mpr ⟨(h.1 t ht).2, fun u hu ↦
        h.2 u (Option.bind_eq_some_iff.mpr ⟨t, ht, hu⟩)⟩⟩

/-- **The invariant rule with the history**: in a run whose steps all satisfy `P`, what relates the
events so far to the state holds at the end of them all. -/
theorem exec_induction {es : List ε} {t : σ} (h : m.exec s es = some t) (hP : m.Along P s es)
    {Q : List ε → σ → Prop} (h0 : Q [] s)
    (hstep : ∀ es e a b, Q es a → P a e b → m.step a e = some b → Q (es ++ [e]) b) : Q es t := by
  induction es using List.reverseRecOn generalizing t with
  | nil => exact Option.some_inj.mp h ▸ h0
  | append_singleton es e ih =>
    obtain ⟨hP, hlast⟩ := along_append.mp hP
    rw [exec_append, Option.bind_eq_some_iff] at h
    obtain ⟨a, ha, h⟩ := h
    rw [exec, Option.bind_eq_some_iff] at h
    obtain ⟨b, hb, h⟩ := h
    exact Option.some_inj.mp h ▸ hstep es e a b (ih ha hP) (hlast a ha b hb).1 hb

/-- **One condition for whole runs.**  If in the states of an invariant a step for an event of some
kind satisfies `P` just when it satisfies `C`, and then keeps the invariant, the same is true of
runs of such events. -/
theorem along_congr_of {C : σ → ε → σ → Prop} {E : ε → Prop}
    (hstep : ∀ s e t, I s → E e → m.step s e = some t → (P s e t ↔ C s e t) ∧ (C s e t → I t))
    (hI : I s) (es : List ε) (hes : ∀ e ∈ es, E e) : m.Along P s es ↔ m.Along C s es := by
  induction es generalizing s with
  | nil => exact Iff.rfl
  | cons e es ih =>
    refine forall₂_congr fun t ht ↦ ?_
    obtain ⟨hiff, hkeep⟩ := hstep s e t hI (hes e List.mem_cons_self) ht
    rw [hiff]
    exact and_congr_right fun hC ↦ ih (hkeep hC) fun e' he' ↦ hes e' (List.mem_cons_of_mem e he')

/-- The same for events of any kind. -/
theorem along_congr {C : σ → ε → σ → Prop}
    (hstep : ∀ s e t, I s → m.step s e = some t → (P s e t ↔ C s e t) ∧ (C s e t → I t)) (hI : I s)
    (es : List ε) : m.Along P s es ↔ m.Along C s es :=
  along_congr_of (E := fun _ ↦ True) (fun s e t hI _ ht ↦ hstep s e t hI ht) hI es
    fun _ _ ↦ trivial

/-- The same for runs whose steps all satisfy `D`. -/
theorem along_congr_when {C D : σ → ε → σ → Prop}
    (hstep : ∀ s e t, I s → D s e t → m.step s e = some t → (P s e t ↔ C s e t) ∧ (C s e t → I t))
    (hI : I s) (es : List ε) (hD : m.Along D s es) : m.Along P s es ↔ m.Along C s es := by
  induction es generalizing s with
  | nil => exact Iff.rfl
  | cons e es ih =>
    refine forall₂_congr fun t ht ↦ ?_
    obtain ⟨hDt, hrest⟩ := hD t ht
    obtain ⟨hiff, hkeep⟩ := hstep s e t hI hDt ht
    rw [hiff]
    exact and_congr_right fun hC ↦ ih (hkeep hC) hrest

/-- In runs whose steps all satisfy `C` they all satisfy `P`, if a step from a state of an invariant
does, and keeps the invariant. -/
theorem Along.imp_of {C : σ → ε → σ → Prop}
    (hstep : ∀ s e t, I s → C s e t → m.step s e = some t → P s e t ∧ I t) (hI : I s) (es : List ε)
    (hC : m.Along C s es) : m.Along P s es := by
  induction es generalizing s with
  | nil => trivial
  | cons e es ih =>
    intro t ht
    obtain ⟨hCt, hrest⟩ := hC t ht
    obtain ⟨hP, hIt⟩ := hstep s e t hI hCt ht
    exact ⟨hP, ih hIt hrest⟩

end Machine

end Lib
