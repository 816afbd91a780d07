import Mathlib.Data.List.Forall2
import Mathlib.Tactic.Common

/-!
# Computations that may fail

`Except ε α` is a computation that returns an `α` or raises an `ε`.  A sequence of them succeeds
just when every step does, and `bind_eq_ok` takes such a success apart; `each_eq_ok` does the same
for one computation for each element of a list.
-/

set_option autoImplicit false

namespace Lib

variable {ε ε' α β : Type}

variable {f : α → Except ε β}

/-- **A sequence succeeds** just when its first step does and the rest does with its result. -/
theorem bind_eq_ok {x : Except ε α} {b : β} : (x >>= f) = .ok b ↔ ∃ a, x = .ok a ∧ f a = .ok b := by
  cases x with
  | error e =>
    constructor
    · intro h
      cases h
    · rintro ⟨a, h, -⟩
      cases h
  | ok a =>
    constructor
    · intro h
      exact ⟨a, rfl, h⟩
    · rintro ⟨a', h, h'⟩
      cases h
      exact h'

@[simp] theorem ok_bind (a : α) (f : α → Except ε β) : (Except.ok a >>= f) = f a := rfl

/-- Raise one exception for another: `except E as exc: raise F(exc)`. -/
def raiseAs (f : ε → ε') : Except ε α → Except ε' α
  | .error e => .error (f e)
  | .ok a => .ok a

@[simp] theorem raiseAs_ok (f : ε → ε') (a : α) : raiseAs f (.ok a) = .ok a := rfl

theorem raiseAs_eq_ok {f : ε → ε'} {x : Except ε α} {a : α} :
    raiseAs f x = .ok a ↔ x = .ok a := by
  cases x with
  | error e =>
    constructor
    · intro h
      cases h
    · intro h
      cases h
  | ok a' =>
    rw [raiseAs_ok, Except.ok.injEq, Except.ok.injEq]

/-- The results for the elements of a list, one after the other. -/
def each (f : α → Except ε β) : List α → Except ε (List β)
  | [] => .ok []
  | a :: l => do
    let b ← f a
    let bs ← each f l
    return b :: bs

variable {l : List α}

variable {bs : List β}

theorem each_eq_ok : each f l = .ok bs ↔ List.Forall₂ (fun a b ↦ f a = .ok b) l bs := by
  induction l generalizing bs with
  | nil =>
    rw [each, Except.ok.injEq, List.forall₂_nil_left_iff, eq_comm]
  | cons a l ih =>
    rw [each, bind_eq_ok, List.forall₂_cons_left_iff]
    constructor
    · rintro ⟨b, hb, h⟩
      obtain ⟨bs', hbs, h⟩ := bind_eq_ok.mp h
      exact ⟨b, bs', hb, ih.mp hbs, (Except.ok.inj h).symm⟩
    · rintro ⟨b, bs', hb, hbs, rfl⟩
      exact ⟨b, hb, bind_eq_ok.mpr ⟨bs', ih.mpr hbs, rfl⟩⟩

/-- What a list is related to, element by element, is related to its elements. -/
theorem exists_mem_of_forall₂ {R : α → β → Prop} (h : List.Forall₂ R l bs) {b : β} (hb : b ∈ bs) :
    ∃ a ∈ l, R a b := by
  induction h with
  | nil => exact absurd hb List.not_mem_nil
  | cons hab hrest ih =>
    rcases List.mem_cons.mp hb with rfl | hb
    · exact ⟨_, List.mem_cons_self, hab⟩
    · obtain ⟨a, ha, hr⟩ := ih hb
      exact ⟨a, List.mem_cons_of_mem _ ha, hr⟩

theorem mem_of_each (h : each f l = .ok bs) {b : β} (hb : b ∈ bs) : ∃ a ∈ l, f a = .ok b :=
  exists_mem_of_forall₂ (each_eq_ok.mp h) hb

theorem exists_each (h : ∀ a ∈ l, ∃ b, f a = .ok b) : ∃ bs, each f l = .ok bs := by
  induction l with
  | nil => exact ⟨[], rfl⟩
  | cons a l ih =>
    obtain ⟨⟨b, hb⟩, hrest⟩ := List.forall_mem_cons.mp h
    obtain ⟨bs, hbs⟩ := ih hrest
    exact ⟨b :: bs, bind_eq_ok.mpr ⟨b, hb, bind_eq_ok.mpr ⟨bs, hbs, rfl⟩⟩⟩

/-- **Where each step succeeds with `g` just under `C`**, so do all of them. -/
theorem each_eq_ok_iff {C : α → Prop} {g : α → β}
    (h : ∀ a ∈ l, ∀ b, f a = .ok b ↔ C a ∧ b = g a) :
    each f l = .ok bs ↔ (∀ a ∈ l, C a) ∧ bs = l.map g := by
  induction l generalizing bs with
  | nil =>
    rw [each, Except.ok.injEq, List.map_nil, eq_comm]
    exact (and_iff_right fun a ha ↦ absurd ha List.not_mem_nil).symm
  | cons a l ih =>
    obtain ⟨ha, hrest⟩ := List.forall_mem_cons.mp h
    rw [each, bind_eq_ok, List.forall_mem_cons, List.map_cons]
    constructor
    · rintro ⟨b, hb, h⟩
      obtain ⟨bs', hbs, h⟩ := bind_eq_ok.mp h
      obtain ⟨hc, rfl⟩ := (ha b).mp hb
      obtain ⟨hall, rfl⟩ := (ih hrest).mp hbs
      exact ⟨⟨hc, hall⟩, (Except.ok.inj h).symm⟩
    · rintro ⟨⟨hc, hall⟩, rfl⟩
      exact ⟨g a, (ha _).mpr ⟨hc, rfl⟩, bind_eq_ok.mpr ⟨_, (ih hrest).mpr ⟨hall, rfl⟩, rfl⟩⟩

theorem each_eq_map {g : α → β} (h : ∀ a ∈ l, f a = .ok (g a)) : each f l = .ok (l.map g) := by
  induction l with
  | nil => rfl
  | cons a l ih =>
    obtain ⟨ha, hrest⟩ := List.forall_mem_cons.mp h
    rw [each, ha, ih hrest]
    rfl

end Lib
