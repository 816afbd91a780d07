import Mathlib.Data.Nat.Notation
import OpenRide.Lib.Machine

/-!
# Threads that run in sections

A procedure whose parts are separated by locks, reads and writes is a list of sections, and a
thread is the list of those it has still to run.  Running a section changes the shared state and
either goes on, with more sections in front of the rest, or raises: the rest is dropped then, up to
the next section that has a handler.  A section that has to wait, for a lock say, cannot run.

`Sections.machine` is the machine of any number of such threads: a move calls a procedure, runs
the next section of one thread, or restarts the process, which forgets all threads.

`Sections.keeps` is the rule for it.  Beside the property of the shared state it takes one of the
sections that are still to run, which may depend on the state: what one section does must keep the
property, establish that of the sections it adds, and not take it from the `others` that are still
to run.  The side condition of a run may be about the whole process; `Sections.When` is one that is
about the section that runs next.
-/

set_option autoImplicit false

namespace Lib

/-- What a section leads to: the state after it, and the sections it adds, or an exception. -/
inductive Outcome (σ τ : Type) where
  | next (s : σ) (todo : List τ)
  | raise (s : σ)

namespace Outcome

variable {σ τ : Type}

/-- The state after the section. -/
def state : Outcome σ τ → σ
  | next s _ => s
  | raise s => s

/-- The sections that are added. -/
def todo : Outcome σ τ → List τ
  | next _ todo => todo
  | raise _ => []

end Outcome

/-- Procedures `κ` made of sections `τ` over a shared state `σ`.  `ι` is what a section finds out
from outside: a clock, whether a write succeeds. -/
structure Sections (σ κ τ ι : Type) where
  /-- The sections of a procedure. -/
  program : κ → List τ
  /-- What a section leads to, `none` when it has to wait. -/
  run : σ → ι → τ → Option (Outcome σ τ)
  /-- What handles an exception that gets as far as this section; `none` lets it pass. -/
  handler : τ → Option (List τ)
  /-- The state a new process finds. -/
  restart : σ → σ

/-- The shared state, and what each thread has still to run. -/
structure Process (σ τ : Type) where
  state : σ
  threads : List (List τ)

/-- One move of a process. -/
inductive Move (κ ι : Type) where
  | call (procedure : κ)
  | run (thread : ℕ) (io : ι)
  | restart
deriving DecidableEq

namespace Sections

variable {σ κ τ ι : Type} (S : Sections σ κ τ ι)

/-- What is left to run after an exception. -/
def unwind : List τ → List τ
  | [] => []
  | c :: rest => (S.handler c).elim (unwind rest) (· ++ rest)

/-- What a thread has to run after a section. -/
def after (out : Outcome σ τ) (rest : List τ) : List τ :=
  match out with
  | .next _ todo => todo ++ rest
  | .raise _ => S.unwind rest

/-- The machine of the threads. -/
def machine : Machine (Process σ τ) (Move κ ι) where
  step p
    | .call c => some { p with threads := p.threads ++ [S.program c] }
    | .run i io =>
      match p.threads[i]? with
      | some (c :: rest) =>
        (S.run p.state io c).map fun out ↦
          { state := out.state, threads := p.threads.set i (S.after out rest) }
      | _ => none
    | .restart => some { state := S.restart p.state, threads := [] }

/-- The process at the start. -/
def start (s : σ) : Process σ τ := { state := s, threads := [] }

/-- The next section of a thread. -/
def nextSection (p : Process σ τ) (i : ℕ) : Option τ := p.threads[i]?.bind List.head?

/-- A condition on the sections that run. -/
def When (C : σ → ι → τ → Prop) (p : Process σ τ) : Move κ ι → Prop
  | .run i io => ∀ c ∈ nextSection p i, C p.state io c
  | _ => True

instance (C : σ → ι → τ → Prop) [∀ s io c, Decidable (C s io c)] (p : Process σ τ)
    (m : Move κ ι) : Decidable (When C p m) :=
  match m with
  | .call _ => inferInstanceAs (Decidable True)
  | .run i io => inferInstanceAs (Decidable (∀ c ∈ nextSection p i, C p.state io c))
  | .restart => inferInstanceAs (Decidable True)

variable {S}

variable {rest : List τ}

/-- What is left after an exception was there before, or handles it. -/
theorem mem_unwind {c : τ} (h : c ∈ S.unwind rest) :
    c ∈ rest ∨ ∃ d ∈ rest, ∃ l, S.handler d = some l ∧ c ∈ l := by
  induction rest with
  | nil => exact absurd h List.not_mem_nil
  | cons d rest ih =>
    rw [unwind] at h
    cases hd : S.handler d with
    | none =>
      rw [hd] at h
      rcases ih h with hc | ⟨e, he, hc⟩
      · exact Or.inl (List.mem_cons_of_mem _ hc)
      · exact Or.inr ⟨e, List.mem_cons_of_mem _ he, hc⟩
    | some l =>
      rw [hd, Option.elim_some] at h
      rcases List.mem_append.mp h with hc | hc
      · exact Or.inr ⟨d, List.mem_cons_self, l, hd, hc⟩
      · exact Or.inl (List.mem_cons_of_mem _ hc)

/-- What a thread has to run after a section was added by it, was there before, or handles its
exception. -/
theorem mem_after {out : Outcome σ τ} {c : τ} (h : c ∈ S.after out rest) :
    c ∈ out.todo ∨ c ∈ rest ∨ ∃ d ∈ rest, ∃ l, S.handler d = some l ∧ c ∈ l := by
  cases out with
  | next s todo => exact (List.mem_append.mp h).imp_right Or.inl
  | raise s => exact Or.inr (mem_unwind h)

variable {p : Process σ τ}

variable {q : Process σ τ}

/-- Running a section, taken apart. -/
theorem step_run {i : ℕ} {io : ι} (h : S.machine.step p (.run i io) = some q) :
    ∃ c rest out, p.threads[i]? = some (c :: rest) ∧ S.run p.state io c = some out ∧
      q = { state := out.state, threads := p.threads.set i (S.after out rest) } := by
  simp only [machine] at h
  cases ht : p.threads[i]? with
  | none =>
    rw [ht] at h
    cases h
  | some t =>
    rw [ht] at h
    cases t with
    | nil => cases h
    | cons c rest =>
      obtain ⟨out, hout, rfl⟩ := Option.map_eq_some_iff.mp h
      exact ⟨c, rest, out, rfl, hout, rfl⟩

/-- The sections that are still to run in some thread. -/
def pending (p : Process σ τ) : List τ := p.threads.flatten

/-- The sections that are still to run beside the next one of a thread. -/
def others (p : Process σ τ) (i : ℕ) : List τ := (p.threads.modify i List.tail).flatten

theorem mem_pending_of_mem_others {i : ℕ} {c : τ} (h : c ∈ others p i) : c ∈ pending p := by
  obtain ⟨t, ht, hc⟩ := List.mem_flatten.mp h
  obtain ⟨j, hj⟩ := List.getElem?_of_mem ht
  rw [List.getElem?_modify] at hj
  obtain ⟨u, hu, rfl⟩ := Option.map_eq_some_iff.mp hj
  refine List.mem_flatten.mpr ⟨u, List.mem_of_getElem? hu, ?_⟩
  split at hc
  · exact List.mem_of_mem_tail hc
  · exact hc

theorem mem_pending_of_thread {i : ℕ} {c : τ} (hthread : p.threads[i]? = some (c :: rest)) :
    c ∈ pending p :=
  List.mem_flatten.mpr ⟨_, List.mem_of_getElem? hthread, List.mem_cons_self⟩

theorem mem_others_of_rest {i : ℕ} {c d : τ} (hthread : p.threads[i]? = some (c :: rest))
    (h : d ∈ rest) : d ∈ others p i := by
  refine List.mem_flatten.mpr ⟨rest, List.mem_of_getElem? (i := i) ?_, h⟩
  rw [List.getElem?_modify, hthread]
  simp

theorem mem_others_of_ne {i j : ℕ} {t : List τ} {d : τ} (ht : p.threads[j]? = some t) (hne : i ≠ j)
    (h : d ∈ t) : d ∈ others p i := by
  refine List.mem_flatten.mpr ⟨t, List.mem_of_getElem? (i := j) ?_, h⟩
  rw [List.getElem?_modify, ht]
  simp [hne]

theorem notMem_pending_start {s : σ} {c : τ} : c ∉ pending (start s) := List.not_mem_nil

variable {P : σ → Prop} {Q : σ → τ → Prop}

/-- **The invariant rule for threads**: a property `P` of the state and a property `Q` of the
sections still to run, which every procedure starts with and every handler has, are kept as long as
each section keeps them. -/
theorem keeps {C : Process σ τ → Move κ ι → Prop} (h : S.machine.Reach C p q)
    (h0 : P p.state ∧ ∀ c ∈ pending p, Q p.state c) (hcall : ∀ t k, ∀ c ∈ S.program k, Q t c)
    (hhandler : ∀ t c l, S.handler c = some l → ∀ d ∈ l, Q t d)
    (hrun : ∀ a i io c rest out, a.threads[i]? = some (c :: rest) → P a.state →
      (∀ d ∈ pending a, Q a.state d) → C a (.run i io) → S.run a.state io c = some out →
      P out.state ∧ (∀ d ∈ out.todo, Q out.state d) ∧ ∀ d ∈ others a i, Q out.state d)
    (hrestart : ∀ t, P t → P (S.restart t)) : P q.state ∧ ∀ c ∈ pending q, Q q.state c := by
  refine h.invariant (P := fun p ↦ P p.state ∧ ∀ c ∈ pending p, Q p.state c) h0
    fun a m b ⟨hP, hQ⟩ hC hstep ↦ ?_
  cases m with
  | call k =>
    cases hstep
    refine ⟨hP, fun c hc ↦ ?_⟩
    rw [pending, List.flatten_append, List.mem_append] at hc
    rcases hc with hc | hc
    · exact hQ c hc
    · rw [List.flatten_singleton] at hc
      exact hcall _ k c hc
  | run i io =>
    obtain ⟨c, rest, out, hthread, hout, rfl⟩ := step_run hstep
    obtain ⟨h1, h2, h3⟩ := hrun a i io c rest out hthread hP hQ hC hout
    refine ⟨h1, fun d hd ↦ ?_⟩
    obtain ⟨t, ht, hd⟩ := List.mem_flatten.mp hd
    obtain ⟨j, hj⟩ := List.getElem?_of_mem ht
    rw [List.getElem?_set] at hj
    split at hj
    · split at hj
      · rw [← Option.some_inj.mp hj] at hd
        rcases mem_after hd with hd | hd | ⟨e, -, l, hl, hd⟩
        · exact h2 d hd
        · exact h3 d (mem_others_of_rest hthread hd)
        · exact hhandler _ e l hl d hd
      · cases hj
    · next hne => exact h3 d (mem_others_of_ne hj hne hd)
  | restart =>
    cases hstep
    exact ⟨hrestart _ hP, nofun⟩

theorem When.run {C : σ → ι → τ → Prop} {i : ℕ} {io : ι} {c : τ}
    (h : When C p (.run i io : Move κ ι)) (hthread : p.threads[i]? = some (c :: rest)) :
    C p.state io c :=
  h c (by
    rw [nextSection, hthread]
    rfl)

end Sections

end Lib
