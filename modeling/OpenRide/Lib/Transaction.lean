import OpenRide.Lib.Fallible

/-!
# Transactions

A connection has the committed state and, while a transaction is open, a copy the transaction works
on.  A statement changes the copy, or the committed state when none is open, and may fail for
reasons of its own (`effect`) or of the database's (`fault`).  Committing puts the copy in place.

`transact` runs statements in one transaction and rolls back at the first failure, whether or not
the rollback itself succeeds.  `transact_spec` is the law of it: all or nothing.
-/

set_option autoImplicit false

namespace Lib

variable {σ α ε : Type}

/-- A connection: what is committed, and what an open transaction has made of it. -/
structure Conn (σ : Type) where
  committed : σ
  working : Option σ := none

/-- What is sent to a connection. -/
inductive Command (α : Type) where
  | begin
  | statement (a : α)
  | commit
  | rollback

namespace Conn

section

variable (effect : α → σ → Except ε σ) (fault : Command α → Option ε)

/-- One command, if the database does not refuse it. -/
def run (c : Conn σ) : Command α → Except ε (Conn σ)
  | .begin => .ok { c with working := some c.committed }
  | .statement a =>
    match c.working with
    | none => (effect a c.committed).map fun s ↦ { c with committed := s }
    | some w => (effect a w).map fun s ↦ { c with working := some s }
  | .commit => .ok { committed := c.working.getD c.committed }
  | .rollback => .ok { c with working := none }

/-- One command. -/
def execute (c : Conn σ) (cmd : Command α) : Except ε (Conn σ) :=
  match fault cmd with
  | some e => .error e
  | none => c.run effect cmd

/-- Commands in order, up to the first that fails, and the connection as it is then. -/
def executeAll : List (Command α) → Conn σ → Except ε Unit × Conn σ
  | [], c => (.ok (), c)
  | cmd :: cmds, c =>
    match c.execute effect fault cmd with
    | .error e => (.error e, c)
    | .ok c => executeAll cmds c

/-- Statements in one transaction. -/
def transact (stmts : List α) (c : Conn σ) : Except ε Unit × Conn σ :=
  match c.execute effect fault .begin with
  | .error e => (.error e, c)
  | .ok c =>
    match c.executeAll effect fault (stmts.map .statement ++ [.commit]) with
    | (.ok _, c) => (.ok (), c)
    | (.error e, c) =>
      match c.execute effect fault .rollback with
      | .error _ => (.error e, c)
      | .ok c => (.error e, c)

/-- What statements make of a state, one after the other. -/
def applyAll : List α → σ → Except ε σ
  | [], s => .ok s
  | a :: as, s => effect a s >>= applyAll as

theorem applyAll_append (as bs : List α) (s : σ) :
    applyAll effect (as ++ bs) s = applyAll effect as s >>= applyAll effect bs := by
  induction as generalizing s with
  | nil => rfl
  | cons a as ih =>
    rw [List.cons_append, applyAll, applyAll]
    cases effect a s with
    | error e => rfl
    | ok s' => exact ih s'

/-- **Inside a transaction** nothing is committed before the last command. -/
theorem executeAll_spec {stmts : List α} {s w : σ} {r : Except ε Unit} {c' : Conn σ}
    (h : executeAll effect fault (stmts.map .statement ++ [.commit]) ⟨s, some w⟩ = (r, c')) :
    (r = .ok () ∧ applyAll effect stmts w = .ok c'.committed ∧ c'.working = none) ∨
      ((∃ e, r = .error e) ∧ c'.committed = s) := by
  induction stmts generalizing w with
  | nil =>
    rw [List.map_nil, List.nil_append, executeAll, execute] at h
    cases hfault : fault .commit with
    | some e =>
      rw [hfault] at h
      obtain ⟨rfl, rfl⟩ := Prod.mk.inj h
      exact Or.inr ⟨⟨e, rfl⟩, rfl⟩
    | none =>
      rw [hfault] at h
      obtain ⟨rfl, rfl⟩ := Prod.mk.inj h
      exact Or.inl ⟨rfl, rfl, rfl⟩
  | cons a stmts ih =>
    rw [List.map_cons, List.cons_append, executeAll, execute] at h
    cases hfault : fault (.statement a) with
    | some e =>
      rw [hfault] at h
      obtain ⟨rfl, rfl⟩ := Prod.mk.inj h
      exact Or.inr ⟨⟨e, rfl⟩, rfl⟩
    | none =>
      rw [hfault, run] at h
      dsimp only at h
      cases heffect : effect a w with
      | error e =>
        rw [heffect] at h
        obtain ⟨rfl, rfl⟩ := Prod.mk.inj h
        exact Or.inr ⟨⟨e, rfl⟩, rfl⟩
      | ok w' =>
        rw [heffect] at h
        rw [applyAll, heffect, ok_bind]
        exact ih h

/-- **All or nothing**: a transaction has the effect of all its statements, or it fails and what is
committed is what was. -/
theorem transact_spec {stmts : List α} {c c' : Conn σ} {r : Except ε Unit}
    (h : transact effect fault stmts c = (r, c')) :
    (r = .ok () ∧ applyAll effect stmts c.committed = .ok c'.committed) ∨
      ((∃ e, r = .error e) ∧ c'.committed = c.committed) := by
  rw [transact, execute] at h
  cases hbegin : fault .begin with
  | some e =>
    rw [hbegin] at h
    obtain ⟨rfl, rfl⟩ := Prod.mk.inj h
    exact Or.inr ⟨⟨e, rfl⟩, rfl⟩
  | none =>
    rw [hbegin, run] at h
    dsimp only at h
    cases hall : executeAll effect fault (stmts.map .statement ++ [.commit])
        { c with working := some c.committed } with
    | mk r' c₁ =>
      rw [hall] at h
      rcases executeAll_spec effect fault hall with ⟨rfl, happly, -⟩ | ⟨⟨e, rfl⟩, hsame⟩
      · obtain ⟨rfl, rfl⟩ := Prod.mk.inj h
        exact Or.inl ⟨rfl, happly⟩
      · dsimp only at h
        rw [execute] at h
        cases hroll : fault .rollback with
        | some e' =>
          rw [hroll] at h
          obtain ⟨rfl, rfl⟩ := Prod.mk.inj h
          exact Or.inr ⟨⟨e, rfl⟩, hsame⟩
        | none =>
          rw [hroll, run] at h
          obtain ⟨rfl, rfl⟩ := Prod.mk.inj h
          exact Or.inr ⟨⟨e, rfl⟩, hsame⟩

end

end Conn

end Lib
