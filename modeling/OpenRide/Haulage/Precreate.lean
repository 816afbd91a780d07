import Mathlib.Data.String.Basic
import Mathlib.Logic.Function.Basic
import OpenRide.Datagen.Values
import OpenRide.Lib.BreakOff
import OpenRide.Lib.Dict
import OpenRide.Lib.Machine
import OpenRide.Lib.Sorted

/-!
# Documents before the agents boot

Before the agents of a run boot, their documents are inserted in bulk: one for every truck and
facility, owned by the agent's own user, and one for every order, all owned by the user of the
order lifecycle.  What the owner of a document to be already has in the collection decides whether
it is inserted.

An invocation may break off anywhere.  For trucks and facilities the next one goes on where it
stopped.  For orders it does so only when none was stored yet: the first that is makes every later
invocation skip them all.  And an invocation ends all the same when the server refuses a signup,
without the documents of whoever it was (`resumed_iff`).
-/

namespace OpenRide.Haulage.Precreate

open Lib Datagen

/-! ## The database -/

abbrev ObjectId := ℕ

/-- The collections that are written. -/
inductive Collection where
  | truck
  | facility
  | order
deriving DecidableEq

/-- The state machine of the documents of a collection. -/
def Collection.stateMachine : Collection → String
  | .truck => "WorkflowStateMachine"
  | .facility => "GateStateMachine"
  | .order => "OrderStateMachine"

/-- A document: whose it is, what its builder made of the behavior, and its stamps. -/
structure Doc (γ : Type) where
  runId : String
  user : ObjectId
  content : γ
  statemachine : ObjectId
  simClock : ℤ

/-- The database.  An id that was given out is below the next one. -/
structure Db (γ : Type) where
  statemachines : Dict String ObjectId
  users : Dict String ObjectId
  nextId : ObjectId
  docs : Collection → List (Doc γ)

/-- The database with the documents of a collection replaced. -/
def Db.setDocs {γ : Type} (db : Db γ) (c : Collection) (docs : List (Doc γ)) : Db γ :=
  { db with docs := Function.update db.docs c docs }

/-- The documents of a run in a collection. -/
def Db.ofRun {γ : Type} (db : Db γ) (c : Collection) (runId : String) : List (Doc γ) :=
  (db.docs c).filter fun d ↦ d.runId = runId

/-- A behavior: the e-mail, and what the builders read. -/
structure Behavior (β : Type) where
  email : Option String
  body : β

/-- `behavior.get("email")`, if it is not empty. -/
def Behavior.address {β : Type} (b : Behavior β) : Option String := b.email.filter (· ≠ "")

/-- The arguments of `precreate_agent_docs`; no orders are an empty dictionary. -/
structure Args (β : Type) where
  runId : String
  behaviors : Collection → Dict String (Behavior β)
  simClock : ℤ
  orderOwnerEmail : Option String := none

/-! ## What may go wrong -/

/-- A read, or anything else between two writes, that may raise. -/
inductive Stage where
  | statemachines
  | users
  | newUsers
  | docs (c : Collection)
deriving DecidableEq

/-- How the server takes a signup: it makes the user, it answers and does not, or the request
raises. -/
inductive SignupOutcome where
  | created
  | refused
  | raised
deriving DecidableEq

/-- What an invocation meets with: reads that raise, answers to signups, and how each bulk insert
ends. -/
structure Weather where
  raises : Stage → Bool
  signup : String → SignupOutcome
  insert : Collection → ℕ → BulkOutcome

/-! ## `precreate_agent_docs` -/

def ORDER_INSERT_CHUNK : ℕ := 10000

/-- What is returned. -/
structure Stats where
  trucksInserted : ℕ
  facilitiesInserted : ℕ
  trucksSkipped : ℕ
  facilitiesSkipped : ℕ
  ordersInserted : ℕ
  ordersSkipped : ℕ
  usersResolved : ℕ
deriving DecidableEq

section

variable {β γ : Type}

/-- The state machines whose ids are looked up. -/
def Args.collections (args : Args β) : List Collection :=
  if (args.behaviors .order).size = 0 then [.truck, .facility] else [.truck, .facility, .order]

/-- `_statemachine_ids`. -/
def statemachineIds (args : Args β) (w : Weather) (db : Db γ) :
    Attempted (Db γ) (Collection → ObjectId) :=
  if w.raises .statemachines then ⟨db, none⟩
  else if args.collections.all fun c ↦ (db.statemachines.get? c.stateMachine).isSome then
    ⟨db, some fun c ↦ (db.statemachines.get? c.stateMachine).getD 0⟩
  else ⟨db, none⟩

/-- `order_owner_email`. -/
def Args.ownerEmail (args : Args β) : Option String :=
  if (args.behaviors .order).size = 0 then none
  else
    let email := pyStrip (args.orderOwnerEmail.getD "")
    some (if email = "" then "order_lifecycle_main@test.com" else email)

/-- `emails`. -/
def Args.emails (args : Args β) : List String :=
  sortedBy id (((args.behaviors .truck).values.filterMap Behavior.address ++
    (args.behaviors .facility).values.filterMap Behavior.address ++
    args.ownerEmail.toList).dedup)

/-- The signups of some e-mails, one after the other. -/
def signUp (w : Weather) : List String → Db γ → Attempted (Db γ) Unit
  | [], db => ⟨db, some ()⟩
  | email :: emails, db =>
    match w.signup email with
    | .created =>
      signUp w emails { db with users := db.users.set email db.nextId, nextId := db.nextId + 1 }
    | .refused => signUp w emails db
    | .raised => ⟨db, none⟩

/-- The users of some e-mails. -/
def Db.usersOf (db : Db γ) (emails : List String) : Dict String ObjectId :=
  db.users.filter fun email _ ↦ email ∈ emails

/-- `_resolve_user_ids`. -/
def resolveUserIds (w : Weather) (emails : List String) (db : Db γ) :
    Attempted (Db γ) (Dict String ObjectId) :=
  if w.raises .users then ⟨db, none⟩
  else
    match emails.filter fun email ↦ db.users.get? email = none with
    | [] => ⟨db, some (db.usersOf emails)⟩
    | missing =>
      (signUp w missing db).andThen fun _ db ↦
        if w.raises .newUsers then ⟨db, none⟩ else ⟨db, some (db.usersOf emails)⟩

/-- The document of a behavior; `build` stands for `_truck_doc`, `_facility_doc` and
`_order_doc`. -/
def docOf (build : Collection → β → γ) (args : Args β) (smIds : Collection → ObjectId)
    (c : Collection) (b : Behavior β) (user : ObjectId) : Doc γ :=
  ⟨args.runId, user, build c b.body, smIds c, args.simClock⟩

/-- The behaviors of a collection whose e-mail has a user. -/
def resolved (args : Args β) (emailToUid : Dict String ObjectId) (c : Collection) :
    List (Behavior β × ObjectId) :=
  (args.behaviors c).values.filterMap fun b ↦
    (b.address.bind emailToUid.get?).map fun user ↦ (b, user)

/-- The loop over the trucks, or over the facilities: how many were inserted and skipped. -/
def precreateAgents (build : Collection → β → γ) (args : Args β) (w : Weather)
    (smIds : Collection → ObjectId) (emailToUid : Dict String ObjectId) (c : Collection)
    (db : Db γ) : Attempted (Db γ) (ℕ × ℕ) :=
  if w.raises (.docs c) then ⟨db, none⟩
  else
    let existing := (db.ofRun c args.runId).map Doc.user
    let new := (resolved args emailToUid c).filter fun b ↦ b.2 ∉ existing
    let docs := new.map fun b ↦ docOf build args smIds c b.1 b.2
    let skipped := (resolved args emailToUid c).length - new.length
    if docs.isEmpty then ⟨db, some (0, skipped)⟩
    else
      let inserted := insertMany (w.insert c 0) docs (db.docs c)
      ⟨db.setDocs c inserted.state, inserted.result.map fun _ ↦ (docs.length, skipped)⟩

/-- The orders: how many were inserted and skipped. -/
def precreateOrders (build : Collection → β → γ) (args : Args β) (w : Weather)
    (smIds : Collection → ObjectId) (emailToUid : Dict String ObjectId) (db : Db γ) :
    Attempted (Db γ) (ℕ × ℕ) :=
  match args.ownerEmail.bind emailToUid.get? with
  | none => ⟨db, some (0, 0)⟩
  | some owner =>
    if w.raises (.docs .order) then ⟨db, none⟩
    else if owner ∈ (db.ofRun .order args.runId).map Doc.user then
      ⟨db, some (0, (args.behaviors .order).size)⟩
    else
      let docs := (args.behaviors .order).values.map fun b ↦ docOf build args smIds .order b owner
      let inserted := insertChunks (w.insert .order) 0 (chunksOf ORDER_INSERT_CHUNK docs)
        (db.docs .order)
      ⟨db.setDocs .order inserted.state, inserted.result.map fun n ↦ (n, 0)⟩

/-- `precreate_agent_docs`. -/
def precreateAgentDocs (build : Collection → β → γ) (args : Args β) (w : Weather) (db : Db γ) :
    Attempted (Db γ) Stats :=
  (statemachineIds args w db).andThen fun smIds db ↦
  (resolveUserIds w args.emails db).andThen fun emailToUid db ↦
  (precreateAgents build args w smIds emailToUid .truck db).andThen fun trucks db ↦
  (precreateAgents build args w smIds emailToUid .facility db).andThen fun facilities db ↦
  (precreateOrders build args w smIds emailToUid db).andThen fun orders db ↦
    ⟨db, some ⟨trucks.1, facilities.1, trucks.2, facilities.2, orders.1, orders.2,
      emailToUid.size⟩⟩

/-- Invocations with the same arguments, one after the other. -/
def invoking (build : Collection → β → γ) (args : Args β) : Machine (Db γ) Weather where
  step db w := some (precreateAgentDocs build args w db).state

/-! ## What is asked of it -/

/-- The trucks and facilities have e-mails, all different. -/
structure Args.Addressed (args : Args β) : Prop where
  email : ∀ c, c ≠ .order → ∀ b ∈ (args.behaviors c).values, b.address ≠ none
  nodup : (((args.behaviors .truck).values ++ (args.behaviors .facility).values).map
    Behavior.email).Nodup

/-- The users are different, and none of their ids is given out again. -/
structure Db.UsersOk (db : Db γ) : Prop where
  injective : ∀ e e' user, db.users.get? e = some user → db.users.get? e' = some user → e = e'
  given : ∀ e user, db.users.get? e = some user → user < db.nextId

/-- The documents a user has of a run. -/
def Db.ofUser (db : Db γ) (c : Collection) (runId : String) (user : ObjectId) : List (Doc γ) :=
  (db.ofRun c runId).filter fun d ↦ d.user = user

/-- A run of which no documents are stored yet. -/
structure Fresh (args : Args β) (db : Db γ) : Prop where
  users : db.UsersOk
  docs : ∀ c, db.ofRun c args.runId = []

/-- Every truck and facility has exactly one document, and the orders are stored one for one. -/
structure Complete (build : Collection → β → γ) (args : Args β) (db : Db γ) : Prop where
  agents : ∀ c, c ≠ .order → ∀ b ∈ (args.behaviors c).values, ∃ user d,
    b.address.bind db.users.get? = some user ∧ db.ofUser c args.runId user = [d] ∧
      d.content = build c b.body
  orders : ((db.ofRun .order args.runId).map Doc.content).Perm
    ((args.behaviors .order).values.map fun b ↦ build .order b.body)

/-- The server makes a user for every address that has none. -/
def Accepted (args : Args β) (w : Weather) (db : Db γ) : Prop :=
  ∀ e ∈ args.emails, db.users.get? e = none → w.signup e ≠ .refused

/-- The documents are complete, and no further invocation changes anything. -/
def Resumed (build : Collection → β → γ) (args : Args β) (db : Db γ) : Prop :=
  Complete build args db ∧ ∀ w, (precreateAgentDocs build args w db).state = db

end

/-! ## The documents of a run -/

section Docs

variable {γ : Type} {db : Db γ} {c c' : Collection} {runId : String} {docs : List (Doc γ)}

theorem setDocs_self : db.setDocs c (db.docs c) = db := by
  rw [Db.setDocs, Function.update_eq_self]

theorem ofRun_setDocs_ne (h : c' ≠ c) :
    (db.setDocs c docs).ofRun c' runId = db.ofRun c' runId := by
  simp only [Db.ofRun, Db.setDocs, Function.update_of_ne h]

/-- Documents of a run are added to those the run has. -/
theorem ofRun_setDocs_append (hdocs : ∀ d ∈ docs, d.runId = runId) :
    (db.setDocs c (db.docs c ++ docs)).ofRun c runId = db.ofRun c runId ++ docs := by
  simp only [Db.ofRun, Db.setDocs, Function.update_self, List.filter_append]
  rw [List.filter_eq_self.mpr fun d hd ↦ decide_eq_true (hdocs d hd)]

end Docs

/-! ## What every invocation keeps -/

variable {β γ : Type} {build : Collection → β → γ} {args : Args β} {w : Weather} {db : Db γ}

/-- What holds of the documents of a run between invocations. -/
structure Underway (build : Collection → β → γ) (args : Args β) (db : Db γ) : Prop where
  users : db.UsersOk
  given : ∀ c, ∀ d ∈ db.ofRun c args.runId, d.user < db.nextId
  agents : ∀ c, c ≠ .order → ∀ b ∈ (args.behaviors c).values, ∀ user,
    b.address.bind db.users.get? = some user →
      db.ofUser c args.runId user = [] ∨
        ∃ d, db.ofUser c args.runId user = [d] ∧ d.content = build c b.body
  owner : ∀ d ∈ db.ofRun .order args.runId, args.ownerEmail.bind db.users.get? = some d.user
  orders : ((db.ofRun .order args.runId).map Doc.content).Sublist
    ((args.behaviors .order).values.map fun b ↦ build .order b.body)

theorem Fresh.underway (h : Fresh args db) : Underway build args db := by
  refine ⟨h.users, fun c d hd ↦ ?_, fun c _ b _ user _ ↦ Or.inl ?_, fun d hd ↦ ?_, ?_⟩
  · simp [h.docs] at hd
  · rw [Db.ofUser, h.docs, List.filter_nil]
  · simp [h.docs] at hd
  · simp [h.docs]

/-! ### Users -/

theorem Underway.newUser (h : Underway build args db) {email : String}
    (hnone : db.users.get? email = none) :
    Underway build args
      { db with users := db.users.set email db.nextId, nextId := db.nextId + 1 } := by
  have hget : ∀ e, (db.users.set email db.nextId).get? e =
      if e = email then some db.nextId else db.users.get? e :=
    fun e ↦ Dict.get?_set db.users email e db.nextId
  refine ⟨⟨fun e e' user he he' ↦ ?_, fun e user he ↦ ?_⟩, fun c d hd ↦ ?_,
    fun c hc b hb user huser ↦ ?_, fun d hd ↦ ?_, h.orders⟩
  · rw [hget] at he he'
    split at he <;> split at he'
    · next h1 h2 => rw [h1, h2]
    · rw [← he] at he'
      exact absurd (h.users.given e' _ he') (lt_irrefl _)
    · rw [← he'] at he
      exact absurd (h.users.given e _ he) (lt_irrefl _)
    · exact h.users.injective e e' user he he'
  · rw [hget] at he
    split at he
    · rw [← Option.some_inj.mp he]
      exact Nat.lt_succ_self _
    · exact (h.users.given e user he).trans (Nat.lt_succ_self _)
  · exact (h.given c d hd).trans (Nat.lt_succ_self _)
  · obtain ⟨e, he, huser⟩ := Option.bind_eq_some_iff.mp huser
    rw [hget] at huser
    split at huser
    · -- the id is new, so no document of the run has it
      refine Or.inl (List.filter_eq_nil_iff.mpr fun d hd hsame ↦ ?_)
      have hlt := h.given c d hd
      rw [of_decide_eq_true hsame, ← Option.some_inj.mp huser] at hlt
      exact lt_irrefl _ hlt
    · exact h.agents c hc b hb user (Option.bind_eq_some_iff.mpr ⟨e, he, huser⟩)
  · obtain ⟨e, he, howner⟩ := Option.bind_eq_some_iff.mp (h.owner d hd)
    refine Option.bind_eq_some_iff.mpr ⟨e, he, ?_⟩
    rw [hget, if_neg, howner]
    rintro rfl
    rw [hnone] at howner
    cases howner

theorem signUp_underway {emails : List String} (h : Underway build args db)
    (hnodup : emails.Nodup) (hnone : ∀ e ∈ emails, db.users.get? e = none) :
    Underway build args (signUp w emails db).state := by
  induction emails generalizing db with
  | nil => exact h
  | cons email emails ih =>
    obtain ⟨hnew, hnodup⟩ := List.nodup_cons.mp hnodup
    rw [signUp]
    split
    · refine ih (h.newUser (hnone email List.mem_cons_self)) hnodup fun e he ↦ ?_
      have hne : e ≠ email := fun heq ↦ hnew (heq ▸ he)
      rw [Dict.get?_set_ne _ _ hne]
      exact hnone e (List.mem_cons_of_mem email he)
    · exact ih h hnodup fun e he ↦ hnone e (List.mem_cons_of_mem email he)
    · exact h

/-- Signups that end: who has a user then had one, or was not refused. -/
theorem signUp_users {emails : List String} (hok : (signUp w emails db).result = some ())
    (e : String) : (signUp w emails db).state.users.get? e ≠ none ↔
      db.users.get? e ≠ none ∨ e ∈ emails ∧ w.signup e ≠ .refused := by
  induction emails generalizing db with
  | nil => simp [signUp]
  | cons email emails ih =>
    rw [signUp] at hok ⊢
    split at hok
    · next hcreated =>
      rw [ih hok, List.mem_cons, Dict.get?_set]
      by_cases heq : e = email
      · subst heq
        simp [hcreated]
      · simp [heq]
    · next hrefused =>
      rw [ih hok, List.mem_cons]
      by_cases heq : e = email
      · subst heq
        simp [hrefused]
      · simp [heq]
    · cases hok

theorem signUp_docs {emails : List String} : (signUp w emails db).state.docs = db.docs := by
  induction emails generalizing db with
  | nil => rfl
  | cons email emails ih =>
    rw [signUp]
    split
    · rw [ih]
    · exact ih
    · rfl

theorem emails_nodup (args : Args β) : args.emails.Nodup :=
  (sortedBy_perm id _).nodup_iff.mpr (List.nodup_dedup _)

theorem mem_emails {e : String} : e ∈ args.emails ↔
    (∃ c, c ≠ .order ∧ ∃ b ∈ (args.behaviors c).values, b.address = some e) ∨
      args.ownerEmail = some e := by
  rw [Args.emails, mem_sortedBy, List.mem_dedup, List.mem_append, List.mem_append,
    List.mem_filterMap, List.mem_filterMap, Option.mem_toList]
  refine or_congr_left ⟨?_, ?_⟩
  · rintro (h | h)
    · exact ⟨.truck, by decide, h⟩
    · exact ⟨.facility, by decide, h⟩
  · rintro ⟨c, hc, h⟩
    cases c with
    | truck => exact Or.inl h
    | facility => exact Or.inr h
    | order => exact absurd rfl hc

theorem usersOf_get? {emails : List String} {e : String} (he : e ∈ emails) :
    (db.usersOf emails).get? e = db.users.get? e := by
  refine Option.ext fun user ↦ ?_
  rw [Db.usersOf, Dict.get?_filter]
  exact and_iff_left (decide_eq_true he)

/-- Resolving the users keeps the documents, and finds everybody unless a signup is refused; who
had a user keeps it. -/
theorem resolveUserIds_spec (h : Underway build args db) :
    Underway build args (resolveUserIds w args.emails db).state ∧
      (resolveUserIds w args.emails db).state.docs = db.docs ∧
      ∀ found, (resolveUserIds w args.emails db).result = some found →
        found = (resolveUserIds w args.emails db).state.usersOf args.emails ∧
          ∀ e ∈ args.emails, (resolveUserIds w args.emails db).state.users.get? e ≠ none ↔
            (db.users.get? e = none → w.signup e ≠ .refused) := by
  rw [resolveUserIds]
  split
  · exact ⟨h, rfl, fun found hf ↦ by cases hf⟩
  · have hmissing : ∀ e ∈ args.emails.filter fun e ↦ db.users.get? e = none,
        db.users.get? e = none := fun e he ↦ of_decide_eq_true (List.mem_filter.mp he).2
    split
    · next hnil =>
      refine ⟨h, rfl, fun found hf ↦ ⟨(Option.some_inj.mp hf).symm, fun e he ↦ ?_⟩⟩
      have hsome : db.users.get? e ≠ none := by
        intro hnone
        have hmem : e ∈ args.emails.filter fun e ↦ db.users.get? e = none :=
          List.mem_filter.mpr ⟨he, decide_eq_true hnone⟩
        rw [hnil] at hmem
        exact List.not_mem_nil hmem
      exact iff_of_true hsome fun hnone ↦ absurd hnone hsome
    · have hnodup := (emails_nodup args).filter fun e ↦ decide (db.users.get? e = none)
      refine ⟨?_, ?_, fun found hf ↦ ?_⟩
      · refine Attempted.andThen_state (signUp_underway h hnodup hmissing) fun _ hok ↦ ?_
        split <;> exact signUp_underway h hnodup hmissing
      · refine @Attempted.andThen_state _ _ _ _ _ (fun s : Db γ ↦ s.docs = db.docs) signUp_docs
          fun _ hok ↦ ?_
        split <;> exact signUp_docs
      · obtain ⟨u, hu, hf, hstate⟩ := Attempted.andThen_eq_some hf
        rw [hstate]
        split at hf
        · cases hf
        · next hreads =>
          rw [if_neg hreads]
          refine ⟨(Option.some_inj.mp hf).symm, fun e he ↦ ?_⟩
          rw [signUp_users hu]
          by_cases hnone : db.users.get? e = none
          · simp [hnone, he]
          · exact iff_of_true (Or.inl hnone) fun h ↦ absurd h hnone

/-- When everybody has a user already, nobody signs up. -/
theorem resolveUserIds_state (hall : ∀ e ∈ args.emails, db.users.get? e ≠ none) :
    (resolveUserIds w args.emails db).state = db ∧
      ∀ found, (resolveUserIds w args.emails db).result = some found →
        found = db.usersOf args.emails := by
  have hnil : (args.emails.filter fun e ↦ db.users.get? e = none) = [] :=
    List.filter_eq_nil_iff.mpr fun e he hnone ↦ hall e he (of_decide_eq_true hnone)
  rw [resolveUserIds, hnil]
  split
  · exact ⟨rfl, fun found hf ↦ by cases hf⟩
  · exact ⟨rfl, fun found hf ↦ (Option.some_inj.mp hf).symm⟩

/-! ### Trucks and facilities -/

section Agents

variable {smIds : Collection → ObjectId} {c : Collection}

/-- The documents that a loop over trucks or facilities inserts. -/
def newDocs (build : Collection → β → γ) (args : Args β) (smIds : Collection → ObjectId)
    (emailToUid : Dict String ObjectId) (c : Collection) (db : Db γ) : List (Doc γ) :=
  ((resolved args emailToUid c).filter fun b ↦
    b.2 ∉ (db.ofRun c args.runId).map Doc.user).map fun b ↦ docOf build args smIds c b.1 b.2

/-- Some of the new documents are added, and all of them if the loop ends. -/
theorem precreateAgents_state (emailToUid : Dict String ObjectId) :
    ∃ added, added.Sublist (newDocs build args smIds emailToUid c db) ∧
      (precreateAgents build args w smIds emailToUid c db).state =
        db.setDocs c (db.docs c ++ added) ∧
      ∀ n, (precreateAgents build args w smIds emailToUid c db).result = some n →
        added = newDocs build args smIds emailToUid c db := by
  have hnone : db = db.setDocs c (db.docs c ++ []) := by rw [List.append_nil, setDocs_self]
  rw [precreateAgents]
  split
  · exact ⟨[], List.nil_sublist _, hnone, fun n hn ↦ by cases hn⟩
  · dsimp only
    split
    · next hempty =>
      exact ⟨[], List.nil_sublist _, hnone, fun _ _ ↦ (List.isEmpty_iff.mp hempty).symm⟩
    · obtain ⟨added, hsub, hstate, hall⟩ := insertMany_spec (w.insert c 0)
        (newDocs build args smIds emailToUid c db) (db.docs c)
      refine ⟨added, hsub, congrArg (db.setDocs c) hstate, fun n hn ↦ hall ?_⟩
      obtain ⟨u, hu, -⟩ := Option.map_eq_some_iff.mp hn
      exact hu

theorem newDocs_runId {emailToUid : Dict String ObjectId} {d : Doc γ}
    (hd : d ∈ newDocs build args smIds emailToUid c db) : d.runId = args.runId := by
  obtain ⟨b, -, rfl⟩ := List.mem_map.mp hd
  rfl

/-- The users of the behaviors of a collection are different. -/
theorem resolved_nodup (haddr : args.Addressed) (hdb : db.UsersOk) (hc : c ≠ .order) :
    ((resolved args (db.usersOf args.emails) c).map Prod.snd).Nodup := by
  have heq : (resolved args (db.usersOf args.emails) c).map Prod.snd =
      ((args.behaviors c).values.map Behavior.email).filterMap fun e ↦
        (e.filter (· ≠ "")).bind (db.usersOf args.emails).get? := by
    rw [resolved, List.map_filterMap, List.filterMap_map]
    refine congrArg (fun f ↦ (args.behaviors c).values.filterMap f) (funext fun b ↦ ?_)
    rw [Option.map_map]
    exact Option.map_id'
  have hnodup : ((args.behaviors c).values.map Behavior.email).Nodup := by
    have hall := haddr.nodup
    rw [List.map_append] at hall
    cases c with
    | truck => exact (List.nodup_append.mp hall).1
    | facility => exact (List.nodup_append.mp hall).2.1
    | order => exact absurd rfl hc
  rw [heq]
  refine hnodup.filterMap fun e e' user he he' ↦ ?_
  obtain ⟨s, hs, hu⟩ := Option.bind_eq_some_iff.mp he
  obtain ⟨s', hs', hu'⟩ := Option.bind_eq_some_iff.mp he'
  have hsame := hdb.injective s s' user (Dict.get?_filter.mp hu).1 (Dict.get?_filter.mp hu').1
  rw [(Option.filter_eq_some_iff.mp hs).1, (Option.filter_eq_some_iff.mp hs').1, hsame]

end Agents

theorem mem_resolved {c : Collection} {emailToUid : Dict String ObjectId}
    {b : Behavior β × ObjectId} : b ∈ resolved args emailToUid c ↔
      b.1 ∈ (args.behaviors c).values ∧ b.1.address.bind emailToUid.get? = some b.2 := by
  rw [resolved, List.mem_filterMap]
  constructor
  · rintro ⟨b', hb', heq⟩
    obtain ⟨user, huser, rfl⟩ := Option.map_eq_some_iff.mp heq
    exact ⟨hb', huser⟩
  · rintro ⟨hb, huser⟩
    exact ⟨b.1, hb, Option.map_eq_some_iff.mpr ⟨b.2, huser, rfl⟩⟩

/-- The lookups of a collection find the user of every behavior that has one. -/
theorem bind_usersOf {c : Collection} (hc : c ≠ .order) {b : Behavior β}
    (hb : b ∈ (args.behaviors c).values) :
    b.address.bind (db.usersOf args.emails).get? = b.address.bind db.users.get? := by
  cases he : b.address with
  | none => rfl
  | some e => exact usersOf_get? (mem_emails.mpr (Or.inl ⟨c, hc, b, hb, he⟩))

theorem ofUser_setDocs_append {c : Collection} {user : ObjectId} {added : List (Doc γ)}
    (hrun : ∀ d ∈ added, d.runId = args.runId) :
    (db.setDocs c (db.docs c ++ added)).ofUser c args.runId user =
      db.ofUser c args.runId user ++ added.filter fun d ↦ d.user = user := by
  rw [Db.ofUser, ofRun_setDocs_append hrun, List.filter_append, Db.ofUser]

theorem mem_existing {c : Collection} {user : ObjectId} :
    user ∈ (db.ofRun c args.runId).map Doc.user ↔ db.ofUser c args.runId user ≠ [] := by
  rw [Db.ofUser, Ne, List.filter_eq_nil_iff, List.mem_map]
  simp

/-- **A loop over trucks or facilities** keeps what holds between invocations, and if it ends every
behavior with a user has a document. -/
theorem precreateAgents_spec {smIds : Collection → ObjectId} {c : Collection}
    {found : Dict String ObjectId} (haddr : args.Addressed) (hc : c ≠ .order)
    (h : Underway build args db) (hfound : found = db.usersOf args.emails) :
    Underway build args (precreateAgents build args w smIds found c db).state ∧
      ∀ n, (precreateAgents build args w smIds found c db).result = some n →
        ∀ b ∈ (args.behaviors c).values, ∀ user, b.address.bind db.users.get? = some user →
          (precreateAgents build args w smIds found c db).state.ofUser c args.runId user ≠ [] := by
  subst hfound
  obtain ⟨added, hsub, hstate, hall⟩ := @precreateAgents_state _ _ build args w db smIds c
    (db.usersOf args.emails)
  rw [hstate]
  have hrun : ∀ d ∈ added, d.runId = args.runId := fun d hd ↦ newDocs_runId (hsub.subset hd)
  have hnodup : ((newDocs build args smIds (db.usersOf args.emails) c db).map Doc.user).Nodup := by
    have hres := (resolved_nodup haddr h.users hc).sublist
      ((List.filter_sublist (p := fun b ↦
        decide (b.2 ∉ (db.ofRun c args.runId).map Doc.user))).map Prod.snd)
    rwa [newDocs, List.map_map]
  -- what is added of a user who has a document already, and of one who has none
  have hold : ∀ user, db.ofUser c args.runId user ≠ [] →
      (added.filter fun d ↦ d.user = user) = [] := by
    intro user hsome
    refine List.filter_eq_nil_iff.mpr fun d hd hsame ↦ ?_
    obtain ⟨b, hb, rfl⟩ := List.mem_map.mp (hsub.subset hd)
    have hnew := of_decide_eq_true (List.mem_filter.mp hb).2
    have hsame : b.2 = user := of_decide_eq_true hsame
    exact hnew (mem_existing.mpr (hsame ▸ hsome))
  have hnew : ∀ b ∈ (args.behaviors c).values, ∀ user, b.address.bind db.users.get? = some user →
      db.ofUser c args.runId user = [] →
        docOf build args smIds c b user ∈
          newDocs build args smIds (db.usersOf args.emails) c db := by
    intro b hb user huser hnone
    refine List.mem_map.mpr ⟨(b, user), List.mem_filter.mpr ⟨?_, ?_⟩, rfl⟩
    · exact mem_resolved.mpr ⟨hb, (bind_usersOf hc hb).trans huser⟩
    · exact decide_eq_true fun hmem ↦ mem_existing.mp hmem hnone
  refine ⟨⟨⟨h.users.injective, h.users.given⟩, fun c' d hd ↦ ?_,
    fun c' hc' b hb user huser ↦ ?_, ?_, ?_⟩, fun n hn b hb user huser ↦ ?_⟩
  · by_cases hcc : c' = c
    · subst hcc
      rw [ofRun_setDocs_append hrun] at hd
      rcases List.mem_append.mp hd with hd | hd
      · exact h.given c' d hd
      · obtain ⟨b, hb, rfl⟩ := List.mem_map.mp (hsub.subset hd)
        obtain ⟨e, -, huser⟩ := Option.bind_eq_some_iff.mp
          (mem_resolved.mp (List.mem_filter.mp hb).1).2
        exact h.users.given e b.2 (Dict.get?_filter.mp huser).1
    · rw [ofRun_setDocs_ne hcc] at hd
      exact h.given c' d hd
  · by_cases hcc : c' = c
    · subst hcc
      rw [ofUser_setDocs_append hrun]
      rcases h.agents c' hc' b hb user huser with hnone | ⟨d, hd, hcontent⟩
      · rw [hnone, List.nil_append]
        rcases filter_key_sublist hnodup hsub (hnew b hb user huser hnone) with hf | hf
        · exact Or.inl hf
        · exact Or.inr ⟨_, hf, rfl⟩
      · rw [hold user (hd ▸ List.cons_ne_nil d []), List.append_nil]
        exact Or.inr ⟨d, hd, hcontent⟩
    · rw [Db.ofUser, ofRun_setDocs_ne hcc]
      exact h.agents c' hc' b hb user huser
  · rw [ofRun_setDocs_ne (Ne.symm hc)]
    exact h.owner
  · rw [ofRun_setDocs_ne (Ne.symm hc)]
    exact h.orders
  · rw [ofUser_setDocs_append hrun]
    by_cases hnone : db.ofUser c args.runId user = []
    · have hf : (newDocs build args smIds (db.usersOf args.emails) c db).filter
          (fun d ↦ d.user = user) = [docOf build args smIds c b user] :=
        filter_key hnodup (hnew b hb user huser hnone)
      rw [hall n hn, hf, hnone]
      exact List.cons_ne_nil _ _
    · exact fun happend ↦ hnone (List.append_eq_nil_iff.mp happend).1

theorem precreateAgents_eq {smIds : Collection → ObjectId} {c : Collection}
    {found : Dict String ObjectId} (hc : c ≠ .order) (hfound : found = db.usersOf args.emails)
    (hall : ∀ b ∈ (args.behaviors c).values, ∀ user, b.address.bind db.users.get? = some user →
      db.ofUser c args.runId user ≠ []) :
    (precreateAgents build args w smIds found c db).state = db := by
  subst hfound
  obtain ⟨added, hsub, hstate, -⟩ := @precreateAgents_state _ _ build args w db smIds c
    (db.usersOf args.emails)
  have hnil : newDocs build args smIds (db.usersOf args.emails) c db = [] := by
    rw [newDocs, List.map_eq_nil_iff, List.filter_eq_nil_iff]
    intro b hb hnew
    obtain ⟨hmem, huser⟩ := mem_resolved.mp hb
    rw [bind_usersOf hc hmem] at huser
    exact of_decide_eq_true hnew (mem_existing.mpr (hall b.1 hmem b.2 huser))
  rw [hnil] at hsub
  rw [hstate, List.sublist_nil.mp hsub, List.append_nil, setDocs_self]

/-! ### Orders -/

section Orders

variable {smIds : Collection → ObjectId}

theorem ownerEmail_eq_none : args.ownerEmail = none ↔ (args.behaviors .order).size = 0 := by
  rw [Args.ownerEmail]
  split
  · next h => exact iff_of_true rfl h
  · next h => exact iff_of_false (Option.some_ne_none _) h

/-- The documents of all orders. -/
def orderDocs (build : Collection → β → γ) (args : Args β) (smIds : Collection → ObjectId)
    (owner : ObjectId) : List (Doc γ) :=
  (args.behaviors .order).values.map fun b ↦ docOf build args smIds .order b owner

/-- Orders are added only if the run has none, and then all of them unless the insert breaks
off. -/
theorem precreateOrders_state {found : Dict String ObjectId} (h : Underway build args db)
    (hfound : found = db.usersOf args.emails) :
    ∃ added, (precreateOrders build args w smIds found db).state =
        db.setDocs .order (db.docs .order ++ added) ∧
      (added = [] ∨ db.ofRun .order args.runId = [] ∧
        ∃ owner, args.ownerEmail.bind db.users.get? = some owner ∧
          added.Sublist (orderDocs build args smIds owner)) ∧
      ∀ n, (precreateOrders build args w smIds found db).result = some n →
        ∀ owner, args.ownerEmail.bind db.users.get? = some owner →
          db.ofRun .order args.runId = [] → added = orderDocs build args smIds owner := by
  subst hfound
  have hnone : db = db.setDocs .order (db.docs .order ++ []) := by
    rw [List.append_nil, setDocs_self]
  have hbind : args.ownerEmail.bind (db.usersOf args.emails).get? =
      args.ownerEmail.bind db.users.get? := by
    cases he : args.ownerEmail with
    | none => rfl
    | some e => exact usersOf_get? (mem_emails.mpr (Or.inr he))
  rw [precreateOrders, hbind]
  split
  · next hno =>
    refine ⟨[], hnone, Or.inl rfl, fun n _ owner howner ↦ ?_⟩
    rw [hno] at howner
    cases howner
  · next owner howner =>
    split
    · exact ⟨[], hnone, Or.inl rfl, fun n hn ↦ by cases hn⟩
    · split
      · next hexisting =>
        refine ⟨[], hnone, Or.inl rfl, fun n _ owner' _ hempty ↦ ?_⟩
        rw [hempty] at hexisting
        exact absurd hexisting List.not_mem_nil
      · next hexisting =>
        obtain ⟨added, hsub, hstate, hall⟩ := insertChunks_spec (w.insert .order) 0
          (chunksOf ORDER_INSERT_CHUNK (orderDocs build args smIds owner)) (db.docs .order)
        rw [flatten_chunksOf (by decide)] at hsub hall
        have hempty : db.ofRun .order args.runId = [] := by
          refine List.eq_nil_iff_forall_not_mem.mpr fun d hd ↦ hexisting ?_
          have hown := h.owner d hd
          rw [howner, Option.some_inj] at hown
          exact hown ▸ List.mem_map_of_mem hd
        refine ⟨added, congrArg (db.setDocs .order) hstate, Or.inr ⟨hempty, owner, howner, hsub⟩,
          fun n hn owner' howner' _ ↦ ?_⟩
        obtain ⟨m, hm, -⟩ := Option.map_eq_some_iff.mp hn
        rw [howner, Option.some_inj] at howner'
        exact howner' ▸ (hall m hm).1

theorem orderDocs_runId {owner : ObjectId} {d : Doc γ}
    (hd : d ∈ orderDocs build args smIds owner) : d.runId = args.runId ∧ d.user = owner := by
  obtain ⟨b, -, rfl⟩ := List.mem_map.mp hd
  exact ⟨rfl, rfl⟩

end Orders

/-! ## Invocations -/

theorem precreateAgents_frame {smIds : Collection → ObjectId} {c : Collection}
    {emailToUid : Dict String ObjectId} :
    (precreateAgents build args w smIds emailToUid c db).state.users = db.users ∧
      ∀ c', c' ≠ c → (precreateAgents build args w smIds emailToUid c db).state.ofRun c'
        args.runId = db.ofRun c' args.runId := by
  obtain ⟨added, -, hstate, -⟩ := @precreateAgents_state _ _ build args w db smIds c emailToUid
  rw [hstate]
  exact ⟨rfl, fun c' hc ↦ ofRun_setDocs_ne hc⟩

theorem precreateOrders_frame {smIds : Collection → ObjectId} {found : Dict String ObjectId}
    (h : Underway build args db) (hfound : found = db.usersOf args.emails) :
    (precreateOrders build args w smIds found db).state.users = db.users ∧
      ∀ c, c ≠ .order → (precreateOrders build args w smIds found db).state.ofRun c args.runId =
        db.ofRun c args.runId := by
  obtain ⟨added, hstate, -⟩ := @precreateOrders_state _ _ build args w db smIds _ h hfound
  rw [hstate]
  exact ⟨rfl, fun c hc ↦ ofRun_setDocs_ne hc⟩

theorem precreateOrders_underway {smIds : Collection → ObjectId} {found : Dict String ObjectId}
    (h : Underway build args db) (hfound : found = db.usersOf args.emails) :
    Underway build args (precreateOrders build args w smIds found db).state := by
  obtain ⟨added, hstate, hadded, -⟩ :=
    @precreateOrders_state _ _ build args w db smIds _ h hfound
  rw [hstate]
  rcases hadded with rfl | ⟨hempty, owner, howner, hsub⟩
  · rw [List.append_nil, setDocs_self]
    exact h
  · have hdoc : ∀ d ∈ added, d.runId = args.runId ∧ d.user = owner := fun d hd ↦
      orderDocs_runId (hsub.subset hd)
    have hrun : (db.setDocs .order (db.docs .order ++ added)).ofRun .order args.runId = added := by
      rw [ofRun_setDocs_append fun d hd ↦ (hdoc d hd).1, hempty, List.nil_append]
    refine ⟨⟨h.users.injective, h.users.given⟩, fun c d hd ↦ ?_, fun c hc b hb user huser ↦ ?_,
      fun d hd ↦ ?_, ?_⟩
    · by_cases hc : c = .order
      · subst hc
        rw [hrun] at hd
        obtain ⟨e, -, he⟩ := Option.bind_eq_some_iff.mp howner
        rw [(hdoc d hd).2]
        exact h.users.given e owner he
      · rw [ofRun_setDocs_ne hc] at hd
        exact h.given c d hd
    · rw [Db.ofUser, ofRun_setDocs_ne hc]
      exact h.agents c hc b hb user huser
    · rw [hrun] at hd
      rw [(hdoc d hd).2]
      exact howner
    · rw [hrun]
      have hmap := hsub.map Doc.content
      rwa [orderDocs, List.map_map] at hmap

theorem statemachineIds_state : (statemachineIds args w db).state = db := by
  rw [statemachineIds]
  split_ifs <;> rfl

theorem usersOf_congr {db db' : Db γ} (h : db'.users = db.users) (emails : List String) :
    db.usersOf emails = db'.usersOf emails := by
  rw [Db.usersOf, Db.usersOf, h]

/-- **Every invocation keeps what holds between invocations**, wherever it breaks off. -/
theorem Underway.invocation (haddr : args.Addressed) (h : Underway build args db) :
    Underway build args (precreateAgentDocs build args w db).state := by
  refine Attempted.andThen_state (statemachineIds_state ▸ h) fun smIds _ ↦ ?_
  rw [statemachineIds_state]
  obtain ⟨h₁, -, hfound⟩ := @resolveUserIds_spec _ _ build args w db h
  refine Attempted.andThen_state h₁ fun found hf ↦ ?_
  have hf₁ := (hfound found hf).1
  have h₂ := (@precreateAgents_spec _ _ build args w _ smIds .truck _ haddr (by decide) h₁ hf₁).1
  refine Attempted.andThen_state h₂ fun trucks _ ↦ ?_
  have hf₂ := hf₁.trans (usersOf_congr (@precreateAgents_frame _ _ build args w _ smIds .truck
    found).1 args.emails)
  have h₃ := (@precreateAgents_spec _ _ build args w _ smIds .facility _ haddr (by decide) h₂
    hf₂).1
  refine Attempted.andThen_state h₃ fun facilities _ ↦ ?_
  have hf₃ := hf₂.trans (usersOf_congr (@precreateAgents_frame _ _ build args w _ smIds .facility
    found).1 args.emails)
  have h₄ := @precreateOrders_underway _ _ build args w _ smIds _ h₃ hf₃
  exact Attempted.andThen_state h₄ fun orders _ ↦ h₄

/-- What an invocation that ends has done: everybody has a user unless a signup was refused, every
truck and facility with a user has a document, and orders were added just when there were none and
their owner has a user. -/
structure Ended (build : Collection → β → γ) (args : Args β) (w : Weather) (db out : Db γ) :
    Prop where
  users : (∀ e ∈ args.emails, out.users.get? e ≠ none) ↔ Accepted args w db
  agents : ∀ c, c ≠ .order → ∀ b ∈ (args.behaviors c).values, ∀ user,
    b.address.bind out.users.get? = some user → out.ofUser c args.runId user ≠ []
  orders : ∃ added, out.ofRun .order args.runId = db.ofRun .order args.runId ++ added ∧
    (added = [] ∨ db.ofRun .order args.runId = []) ∧
    (db.ofRun .order args.runId = [] →
      args.ownerEmail = none ∨ args.ownerEmail.bind out.users.get? ≠ none →
      added.map Doc.content = (args.behaviors .order).values.map fun b ↦ build .order b.body)

theorem precreateAgentDocs_ended (haddr : args.Addressed) (h : Underway build args db)
    {stats : Stats} (hok : (precreateAgentDocs build args w db).result = some stats) :
    Ended build args w db (precreateAgentDocs build args w db).state := by
  rw [precreateAgentDocs] at hok ⊢
  obtain ⟨smIds, -, hok, hstate⟩ := Attempted.andThen_eq_some hok
  rw [hstate]
  rw [statemachineIds_state] at hok ⊢
  obtain ⟨h₁, hdocs, hfound⟩ := @resolveUserIds_spec _ _ build args w db h
  obtain ⟨found, hf, hok, hstate⟩ := Attempted.andThen_eq_some hok
  rw [hstate]
  obtain ⟨hf₁, hres⟩ := hfound found hf
  generalize (resolveUserIds w args.emails db).state = db₁ at *
  obtain ⟨h₂, htrucks⟩ :=
    @precreateAgents_spec _ _ build args w db₁ smIds .truck found haddr (by decide) h₁ hf₁
  obtain ⟨husers₂, hframe₂⟩ := @precreateAgents_frame _ _ build args w db₁ smIds .truck found
  obtain ⟨trucks, htr, hok, hstate⟩ := Attempted.andThen_eq_some hok
  rw [hstate]
  have hf₂ := hf₁.trans (usersOf_congr husers₂ args.emails)
  have htrucks := htrucks trucks htr
  generalize (precreateAgents build args w smIds found .truck db₁).state = db₂ at *
  obtain ⟨h₃, hfacilities⟩ :=
    @precreateAgents_spec _ _ build args w db₂ smIds .facility found haddr (by decide) h₂ hf₂
  obtain ⟨husers₃, hframe₃⟩ := @precreateAgents_frame _ _ build args w db₂ smIds .facility found
  obtain ⟨facilities, hfac, hok, hstate⟩ := Attempted.andThen_eq_some hok
  rw [hstate]
  have hf₃ := hf₂.trans (usersOf_congr husers₃ args.emails)
  have hfacilities := hfacilities facilities hfac
  generalize (precreateAgents build args w smIds found .facility db₂).state = db₃ at *
  obtain ⟨husers₄, hframe₄⟩ := @precreateOrders_frame _ _ build args w db₃ smIds found h₃ hf₃
  obtain ⟨added, hstate₄, hadded, hends⟩ :=
    @precreateOrders_state _ _ build args w db₃ smIds found h₃ hf₃
  obtain ⟨orders, hord, -, hstate⟩ := Attempted.andThen_eq_some hok
  rw [hstate]
  have hends := hends orders hord
  have husers : (precreateOrders build args w smIds found db₃).state.users = db₁.users :=
    husers₄.trans (husers₃.trans husers₂)
  have horders : db₃.ofRun .order args.runId = db.ofRun .order args.runId := by
    rw [hframe₃ .order (by decide), hframe₂ .order (by decide), Db.ofRun, Db.ofRun, hdocs]
  refine ⟨?_, fun c hc b hb user huser ↦ ?_, added, ?_, ?_, fun hempty howned ↦ ?_⟩
  · dsimp only
    rw [husers]
    exact forall₂_congr hres
  · dsimp only at huser ⊢
    rw [husers] at huser
    rw [Db.ofUser, hframe₄ c hc]
    cases c with
    | truck =>
      rw [hframe₃ .truck (by decide)]
      exact htrucks b hb user huser
    | facility =>
      rw [husers₂] at hfacilities
      exact hfacilities b hb user huser
    | order => exact absurd rfl hc
  · dsimp only
    rw [hstate₄, ofRun_setDocs_append, horders]
    rcases hadded with rfl | ⟨-, owner, -, hsub⟩
    · exact nofun
    · exact fun d hd ↦ (orderDocs_runId (hsub.subset hd)).1
  · exact hadded.imp id fun hnone ↦ horders ▸ hnone.1
  · cases he : args.ownerEmail with
    | none =>
      have hvalues : (args.behaviors .order).values = [] := by
        have hsize := ownerEmail_eq_none.mp he
        rw [Dict.size, List.length_eq_zero_iff] at hsize
        rw [Dict.values, hsize, List.map_nil]
      rcases hadded with rfl | ⟨-, owner, howner, -⟩
      · rw [hvalues, List.map_nil, List.map_nil]
      · rw [he] at howner
        cases howner
    | some e =>
      obtain ⟨owner, howner⟩ := Option.ne_none_iff_exists'.mp
        (howned.resolve_left (by rw [he]; exact Option.some_ne_none e))
      dsimp only at howner
      rw [husers₄] at howner
      rw [hends owner howner (horders ▸ hempty), orderDocs, List.map_map]
      rfl

/-- Once the documents are complete an invocation changes nothing. -/
theorem Complete.invocation (h : Underway build args db) (hcomplete : Complete build args db)
    (husers : ∀ e ∈ args.emails, db.users.get? e ≠ none) (w : Weather) :
    (precreateAgentDocs build args w db).state = db := by
  have hagents : ∀ c, c ≠ .order → ∀ b ∈ (args.behaviors c).values, ∀ user,
      b.address.bind db.users.get? = some user → db.ofUser c args.runId user ≠ [] := by
    intro c hc b hb user huser
    obtain ⟨user', d, huser', hd, -⟩ := hcomplete.agents c hc b hb
    rw [huser, Option.some_inj] at huser'
    rw [huser', hd]
    exact List.cons_ne_nil d []
  obtain ⟨hsame, hfound⟩ := @resolveUserIds_state _ _ args w db husers
  refine @Attempted.andThen_state _ _ _ _ _ (· = db) statemachineIds_state fun smIds _ ↦ ?_
  rw [statemachineIds_state]
  refine @Attempted.andThen_state _ _ _ _ _ (· = db) hsame fun found hf ↦ ?_
  have hf := hfound found hf
  rw [hsame]
  have htrucks := @precreateAgents_eq _ _ build args w db smIds .truck found (by decide) hf
    (hagents .truck (by decide))
  refine @Attempted.andThen_state _ _ _ _ _ (· = db) htrucks fun _ _ ↦ ?_
  rw [htrucks]
  have hfacilities := @precreateAgents_eq _ _ build args w db smIds .facility found (by decide) hf
    (hagents .facility (by decide))
  refine @Attempted.andThen_state _ _ _ _ _ (· = db) hfacilities fun _ _ ↦ ?_
  rw [hfacilities]
  have horders : (precreateOrders build args w smIds found db).state = db := by
    obtain ⟨added, hstate, hadded, -⟩ :=
      @precreateOrders_state _ _ build args w db smIds found h hf
    rw [hstate]
    rcases hadded with rfl | ⟨hempty, owner, -, hsub⟩
    · rw [List.append_nil, setDocs_self]
    · -- there are no orders then
      have hperm := hcomplete.orders
      rw [hempty, List.map_nil, List.nil_perm, List.map_eq_nil_iff] at hperm
      rw [orderDocs, hperm, List.map_nil, List.sublist_nil] at hsub
      rw [hsub, List.append_nil, setDocs_self]
  exact @Attempted.andThen_state _ _ _ _ _ (· = db) horders fun _ _ ↦ horders

theorem length_contents : ((args.behaviors .order).values.map fun b ↦ build .order b.body).length =
    (args.behaviors .order).size := by
  rw [List.length_map, Dict.values, List.length_map, Dict.size]

/-- Complete documents belong to users that are there. -/
theorem Complete.users (h : Complete build args db) (hdb : Underway build args db) :
    ∀ e ∈ args.emails, db.users.get? e ≠ none := by
  intro e he hnone
  rcases mem_emails.mp he with ⟨c, hc, b, hb, hemail⟩ | howner
  · obtain ⟨user, d, huser, -⟩ := h.agents c hc b hb
    rw [hemail, Option.bind_some, hnone] at huser
    cases huser
  · -- the owner of the orders is nobody, so there are none
    have hempty : db.ofRun .order args.runId = [] := by
      refine List.eq_nil_iff_forall_not_mem.mpr fun d hd ↦ ?_
      have hown := hdb.owner d hd
      rw [howner, Option.bind_some, hnone] at hown
      cases hown
    have hperm := h.orders.length_eq
    rw [hempty, length_contents] at hperm
    rw [ownerEmail_eq_none.mpr hperm.symm] at howner
    cases howner

/-- **Resuming.**  After any invocations of a run, wherever they broke off, one that ends leaves the
documents complete and for good just when it met with none of the orders or with all of them, and
the server refused no signup. -/
theorem resumed_iff (build : Collection → β → γ) (args : Args β) (haddr : args.Addressed)
    {db₀ db : Db γ} (h₀ : Fresh args db₀)
    (hrun : (invoking build args).Reach (fun _ _ ↦ True) db₀ db) (w : Weather) {stats : Stats}
    (hok : (precreateAgentDocs build args w db).result = some stats) :
    Resumed build args (precreateAgentDocs build args w db).state ↔
      (db.ofRun .order args.runId = [] ∨
        (db.ofRun .order args.runId).length = (args.behaviors .order).size) ∧
      Accepted args w db := by
  have h : Underway build args db := hrun.invariant h₀.underway fun a w b ha _ hstep ↦ by
    rw [← Option.some_inj.mp hstep]
    exact ha.invocation haddr
  have hout : Underway build args (precreateAgentDocs build args w db).state := h.invocation haddr
  have hended := precreateAgentDocs_ended haddr h hok
  obtain ⟨added, happend, hadded, hall⟩ := hended.orders
  generalize (precreateAgentDocs build args w db).state = out at hout hended happend hall ⊢
  constructor
  · rintro ⟨hcomplete, -⟩
    refine ⟨?_, hended.users.mp (hcomplete.users hout)⟩
    rcases hadded with rfl | hempty
    · refine Or.inr ?_
      have hperm := hcomplete.orders.length_eq
      rwa [List.length_map, length_contents, happend, List.append_nil] at hperm
    · exact Or.inl hempty
  · rintro ⟨hcond, haccepted⟩
    have husers := hended.users.mpr haccepted
    have hcomplete : Complete build args out := by
      refine ⟨fun c hc b hb ↦ ?_, ?_⟩
      · obtain ⟨e, he⟩ := Option.ne_none_iff_exists'.mp (haddr.email c hc b hb)
        obtain ⟨user, huser⟩ := Option.ne_none_iff_exists'.mp
          (husers e (mem_emails.mpr (Or.inl ⟨c, hc, b, hb, he⟩)))
        have hbind : b.address.bind out.users.get? = some user := by
          rw [he]
          exact huser
        obtain ⟨d, hd, hcontent⟩ := (hout.agents c hc b hb user hbind).resolve_left
          (hended.agents c hc b hb user hbind)
        exact ⟨user, d, hbind, hd, hcontent⟩
      · by_cases hempty : db.ofRun .order args.runId = []
        · have howned : args.ownerEmail = none ∨ args.ownerEmail.bind out.users.get? ≠ none := by
            cases he : args.ownerEmail with
            | none => exact Or.inl rfl
            | some e => exact Or.inr (husers e (mem_emails.mpr (Or.inr he)))
          rw [happend, hempty, List.nil_append, hall hempty howned]
        · have hstored := hadded.resolve_right hempty
          have hsub := hout.orders
          refine hsub.eq_of_length ?_ ▸ List.Perm.refl _
          rw [length_contents, happend, hstored, List.append_nil, List.length_map]
          exact hcond.resolve_left hempty
    exact ⟨hcomplete, hcomplete.invocation hout husers⟩

/-! A truck, a facility and two orders, and a server without users. -/

def twoOrders : Args String where
  runId := "run"
  behaviors
    | .truck => Dict.ofList [("truck_0", ⟨some "truck_0@test.com", "truck"⟩)]
    | .facility => Dict.ofList [("facility_0", ⟨some "facility_0@test.com", "facility"⟩)]
    | .order => Dict.ofList [("order_0", ⟨none, "first"⟩), ("order_1", ⟨none, "second"⟩)]
  simClock := 0

def emptyDb : Db String where
  statemachines := Dict.ofList
    [("WorkflowStateMachine", 0), ("GateStateMachine", 1), ("OrderStateMachine", 2)]
  users := Dict.empty
  nextId := 3
  docs := fun _ ↦ []

/-- Everything goes well, except that the bulk inserts of a collection raise after they have stored
the first document. -/
def firstOnly (broken : Option Collection) : Weather where
  raises := fun _ ↦ false
  signup := fun _ ↦ .created
  insert := fun c _ ↦ if broken = some c then .raised fun k ↦ k = 0 else .returned

theorem twoOrders_addressed : twoOrders.Addressed := by
  refine ⟨fun c hc b hb ↦ ?_, by decide⟩
  cases c with
  | truck =>
    obtain rfl := List.mem_singleton.mp hb
    decide
  | facility =>
    obtain rfl := List.mem_singleton.mp hb
    decide
  | order => exact absurd rfl hc

theorem emptyDb_fresh : Fresh twoOrders emptyDb := by
  refine ⟨⟨fun _ _ _ h _ ↦ ?_, fun _ _ h ↦ ?_⟩, fun _ ↦ rfl⟩
  · cases h
  · cases h

/-- The database after a first invocation. -/
def interrupted (broken : Option Collection) : Db String :=
  (precreateAgentDocs (fun _ b ↦ b) twoOrders (firstOnly broken) emptyDb).state

theorem interrupted_reach (broken : Option Collection) :
    (invoking (fun _ b ↦ b) twoOrders).Reach (fun _ _ ↦ True) emptyDb (interrupted broken) :=
  Machine.reach_of_exec [firstOnly broken] rfl fun _ _ _ ↦ trivial

/-- An invocation that broke off among the facilities is resumed. -/
theorem resumed_after_facilities :
    Resumed (fun _ b ↦ b) twoOrders
      (precreateAgentDocs (fun _ b ↦ b) twoOrders (firstOnly none)
        (interrupted (some .facility))).state := by
  have hok : (precreateAgentDocs (fun _ b ↦ b) twoOrders (firstOnly none)
      (interrupted (some .facility))).result = some ⟨0, 0, 1, 1, 2, 0, 3⟩ := by decide +kernel
  exact (resumed_iff (fun _ b ↦ b) twoOrders twoOrders_addressed emptyDb_fresh
    (interrupted_reach (some .facility)) (firstOnly none) hok).mpr
      ⟨Or.inl (by decide +kernel), fun e _ _ ↦ by simp [firstOnly]⟩

/-- After a bulk insert that stored the first of the two orders the next invocation ends, skips both
and leaves the second one out. -/
theorem second_order_lost :
    Fresh twoOrders emptyDb ∧
      (invoking (fun _ b ↦ b) twoOrders).Reach (fun _ _ ↦ True) emptyDb
        (interrupted (some .order)) ∧
      (precreateAgentDocs (fun _ b ↦ b) twoOrders (firstOnly none)
        (interrupted (some .order))).result = some ⟨0, 0, 1, 1, 0, 2, 3⟩ ∧
      ¬Complete (fun _ b ↦ b) twoOrders
        (precreateAgentDocs (fun _ b ↦ b) twoOrders (firstOnly none)
          (interrupted (some .order))).state := by
  refine ⟨emptyDb_fresh, interrupted_reach (some .order), by decide +kernel, fun h ↦ ?_⟩
  have hlength := h.orders.length_eq
  revert hlength
  decide +kernel

end OpenRide.Haulage.Precreate
