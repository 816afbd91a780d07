import Mathlib.Data.Finset.Lattice.Lemmas
import OpenRide.Analytics.Breakdowns

/-!
# Credits

All that ever happens to a haulier's account is that something is credited to it: counters, trucks,
and the currency once an arrival has been priced.  A `Credit` is what is credited at once, the
carrier's side of a trip is one (`carry_eq_credit`), and so is the owner's.

A trip's postings are the credits it makes, each with the haulier it goes to.  Credits add up, so
the order of the postings shows in nothing but the order of the accounts and in their display names:
an account opened by a credit to an owner is named by the owner's identifier.  Apart from names,
postings may be made in any order (`posts_perm`).
-/

namespace OpenRide.Analytics

open Lib

/-! ## Crediting an account -/

/-- What is credited to a haulier's account at once. -/
structure Credit where
  activity : Activity := 0
  sharing : Sharing := 0
  rebates : Rebates := 0
  censored : Censored := 0
  trucks : Finset String := ∅
  priced : Bool := false

/-- Credit an account. -/
def HaulierAcc.credit (book : RebateBook) (c : Credit) (h : HaulierAcc) : HaulierAcc :=
  { h with
    toActivity := h.toActivity + c.activity
    toSharing := h.toSharing + c.sharing
    toRebates := h.toRebates + c.rebates
    toCensored := h.toCensored + c.censored
    trucks := h.trucks ∪ c.trucks
    rebateCurrency := if c.priced then h.rebateCurrency.or book.currency else h.rebateCurrency }

/-- What an arrival is credited as. -/
def RebateBook.arrivalRebates (book : RebateBook) (t : Trip) (leg : Leg) : Rebates :=
  match book.arrivalPrice t leg with
  | .error reason => .unpriced reason
  | .ok amount => .priced amount leg

/-- Has the arrival a price? -/
def RebateBook.isPriced (book : RebateBook) (t : Trip) (leg : Leg) : Bool :=
  (book.arrivalPrice t leg).isOk

/-- What a trip is credited to its carrier as. -/
def RebateBook.carrierCredit (book : RebateBook) (truckId : String) (run : Activity) (t : Trip) :
    Credit where
  activity := run
  sharing := if t.collaboration.shared then { jobsCarriedForPartners := 1 } else 0
  rebates := book.arrivalRebates t .pickup + book.arrivalRebates t .dropoff
  trucks := {truckId}
  priced := book.isPriced t .pickup || book.isPriced t .dropoff

variable {book : RebateBook}

/-- Crediting twice is crediting at once. -/
theorem HaulierAcc.credit_credit (c c' : Credit) (h : HaulierAcc) :
    (h.credit book c).credit book c' = h.credit book
      { activity := c.activity + c'.activity
        sharing := c.sharing + c'.sharing
        rebates := c.rebates + c'.rebates
        censored := c.censored + c'.censored
        trucks := c.trucks ∪ c'.trucks
        priced := c.priced || c'.priced } := by
  obtain ⟨_, _, _, _, _, priced⟩ := c
  obtain ⟨_, _, _, _, _, priced'⟩ := c'
  simp only [HaulierAcc.credit, add_assoc, Finset.union_assoc]
  cases priced <;> cases priced' <;> simp [Option.or_assoc]

theorem HaulierAcc.settleArrival_eq_credit (t : Trip) (leg : Leg) (h : HaulierAcc) :
    h.settleArrival book t leg = h.credit book
      { rebates := book.arrivalRebates t leg, priced := book.isPriced t leg } := by
  rw [settleArrival, RebateBook.arrivalRebates, RebateBook.isPriced]
  split
  · next reason heq =>
    simp [credit, heq, Except.isOk, Except.toBool]
  · next amount heq =>
    simp [credit, heq, Except.isOk, Except.toBool]

/-- **The carrier's side of a trip is one credit.** -/
theorem HaulierAcc.carry_eq_credit (truckId : String) (run : Activity) (t : Trip) (h : HaulierAcc) :
    h.carry book truckId run t = h.credit book (book.carrierCredit truckId run t) := by
  have hrun : { h with toActivity := h.toActivity + run, trucks := insert truckId h.trucks } =
      h.credit book { activity := run, trucks := {truckId} } := by
    simp [credit]
  have hcarried : ∀ h' : HaulierAcc,
      (if t.collaboration.shared then
        { h' with toSharing := h'.toSharing + { jobsCarriedForPartners := 1 } } else h') =
      h'.credit book
        { sharing := if t.collaboration.shared then { jobsCarriedForPartners := 1 } else 0 } := by
    intro h'
    cases t.collaboration.shared
    · simp [credit]
    · simp [credit]
  simp only [carry, hrun, settleRebateArrivals, List.foldl_cons, List.foldl_nil,
    settleArrival_eq_credit, hcarried, credit_credit, RebateBook.carrierCredit]
  simp

theorem HaulierAcc.shareOut_eq_credit (benefit : Quantity) (o : HaulierAcc) :
    o.shareOut benefit = o.credit book { sharing := .sharedOut benefit } := by
  simp [shareOut, credit]

/-- The order of two credits does not matter. -/
theorem HaulierAcc.credit_comm (c c' : Credit) (h : HaulierAcc) :
    (h.credit book c).credit book c' = (h.credit book c').credit book c := by
  rw [credit_credit, credit_credit, add_comm c.activity, add_comm c.sharing, add_comm c.rebates,
    add_comm c.censored, Finset.union_comm c.trucks, Bool.or_comm c.priced]

/-- An account without its display name. -/
def HaulierAcc.unnamed (h : HaulierAcc) : HaulierAcc := { h with haulierName := "" }

/-! ## Postings -/

/-- A credit and the haulier it goes to, under the name an account opened for it gets. -/
structure Posting where
  haulierId : String
  haulierName : String
  credit : Credit

/-- The hauliers' accounts. -/
abbrev HaulierBooks := Dict String HaulierAcc

namespace HaulierBooks

/-- Make a posting. -/
def post (book : RebateBook) (d : HaulierBooks) (p : Posting) : HaulierBooks :=
  d.amend p.haulierId (newHaulierAcc p.haulierId p.haulierName) (·.credit book p.credit)

/-- Make postings one after the other. -/
def posts (book : RebateBook) (d : HaulierBooks) (l : List Posting) : HaulierBooks :=
  l.foldl (post book) d

/-- The same accounts, apart from their order and their names. -/
def Same (d d' : HaulierBooks) : Prop :=
  ∀ hid, d.look HaulierAcc.unnamed hid = d'.look HaulierAcc.unnamed hid

theorem Same.refl (d : HaulierBooks) : d.Same d := fun _ ↦ rfl

variable {d d' : HaulierBooks}

theorem Same.symm (h : d.Same d') : d'.Same d := fun hid ↦ (h hid).symm

theorem Same.trans {d'' : HaulierBooks} (h : d.Same d') (h' : d'.Same d'') : d.Same d'' :=
  fun hid ↦ (h hid).trans (h' hid)

theorem unnamed_credit (c : Credit) (h : HaulierAcc) :
    (h.credit book c).unnamed = h.unnamed.credit book c := rfl

theorem Same.post (h : d.Same d') (p : Posting) : (d.post book p).Same (d'.post book p) :=
  Dict.look_amend_congr (unnamed_credit _) (unnamed_credit _) rfl h

theorem Same.posts (h : d.Same d') (l : List Posting) :
    (d.posts book l).Same (d'.posts book l) := by
  induction l generalizing d d' with
  | nil => exact h
  | cons p l ih => exact ih (h.post p)

theorem posts_append (d : HaulierBooks) (l l' : List Posting) :
    d.posts book (l ++ l') = (d.posts book l).posts book l' :=
  List.foldl_append

/-- **The order of the postings does not matter to the accounts.** -/
theorem posts_perm {l l' : List Posting} (h : l.Perm l') (d : HaulierBooks) :
    (d.posts book l).Same (d.posts book l') := by
  induction h generalizing d with
  | nil => exact Same.refl d
  | cons p _ ih => exact ih (d.post book p)
  | swap p q l =>
    have hcomm : ((d.post book q).post book p).Same ((d.post book p).post book q) := by
      refine Dict.look_amend_comm (unnamed_credit _) (unnamed_credit _)
        (fun h ↦ HaulierAcc.credit_comm _ _ h) (fun hk ↦ ?_) d
      rw [hk]
      rfl
    exact hcomm.posts l
  | trans _ _ ih ih' => exact (ih d).trans (ih' d)

theorem posts_comm (d : HaulierBooks) (l l' : List Posting) :
    ((d.posts book l).posts book l').Same ((d.posts book l').posts book l) := by
  rw [← posts_append, ← posts_append]
  exact posts_perm List.perm_append_comm d

end HaulierBooks

/-- The credits a trip makes: to its carrier, and to the owner of a shared job. -/
def RebateBook.postings (book : RebateBook) (truckId : String) (run : Activity) (t : Trip) :
    List Posting :=
  ⟨t.haulierId, t.haulierName, book.carrierCredit truckId run t⟩ ::
    if t.collaboration.shared then
      match t.ownerId with
      | some ownerId => [⟨ownerId, ownerId, { sharing := .sharedOut t.collaboration.benefitKm }⟩]
      | none => []
    else []

namespace Breakdowns

variable {R : RunData}

theorem truckAcc_recordShare (t : Trip) (s : Breakdowns) :
    (s.recordShare t).truckAcc = s.truckAcc := by
  rw [recordShare]
  split
  · rfl
  · rfl

theorem laneAcc_recordShare (t : Trip) (s : Breakdowns) :
    (s.recordShare t).laneAcc = s.laneAcc := by
  rw [recordShare]
  split
  · rfl
  · rfl

/-- What a trip does to the hauliers' accounts is to make its postings. -/
theorem haulierAcc_accumulateTrip {s : Breakdowns} {t : Trip} {truckId : String}
    (ht : t.truckId = some truckId) :
    (s.accumulateTrip R t).haulierAcc = HaulierBooks.posts R.toRebateBook s.haulierAcc
      (R.postings truckId ((s.truckAccOf truckId t).activityOf R.toGeometry t) t) := by
  have hcarry : ∀ run, (fun h : HaulierAcc ↦ h.carry R.toRebateBook truckId run t) =
      (·.credit R.toRebateBook (R.carrierCredit truckId run t)) := fun run ↦
    funext fun h ↦ h.carry_eq_credit truckId run t
  have hshare : ∀ benefit, (fun o : HaulierAcc ↦ o.shareOut benefit) =
      (·.credit R.toRebateBook { sharing := .sharedOut benefit }) := fun benefit ↦
    funext fun o ↦ o.shareOut_eq_credit benefit
  rw [accumulateTrip, ht]
  simp only []
  rw [RebateBook.postings, recordShare]
  split
  · cases t.ownerId with
    | some ownerId =>
      simp only [recordRun, hcarry, hshare]
      rfl
    | none =>
      simp only [recordRun, hcarry]
      rfl
  · simp only [recordRun, hcarry]
    rfl

end Breakdowns

end OpenRide.Analytics
