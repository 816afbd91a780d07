import OpenRide.Lib.Dict
import OpenRide.Lib.Handlers
import Mathlib.Data.List.Induction
import Mathlib.Logic.Function.Basic

/-!
# Messages that are sent once

Of every subject a sender sends messages and keeps the signature of the last one under a key; a
message with the signature that is kept is held back.  A reader shows the last message of every
subject that reached it.

What is offered is shown, unless something else was recorded with its signature (`shows_offer_iff`).
If the subjects have keys of their own the table is always the signatures of what the reader shows
(`Recorded.offer`), so what is shown already is not sent again (`offer_of_shown`).  The same holds
of several offers of different subjects, each compared with what was recorded before all of them.

Several senders may share the table.  It then holds the signature of the last offer under a key,
whoever made it, so what one sender's subjects are sent is what they would be without the others
just when an offer repeats the last one under its key whenever it repeats the sender's own
(`separate_concat_iff`).
-/

set_option autoImplicit false

namespace Lib

variable {X K S ω : Type} [DecidableEq X] [DecidableEq K] [DecidableEq S]

/-- Send a message of a subject unless the last signature under its key is the same. -/
def offer (key : X → K) (signature : X → ω → S) (x : X) (m : ω) (last : Dict K S) :
    Handled (Dict K S) (X × ω) :=
  if last.get? (key x) = some (signature x m) then ⟨last, [], false⟩
  else ⟨last.set (key x) (signature x m), [(x, m)], false⟩

/-- What the reader shows after a message. -/
def showing (view : X → Option ω) (m : X × ω) : X → Option ω := Function.update view m.1 (some m.2)

/-- The table has the signatures of what the reader shows, for some subjects. -/
def Recorded (key : X → K) (signature : X → ω → S) (known : X → Prop) (last : Dict K S)
    (view : X → Option ω) : Prop :=
  ∀ x, known x → last.get? (key x) = (view x).map (signature x)

variable {key : X → K} {signature : X → ω → S} {known : X → Prop} {x y : X} {m : ω}
  {last : Dict K S} {view : X → Option ω}

omit [DecidableEq X] in
theorem offer_of_recorded (h : last.get? (key x) = some (signature x m)) :
    offer key signature x m last = ⟨last, [], false⟩ := if_pos h

omit [DecidableEq X] in
theorem offer_of_new (h : last.get? (key x) ≠ some (signature x m)) :
    offer key signature x m last = ⟨last.set (key x) (signature x m), [(x, m)], false⟩ := if_neg h

/-- **What is offered is shown**, unless something else is recorded with its signature. -/
theorem shows_offer_iff : (offer key signature x m last).sent.foldl showing view x = some m ↔
    (last.get? (key x) = some (signature x m) → view x = some m) := by
  by_cases h : last.get? (key x) = some (signature x m)
  · rw [offer_of_recorded h]
    simp [h]
  · rw [offer_of_new h]
    simp [h, showing]

theorem shows_offer_ne (hy : y ≠ x) :
    (offer key signature x m last).sent.foldl showing view y = view y := by
  by_cases h : last.get? (key x) = some (signature x m)
  · rw [offer_of_recorded h]
    rfl
  · rw [offer_of_new h]
    simp [showing, hy]

/-- **The table stays what the reader shows**, of subjects with keys of their own. -/
theorem Recorded.offer (h : Recorded key signature known last view)
    (hkey : ∀ y, known y → key y = key x → y = x) :
    Recorded key signature known (Lib.offer key signature x m last).state
      ((Lib.offer key signature x m last).sent.foldl showing view) := by
  by_cases hx : last.get? (key x) = some (signature x m)
  · rw [offer_of_recorded hx]
    exact h
  · rw [offer_of_new hx]
    intro y hy
    simp only [List.foldl_cons, List.foldl_nil, showing, Dict.get?_set, Function.update_apply]
    by_cases hyx : y = x
    · rw [if_pos hyx, hyx, if_pos rfl, Option.map_some]
    · rw [if_neg hyx, if_neg fun heq ↦ hyx (hkey y hy heq), h y hy]

omit [DecidableEq X] in
/-- What is shown is not sent again. -/
theorem offer_of_shown (h : Recorded key signature known last view) (hx : known x)
    (hm : view x = some m) : (Lib.offer key signature x m last).sent = [] := by
  rw [offer_of_recorded (by rw [h x hx, hm, Option.map_some])]

/-! ## Several offers -/

/-- Offers one after the other. -/
def offerAll (key : X → K) (signature : X → ω → S) (l : List (X × ω)) (last : Dict K S) :
    Handled (Dict K S) (X × ω) :=
  Handled.inOrder (fun o ↦ offer key signature o.1 o.2) l last

omit [DecidableEq X] in
theorem offer_raised : (Lib.offer key signature x m last).raised = false := by
  rw [Lib.offer]
  split <;> rfl

omit [DecidableEq X] in
theorem offerAll_cons (o : X × ω) (l : List (X × ω)) :
    offerAll key signature (o :: l) last =
      { offerAll key signature l (Lib.offer key signature o.1 o.2 last).state with
        sent := (Lib.offer key signature o.1 o.2 last).sent ++
          (offerAll key signature l (Lib.offer key signature o.1 o.2 last).state).sent } := by
  rw [offerAll, Handled.inOrder, Handled.andThen_of_not_raised offer_raised]
  rfl

omit [DecidableEq X] in
theorem offerAll_singleton :
    offerAll key signature [(x, m)] last = Lib.offer key signature x m last := by
  rw [offerAll, Handled.inOrder, Handled.andThen_of_not_raised offer_raised, Lib.offer]
  split <;> rfl

omit [DecidableEq X] in
theorem offerAll_append (l l' : List (X × ω)) :
    offerAll key signature (l ++ l') last =
      { offerAll key signature l' (offerAll key signature l last).state with
        sent := (offerAll key signature l last).sent ++
          (offerAll key signature l' (offerAll key signature l last).state).sent } := by
  induction l generalizing last with
  | nil => rfl
  | cons o l ih => rw [List.cons_append, offerAll_cons, offerAll_cons, ih, List.append_assoc]

omit [DecidableEq X] in
theorem offerAll_raised (l : List (X × ω)) : (offerAll key signature l last).raised = false := by
  induction l generalizing last with
  | nil => rfl
  | cons o l ih =>
    rw [offerAll_cons]
    exact ih

omit [DecidableEq X] in
/-- What is sent was offered. -/
theorem mem_of_mem_sent {l : List (X × ω)} {s : X × ω}
    (hs : s ∈ (offerAll key signature l last).sent) : s ∈ l := by
  induction l generalizing last with
  | nil => exact absurd hs List.not_mem_nil
  | cons o l ih =>
    rw [offerAll_cons] at hs
    rcases List.mem_append.mp hs with hs | hs
    · rw [Lib.offer] at hs
      split at hs
      · exact absurd hs List.not_mem_nil
      · exact List.mem_singleton.mp hs ▸ List.mem_cons_self
    · exact List.mem_cons_of_mem o (ih hs)

theorem shows_offerAll_ne {l : List (X × ω)} (hy : y ∉ l.map Prod.fst) :
    (offerAll key signature l last).sent.foldl showing view y = view y := by
  induction l generalizing last view with
  | nil => rfl
  | cons o l ih =>
    rw [List.map_cons, List.mem_cons, not_or] at hy
    rw [offerAll_cons, List.foldl_append, ih hy.2, shows_offer_ne hy.1]

theorem Recorded.offerAll {l : List (X × ω)} (h : Recorded key signature known last view)
    (hkey : ∀ o ∈ l, ∀ y, known y → key y = key o.1 → y = o.1) :
    Recorded key signature known (Lib.offerAll key signature l last).state
      ((Lib.offerAll key signature l last).sent.foldl showing view) := by
  induction l generalizing last view with
  | nil => exact h
  | cons o l ih =>
    rw [offerAll_cons, List.foldl_append]
    exact ih (h.offer (hkey o List.mem_cons_self)) fun o' ho' ↦
      hkey o' (List.mem_cons_of_mem o ho')

/-- **Each of several offers is shown**, unless something else was recorded with its signature
before. -/
theorem shows_offerAll_iff {l : List (X × ω)} (hl : (l.map Prod.fst).Nodup)
    (hkey : ∀ o ∈ l, ∀ o' ∈ l, key o.1 = key o'.1 → o.1 = o'.1) (hx : (x, m) ∈ l) :
    (offerAll key signature l last).sent.foldl showing view x = some m ↔
      (last.get? (key x) = some (signature x m) → view x = some m) := by
  induction l generalizing last view with
  | nil => exact absurd hx List.not_mem_nil
  | cons o l ih =>
    rw [List.map_cons, List.nodup_cons] at hl
    rw [offerAll_cons, List.foldl_append]
    rcases List.mem_cons.mp hx with rfl | hx
    · rw [shows_offerAll_ne hl.1, shows_offer_iff]
    · have hne : x ≠ o.1 := fun heq ↦ hl.1 (heq ▸ List.mem_map_of_mem hx)
      have hkeys : key x ≠ key o.1 := fun heq ↦
        hne (hkey (x, m) (List.mem_cons_of_mem o hx) o List.mem_cons_self heq)
      have hlast : (Lib.offer key signature o.1 o.2 last).state.get? (key x) =
          last.get? (key x) := by
        rw [Lib.offer]
        split
        · rfl
        · exact Dict.get?_set_ne _ _ hkeys
      have hrest := fun o₁ h₁ o₂ h₂ ↦
        hkey o₁ (List.mem_cons_of_mem o h₁) o₂ (List.mem_cons_of_mem o h₂)
      rw [ih hl.2 hrest hx, hlast, shows_offer_ne hne]

/-- **What is shown is not sent again** by several offers. -/
theorem not_sent_of_shown {l : List (X × ω)} (h : Recorded key signature known last view)
    (hl : (l.map Prod.fst).Nodup)
    (hkey : ∀ o ∈ l, ∀ y, known y → key y = key o.1 → y = o.1) (hknown : known x)
    (hx : (x, m) ∈ l) (hm : view x = some m) {s : X × ω}
    (hs : s ∈ (Lib.offerAll key signature l last).sent) : s.1 ≠ x := by
  induction l generalizing last view with
  | nil => exact absurd hx List.not_mem_nil
  | cons o l ih =>
    rw [List.map_cons, List.nodup_cons] at hl
    rw [offerAll_cons] at hs
    have hkeep := h.offer (m := o.2) (hkey o List.mem_cons_self)
    have hrest := fun o' ho' ↦ hkey o' (List.mem_cons_of_mem o ho')
    rcases List.mem_cons.mp hx with rfl | hx
    · rw [offer_of_shown h hknown hm, List.nil_append] at hs
      exact fun heq ↦ hl.1 (List.mem_map.mpr ⟨s, mem_of_mem_sent hs, heq⟩)
    · have hne : x ≠ o.1 := fun heq ↦ hl.1 (heq ▸ List.mem_map_of_mem hx)
      rcases List.mem_append.mp hs with hs | hs
      · rw [Lib.offer] at hs
        split at hs
        · exact absurd hs List.not_mem_nil
        · rw [List.mem_singleton.mp hs]
          exact Ne.symm hne
      · exact ih hkeep hl.2 hrest hx ((shows_offer_ne hne).trans hm) hs

/-! ## Senders that share a table -/

/-- The last offer of some kind. -/
def lastOf (p : X × ω → Bool) (l : List (X × ω)) : Option (X × ω) := (l.filter p).getLast?

omit [DecidableEq X] in
@[simp] theorem lastOf_concat (p : X × ω → Bool) (l : List (X × ω)) (o : X × ω) :
    lastOf p (l ++ [o]) = if p o then some o else lastOf p l := by
  by_cases h : p o = true <;> simp [h, lastOf]

/-- Is an offer one with the signature of the last one under its key? -/
def Repeats (key : X → K) (signature : X → ω → S) (l : List (X × ω)) (o : X × ω) : Prop :=
  (lastOf (fun o' ↦ key o'.1 = key o.1) l).map (fun o' ↦ signature o'.1 o'.2) =
    some (signature o.1 o.2)

instance (l : List (X × ω)) (o : X × ω) : Decidable (Repeats key signature l o) :=
  inferInstanceAs (Decidable (_ = _))

omit [DecidableEq X] in
theorem get?_offerAll (l : List (X × ω)) (k : K) :
    (offerAll key signature l Dict.empty).state.get? k =
      (lastOf (fun o ↦ key o.1 = k) l).map fun o ↦ signature o.1 o.2 := by
  induction l using List.reverseRecOn with
  | nil => rfl
  | append_singleton l o ih =>
    rw [offerAll_append, offerAll_singleton, lastOf_concat]
    by_cases hk : key o.1 = k
    · subst hk
      rw [Lib.offer]
      split
      · next h => simp [h]
      · simp
    · rw [if_neg (by simpa using hk), ← ih, Lib.offer]
      split
      · rfl
      · exact Dict.get?_set_ne _ _ (Ne.symm hk)

omit [DecidableEq X] in
/-- An offer that repeats the last one is held back, any other one is sent. -/
theorem sent_concat (l : List (X × ω)) (o : X × ω) :
    (offerAll key signature (l ++ [o]) Dict.empty).sent =
      (offerAll key signature l Dict.empty).sent ++ if Repeats key signature l o then [] else
        [o] := by
  rw [offerAll_append, offerAll_singleton, Lib.offer, get?_offerAll]
  exact congrArg _ (apply_ite Handled.sent _ _ _)

section Groups

variable {G C M : Type} [DecidableEq G] {group : X → G} {content : ω → C} {view : X × ω → M}
  {l : List (X × ω)} {o : X × ω}

/-- The offers of a sender. -/
def offersBy (group : X → G) (g : G) (l : List (X × ω)) : List (X × ω) :=
  l.filter fun o ↦ group o.1 = g

/-- Every sender sends what it would send alone, as far as a view of the messages shows. -/
def Separate (key : X → K) (signature : X → ω → S) (group : X → G) (view : X × ω → M)
    (l : List (X × ω)) : Prop :=
  ∀ g, (offersBy group g (offerAll key signature l Dict.empty).sent).map view =
    (offerAll key signature (offersBy group g l) Dict.empty).sent.map view

/-- Every subject was last sent the content it was last offered. -/
def UpToDate (key : X → K) (signature : X → ω → S) (content : ω → C) (l : List (X × ω)) : Prop :=
  ∀ x, (lastOf (fun o ↦ o.1 = x) (offerAll key signature l Dict.empty).sent).map
      (fun o ↦ content o.2) =
    (lastOf (fun o ↦ o.1 = x) l).map fun o ↦ content o.2

omit [DecidableEq X] in
/-- **An offer keeps the senders separate** just when it repeats the last one under its key exactly
when it repeats the last one of its sender. -/
theorem separate_concat_iff (h : Separate key signature group view l) :
    Separate key signature group view (l ++ [o]) ↔
      (Repeats key signature l o ↔ Repeats key signature (offersBy group (group o.1) l) o) := by
  have hown : offersBy group (group o.1) (l ++ [o]) = offersBy group (group o.1) l ++ [o] := by
    simp [offersBy]
  have hif : offersBy group (group o.1) (if Repeats key signature l o then [] else [o]) =
      if Repeats key signature l o then [] else [o] := by
    split <;> simp [offersBy]
  constructor
  · intro hsep
    have hsep := hsep (group o.1)
    rw [sent_concat, offersBy, List.filter_append, ← offersBy, ← offersBy, List.map_append, h, hif,
      hown, sent_concat, List.map_append, List.append_cancel_left_eq] at hsep
    by_cases hr : Repeats key signature l o
    · by_cases hr' : Repeats key signature (offersBy group (group o.1) l) o <;> simp_all
    · by_cases hr' : Repeats key signature (offersBy group (group o.1) l) o <;> simp_all
  · intro hiff g
    rw [sent_concat, offersBy, List.filter_append, ← offersBy, ← offersBy, List.map_append, h]
    by_cases hg : group o.1 = g
    · subst hg
      rw [hif, hown, sent_concat, List.map_append]
      simp only [hiff]
    · have hother : offersBy group g (l ++ [o]) = offersBy group g l := by
        simp [offersBy, hg]
      have hnone : offersBy group g (if Repeats key signature l o then [] else [o]) = [] := by
        split <;> simp [offersBy, hg]
      rw [hother, hnone, List.map_nil, List.append_nil]

/-- **An offer is shown** just when it does not repeat the last one under its key, or is what its
subject was last offered. -/
theorem upToDate_concat_iff (h : UpToDate key signature content l) :
    (lastOf (fun o' ↦ o'.1 = o.1) (offerAll key signature (l ++ [o]) Dict.empty).sent).map
        (fun o' ↦ content o'.2) = some (content o.2) ↔
      (Repeats key signature l o →
        (lastOf (fun o' ↦ o'.1 = o.1) l).map (fun o' ↦ content o'.2) = some (content o.2)) := by
  rw [sent_concat]
  by_cases hr : Repeats key signature l o
  · rw [if_pos hr, List.append_nil, h]
    simp [hr]
  · rw [if_neg hr]
    simp [hr]

/-- Then every subject is still up to date. -/
theorem UpToDate.concat (h : UpToDate key signature content l)
    (ho : (lastOf (fun o' ↦ o'.1 = o.1) (offerAll key signature (l ++ [o]) Dict.empty).sent).map
      (fun o' ↦ content o'.2) = some (content o.2)) :
    UpToDate key signature content (l ++ [o]) := by
  intro x
  by_cases hx : o.1 = x
  · subst hx
    rw [ho]
    simp
  · have hsent : lastOf (fun o' ↦ o'.1 = x) (offerAll key signature (l ++ [o]) Dict.empty).sent =
        lastOf (fun o' ↦ o'.1 = x) (offerAll key signature l Dict.empty).sent := by
      rw [sent_concat]
      split
      · rw [List.append_nil]
      · simp [hx]
    rw [hsent, h x]
    simp [hx]

end Groups

end Lib
