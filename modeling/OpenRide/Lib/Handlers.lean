import Mathlib.Data.List.Basic
import Mathlib.Tactic.Common

/-!
# Handlers that publish

A message handler leaves a new state, publishes messages, and may raise.  `Handled` is what one did;
`andThen` goes on with the next one unless the first raised, and keeps what both have published.
`inOrder` runs a list of handlers, and `drain` empties an inbox: each message is taken off before it
is handled, so a message whose handler raises is gone while those behind it stay.

Handlers that post to several parties label each message with the one it is for; `addressed b` is
what an outbox, or an inbox labelled by sender, has for `b`.

A relation between the state before, what is published, and the state after is *closed* when it
holds of doing nothing and may be chained.  Such a relation holds of a whole list of handlers as
soon as it holds of each (`Closed.inOrder`, `Closed.drain`).
-/

set_option autoImplicit false

namespace Lib

variable {σ τ β ω : Type}

/-- What a handler did. -/
structure Handled (σ ω : Type) where
  state : σ
  sent : List ω := []
  raised : Bool := false
deriving DecidableEq

namespace Handled

/-- Go on from the state a handler left, unless it raised. -/
def andThen (o : Handled σ ω) (f : σ → Handled σ ω) : Handled σ ω :=
  if o.raised then o else { f o.state with sent := o.sent ++ (f o.state).sent }

/-- The same outcome, its state seen as part of another one. -/
def map (f : σ → τ) (o : Handled σ ω) : Handled τ ω := ⟨f o.state, o.sent, o.raised⟩

/-- One handler for each element of a list. -/
def inOrder (f : β → σ → Handled σ ω) : List β → σ → Handled σ ω
  | [], s => ⟨s, [], false⟩
  | b :: l, s => (f b s).andThen (inOrder f l)

/-- Take the messages off an inbox and handle them, until it is empty or a handler raises. -/
def drain (f : β → σ → Handled σ ω) : List β → σ → Handled (List β × σ) ω
  | [], s => ⟨([], s), [], false⟩
  | b :: l, s =>
    if (f b s).raised then (f b s).map (l, ·)
    else { drain f l (f b s).state with sent := (f b s).sent ++ (drain f l (f b s).state).sent }

theorem andThen_of_not_raised {o : Handled σ ω} (h : o.raised = false) (f : σ → Handled σ ω) :
    o.andThen f = { f o.state with sent := o.sent ++ (f o.state).sent } :=
  if_neg (Bool.eq_false_iff.mp h)

variable {f : β → σ → Handled σ ω}

theorem drain_of_raised {b : β} {s : σ} (h : (f b s).raised = true) (l : List β) :
    drain f (b :: l) s = (f b s).map (l, ·) := if_pos h

theorem drain_of_not_raised {b : β} {s : σ} (h : (f b s).raised = false) (l : List β) :
    drain f (b :: l) s =
      { drain f l (f b s).state with sent := (f b s).sent ++ (drain f l (f b s).state).sent } :=
  if_neg (Bool.eq_false_iff.mp h)

/-- Handlers that never raise empty the inbox. -/
theorem drain_not_raised (h : ∀ b s, (f b s).raised = false) (l : List β) (s : σ) :
    (drain f l s).raised = false := by
  induction l generalizing s with
  | nil => rfl
  | cons b l ih =>
    rw [drain_of_not_raised (h b s)]
    exact ih _

/-- An inbox whose first messages are handled without raising. -/
theorem drain_append {l l' : List β} {s : σ} (h : (drain f l s).raised = false) :
    drain f (l ++ l') s =
      { drain f l' (drain f l s).state.2 with
        sent := (drain f l s).sent ++ (drain f l' (drain f l s).state.2).sent } := by
  induction l generalizing s with
  | nil => rfl
  | cons b l ih =>
    by_cases hb : (f b s).raised = true
    · rw [drain_of_raised hb] at h
      exact absurd hb (Bool.eq_false_iff.mp h)
    · have hb := Bool.eq_false_iff.mpr hb
      rw [drain_of_not_raised hb] at h ⊢
      rw [List.cons_append, drain_of_not_raised hb, ih h, List.append_assoc]

theorem map_andThen {o : Handled σ ω} (h : o.raised = false) (f : σ → Handled σ ω) (g : σ → σ) :
    (o.andThen f).map g = o.andThen fun s ↦ (f s).map g := by
  rw [andThen_of_not_raised h, andThen_of_not_raised h]
  rfl

theorem andThen_raised (o : Handled σ ω) (f : σ → Handled σ ω) :
    (o.andThen f).raised = (o.raised || (f o.state).raised) := by
  rw [andThen]
  cases h : o.raised <;> simp [h]

theorem inOrder_congr {g : β → σ → Handled σ ω} {l : List β} (h : ∀ b ∈ l, f b = g b) (s : σ) :
    inOrder f l s = inOrder g l s := by
  induction l generalizing s with
  | nil => rfl
  | cons b l ih =>
    have hrest : inOrder f l = inOrder g l :=
      funext (ih fun b' hb' ↦ h b' (List.mem_cons_of_mem b hb'))
    rw [inOrder, inOrder, h b List.mem_cons_self, hrest]

/-- **A list of handlers raises** just when one of them sends what a handler raises with. -/
theorem inOrder_raised_iff {I : σ → Prop} {P : ω → Prop}
    (hf : ∀ b s, I s → ((f b s).raised = true ↔ ∃ m ∈ (f b s).sent, P m) ∧ I (f b s).state)
    (l : List β) {s : σ} (hs : I s) :
    ((inOrder f l s).raised = true ↔ ∃ m ∈ (inOrder f l s).sent, P m) ∧
      I (inOrder f l s).state := by
  induction l generalizing s with
  | nil => exact ⟨by simp [inOrder], hs⟩
  | cons b l ih =>
    obtain ⟨hraised, hI⟩ := hf b s hs
    rw [inOrder, andThen]
    split
    · exact ⟨hraised, hI⟩
    · next hb =>
      obtain ⟨hrest, hI⟩ := ih hI
      refine ⟨hrest.trans ⟨fun h ↦ ?_, fun h ↦ ?_⟩, hI⟩
      · obtain ⟨m, hm, hP⟩ := h
        exact ⟨m, List.mem_append_right _ hm, hP⟩
      · obtain ⟨m, hm, hP⟩ := h
        rcases List.mem_append.mp hm with hm | hm
        · exact absurd (hraised.mpr ⟨m, hm, hP⟩) hb
        · exact ⟨m, hm, hP⟩

end Handled

/-! ## Labelled messages -/

/-- The messages of a labelled list that carry a label. -/
def addressed [DecidableEq β] (b : β) (l : List (β × ω)) : List ω :=
  (l.filter fun m ↦ m.1 = b).map Prod.snd

section Addressed

variable [DecidableEq β]

@[simp] theorem addressed_nil (b : β) : addressed b ([] : List (β × ω)) = [] := rfl

@[simp] theorem addressed_append (b : β) (l l' : List (β × ω)) :
    addressed b (l ++ l') = addressed b l ++ addressed b l' := by
  simp [addressed]

@[simp] theorem addressed_cons_self (b : β) (m : ω) (l : List (β × ω)) :
    addressed b ((b, m) :: l) = m :: addressed b l := by
  simp [addressed]

theorem addressed_cons_of_ne {b c : β} (h : c ≠ b) (m : ω) (l : List (β × ω)) :
    addressed b ((c, m) :: l) = addressed b l := by
  simp [addressed, h]

end Addressed

/-! ## What a list of handlers does -/

/-- A relation that may be followed along several handlers. -/
structure Closed (R : σ → List ω → σ → Prop) : Prop where
  refl : ∀ s, R s [] s
  trans : ∀ {s out t out' u}, R s out t → R t out' u → R s (out ++ out') u

namespace Closed

variable {R : σ → List ω → σ → Prop}

/-- The same relation, of the part of a state that `f` shows. -/
theorem comap (hR : Closed R) (f : τ → σ) : Closed fun s out t ↦ R (f s) out (f t) where
  refl s := hR.refl (f s)
  trans h h' := hR.trans h h'

theorem filterMap (hR : Closed R) {ω' : Type} (f : ω' → Option ω) :
    Closed fun s out t ↦ R s (out.filterMap f) t where
  refl s := hR.refl s
  trans h h' := by
    rw [List.filterMap_append]
    exact hR.trans h h'

theorem andThen (hR : Closed R) {s : σ} {o : Handled σ ω} {f : σ → Handled σ ω}
    (ho : R s o.sent o.state) (hf : R o.state (f o.state).sent (f o.state).state) :
    R s (o.andThen f).sent (o.andThen f).state := by
  rw [Handled.andThen]
  split
  · exact ho
  · exact hR.trans ho hf

/-- **A list of handlers** does what each of them may do. -/
theorem inOrder (hR : Closed R) {f : β → σ → Handled σ ω}
    (hf : ∀ b s, R s (f b s).sent (f b s).state) (l : List β) (s : σ) :
    R s (Handled.inOrder f l s).sent (Handled.inOrder f l s).state := by
  induction l generalizing s with
  | nil => exact hR.refl s
  | cons b l ih => exact hR.andThen (hf b s) (ih _)

/-- **Emptying an inbox** does what handling one message, which is taken off, may do. -/
theorem drain {R : List β × σ → List ω → List β × σ → Prop} (hR : Closed R)
    {f : β → σ → Handled σ ω}
    (hf : ∀ b l s, R (b :: l, s) (f b s).sent (l, (f b s).state)) (l : List β) (s : σ) :
    R (l, s) (Handled.drain f l s).sent (Handled.drain f l s).state := by
  induction l generalizing s with
  | nil => exact hR.refl _
  | cons b l ih =>
    rw [Handled.drain]
    split
    · exact hf b l s
    · exact hR.trans (hf b l s) (ih _)

end Closed

end Lib
