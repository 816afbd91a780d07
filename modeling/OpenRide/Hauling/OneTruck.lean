import Mathlib.Data.List.Nodup
import OpenRide.Hauling.System

/-!
# One truck hauls an order

Between a haul trip and the next time its order is listed, the document of the order may still say
`unassigned`.  The assignment tick therefore reads the orders on an open trip and drops them.  What
it then publishes is handled before the next tick reads anything, so a trip is only created for an
order on no open trip, as long as that one read overlooks none (`one_truck_at_a_time`).  When the
read fails the tick goes on as if no order were claimed, and an order may be hauled twice
(`hauled_twice`).

A truck needs no read: it refuses an assignment while it remembers a trip, and it forgets a trip
only when that is over.
-/

namespace OpenRide.Hauling

open Lib Haulage OrderLifecycle

/-! ## The invariant -/

/-- What holds of every state of a run in which no open trip is overlooked. -/
structure Exclusive (s : World) : Prop where
  /-- A truck remembers its open trip. -/
  remembered : ∀ (k : ℕ) t, s.trips[k]? = some t → t.isOpen = true → s.active t.truck = some k
  /-- An order is on one open trip. -/
  single : ∀ (j k : ℕ) t u, s.trips[j]? = some t → s.trips[k]? = some u → t.isOpen = true →
    u.isOpen = true → t.order = u.order → j = k
  /-- What a truck is still to be told of is not hauled, and published once. -/
  published : ∀ oid ∈ s.published.map Assignment.order, oid ∉ s.openOrders
  distinct : (s.published.map Assignment.order).Nodup
  /-- While a tick reads, nothing is published. -/
  alone : s.tick ≠ .idle → s.published = []
  /-- The claimed orders are out of the tick. -/
  excluded : ∀ trucks orders, s.tick = .excludedClaimed trucks orders ∨
    s.tick = .solving trucks orders → ∀ oid ∈ orders, oid ∉ s.openOrders

variable {s : World}

theorem mem_openOrders {oid : Id} : oid ∈ s.openOrders ↔
    ∃ (k : ℕ) (t : HaulDoc), s.trips[k]? = some t ∧ t.isOpen = true ∧ t.order = oid := by
  rw [World.openOrders, List.mem_map]
  constructor
  · rintro ⟨t, ht, rfl⟩
    obtain ⟨hmem, hopen⟩ := List.mem_filter.mp ht
    obtain ⟨k, hk⟩ := List.mem_iff_getElem?.mp hmem
    exact ⟨k, t, hk, hopen, rfl⟩
  · rintro ⟨k, t, hk, hopen, rfl⟩
    exact ⟨t, List.mem_filter.mpr ⟨List.mem_of_getElem? hk, hopen⟩, rfl⟩

theorem exclusive_start (orders : Orders) : Exclusive { orders := orders } where
  remembered k t ht := absurd ht (by simp)
  single j k t u ht := absurd ht (by simp)
  published oid hoid := absurd hoid List.not_mem_nil
  distinct := List.nodup_nil
  alone _ := rfl
  excluded trucks orders h := by rcases h with h | h <;> cases h

/-! ## The steps -/

/-- A tick reads on: nobody else is concerned. -/
theorem Exclusive.read (h : Exclusive s) {tick : Tick} (hnone : s.published = [])
    (hexcl : ∀ trucks orders, tick = .excludedClaimed trucks orders ∨
      tick = .solving trucks orders → ∀ oid ∈ orders, oid ∉ s.openOrders)
    :
    Exclusive { s with tick := tick } where
  remembered := h.remembered
  single := h.single
  published := h.published
  distinct := h.distinct
  alone _ := hnone
  excluded := hexcl

variable {s' : World}

theorem openOrders_subset
    (h : ∀ (k : ℕ) u, s'.trips[k]? = some u → u.isOpen = true → ∃ t, s.trips[k]? = some t ∧
      t.isOpen = true ∧ t.truck = u.truck ∧ t.order = u.order)
    {oid : Id} (hoid : oid ∈ s'.openOrders) : oid ∈ s.openOrders := by
  obtain ⟨k, u, hu, hopen, rfl⟩ := mem_openOrders.mp hoid
  obtain ⟨t, ht, htopen, -, ho⟩ := h k u hu hopen
  exact mem_openOrders.mpr ⟨k, t, ht, htopen, ho⟩

/-- A trip goes on, or is over. -/
theorem Exclusive.shrink (h : Exclusive s)
    (htrips : ∀ (k : ℕ) u, s'.trips[k]? = some u → u.isOpen = true → ∃ t, s.trips[k]? = some t ∧
      t.isOpen = true ∧ t.truck = u.truck ∧ t.order = u.order)
    (hactive : s'.active = s.active) (htick : s'.tick = s.tick)
    (hpub : s'.published.Sublist s.published) : Exclusive s' where
  remembered k u hu hopen := by
    obtain ⟨t, ht, htopen, htruck, -⟩ := htrips k u hu hopen
    rw [hactive, ← htruck]
    exact h.remembered k t ht htopen
  single j k t u ht hu hto huo ho := by
    obtain ⟨t', ht', hto', -, hteq⟩ := htrips j t ht hto
    obtain ⟨u', hu', huo', -, hueq⟩ := htrips k u hu huo
    exact h.single j k t' u' ht' hu' hto' huo' (hteq.trans (ho.trans hueq.symm))
  published oid hoid hopen :=
    h.published oid ((hpub.map _).subset hoid) (openOrders_subset htrips hopen)
  distinct := h.distinct.sublist (hpub.map _)
  alone hne := by
    rw [htick] at hne
    exact List.sublist_nil.mp (h.alone hne ▸ hpub)
  excluded trucks orders ht oid hoid hopen := by
    rw [htick] at ht
    exact h.excluded trucks orders ht oid hoid (openOrders_subset htrips hopen)

theorem getElem?_concat_cases {trips : List HaulDoc} {t u : HaulDoc} {k : ℕ}
    (h : (trips ++ [t])[k]? = some u) : trips[k]? = some u ∨ (k = trips.length ∧ u = t) := by
  rcases Nat.lt_or_ge k trips.length with hk | hk
  · rw [List.getElem?_append_left hk] at h
    exact Or.inl h
  · rw [List.getElem?_append_right hk, List.getElem?_singleton] at h
    split at h
    · next hz => exact Or.inr ⟨by omega, (Option.some_inj.mp h).symm⟩
    · cases h

/-- A truck that remembers no trip starts one, for an order on no open trip. -/
theorem Exclusive.handle (h : Exclusive s) {i : ℕ} {x : Assignment} (hx : s.published[i]? = some x)
    (hfree : s.active x.truck = none) (simClock : Option RawClock) :
    Exclusive { s with
      published := s.published.eraseIdx i
      trips := s.trips ++ [{ truck := x.truck, order := x.order, simClock := simClock }]
      active := Function.update s.active x.truck (some s.trips.length) } := by
  have hmem := List.mem_of_getElem? hx
  have hnew : x.order ∉ s.openOrders :=
    h.published x.order (List.mem_map.mpr ⟨x, hmem, rfl⟩)
  have hidle : s.tick = .idle := by
    by_contra hne
    rw [h.alone hne] at hmem
    exact absurd hmem List.not_mem_nil
  have hopenOf : ∀ {k : ℕ} {t}, s.trips[k]? = some t → t.isOpen = true → t.order ≠ x.order :=
    fun {k t} ht hopen he ↦ hnew (mem_openOrders.mpr ⟨k, t, ht, hopen, he⟩)
  have hrest : x.order ∉ (s.published.eraseIdx i).map Assignment.order := by
    have hperm : (x.order :: (s.published.eraseIdx i).map Assignment.order).Perm
        (s.published.map Assignment.order) := by
      obtain ⟨hi, rfl⟩ := List.getElem?_eq_some_iff.mp hx
      exact (List.getElem_cons_eraseIdx_perm hi).map Assignment.order
    exact (List.nodup_cons.mp (hperm.nodup_iff.mpr h.distinct)).1
  refine ⟨fun k t ht hopen ↦ ?_, fun j k t u ht hu hto huo ho ↦ ?_, fun oid hoid hopen ↦ ?_,
    h.distinct.sublist ((List.eraseIdx_sublist _ _).map _), fun hne ↦ absurd hidle hne,
    fun trucks orders ht ↦ ?_⟩
  · show Function.update s.active x.truck (some s.trips.length) t.truck = some k
    rcases getElem?_concat_cases ht with ht | ⟨rfl, rfl⟩
    · have hrem := h.remembered k t ht hopen
      have hne : t.truck ≠ x.truck := fun he ↦ by
        rw [he, hfree] at hrem
        cases hrem
      rw [Function.update_of_ne hne]
      exact hrem
    · exact Function.update_self _ _ _
  · rcases getElem?_concat_cases ht with ht | ⟨rfl, rfl⟩
    · rcases getElem?_concat_cases hu with hu | ⟨rfl, rfl⟩
      · exact h.single j k t u ht hu hto huo ho
      · exact absurd ho (hopenOf ht hto)
    · rcases getElem?_concat_cases hu with hu | ⟨rfl, rfl⟩
      · exact absurd ho.symm (hopenOf hu huo)
      · rfl
  · obtain ⟨k, t, ht, hto, rfl⟩ := mem_openOrders.mp hopen
    rcases getElem?_concat_cases ht with ht | ⟨-, rfl⟩
    · exact h.published t.order (((List.eraseIdx_sublist _ _).map _).subset hoid)
        (mem_openOrders.mpr ⟨k, t, ht, hto, rfl⟩)
    · exact hrest hoid
  · replace ht : s.tick = .excludedClaimed trucks orders ∨ s.tick = .solving trucks orders := ht
    rw [hidle] at ht
    rcases ht with ht | ht <;> cases ht

/-- A truck forgets a trip that is over. -/
theorem Exclusive.refresh (h : Exclusive s) {truck : Id} {k : ℕ} {t : HaulDoc}
    (hactive : s.active truck = some k) (ht : s.trips[k]? = some t) (hover : t.isOpen = false) :
    Exclusive { s with active := Function.update s.active truck none } where
  remembered j u hu hopen := by
    have hrem := h.remembered j u hu hopen
    have hne : u.truck ≠ truck := fun he ↦ by
      rw [he, hactive] at hrem
      cases hrem
      obtain rfl := Option.some_inj.mp (ht.symm.trans hu)
      rw [hover] at hopen
      cases hopen
    exact (Function.update_of_ne hne _ _).trans hrem
  single := h.single
  published := h.published
  distinct := h.distinct
  alone := h.alone
  excluded := h.excluded

/-! ## Runs -/

/-- The condition on a run: what the read of the claimed orders returns has every listed order that
is on an open trip. -/
def ClaimsRead (s : World) : Event → Prop
  | .readClaimed claimed => ∀ oid ∈ s.tick.orders, oid ∈ s.openOrders → oid ∈ claimed
  | _ => True

instance (s : World) : (e : Event) → Decidable (ClaimsRead s e)
  | .readClaimed claimed =>
    inferInstanceAs (Decidable (∀ oid ∈ s.tick.orders, oid ∈ s.openOrders → oid ∈ claimed))
  | .listTrucks _ | .listOrders _ | .readBusy _ | .publish _ | .handle ..
  | .transition .. | .refresh _ | .drain .. | .publishDue .. | .sweep .. =>
    inferInstanceAs (Decidable True)

variable {w : OrderBatchWriter} {strToTime : String → Option ℤ} {rejectBusy : Bool}

theorem exclusive_step {e : Event} (h : Exclusive s) (hC : ClaimsRead s e)
    (hs : (hauling w strToTime rejectBusy).step s e = some s') : Exclusive s' := by
  cases moves_of_step hs with
  | listTrucks hidle hnone =>
    exact h.read hnone fun _ _ ht ↦ by rcases ht with ht | ht <;> cases ht
  | listOrdersFails htick =>
    exact h.read (h.alone (by rw [htick]; exact Tick.noConfusion)) fun _ _ ht ↦ by
      rcases ht with ht | ht <;> cases ht
  | listOrders htick hread =>
    exact h.read (h.alone (by rw [htick]; exact Tick.noConfusion)) fun _ _ ht ↦ by
      rcases ht with ht | ht <;> cases ht
  | @readClaimed trucks orders claimed htick =>
    refine h.read (h.alone (by rw [htick]; exact Tick.noConfusion)) fun trucks' orders' ht ↦ ?_
    rcases ht with ht | ht
    · obtain ⟨rfl, rfl⟩ := Tick.excludedClaimed.inj ht
      intro oid hoid
      obtain ⟨hmem, hno⟩ := List.mem_filter.mp hoid
      have hall : ∀ oid ∈ s.tick.orders, oid ∈ s.openOrders → oid ∈ claimed := hC
      rw [htick] at hall
      exact fun hopen ↦ of_decide_eq_true hno (hall oid hmem hopen)
    · cases ht
  | @readBusy trucks orders busy candidates htick =>
    refine h.read (h.alone (by rw [htick]; exact Tick.noConfusion)) fun trucks' orders' ht ↦ ?_
    rcases ht with ht | ht
    · cases ht
    · obtain ⟨-, rfl⟩ := Tick.solving.inj ht
      exact h.excluded _ _ (Or.inl htick)
  | @publish candidates orders assignments htick hmatch =>
    have hnone := h.alone (by rw [htick]; exact Tick.noConfusion)
    rw [hnone, List.nil_append]
    refine ⟨h.remembered, h.single, fun oid hoid ↦ ?_, hmatch.2.2, fun hne ↦ absurd rfl hne,
      fun _ _ ht ↦ by rcases ht with ht | ht <;> cases ht⟩
    obtain ⟨x, hx, rfl⟩ := List.mem_map.mp hoid
    exact h.excluded _ _ (Or.inr htick) _ (hmatch.1 x hx).2
  | handle hx honline hfree => exact h.handle hx hfree _
  | ignore =>
    exact h.shrink (fun k u hu hopen ↦ ⟨u, hu, hopen, rfl, rfl⟩) rfl rfl
      (List.eraseIdx_sublist _ _)
  | @transition k tr simClock t ht hsource =>
    refine h.shrink (fun j u hu hopen ↦ ?_) rfl rfl (List.Sublist.refl _)
    by_cases hkj : k = j
    · subst hkj
      rw [List.getElem?_set_self (List.getElem?_eq_some_iff.mp ht).1] at hu
      cases hu
      refine ⟨t, ht, ?_, rfl, rfl⟩
      rw [HaulDoc.isOpen, Bool.not_eq_true']
      exact Bool.eq_false_iff.mpr fun hf ↦ notMem_sources_of_final hf hsource
    · rw [List.getElem?_set_ne hkj] at hu
      exact ⟨u, hu, hopen, rfl, rfl⟩
  | refresh hactive ht hover => exact h.refresh hactive ht hover
  | drain =>
    exact h.shrink (fun k u hu hopen ↦ ⟨u, hu, hopen, rfl, rfl⟩) rfl rfl (List.Sublist.refl _)
  | publishDue =>
    exact h.shrink (fun k u hu hopen ↦ ⟨u, hu, hopen, rfl, rfl⟩) rfl rfl (List.Sublist.refl _)
  | sweep =>
    exact h.shrink (fun k u hu hopen ↦ ⟨u, hu, hopen, rfl, rfl⟩) rfl rfl (List.Sublist.refl _)

/-- What two open trips share, no two places of the list of trips share. -/
theorem nodup_open_map {α : Type} {trips : List HaulDoc} {f : HaulDoc → α}
    (h : ∀ (j k : ℕ) t u, trips[j]? = some t → trips[k]? = some u → t.isOpen = true →
      u.isOpen = true → f t = f u → j = k) :
    ((trips.filter HaulDoc.isOpen).map f).Nodup := by
  rw [List.Nodup, List.pairwise_map, List.pairwise_filter, List.pairwise_iff_getElem]
  intro j k hj hk hjk hto huo hf
  have := h j k _ _ (List.getElem?_eq_getElem hj) (List.getElem?_eq_getElem hk) hto huo hf
  omega

/-- **An order is on one open haul trip at a time, and so is a truck**, in every run in which the
read of the claimed orders overlooks none that the tick has listed. -/
theorem one_truck_at_a_time {orders : Orders} {s : World}
    (hs : (hauling w strToTime rejectBusy).Reach ClaimsRead { orders := orders } s) :
    s.openOrders.Nodup ∧ s.openTrucks.Nodup := by
  have hI : Exclusive s :=
    hs.invariant (exclusive_start orders) fun a e b ha hC hstep ↦ exclusive_step ha hC hstep
  refine ⟨nodup_open_map hI.single, nodup_open_map fun j k t u ht hu hto huo he ↦ ?_⟩
  have hj := hI.remembered j t ht hto
  rw [he] at hj
  exact Option.some_inj.mp (hj.symm.trans (hI.remembered k u hu huo))

theorem t2_ne_empty : "t2" ≠ "" := by decide

/-- Another tick, in which the read of the claimed orders returns something. -/
def nextTick (claimed : List Id) : List Event :=
  [.listTrucks [⟨"t2", t2_ne_empty⟩], .listOrders (some [⟨"o1", o1_ne_empty⟩]),
    .readClaimed claimed, .readBusy [], .publish [⟨⟨"t2", t2_ne_empty⟩, ⟨"o1", o1_ne_empty⟩⟩],
    .handle 0 true none]

/-- A tick that finds the order claimed, and one that does not when its trip is over. -/
def cancelBetween : List Event :=
  oneTick ++ [.transition 0 .assign none, .listTrucks [⟨"t2", t2_ne_empty⟩],
    .listOrders (some [⟨"o1", o1_ne_empty⟩]), .readClaimed [⟨"o1", o1_ne_empty⟩],
    .readBusy [⟨"t1", t1_ne_empty⟩], .publish [], .transition 0 .cancel none] ++ nextTick []

/-- The order goes to a second truck when the trip of the first is over. -/
theorem one_truck_after_cancel : ∃ s, (hauling { runId := "run" } (fun _ ↦ none) true).execWhen
      ClaimsRead { orders := oneOrder } cancelBetween = some s ∧ s.trips.length = 2 ∧
        s.openOrders.Nodup ∧ s.openTrucks.Nodup := by
  have hrun : ((hauling { runId := "run" } (fun _ ↦ none) true).execWhen ClaimsRead
      { orders := oneOrder } cancelBetween).map (fun s ↦ s.trips.length) = some 2 := by
    decide
  obtain ⟨s, hs, hlen⟩ := Option.map_eq_some_iff.mp hrun
  exact ⟨s, hs, hlen, one_truck_at_a_time (Machine.reach_of_execWhen hs)⟩

/-- The trip is open, its document lags and the read fails: two trucks haul the order. -/
theorem hauled_twice : ∃ s, (hauling { runId := "run" } (fun _ ↦ none) true).exec
      { orders := oneOrder } (oneTick ++ .transition 0 .assign none :: nextTick []) = some s ∧
    ¬ (s.openOrders.Nodup ∧ s.openTrucks.Nodup) := by
  have hrun : ((hauling { runId := "run" } (fun _ ↦ none) true).exec { orders := oneOrder }
      (oneTick ++ .transition 0 .assign none :: nextTick [])).map World.openOrders =
        some [⟨"o1", by decide⟩, ⟨"o1", by decide⟩] := by decide
  obtain ⟨s, hs, hopen⟩ := Option.map_eq_some_iff.mp hrun
  refine ⟨s, hs, fun h ↦ ?_⟩
  rw [hopen] at h
  exact absurd h.1 (by decide)

end OpenRide.Hauling
