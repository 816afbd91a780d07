import Mathlib.Order.Bounds.Basic
import OpenRide.Assignment.BookedMarket
import OpenRide.Assignment.ForgedBids

/-!
# The share accounting of a tick

When the rounds are over the planner tags every award that crosses companies.  The tag says what the
order would have cost its owner: the cheapest truck of the owner's whole fleet that the tick left
uncommitted and the owner's own rule allows, and the difference to what was awarded.

`shareTags_sound` is what the tags of a completed tick say, whatever the policies answered.  A tag
stands for exactly the awards whose carrier is not the owner, among those on a truck and an order of
the input.  Its reserve is the least finite cost of the spare trucks, and missing exactly when there
is none; its benefit is the difference of the two costs, missing when one of them is, or when the
difference is too large for a float.

The search for the reserve skips `inf` and `nan` by name and not `-inf`.  A spare truck of cost
`-inf` is the owner's cheapest, and its cost is published as it is (`shareTags_exceptions`), so what
is said about the reserve is said of ticks without one.
-/

namespace OpenRide.Assignment

open Lib PoolMarket

/-! ## The reserve -/

section Reserve

variable (o : Order) (committed : List String) (pairAllowed : PairAllowed) (cost : Cost)

/-- The truck is still free and may serve the order. -/
def Spare (t : Truck) : Prop := t.entityId ∉ committed ∧ pairAllowed t o = true

/-- The finite cost of a spare truck. -/
def spareCost (t : Truck) : Option ℚ :=
  if t.entityId ∈ committed ∨ pairAllowed t o = false then none else
    match cost t o with
    | .ok (.num (.fin q)) => some q
    | _ => none

/-- The finite costs at which the spare trucks of a fleet serve an order. -/
def SpareCosts (fleet : List Truck) : Set ℚ :=
  {q | ∃ t ∈ fleet, Spare o committed pairAllowed t ∧ cost t o = .ok (.num (.fin q))}

/-- No spare truck serves the order at a cost of `-inf`. -/
def NoNegInf (fleet : List Truck) : Prop :=
  ∀ t ∈ fleet, Spare o committed pairAllowed t → cost t o ≠ .ok (.num .negInf)

variable {o committed pairAllowed cost}

theorem spareCost_eq_some {t : Truck} {q : ℚ} :
    spareCost o committed pairAllowed cost t = some q ↔
      Spare o committed pairAllowed t ∧ cost t o = .ok (.num (.fin q)) := by
  rw [spareCost, Spare]
  split
  · next h =>
    refine iff_of_false (fun hn ↦ nomatch hn) fun ⟨⟨hfree, hall⟩, _⟩ ↦ ?_
    rcases h with h | h
    · exact hfree h
    · rw [hall] at h
      cases h
  · next h =>
    obtain ⟨hfree, hall⟩ := not_or.mp h
    have hspare : t.entityId ∉ committed ∧ pairAllowed t o = true :=
      ⟨hfree, eq_true_of_ne_false hall⟩
    split
    · next q' hq =>
      rw [hq, Option.some_inj]
      constructor
      · rintro rfl
        exact ⟨hspare, rfl⟩
      · rintro ⟨-, heq⟩
        cases heq
        rfl
    · next hne =>
      refine iff_of_false (fun hn ↦ nomatch hn) fun ⟨_, heq⟩ ↦ ?_
      exact hne q heq

variable {fleet : List Truck}

theorem mem_filterMap_spareCost {q : ℚ} :
    q ∈ fleet.filterMap (spareCost o committed pairAllowed cost) ↔
      q ∈ SpareCosts o committed pairAllowed cost fleet := by
  rw [List.mem_filterMap]
  simp only [spareCost_eq_some]
  rfl

/-- The search keeps the least cost met so far. -/
theorem ownerReserveKm_eq_min? (best : Option ℚ) {r : Option Double}
    (hneg : NoNegInf o committed pairAllowed cost fleet)
    (h : ownerReserveKm o committed pairAllowed cost fleet (best.map .fin) = .ok r) :
    r = ((best.toList ++ fleet.filterMap (spareCost o committed pairAllowed cost)).min?).map
      .fin := by
  induction fleet generalizing best with
  | nil =>
    rw [← Except.ok.inj h]
    cases best <;> rfl
  | cons t fleet ih =>
    have hrest : NoNegInf o committed pairAllowed cost fleet :=
      fun u hu ↦ hneg u (List.mem_cons_of_mem t hu)
    have hskip : spareCost o committed pairAllowed cost t = none →
        ownerReserveKm o committed pairAllowed cost fleet (best.map .fin) = .ok r →
        r = ((best.toList ++ (t :: fleet).filterMap
          (spareCost o committed pairAllowed cost)).min?).map .fin := by
      intro hnone hgo
      rw [List.filterMap_cons_none hnone]
      exact ih best hrest hgo
    rw [ownerReserveKm] at h
    split at h
    · next hg => exact hskip (by rw [spareCost, if_pos hg]) h
    · next hg =>
      split at h
      · cases h
      · next hc => exact hskip (by rw [spareCost, if_neg hg, hc]) h
      · next c hc =>
        obtain ⟨hfree, hall⟩ := not_or.mp hg
        cases c with
        | nan => exact hskip (by rw [spareCost, if_neg hg, hc]) (by simpa using h)
        | posInf => exact hskip (by rw [spareCost, if_neg hg, hc]) (by simpa using h)
        | negInf =>
          exact absurd hc (hneg t List.mem_cons_self ⟨hfree, eq_true_of_ne_false hall⟩)
        | fin q =>
          have hsome : spareCost o committed pairAllowed cost t = some q := by
            rw [spareCost, if_neg hg, hc]
          rw [List.filterMap_cons_some hsome]
          cases best with
          | none => exact ih (some q) hrest h
          | some b =>
            have hmin : (if (Double.fin q).lt (.fin b) then Double.fin q else .fin b) =
                .fin (min b q) := by
              rw [Double.lt]
              by_cases hlt : q < b
              · rw [if_pos (decide_eq_true hlt), min_eq_right hlt.le]
              · rw [if_neg (by simpa using hlt), min_eq_left (not_lt.mp hlt)]
            simp only [Option.map_some, hmin] at h
            exact ih (some (min b q)) hrest h

/-- **The reserve is the least finite cost of the spare trucks**, and missing when there is none. -/
theorem ownerReserveKm_isLeast {r : Option Double}
    (hneg : NoNegInf o committed pairAllowed cost fleet)
    (h : ownerReserveKm o committed pairAllowed cost fleet none = .ok r) :
    ∃ reserve : Option ℚ, r = reserve.map .fin ∧
      (∀ q, reserve = some q → IsLeast (SpareCosts o committed pairAllowed cost fleet) q) ∧
      (reserve = none ↔ SpareCosts o committed pairAllowed cost fleet = ∅) := by
  refine ⟨(fleet.filterMap (spareCost o committed pairAllowed cost)).min?,
    ownerReserveKm_eq_min? none hneg h, fun q hq ↦ ?_, ?_⟩
  · obtain ⟨hmem, hle⟩ := List.min?_eq_some_iff.mp hq
    exact ⟨mem_filterMap_spareCost.mp hmem, fun p hp ↦ hle p (mem_filterMap_spareCost.mpr hp)⟩
  · rw [List.min?_eq_none_iff, Set.eq_empty_iff_forall_notMem, List.eq_nil_iff_forall_not_mem]
    simp only [mem_filterMap_spareCost]

end Reserve

/-! ## The tags -/

section Tags

variable {σ : Type} {R : Runtime σ} {ctx : PooledPlannerContext σ} {fb : FleetBook}

/-- The key a tag is filed under. -/
def Award.tagKey (a : Award) : String × String := (a.truckId, a.orderId)

/-- What the accounting does with one award: the tag it files, if any. -/
def tagOf (R : Runtime σ) (ctx : PooledPlannerContext σ) (fb : FleetBook)
    (committed : List String) (a : Award) : Except TickError (Option ShareTag) :=
  match fb.trucksById.get? a.truckId, fb.ordersById.get? a.orderId with
  | some _, some o =>
    if a.ownerHaulierId = some a.carrierHaulierId then .ok none
    else (ownerReserveKm o committed ctx.pairAllowedOwn ctx.cost
      (fb.trucksOf (a.ownerHaulierId.getD "")) none).map fun reserve ↦ some (shareTag R a reserve)
  | _, _ => .ok none

/-- One award at a time: its tag is filed, or nothing is. -/
theorem account_cons {committed : List String} {a : Award} {as : List Award}
    {acc acc' : List Pair × Dict (String × String) ShareTag}
    (h : account R ctx fb committed (a :: as) acc = .ok acc') :
    ∃ tag pairs, tagOf R ctx fb committed a = .ok tag ∧
      account R ctx fb committed as
        (pairs, match tag with
          | some t => acc.2.set a.tagKey t
          | none => acc.2) = .ok acc' := by
  rw [account] at h
  rw [tagOf]
  rcases ht : fb.trucksById.get? a.truckId with _ | t
  · rw [ht] at h
    exact ⟨none, acc.1, rfl, h⟩
  rcases ho : fb.ordersById.get? a.orderId with _ | o
  · rw [ht, ho] at h
    exact ⟨none, acc.1, rfl, h⟩
  rw [ht, ho] at h
  dsimp only at h ⊢
  by_cases hself : a.ownerHaulierId = some a.carrierHaulierId
  · rw [if_pos hself] at h ⊢
    exact ⟨none, _, rfl, h⟩
  · rw [if_neg hself] at h ⊢
    rcases hr : ownerReserveKm o committed ctx.pairAllowedOwn ctx.cost
      (fb.trucksOf (a.ownerHaulierId.getD "")) none with e | reserve
    · rw [hr] at h
      cases h
    · rw [hr] at h
      exact ⟨some (shareTag R a reserve), _, rfl, h⟩

/-- The awards of a list file their tags, each under its own key, and nothing else. -/
theorem account_tags {committed : List String} {as : List Award}
    {acc acc' : List Pair × Dict (String × String) ShareTag} (hn : (as.map Award.tagKey).Nodup)
    (hfree : ∀ a ∈ as, acc.2.get? a.tagKey = none)
    (h : account R ctx fb committed as acc = .ok acc') :
    (∀ a ∈ as, tagOf R ctx fb committed a = .ok (acc'.2.get? a.tagKey)) ∧
      ∀ k, k ∉ as.map Award.tagKey → acc'.2.get? k = acc.2.get? k := by
  induction as generalizing acc with
  | nil =>
    cases h
    exact ⟨nofun, fun _ _ ↦ rfl⟩
  | cons a as ih =>
    rw [List.map_cons, List.nodup_cons] at hn
    obtain ⟨tag, pairs, htag, hrest⟩ := account_cons h
    -- filing the tag of `a` changes no other key
    have hother : ∀ k, k ≠ a.tagKey → (match tag with
        | some t => acc.2.set a.tagKey t
        | none => acc.2).get? k = acc.2.get? k := by
      intro k hk
      cases tag with
      | none => rfl
      | some t => exact Dict.get?_set_ne _ _ hk
    have hself : (match tag with
        | some t => acc.2.set a.tagKey t
        | none => acc.2).get? a.tagKey = tag := by
      cases tag with
      | none => exact hfree a List.mem_cons_self
      | some t => exact Dict.get?_set_self _ _ _
    have hne : ∀ b ∈ as, b.tagKey ≠ a.tagKey := by
      intro b hb heq
      exact hn.1 (heq ▸ List.mem_map_of_mem hb)
    obtain ⟨htags, hframe⟩ := ih hn.2
      (fun b hb ↦ (hother _ (hne b hb)).trans (hfree b (List.mem_cons_of_mem a hb))) hrest
    constructor
    · intro b hb
      rcases List.mem_cons.mp hb with rfl | hb
      · rw [htag, hframe _ hn.1, hself]
      · exact htags b hb
    · intro k hk
      rw [List.map_cons, List.mem_cons, not_or] at hk
      rw [hframe k hk.2, hother k hk.1]

/-- What the tag of an award says: the order is `owner`'s, and `fleet` is the owner's fleet. -/
structure SoundTag (R : Runtime σ) (ctx : PooledPlannerContext σ) (committed : List String)
    (fleet : List Truck) (owner : String) (o : Order) (a : Award) (tag : ShareTag) : Prop where
  shared : tag.shared = true
  owner : tag.ownerHaulierId = some owner
  carrier : tag.carrierHaulierId = a.carrierHaulierId
  pool : tag.poolId = a.poolId
  round : tag.marketRound = a.round
  /-- The awarded cost, where it is finite. -/
  awarded : tag.awardedCostKm = (finiteOrNone a.costKm).map R.round3
  /-- The reserve is the least finite cost of the owner's spare trucks, and missing when none has
  one; the benefit is what it exceeds the awarded cost by, where both are there and the difference
  is finite. -/
  reserve : NoNegInf o committed ctx.pairAllowedOwn ctx.cost fleet →
    ∃ reserve : Option ℚ,
      (∀ q, reserve = some q →
        IsLeast (SpareCosts o committed ctx.pairAllowedOwn ctx.cost fleet) q) ∧
      (reserve = none ↔ SpareCosts o committed ctx.pairAllowedOwn ctx.cost fleet = ∅) ∧
      tag.ownerReserveKm = reserve.map (fun q ↦ R.round3 (.fin q)) ∧
      tag.benefitKm = match reserve, a.costKm with
        | some r, .fin c => (finiteOrNone (R.rnd (r - c))).map R.round3
        | _, _ => none
  /-- No number of the tag is a NaN or infinite. -/
  finite : (∀ x, tag.awardedCostKm = some x → x.isFinite = true) ∧
    (∀ x, tag.benefitKm = some x → x.isFinite = true) ∧
    (NoNegInf o committed ctx.pairAllowedOwn ctx.cost fleet →
      ∀ x, tag.ownerReserveKm = some x → x.isFinite = true)

/-- Rounding to three decimals keeps a number finite. -/
def RoundsFinite (R : Runtime σ) : Prop := ∀ q, (R.round3 (.fin q)).isFinite = true

theorem RoundsFinite.of_finiteOrNone (hR : RoundsFinite R) {x y : Double}
    (h : (finiteOrNone x).map R.round3 = some y) : y.isFinite = true := by
  rw [finiteOrNone] at h
  split at h
  · next hx =>
    rw [← Option.some_inj.mp h]
    cases x with
    | fin q => exact hR q
    | nan => cases hx
    | posInf => cases hx
    | negInf => cases hx
  · cases h

theorem shareTag_benefitKm (a : Award) (reserve : Option Double) :
    (shareTag R a reserve).benefitKm = (match reserve, finiteOrNone a.costKm with
      | some r, some c => finiteOrNone (r.sub R.rnd c)
      | _, _ => none).map R.round3 := rfl

theorem shareTag_sound (hR : RoundsFinite R) {committed : List String} {fleet : List Truck}
    {owner : String} {o : Order} {a : Award} (how : a.ownerHaulierId = some owner)
    {r : Option Double}
    (hr : ownerReserveKm o committed ctx.pairAllowedOwn ctx.cost fleet none = .ok r) :
    SoundTag R ctx committed fleet owner o a (shareTag R a r) where
  shared := rfl
  owner := how
  carrier := rfl
  pool := rfl
  round := rfl
  awarded := rfl
  reserve := by
    intro hneg
    obtain ⟨reserve, rfl, hleast, hnone⟩ := ownerReserveKm_isLeast hneg hr
    refine ⟨reserve, hleast, hnone, Option.map_map _ _ _, ?_⟩
    rw [shareTag_benefitKm]
    cases reserve with
    | none => rfl
    | some q => cases a.costKm <;> rfl
  finite := by
    refine ⟨fun x hx ↦ hR.of_finiteOrNone hx, fun x hx ↦ ?_, fun hneg x hx ↦ ?_⟩
    · rw [shareTag_benefitKm] at hx
      split at hx
      · exact hR.of_finiteOrNone hx
      · cases hx
    · obtain ⟨reserve, rfl, -, -⟩ := ownerReserveKm_isLeast hneg hr
      cases reserve with
      | none => cases hx
      | some q =>
        rw [← Option.some_inj.mp hx]
        exact hR q

end Tags

/-! ## The tick -/

section Tick

variable {σ : Type} {R : Runtime σ} {ctx : PooledPlannerContext σ} {fb : FleetBook}
  {pol : Untrusted.Policies σ}

open Untrusted in
/-- A completed tick leaves a booked market, and its accounting went through. -/
theorem Untrusted.run_ok {pools : List Pool} {s : σ} {res : PooledMarketResult}
    (h : Untrusted.run R ctx pol fb pools s = .ok res) :
    Untrusted.Booked fb res.market ∧ ∃ acc,
      account R ctx fb (res.market.awards.map Award.truckId) res.market.awards ([], Dict.empty) =
        .ok acc ∧ res.shareTags = acc.2 := by
  obtain ⟨st, hst, h⟩ := bind_eq_ok.mp h
  obtain ⟨st', hst', h⟩ := bind_eq_ok.mp h
  have hm : Booked fb st'.market :=
    playRounds_booked (by exact contributeAll_booked (Booked.init pools) hst) hst'
  have hfin := liftTick_eq_ok h
  rw [finish] at hfin
  split at hfin
  · cases hfin
  · next acc hacc =>
    split at hfin
    · cases hfin
    · rw [← Except.ok.inj hfin]
      exact ⟨hm, acc, hacc, rfl⟩

/-- **The share accounting of a completed tick is sound.**  A tag stands for the awards on a truck
and an order of the input whose carrier is not the owner, and for nothing else; and it says what
`SoundTag` says, the committed trucks being those of all the awards of the tick and the fleet the
owner's whole fleet. -/
theorem shareTags_sound (R : Runtime σ) (ctx : PooledPlannerContext σ) (pol : Untrusted.Policies σ)
    (fb : FleetBook) (pools : List Pool) (s : σ) (res : PooledMarketResult)
    (hR : RoundsFinite R) (h : Untrusted.run R ctx pol fb pools s = .ok res) :
    (∀ a ∈ res.market.awards, ∃ owner, fb.ownerOf a.orderId = some owner ∧
      (∀ t o, fb.trucksById.get? a.truckId = some t → fb.ordersById.get? a.orderId = some o →
        ((∃ tag, res.shareTags.get? a.tagKey = some tag) ↔ a.carrierHaulierId ≠ owner) ∧
        ∀ tag, res.shareTags.get? a.tagKey = some tag →
          SoundTag R ctx (res.market.awards.map Award.truckId) (fb.trucksOf owner) owner o a tag) ∧
      (fb.trucksById.get? a.truckId = none ∨ fb.ordersById.get? a.orderId = none →
        res.shareTags.get? a.tagKey = none)) ∧
    ∀ k tag, res.shareTags.get? k = some tag → k ∈ res.market.awards.map Award.tagKey := by
  obtain ⟨hm, acc, hacc, htags⟩ := Untrusted.run_ok h
  have hn : (res.market.awards.map Award.tagKey).Nodup := by
    refine List.Nodup.of_map Prod.fst ?_
    rw [List.map_map]
    exact hm.ledger.trucks_nodup
  obtain ⟨hfiled, hframe⟩ := account_tags hn (fun _ _ ↦ rfl) hacc
  rw [← htags] at hfiled hframe
  constructor
  · intro a ha
    obtain ⟨how, owner, hown⟩ := hm.owned a ha
    rw [hown] at how
    have hfile := hfiled a ha
    refine ⟨owner, hown, fun t o ht ho ↦ ?_, fun hunknown ↦ ?_⟩
    · rw [tagOf, ht, ho] at hfile
      dsimp only at hfile
      by_cases hself : a.carrierHaulierId = owner
      · rw [if_pos (by rw [how, hself])] at hfile
        rw [← Except.ok.inj hfile]
        exact ⟨iff_of_false (fun ⟨_, hn⟩ ↦ nomatch hn) (not_not.mpr hself), fun _ hn ↦ nomatch hn⟩
      · have hne : a.ownerHaulierId ≠ some a.carrierHaulierId := by
          rw [how]
          exact fun heq ↦ hself (Option.some_inj.mp heq).symm
        rw [if_neg hne] at hfile
        cases hr : ownerReserveKm o (res.market.awards.map Award.truckId) ctx.pairAllowedOwn
            ctx.cost (fb.trucksOf (a.ownerHaulierId.getD "")) none with
        | error e =>
          rw [hr] at hfile
          cases hfile
        | ok r =>
          rw [hr] at hfile
          rw [← Except.ok.inj hfile]
          refine ⟨iff_of_true ⟨_, rfl⟩ hself, fun tag htag ↦ ?_⟩
          rw [← Option.some_inj.mp htag]
          rw [how] at hr
          exact shareTag_sound hR how hr
    · rw [tagOf] at hfile
      split at hfile
      · next t o ht ho =>
        rcases hunknown with hu | hu
        · rw [hu] at ht
          cases ht
        · rw [hu] at ho
          cases ho
      · exact (Except.ok.inj hfile).symm
  · intro k tag hk
    by_contra hnot
    rw [hframe k hnot] at hk
    cases hk

/-! ## A shared order

`A` has an order and a truck, `B` a truck, and they share the pool `p`. -/

def sharedBook : FleetBook where
  trucksByHaulier := Dict.ofList
    [("A", [{ id := some "tA", haulierId := some "A" }]),
     ("B", [{ id := some "tB", haulierId := some "B" }])]
  ordersByHaulier := Dict.ofList [("A", [{ id := some "oA", haulierId := some "A" }])]

/-- Everything allowed, and the given costs of the trucks of `A` and `B`. -/
def sharedContext (costA costB : Double) : PooledPlannerContext Unit where
  solver := greedyNearest smallRuntime (some 7)
  offer := offerAll
  claim := claimAllPlanned
  arbitration := .lowestCost
  maxRounds := 20
  pairAllowedOwn _ _ := true
  pairAllowedPooled _ _ := true
  cost t _ := .ok (.num (if t.id = some "tA" then costA else costB))
  tickSeed := 7

/-- Rounding, of which what is used here is that a number of 2^1024 or more is infinite. -/
def wideRuntime : Runtime Unit :=
  { smallRuntime with
    rnd := fun q ↦ if q < 2 ^ 1024 then if -2 ^ 1024 < q then .fin q else .negInf else .posInf }

/-- A tick of the shared order. -/
def sharedTick (claim : ClaimPolicy Unit) (costA costB : Double) :
    Except Untrusted.Abort PooledMarketResult :=
  Untrusted.run wideRuntime (sharedContext costA costB) (.ofTyped offerAll claim) sharedBook
    smallPools ()

/-- The trucks and carriers of the awards of a tick, and its tags. -/
def tickTags (x : Except Untrusted.Abort PooledMarketResult) :
    Option (List (String × String) × List ((String × String) × ShareTag)) :=
  match x with
  | .ok res => some (res.market.awards.map fun a ↦ (a.truckId, a.carrierHaulierId),
      res.shareTags.entries)
  | .error _ => none

/-- The tag of the shared order, carried by `B`. -/
def sharedTag (benefit awarded reserve : Option Double) : ShareTag where
  shared := true
  ownerHaulierId := some "A"
  carrierHaulierId := "B"
  benefitKm := benefit
  poolId := some "p"
  awardedCostKm := awarded
  ownerReserveKm := reserve
  marketRound := 1

/-- Where the accounting is not as plain as "a tag for every shared award, the benefit the
difference of two finite costs, no number infinite": a difference that no float holds is left out,
an award on a truck that does not exist has no tag, and a spare truck of cost `-inf` is the
reserve. -/
theorem shareTags_exceptions :
    tickTags (sharedTick claimAllPlanned (.fin (3 * 2 ^ 1022)) (.fin (-3 * 2 ^ 1022))) =
      some ([("tB", "B")], [(("tB", "oA"),
        sharedTag none (some (.fin (-3 * 2 ^ 1022))) (some (.fin (3 * 2 ^ 1022))))]) ∧
    tickTags (sharedTick (forgingClaim "ghost") (.fin 5) (.fin 1)) =
      some ([("ghost", "B")], []) ∧
    tickTags (sharedTick claimAllPlanned .negInf (.fin 1)) =
      some ([("tB", "B")], [(("tB", "oA"), sharedTag none (some (.fin 1)) (some .negInf))]) := by
  refine ⟨?_, ?_, ?_⟩
  · decide +kernel
  · decide +kernel
  · decide +kernel

/-- `B` carries the order at a cost of 1, and `A` could still have served it at a cost of 5. -/
theorem shareTags_sound_shared :
    RoundsFinite wideRuntime ∧
    tickTags (sharedTick claimAllPlanned (.fin 5) (.fin 1)) = some ([("tB", "B")],
      [(("tB", "oA"), sharedTag (some (.fin 4)) (some (.fin 1)) (some (.fin 5)))]) ∧
    ∃ res, sharedTick claimAllPlanned (.fin 5) (.fin 1) = .ok res ∧
      ∀ k tag, res.shareTags.get? k = some tag → k ∈ res.market.awards.map Award.tagKey := by
  have hR : RoundsFinite wideRuntime := fun _ ↦ rfl
  have htags : tickTags (sharedTick claimAllPlanned (.fin 5) (.fin 1)) = some ([("tB", "B")],
      [(("tB", "oA"), sharedTag (some (.fin 4)) (some (.fin 1)) (some (.fin 5)))]) := by
    decide +kernel
  cases hrun : sharedTick claimAllPlanned (.fin 5) (.fin 1) with
  | error e =>
    rw [hrun] at htags
    cases htags
  | ok res =>
    exact ⟨hR, hrun ▸ htags, res, rfl,
      (shareTags_sound wideRuntime (sharedContext (.fin 5) (.fin 1))
      (.ofTyped offerAll claimAllPlanned) sharedBook smallPools () res hR hrun).2⟩

end Tick

end OpenRide.Assignment
