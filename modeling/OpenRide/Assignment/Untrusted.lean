import OpenRide.Assignment.PooledTick

/-!
# Policies that answer anything

`OfferPolicy` and `ClaimPolicy` answer in the types their contracts declare.  The code checks less
than that, so here a policy answers with any value, by what the host sees of it: an offer is a
dictionary with keys of any kind and pool lists that may not be iterable, or not a dictionary; bids
are a collection that may not be iterable, of things the arbitration may raise on.

The host calls a policy under a handler and consumes the answer outside it.  Four of its own
statements can therefore raise on an answer: sorting the keys of an offer, taking `or []` of a pool
list and iterating it, extending the bids of the round, and reading a bid in the arbitration.
`Abort` tells a tick that ends so from one that an exception of the cost function ends.

The steps are those of `PooledPlanner` under the same names.  With policies that keep their
contracts this is the tick modelled there (`run_ofTyped`).
-/

namespace OpenRide.Assignment

open Lib PoolMarket

namespace Untrusted

/-! ## Answers -/

/-- A value the host takes `or []` of and then iterates. -/
inductive Answer (α : Type) where
  /-- `None`, a zero or an empty collection. -/
  | falsy
  /-- What iterating it yields. -/
  | items (l : List α)
  /-- Iterating it raises: a `TypeError` where it is not iterable. -/
  | iterRaises (e : PyExc)
  /-- Asking whether it is true raises. -/
  | truthRaises (e : PyExc)

/-- `x or []`, and what iterating the outcome gives. -/
def Answer.orEmpty {α : Type} : Answer α → Except PyExc (Except PyExc (List α))
  | falsy => .ok (.ok [])
  | items l => .ok (.ok l)
  | iterRaises e => .ok (.error e)
  | truthRaises e => .error e

/-- A key of a dictionary: what it compares by, and its `str`. -/
inductive AnswerKey where
  | str (s : String)
  | number (x : ℚ) (text : String)
  /-- A value that `<` compares within its kind: a kind such as bytes, dates or pairs of strings,
  and its place there. -/
  | placed (kind : String) (place : ℚ) (text : String)
  /-- A value that `<` compares with nothing, such as a complex number or `None`. -/
  | unordered (text : String)
deriving DecidableEq

/-- `str(order_id)`. -/
def AnswerKey.text : AnswerKey → String
  | str s => s
  | number _ text => text
  | placed _ _ text => text
  | unordered text => text

def AnswerKey.isStr : AnswerKey → Bool
  | str _ => true
  | _ => false

/-- Can `<` compare the two keys? -/
def AnswerKey.comparable : AnswerKey → AnswerKey → Bool
  | str _, str _ => true
  | number _ _, number _ _ => true
  | placed kind _ _, placed kind' _ _ => kind = kind'
  | _, _ => false

/-- The place of a key among those it compares with. -/
def AnswerKey.value : AnswerKey → ℚ
  | number x _ => x
  | placed _ place _ => place
  | _ => 0

/-- What `sorted` needs of the keys: no two to compare, or all of one kind. -/
def Sortable (ks : List AnswerKey) : Prop :=
  ks.length ≤ 1 ∨ ∀ k ∈ ks, ∀ l ∈ ks, k.comparable l = true

instance (ks : List AnswerKey) : Decidable (Sortable ks) := by
  unfold Sortable
  infer_instance

/-- `sorted(contribution)`.  Any two keys of different kinds make it raise: a sort compares its way
from each key to every other. -/
def sortKeys (ks : List AnswerKey) : Except PyExc (List AnswerKey) :=
  if Sortable ks then
    .ok (if ∀ k ∈ ks, k.isStr = true then sortedBy AnswerKey.text ks
      else sortedBy AnswerKey.value ks)
  else .error .typeError

/-- What an offer policy returns. -/
inductive OfferAnswer where
  | notDict
  | dict (contribution : Dict AnswerKey (Answer String))

/-- What a claim policy puts among its bids. -/
inductive BidItem where
  | bid (b : Bid)
  /-- What the arbitration raises on: it is no bid, or a field of it cannot be ranked or looked up,
  such as a cost `float` overflows on or an order id that has no hash. -/
  | raises (e : PyExc)

/-- The policies of the companies. -/
structure Policies (σ : Type) where
  offer : OfferRequest → σ → Except PyExc OfferAnswer × σ
  claim : ClaimRequest → σ → Except PyExc (Answer BidItem) × σ

/-- What ends a tick early. -/
inductive Abort where
  /-- The host's own code raised on a policy's answer. -/
  | answer (e : PyExc)
  /-- What ends any tick. -/
  | tick (e : TickError)
deriving DecidableEq

/-- A step that does not touch an answer. -/
def liftTick {α : Type} : Except TickError α → Except Abort α := Except.mapError .tick

/-- A step that consumes an answer outside every handler. -/
def liftAnswer {α : Type} : Except PyExc α → Except Abort α := Except.mapError .answer

section Planner

variable {σ : Type} (R : Runtime σ) (ctx : PooledPlannerContext σ) (pol : Policies σ)
  (fb : FleetBook)

/-! ## Contribution -/

/-- Place the orders of one contribution, in the order of the sorted keys. -/
def contributeOrders (h : String) (contribution : Dict AnswerKey (Answer String)) :
    List AnswerKey → PoolMarket → Except Abort PoolMarket
  | [], m => pure m
  | k :: ks, m => do
    let poolIds ← liftAnswer ((contribution.get? k).getD .falsy).orEmpty
    if fb.ownerOf k.text = some h then
      let pids ← liftAnswer poolIds
      contributeOrders h contribution ks (m.contribute k.text h pids).2
    else contributeOrders h contribution ks m

/-- What an offer policy is asked. -/
def offerRequest (m : PoolMarket) (h : String) : OfferRequest where
  haulierId := h
  orders := fb.ordersOf h
  trucks := fb.trucksOf h
  pools := m.poolsFor h
  cost := ctx.cost

/-- The host takes an answer to an offer request. -/
def takeOffer (h : String) (m : PoolMarket) : Except PyExc OfferAnswer → Except Abort PoolMarket
  | .error _ => pure m
  | .ok .notDict => pure m
  | .ok (.dict contribution) => do
    let ks ← liftAnswer (sortKeys contribution.keys)
    contributeOrders fb h contribution ks m

/-- The contribution of one company. -/
def contributeCompany (st : PoolMarket × σ) (h : String) : Except Abort (PoolMarket × σ) :=
  if (st.1.poolsFor h).isEmpty || (fb.ordersOf h).isEmpty then pure st else do
    let r := pol.offer (offerRequest ctx fb st.1 h) st.2
    let m ← takeOffer fb h st.1 r.1
    pure (m, r.2)

/-- The contributions of a list of companies. -/
def contributeEach : List String → PoolMarket × σ → Except Abort (PoolMarket × σ)
  | [], st => pure st
  | h :: hs, st => do
    let st' ← contributeCompany ctx pol fb st h
    contributeEach hs st'

/-- The contributions of all companies. -/
def contributeAll (m : PoolMarket) (s : σ) : Except Abort (PoolMarket × σ) :=
  if m.isEmpty then pure (m, s) else contributeEach ctx pol fb fb.companyIds (m, s)

/-! ## Rounds -/

/-- The state of a round between two companies' turns. -/
structure TurnState (σ : Type) where
  market : PoolMarket
  rng : σ
  bids : List BidItem
  privateCommits : ℕ

/-- The host takes an answer to a claim request: `round_bids.extend(bids or ())`. -/
def takeBids : Except PyExc (Answer BidItem) → Except Abort (List BidItem)
  | .error _ => pure []
  | .ok bids => do
    let some ← liftAnswer bids.orEmpty
    liftAnswer some

/-- The items one company bids. -/
def claimBids (r : ClaimRequest) (s : σ) : Except Abort (List BidItem × σ) :=
  if r.pooledPairs.isEmpty then pure ([], s) else do
    let bids ← takeBids (pol.claim r s).1
    pure (bids, (pol.claim r s).2)

/-- What a company does with its plan: commit the private pairs, bid on the others. -/
def actOnPlan (h : String) (rnd : ℤ) (plan : List Pair) (st : TurnState σ) :
    Except Abort (TurnState σ) := do
  let own := ownPrivatePairs fb st.market h plan
  let contributed := ownContributedPairs fb st.market h plan
  let foreign := foreignPairs fb h plan
  let c ← liftTick (commitPrivate ctx h rnd own (st.privateCommits, st.market))
  let r ← claimBids pol
    (claimRequest ctx c.2 h rnd (own ++ contributed) (contributed ++ foreign)) st.rng
  pure { market := c.2, rng := r.2, bids := st.bids ++ r.1, privateCommits := c.1 }

/-- One company's turn. -/
def companyTurn (m₀ : PoolMarket) (cands : Dict String (List Pair)) (rnd : ℤ) (h : String)
    (st : TurnState σ) : Except Abort (TurnState σ) :=
  if (freeTrucks fb m₀ h).isEmpty || (candidateOrders fb st.market h).isEmpty then pure st else
    match solveCompany R ctx (freeTrucks fb m₀ h) (candidateOrders fb st.market h)
        (pairAllowedFor ctx h) ((cands.get? h).getD []) st.rng with
    | (.error _, s) => pure { st with rng := s }
    | (.ok plan, s) => actOnPlan ctx pol fb h rnd plan { st with rng := s }

/-- The turns of a list of companies. -/
def companyTurns (m₀ : PoolMarket) (cands : Dict String (List Pair)) (rnd : ℤ) :
    List String → TurnState σ → Except Abort (TurnState σ)
  | [], st => pure st
  | h :: hs, st => do
    let st' ← companyTurn R ctx pol fb m₀ cands rnd h st
    companyTurns m₀ cands rnd hs st'

/-- The bids among the items of a round, whose fields a rule reads. -/
def readBids : List BidItem → Except PyExc (List Bid)
  | [] => pure []
  | .bid b :: items => do
    let bids ← readBids items
    pure (b :: bids)
  | .raises e :: _ => .error e

/-- The end of a round. -/
def settleRound (st : TurnState σ) : Except Abort (Bool × PoolMarket × σ) := do
  let bids ← liftAnswer (readBids st.bids)
  pure (Assignment.settleRound R ctx fb
    { market := st.market, rng := st.rng, bids := bids, privateCommits := st.privateCommits })

/-- One round. -/
def playRound (rnd : ℤ) (st : TickState σ) : Except Abort (TickState σ) := do
  let cands := roundCandidates ctx fb st.market
  let turn ← companyTurns R ctx pol fb st.market cands rnd fb.companyIds
    { market := st.market, rng := st.rng, bids := [], privateCommits := 0 }
  let r ← settleRound R ctx fb turn
  pure { market := r.2.1
         rng := r.2.2
         roundsUsed := rnd
         converged := r.1
         candidatePairsRound1 :=
           if rnd = 1 then candidateCount cands else st.candidatePairsRound1
         candidatePairsTotal := st.candidatePairsTotal + candidateCount cands }

/-- At most `n` rounds, the first of them number `rnd`. -/
def playRounds : ℕ → ℤ → TickState σ → Except Abort (TickState σ)
  | 0, _, st => pure st
  | n + 1, rnd, st =>
    if !fb.inputOrderIds.toList.any st.market.isOrderFree then pure { st with converged := true }
    else do
      let st' ← playRound R ctx pol fb rnd st
      if st'.converged then pure st' else playRounds n (rnd + 1) st'

/-! ## The tick -/

/-- The accounting and the closing assertions, on the state the rounds end in. -/
def finish (st : TickState σ) : Except TickError PooledMarketResult :=
  match account R ctx fb (st.market.awards.map Award.truckId) st.market.awards ([], Dict.empty) with
  | .error e => .error e
  | .ok acc =>
    match closingAssertions fb st.market.awards with
    | .error e => .error e
    | .ok () =>
      .ok { assignment := acc.1
            shareTags := acc.2
            roundsUsed := st.roundsUsed
            converged := st.converged
            candidatePairsRound1 := st.candidatePairsRound1
            candidatePairsTotal := st.candidatePairsTotal
            market := st.market }

/-- `run_pooled_market`, with these policies.  Those of the context are not asked. -/
def run (pools : List Pool) (s : σ) : Except Abort PooledMarketResult := do
  let offered ← contributeAll ctx pol fb (PoolMarket.init pools) s
  let st ← playRounds R ctx pol fb (maxRounds ctx).toNat 1
    { market := offered.1, rng := offered.2 }
  liftTick (finish R ctx fb st)

end Planner

/-! ## Policies that keep their contracts -/

section Typed

variable {σ : Type} (R : Runtime σ) (ctx : PooledPlannerContext σ) (fb : FleetBook)

/-- A dictionary of the declared type, as an answer. -/
def answerDict (d : Dict String (List String)) : Dict AnswerKey (Answer String) :=
  Dict.ofList (d.entries.map fun p ↦ (AnswerKey.str p.1, Answer.items p.2))

/-- Policies of the declared types. -/
def Policies.ofTyped (offer : OfferPolicy σ) (claim : ClaimPolicy σ) : Policies σ where
  offer r s :=
    match offer r s with
    | (.ok (some d), s') => (.ok (.dict (answerDict d)), s')
    | (.ok none, s') => (.ok .notDict, s')
    | (.error e, s') => (.error e, s')
  claim r s :=
    match claim r s with
    | (.ok bids, s') => (.ok (.items (bids.map .bid)), s')
    | (.error e, s') => (.error e, s')

theorem answerDict_map_fst (d : Dict String (List String)) :
    (d.entries.map fun p ↦ (AnswerKey.str p.1, Answer.items p.2)).map Prod.fst =
      d.keys.map AnswerKey.str := by
  rw [List.map_map, Dict.keys, List.map_map]
  rfl

theorem answerDict_keys_nodup (d : Dict String (List String)) :
    ((d.entries.map fun p ↦ (AnswerKey.str p.1, Answer.items p.2)).map Prod.fst).Nodup := by
  rw [answerDict_map_fst]
  exact d.nodup.map fun _ _ ↦ AnswerKey.str.inj

theorem get?_answerDict (d : Dict String (List String)) (oid : String) :
    (answerDict d).get? (.str oid) = (d.get? oid).map .items := by
  refine Option.ext fun a ↦ ?_
  rw [answerDict, Dict.get?_ofList (answerDict_keys_nodup d), List.mem_map, Option.map_eq_some_iff]
  constructor
  · rintro ⟨p, hp, heq⟩
    obtain ⟨hk, rfl⟩ := Prod.mk.inj heq
    exact ⟨p.2, Dict.mem_entries_iff.mp (AnswerKey.str.inj hk ▸ hp), rfl⟩
  · rintro ⟨pids, hp, rfl⟩
    exact ⟨(oid, pids), Dict.mem_entries_iff.mpr hp, rfl⟩

theorem sortKeys_answerDict (d : Dict String (List String)) :
    sortKeys (answerDict d).keys = .ok ((sortedBy id d.keys).map .str) := by
  have hmem : ∀ k, k ∈ (answerDict d).keys ↔ k ∈ d.keys.map AnswerKey.str := by
    intro k
    rw [answerDict, Dict.ofList, Dict.mem_keys_update, answerDict_map_fst]
    exact or_iff_right List.not_mem_nil
  have hperm : (d.keys.map AnswerKey.str).Perm (answerDict d).keys :=
    (List.perm_ext_iff_of_nodup (d.nodup.map fun _ _ ↦ AnswerKey.str.inj)
      (answerDict d).nodup).mpr fun k ↦ (hmem k).symm
  have hstr : ∀ k ∈ (answerDict d).keys, k.isStr = true := by
    intro k hk
    obtain ⟨oid, -, rfl⟩ := List.mem_map.mp ((hmem k).mp hk)
    rfl
  have hsorted : sortedBy AnswerKey.text (d.keys.map .str) = (sortedBy id d.keys).map .str :=
    sortedBy_map fun a _ b _ ↦ Iff.rfl
  have hsort : Sortable (answerDict d).keys := by
    refine Or.inr fun k hk l hl ↦ ?_
    obtain ⟨x, -, rfl⟩ := List.mem_map.mp ((hmem k).mp hk)
    obtain ⟨y, -, rfl⟩ := List.mem_map.mp ((hmem l).mp hl)
    rfl
  rw [sortKeys, if_pos hsort, if_pos hstr, ← hsorted]
  refine congrArg Except.ok (sortedBy_eq_of_perm hperm fun a ha b hb hab ↦ ?_).symm
  obtain ⟨x, -, rfl⟩ := List.mem_map.mp ha
  obtain ⟨y, -, rfl⟩ := List.mem_map.mp hb
  exact congrArg AnswerKey.str hab

theorem contributeOrders_ofTyped (h : String) (d : Dict String (List String)) (oids : List String)
    (hoids : ∀ oid ∈ oids, oid ∈ d.keys) (m : PoolMarket) :
    contributeOrders fb h (answerDict d) (oids.map .str) m =
      pure (oids.foldl (fun m oid ↦ if fb.ownerOf oid = some h then
        (m.contribute oid h ((d.get? oid).getD [])).2 else m) m) := by
  induction oids generalizing m with
  | nil => rfl
  | cons oid oids ih =>
    have hrest := fun x hx ↦ hoids x (List.mem_cons_of_mem oid hx)
    obtain ⟨pids, hpids⟩ := Dict.mem_keys_iff.mp (hoids oid List.mem_cons_self)
    rw [List.map_cons, contributeOrders, get?_answerDict, hpids, List.foldl_cons, hpids]
    by_cases hown : fb.ownerOf oid = some h
    · rw [if_pos hown, ← ih hrest]
      simp only [AnswerKey.text, hown, if_true]
      rfl
    · rw [if_neg hown, ← ih hrest]
      simp only [AnswerKey.text, hown, if_false]
      rfl

theorem contributeCompany_ofTyped (st : PoolMarket × σ) (h : String) :
    contributeCompany ctx (.ofTyped ctx.offer ctx.claim) fb st h =
      pure (Assignment.contributeCompany ctx fb st h) := by
  rw [contributeCompany, Assignment.contributeCompany]
  split
  · rfl
  · rcases hoff : ctx.offer (offerRequest ctx fb st.1 h) st.2 with ⟨e | answer, s⟩
    · simp only [offerRequest] at hoff
      simp only [Policies.ofTyped, offerRequest, hoff]
      rfl
    · cases answer with
      | none =>
        simp only [offerRequest] at hoff
        simp only [Policies.ofTyped, offerRequest, hoff]
        rfl
      | some contribution =>
        have hplace := contributeOrders_ofTyped fb h contribution
          (sortedBy id contribution.keys) (fun oid ho ↦ mem_sortedBy.mp ho) st.1
        have htake : takeOffer fb h st.1 (.ok (.dict (answerDict contribution))) =
            pure (Assignment.contributeOrders fb h contribution st.1) := by
          rw [takeOffer, sortKeys_answerDict]
          exact hplace
        simp only [offerRequest] at hoff
        simp only [Policies.ofTyped, offerRequest, hoff, htake]
        rfl

theorem contributeAll_ofTyped (m : PoolMarket) (s : σ) :
    contributeAll ctx (.ofTyped ctx.offer ctx.claim) fb m s =
      pure (Assignment.contributeAll ctx fb m s) := by
  have heach : ∀ (hs : List String) (st : PoolMarket × σ),
      contributeEach ctx (.ofTyped ctx.offer ctx.claim) fb hs st =
        pure (hs.foldl (Assignment.contributeCompany ctx fb) st) := by
    intro hs
    induction hs with
    | nil => exact fun st ↦ rfl
    | cons h hs ih =>
      intro st
      rw [contributeEach, contributeCompany_ofTyped, List.foldl_cons, ← ih]
      rfl
  rw [contributeAll, Assignment.contributeAll]
  split
  · rfl
  · exact heach _ _

/-- A state of a round whose bids are of the declared type. -/
def TurnState.ofTyped (st : Assignment.TurnState σ) : TurnState σ where
  market := st.market
  rng := st.rng
  bids := st.bids.map .bid
  privateCommits := st.privateCommits

theorem claimBids_ofTyped (r : ClaimRequest) (s : σ) :
    claimBids (.ofTyped ctx.offer ctx.claim) r s =
      pure ((Assignment.claimBids ctx r s).1.map .bid, (Assignment.claimBids ctx r s).2) := by
  rw [claimBids, Assignment.claimBids]
  split
  · rfl
  · rcases hclaim : ctx.claim r s with ⟨e | bids, s'⟩
    · simp only [Policies.ofTyped, hclaim]
      rfl
    · simp only [Policies.ofTyped, hclaim]
      rfl

theorem actOnPlan_ofTyped (h : String) (rnd : ℤ) (plan : List Pair)
    (st : Assignment.TurnState σ) :
    actOnPlan ctx (.ofTyped ctx.offer ctx.claim) fb h rnd plan (.ofTyped st) =
      liftTick ((Assignment.actOnPlan ctx fb h rnd plan st).map .ofTyped) := by
  rw [actOnPlan, Assignment.actOnPlan]
  simp only [TurnState.ofTyped]
  cases commitPrivate ctx h rnd (ownPrivatePairs fb st.market h plan)
      (st.privateCommits, st.market) with
  | error e => rfl
  | ok c =>
    simp only [liftTick, Except.mapError, Except.map, claimBids_ofTyped, TurnState.ofTyped,
      List.map_append]
    rfl

theorem companyTurn_ofTyped (m₀ : PoolMarket) (cands : Dict String (List Pair)) (rnd : ℤ)
    (h : String) (st : Assignment.TurnState σ) :
    companyTurn R ctx (.ofTyped ctx.offer ctx.claim) fb m₀ cands rnd h (.ofTyped st) =
      liftTick ((Assignment.companyTurn R ctx fb m₀ cands rnd h st).map .ofTyped) := by
  rw [companyTurn, Assignment.companyTurn]
  by_cases hg : ((freeTrucks fb m₀ h).isEmpty || (candidateOrders fb st.market h).isEmpty) = true
  · rw [if_pos hg, if_pos (by exact hg)]
    rfl
  · rw [if_neg hg, if_neg (by exact hg)]
    rcases hsolve : solveCompany R ctx (freeTrucks fb m₀ h) (candidateOrders fb st.market h)
      (pairAllowedFor ctx h) ((cands.get? h).getD []) st.rng with ⟨e | plan, s⟩
    · simp only [TurnState.ofTyped, hsolve]
      rfl
    · simp only [TurnState.ofTyped, hsolve]
      exact actOnPlan_ofTyped ctx fb h rnd plan { st with rng := s }

theorem companyTurns_ofTyped (m₀ : PoolMarket) (cands : Dict String (List Pair)) (rnd : ℤ)
    (hs : List String) (st : Assignment.TurnState σ) :
    companyTurns R ctx (.ofTyped ctx.offer ctx.claim) fb m₀ cands rnd hs (.ofTyped st) =
      liftTick ((Assignment.companyTurns R ctx fb m₀ cands rnd hs st).map .ofTyped) := by
  induction hs generalizing st with
  | nil => rfl
  | cons h hs ih =>
    rw [companyTurns, Assignment.companyTurns, companyTurn_ofTyped]
    cases Assignment.companyTurn R ctx fb m₀ cands rnd h st with
    | error e => rfl
    | ok st' => exact ih st'

theorem readBids_map_bid (bids : List Bid) : readBids (bids.map .bid) = .ok bids := by
  induction bids with
  | nil => rfl
  | cons b bids ih =>
    rw [List.map_cons, readBids, ih]
    rfl

theorem settleRound_ofTyped (st : Assignment.TurnState σ) :
    settleRound R ctx fb (.ofTyped st) = pure (Assignment.settleRound R ctx fb st) := by
  rw [settleRound, TurnState.ofTyped, readBids_map_bid]
  rfl

theorem playRound_ofTyped (rnd : ℤ) (st : TickState σ) :
    playRound R ctx (.ofTyped ctx.offer ctx.claim) fb rnd st =
      liftTick (Assignment.playRound R ctx fb rnd st) := by
  have hturns := companyTurns_ofTyped R ctx fb st.market
    (roundCandidates ctx fb st.market) rnd fb.companyIds
    { market := st.market, rng := st.rng, bids := [], privateCommits := 0 }
  rw [TurnState.ofTyped, List.map_nil] at hturns
  rw [playRound, Assignment.playRound, hturns]
  cases Assignment.companyTurns R ctx fb st.market (roundCandidates ctx fb st.market) rnd
      fb.companyIds { market := st.market, rng := st.rng, bids := [], privateCommits := 0 } with
  | error e => rfl
  | ok turn =>
    have hlift : liftTick (Except.map TurnState.ofTyped (.ok turn)) =
        pure (TurnState.ofTyped turn) := rfl
    rw [hlift, pure_bind, settleRound_ofTyped]
    rfl

theorem playRounds_ofTyped (n : ℕ) (rnd : ℤ) (st : TickState σ) :
    playRounds R ctx (.ofTyped ctx.offer ctx.claim) fb n rnd st =
      liftTick (Assignment.playRounds R ctx fb n rnd st) := by
  induction n generalizing rnd st with
  | zero => rfl
  | succ n ih =>
    rw [playRounds, Assignment.playRounds]
    split
    · rfl
    · rw [playRound_ofTyped]
      cases Assignment.playRound R ctx fb rnd st with
      | error e => rfl
      | ok st' =>
        have hlift : (liftTick (.ok st') : Except Abort (TickState σ)) = pure st' := rfl
        rw [hlift, pure_bind]
        dsimp only
        split
        · rfl
        · exact ih (rnd + 1) st'

/-- **With policies of the declared types this is the tick of `PooledPlanner`.** -/
theorem run_ofTyped (pools : List Pool) (s : σ) :
    run R ctx (.ofTyped ctx.offer ctx.claim) fb pools s =
      liftTick (runPooledMarket R ctx fb pools s) := by
  rw [run, contributeAll_ofTyped, pure_bind, playRounds_ofTyped, runPooledMarket, tickRounds]
  cases Assignment.playRounds R ctx fb (maxRounds ctx).toNat 1
      { market := (Assignment.contributeAll ctx fb (PoolMarket.init pools) s).1
        rng := (Assignment.contributeAll ctx fb (PoolMarket.init pools) s).2 } with
  | error e => rfl
  | ok st => rfl

end Typed

end Untrusted

end OpenRide.Assignment
