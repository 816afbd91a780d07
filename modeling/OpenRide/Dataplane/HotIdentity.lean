import OpenRide.Dataplane.HotStore

/-!
# Slots and codes of one slab

What a slab and a parked identity promise: the slot map is inverse to the list of agents, the slots
in use are below the number of active ones, which fits into the arrays, and haulier codes below the
overflow code are injective.  Every operation on a slab keeps the promises (`RunSlab.Ok`), and every
one but the creation of a slab from an explicit identity keeps the slots and the codes it finds
(`Extends`).
-/

namespace OpenRide.Dataplane

open Lib

/-! ## The promises -/

/-- A slot map and the list of agents it is inverse to. -/
structure SlotsOk (agentToSlot : Dict String ℕ) (slotToAgent : List String) : Prop where
  agentAt : ∀ a k, agentToSlot.get? a = some k → slotToAgent[k]? = some a
  slotOf : ∀ a k, slotToAgent[k]? = some a → a ≠ "" → agentToSlot.get? a = some k
  /-- The last slot is in use. -/
  top : slotToAgent ≠ [] → ∃ a, agentToSlot.get? a = some (slotToAgent.length - 1)

/-- A code book, injective below the overflow code, and the next code. -/
structure CodesOk (haulierToCode : Dict String ℕ) (nextHaulierCode : ℕ) : Prop where
  injective : ∀ h h' c, c < maxHaulierCode → haulierToCode.get? h = some c →
    haulierToCode.get? h' = some c → h = h'
  next : ∀ h c, haulierToCode.get? h = some c → c < maxHaulierCode → c < nextHaulierCode

structure RunIdentity.Ok (id : RunIdentity) : Prop where
  slots : SlotsOk id.agentToSlot id.slotToAgent
  codes : CodesOk id.haulierToCode id.nextHaulierCode

structure RunSlab.Ok (s : RunSlab) : Prop where
  slots : SlotsOk s.agentToSlot s.slotToAgent
  codes : CodesOk s.haulierToCode s.nextHaulierCode
  nActive : s.nActive = s.slotToAgent.length
  capacity : s.nActive ≤ s.capacity

theorem RunSlab.Ok.identity {s : RunSlab} (h : s.Ok) : s.identity.Ok := ⟨h.slots, h.codes⟩

/-- Every binding of one dictionary is a binding of the other. -/
def Keeps (d e : Dict String ℕ) : Prop := ∀ k v, d.get? k = some v → e.get? k = some v

/-- No slot and no code has changed. -/
structure Extends (id id' : RunIdentity) : Prop where
  slots : Keeps id.agentToSlot id'.agentToSlot
  codes : Keeps id.haulierToCode id'.haulierToCode

theorem Extends.refl (id : RunIdentity) : Extends id id := ⟨fun _ _ h ↦ h, fun _ _ h ↦ h⟩

theorem Extends.trans {a b c : RunIdentity} (h : Extends a b) (h' : Extends b c) : Extends a c :=
  ⟨fun k v hk ↦ h'.slots k v (h.slots k v hk), fun k v hk ↦ h'.codes k v (h.codes k v hk)⟩

/-- No value is bound twice. -/
def InjectiveMap (d : Dict String ℕ) : Prop :=
  ∀ k k' v, d.get? k = some v → d.get? k' = some v → k = k'

/-- No code below the overflow code is bound twice. -/
def InjectiveCodes (d : Dict String ℕ) : Prop :=
  ∀ k k' v, v < maxHaulierCode → d.get? k = some v → d.get? k' = some v → k = k'

variable {m : Dict String ℕ} {l : List String}

theorem SlotsOk.injective (h : SlotsOk m l) : InjectiveMap m := by
  intro a a' k ha ha'
  have := (h.agentAt a k ha).symm.trans (h.agentAt a' k ha')
  exact Option.some_inj.mp this

variable {a : String} {k : ℕ}

theorem SlotsOk.lt (h : SlotsOk m l) (ha : m.get? a = some k) : k < l.length :=
  (List.getElem?_eq_some_iff.mp (h.agentAt a k ha)).1

theorem slotsOk_empty : SlotsOk Dict.empty [] where
  agentAt _ _ h := nomatch h
  slotOf _ _ h := nomatch h
  top h := absurd rfl h

theorem codesOk_empty : CodesOk Dict.empty 1 where
  injective _ _ _ _ h := nomatch h
  next _ _ h := nomatch h

/-! ## The list of agents of a slot map -/

theorem le_highest {l : List ℕ} {v : ℕ} (h : v ∈ l) : v ≤ highest l := by
  induction l with
  | nil => exact absurd h List.not_mem_nil
  | cons x l ih =>
    rcases List.mem_cons.mp h with rfl | h
    · exact le_max_left _ _
    · exact (ih h).trans (le_max_right _ _)

theorem highest_mem {l : List ℕ} (h : l ≠ []) : highest l ∈ l := by
  induction l with
  | nil => exact absurd rfl h
  | cons x l ih =>
    rw [highest, List.foldr_cons]
    by_cases hl : l = []
    · subst hl
      simp
    · rcases max_choice x (l.foldr max 0) with hx | hx
      · rw [hx]
        exact List.mem_cons_self
      · rw [hx]
        exact List.mem_cons_of_mem _ (ih hl)

theorem length_foldl_set (es : List (String × ℕ)) (l : List String) :
    (es.foldl (fun l e ↦ l.set e.2 e.1) l).length = l.length := by
  induction es generalizing l with
  | nil => rfl
  | cons e es ih => rw [List.foldl_cons, ih, List.length_set]

variable {es : List (String × ℕ)}

theorem getElem?_foldl_set_of_notMem (h : k ∉ es.map Prod.snd) (l : List String) :
    (es.foldl (fun l e ↦ l.set e.2 e.1) l)[k]? = l[k]? := by
  induction es generalizing l with
  | nil => rfl
  | cons e es ih =>
    rw [List.map_cons, List.mem_cons, not_or] at h
    rw [List.foldl_cons, ih h.2, List.getElem?_set_ne (Ne.symm h.1)]

theorem getElem?_foldl_set_of_mem (hn : (es.map Prod.snd).Nodup) (h : (a, k) ∈ es)
    (hk : k < l.length) : (es.foldl (fun l e ↦ l.set e.2 e.1) l)[k]? = some a := by
  induction es generalizing l with
  | nil => exact absurd h List.not_mem_nil
  | cons e es ih =>
    obtain ⟨he, hn⟩ := List.nodup_cons.mp hn
    rw [List.foldl_cons]
    rcases List.mem_cons.mp h with rfl | h
    · rw [getElem?_foldl_set_of_notMem he, List.getElem?_set_self hk]
    · exact ih hn h (by rwa [List.length_set])

theorem mem_of_getElem?_foldl_set (h : (es.foldl (fun l e ↦ l.set e.2 e.1) l)[k]? = some a) :
    (a, k) ∈ es ∨ l[k]? = some a := by
  induction es generalizing l with
  | nil => exact Or.inr h
  | cons e es ih =>
    rcases ih h with hm | hl
    · exact Or.inl (List.mem_cons_of_mem _ hm)
    · rw [List.getElem?_set] at hl
      split at hl
      · next hk =>
        split at hl
        · cases hl
          subst hk
          exact Or.inl List.mem_cons_self
        · cases hl
      · exact Or.inr hl

theorem values_nodup (hm : InjectiveMap m) : (m.entries.map Prod.snd).Nodup := by
  refine (List.Nodup.of_map _ m.nodup).map_on fun x hx y hy he ↦ ?_
  obtain ⟨a, k⟩ := x
  obtain ⟨a', k'⟩ := y
  obtain rfl : k = k' := he
  rw [hm a a' k (Dict.mem_entries_iff.mp hx) (Dict.mem_entries_iff.mp hy)]

/-- **An injective slot map is inverse to its list of agents.** -/
theorem agentsBySlot_ok (hm : InjectiveMap m) (hne : m.entries ≠ []) :
    SlotsOk m (agentsBySlot m) ∧ (agentsBySlot m).length = highest m.values + 1 := by
  have hlen : (agentsBySlot m).length = highest m.values + 1 := by
    rw [agentsBySlot, length_foldl_set, List.length_replicate]
  have hat : ∀ a k, m.get? a = some k → (agentsBySlot m)[k]? = some a := by
    intro a k ha
    refine getElem?_foldl_set_of_mem (values_nodup hm) (Dict.mem_entries_iff.mpr ha) ?_
    rw [List.length_replicate]
    exact Nat.lt_succ_of_le (le_highest (Dict.mem_values_iff.mpr ⟨a, ha⟩))
  refine ⟨⟨hat, fun a k ha hane ↦ ?_, fun _ ↦ ?_⟩, hlen⟩
  · rcases mem_of_getElem?_foldl_set ha with hmem | hrep
    · exact Dict.mem_entries_iff.mp hmem
    · have hmem := List.mem_of_getElem? hrep
      exact absurd (List.eq_of_mem_replicate hmem) hane
  · have hv : m.values ≠ [] := fun hv ↦ hne (List.map_eq_nil_iff.mp hv)
    obtain ⟨a, ha⟩ := Dict.mem_values_iff.mp (highest_mem hv)
    rw [hlen, Nat.add_sub_cancel]
    exact ⟨a, ha⟩

/-! ## Operations of a slab -/

variable {s : RunSlab}

theorem ensureCapacity_identity (s : RunSlab) (slot : ℕ) :
    (s.ensureCapacity slot).identity = s.identity ∧
      (s.ensureCapacity slot).nActive = s.nActive := by
  rw [RunSlab.ensureCapacity]
  split <;> exact ⟨rfl, rfl⟩

theorem lt_capacity_ensureCapacity (s : RunSlab) (slot : ℕ) :
    slot < (s.ensureCapacity slot).capacity ∧ s.capacity ≤ (s.ensureCapacity slot).capacity := by
  rw [RunSlab.ensureCapacity]
  split
  · rw [RunSlab.grow, RunSlab.capacity, RunSlab.capacity, List.length_append,
      List.length_replicate]
    omega
  · next h => exact ⟨not_le.mp h, le_refl _⟩

theorem slotFor_ok (h : s.Ok) (a : String) :
    (s.slotFor a).1.Ok ∧ Extends s.identity (s.slotFor a).1.identity ∧
      (s.slotFor a).1.agentToSlot.get? a = some (s.slotFor a).2 := by
  rw [RunSlab.slotFor]
  split
  · next slot hslot => exact ⟨h, Extends.refl _, hslot⟩
  · next hnone =>
    obtain ⟨hid, hact⟩ := ensureCapacity_identity s s.nActive
    have hcodes : (s.ensureCapacity s.nActive).haulierToCode = s.haulierToCode :=
      congrArg RunIdentity.haulierToCode hid
    have hnext : (s.ensureCapacity s.nActive).nextHaulierCode = s.nextHaulierCode :=
      congrArg RunIdentity.nextHaulierCode hid
    have hfresh : ∀ b k, s.agentToSlot.get? b = some k → b ≠ a := by
      rintro b k hb rfl
      rw [hnone] at hb
      cases hb
    refine ⟨⟨⟨fun b k hb ↦ ?_, fun b k hb hbne ↦ ?_, fun _ ↦ ⟨a, ?_⟩⟩, ?_, ?_, ?_⟩, ⟨?_, ?_⟩, ?_⟩
    · dsimp only at hb ⊢
      rw [Dict.get?_set] at hb
      split at hb
      · next he =>
        cases hb
        rw [he, h.nActive, List.getElem?_concat_length]
      · rw [List.getElem?_append_left (h.slots.lt hb)]
        exact h.slots.agentAt b k hb
    · dsimp only at hb ⊢
      rw [Dict.get?_set]
      rcases lt_or_ge k s.slotToAgent.length with hk | hk
      · rw [List.getElem?_append_left hk] at hb
        have hb := h.slots.slotOf b k hb hbne
        rw [if_neg (hfresh b k hb), hb]
      · rw [List.getElem?_append_right hk, List.getElem?_singleton] at hb
        split at hb
        · next hz =>
          rw [if_pos (Option.some_inj.mp hb).symm, h.nActive]
          exact congrArg some (by omega)
        · cases hb
    · dsimp only
      rw [Dict.get?_set_self, h.nActive, List.length_append, List.length_singleton,
        Nat.add_sub_cancel]
    · dsimp only
      rw [hcodes, hnext]
      exact h.codes
    · dsimp only
      rw [h.nActive, List.length_append, List.length_singleton]
    · exact (lt_capacity_ensureCapacity s s.nActive).1
    · intro b k hb
      exact (Dict.get?_set_ne _ _ (hfresh b k hb)).trans hb
    · intro b k hb
      exact (congrArg (fun d ↦ Dict.get? d b) hcodes).trans hb
    · exact Dict.get?_set_self _ _ _

theorem codeForHaulier_ok (h : s.Ok) (x : Option String) :
    (s.codeForHaulier x).1.Ok ∧ Extends s.identity (s.codeForHaulier x).1.identity ∧
      (s.codeForHaulier x).1.agentToSlot = s.agentToSlot := by
  rw [RunSlab.codeForHaulier]
  split
  · exact ⟨h, Extends.refl _, rfl⟩
  · next hid _ =>
    split
    · exact ⟨h, Extends.refl _, rfl⟩
    · next hnone =>
      have hkeep : ∀ c, Keeps s.haulierToCode (s.haulierToCode.set hid c) := by
        intro c k v hk
        refine (Dict.get?_set_ne _ _ ?_).trans hk
        rintro rfl
        rw [hnone] at hk
        cases hk
      split
      · refine ⟨⟨h.slots, ⟨fun a a' c hc ha ha' ↦ ?_, fun a c ha hc ↦ ?_⟩, h.nActive, h.capacity⟩,
          ⟨fun _ _ hk ↦ hk, hkeep _⟩, rfl⟩
        · rw [Dict.get?_set] at ha ha'
          split at ha
          · exact absurd (Option.some_inj.mp ha).symm hc.ne
          · split at ha'
            · exact absurd (Option.some_inj.mp ha').symm hc.ne
            · exact h.codes.injective a a' c hc ha ha'
        · rw [Dict.get?_set] at ha
          split at ha
          · exact absurd (Option.some_inj.mp ha).symm hc.ne
          · exact h.codes.next a c ha hc
      · refine ⟨⟨h.slots, ⟨fun a a' c hc ha ha' ↦ ?_, fun a c ha hc ↦ ?_⟩, h.nActive, h.capacity⟩,
          ⟨fun _ _ hk ↦ hk, hkeep _⟩, rfl⟩
        · rw [Dict.get?_set] at ha ha'
          split at ha
          · next he =>
            split at ha'
            · next he' => rw [he, he']
            · have hlt := h.codes.next a' c ha' hc
              exact absurd (Option.some_inj.mp ha) (Nat.ne_of_gt hlt)
          · split at ha'
            · have hlt := h.codes.next a c ha hc
              exact absurd (Option.some_inj.mp ha') (Nat.ne_of_gt hlt)
            · exact h.codes.injective a a' c hc ha ha'
        · rw [Dict.get?_set] at ha
          split at ha
          · exact Option.some_inj.mp ha ▸ Nat.lt_succ_self _
          · exact Nat.lt_succ_of_lt (h.codes.next a c ha hc)

theorem update_ok (h : s.Ok) (r : Report) :
    (s.update r).1.Ok ∧ Extends s.identity (s.update r).1.identity := by
  obtain ⟨h1, he1, -⟩ := slotFor_ok h r.agentId
  obtain ⟨h2, he2, -⟩ := codeForHaulier_ok h1 r.haulierId
  refine ⟨⟨h2.slots, h2.codes, h2.nActive, ?_⟩, he1.trans ⟨he2.slots, he2.codes⟩⟩
  refine h2.capacity.trans (le_of_eq ?_)
  exact List.length_set.symm

/-- Adopting a slot map that holds every slot in use makes it the slot map. -/
theorem adoptSlotMap_ok (h : s.Ok) (hm : InjectiveMap m) (hsub : Keeps s.agentToSlot m) :
    (s.adoptSlotMap m).Ok ∧ (s.adoptSlotMap m).haulierToCode = s.haulierToCode ∧
      (s.adoptSlotMap m).nextHaulierCode = s.nextHaulierCode ∧
      ∀ a, (s.adoptSlotMap m).agentToSlot.get? a = m.get? a := by
  rw [RunSlab.adoptSlotMap]
  split
  · next he =>
    refine ⟨h, rfl, rfl, fun a ↦ ?_⟩
    have hm0 : m.get? a = none := by
      refine Dict.get?_eq_none_iff.mpr ?_
      rw [Dict.keys, List.isEmpty_iff.mp he]
      exact List.not_mem_nil
    cases ha : s.agentToSlot.get? a with
    | none => exact hm0.symm
    | some k => exact (hsub a k ha).symm ▸ rfl
  · next he =>
    have hne : m.entries ≠ [] := fun h0 ↦ he (List.isEmpty_iff.mpr h0)
    obtain ⟨hslots, hlen⟩ := agentsBySlot_ok hm hne
    obtain ⟨hid, -⟩ := ensureCapacity_identity s (highest m.values)
    have hcodes : (s.ensureCapacity (highest m.values)).haulierToCode = s.haulierToCode :=
      congrArg RunIdentity.haulierToCode hid
    have hnext : (s.ensureCapacity (highest m.values)).nextHaulierCode = s.nextHaulierCode :=
      congrArg RunIdentity.nextHaulierCode hid
    have hget : ∀ a, (s.agentToSlot.update m.entries).get? a = m.get? a := by
      intro a
      rw [Dict.get?_update_entries]
      cases hma : m.get? a with
      | some k => rfl
      | none =>
        cases ha : s.agentToSlot.get? a with
        | none => rfl
        | some k =>
          rw [hsub a k ha] at hma
          cases hma
    -- the last slot in use is in the map, so no active slot lies above its highest one
    have hact : s.nActive ≤ highest m.values + 1 := by
      rw [h.nActive]
      by_cases h0 : s.slotToAgent = []
      · rw [h0]
        exact Nat.zero_le _
      · obtain ⟨a, ha⟩ := h.slots.top h0
        have := le_highest (Dict.mem_values_iff.mpr ⟨a, hsub a _ ha⟩)
        omega
    refine ⟨⟨⟨fun a k ha ↦ ?_, fun a k ha hane ↦ ?_, fun h0 ↦ ?_⟩, ?_, ?_, ?_⟩, hcodes, hnext, hget⟩
    · exact hslots.agentAt a k ((hget a).symm.trans ha)
    · exact (hget a).trans (hslots.slotOf a k ha hane)
    · obtain ⟨a, ha⟩ := hslots.top h0
      exact ⟨a, (hget a).trans ha⟩
    · dsimp only
      rw [hcodes, hnext]
      exact h.codes
    · dsimp only
      rw [hlen, max_eq_right hact]
    · dsimp only
      rw [max_eq_right hact]
      exact (lt_capacity_ensureCapacity s (highest m.values)).1

/-- Adopting codes that contradict none of the book keeps the book, and adds them. -/
theorem adoptHaulierCodes_ok (h : s.Ok) {codes : Dict String ℕ}
    (hinj : InjectiveCodes (s.haulierToCode.update codes.entries)) :
    (s.adoptHaulierCodes codes).Ok ∧ (s.adoptHaulierCodes codes).agentToSlot = s.agentToSlot ∧
      (s.adoptHaulierCodes codes).slotToAgent = s.slotToAgent ∧
      ∀ x, (s.adoptHaulierCodes codes).haulierToCode.get? x =
        (codes.get? x <|> s.haulierToCode.get? x) := by
  rw [RunSlab.adoptHaulierCodes]
  split
  · next he =>
    refine ⟨h, rfl, rfl, fun x ↦ ?_⟩
    have h0 : codes.get? x = none := by
      refine Dict.get?_eq_none_iff.mpr ?_
      rw [Dict.keys, List.isEmpty_iff.mp he]
      exact List.not_mem_nil
    rw [h0]
    rfl
  · refine ⟨⟨h.slots, ⟨fun x x' c hc hx hx' ↦ hinj x x' c hc hx hx', fun x c hx hc ↦ ?_⟩,
      h.nActive, h.capacity⟩, rfl, rfl, Dict.get?_update_entries _ _⟩
    dsimp only at hx ⊢
    have hmem : c ∈ (s.haulierToCode.update codes.entries).values.filter (· < maxHaulierCode) :=
      List.mem_filter.mpr ⟨Dict.mem_values_iff.mpr ⟨x, hx⟩, decide_eq_true hc⟩
    have hle := le_highest hmem
    rw [if_neg fun he ↦ by
      rw [List.isEmpty_iff.mp he] at hmem
      exact absurd hmem List.not_mem_nil]
    omega

/-! ## Merging a persisted identity into a resident slab -/

theorem given_eq_some {m : Option (Dict String ℕ)} {d : Dict String ℕ} (h : given m = some d) :
    m = some d := by
  rw [given, Option.filter_eq_some_iff] at h
  exact h.1

theorem mergeVerdict_keep {current : Dict String ℕ} {k : String} {v : ℕ}
    (h : mergeVerdict current k v = .keep) :
    current.get? k = none ∧ ∀ k', current.get? k' ≠ some v := by
  rw [mergeVerdict] at h
  split at h
  · split at h <;> cases h
  · next hk =>
    refine ⟨hk, fun k' hk' ↦ ?_⟩
    have hkeys : v ∈ (current.entries.map fun e ↦ (e.2, e.1)).map Prod.fst := by
      rw [List.map_map]
      exact Dict.mem_values_iff.mpr ⟨k', hk'⟩
    split at h
    · next hnone =>
      rw [Dict.ofList, Dict.get?_eq_none_iff] at hnone
      exact hnone (Dict.mem_keys_update.mpr (Or.inr hkeys))
    · next owner howner =>
      split at h
      · next he =>
        have hown := Dict.mem_of_get?_ofList howner
        obtain ⟨e, he', heq⟩ := List.mem_map.mp hown
        obtain ⟨h1, h2⟩ := Prod.mk.inj heq
        have := Dict.mem_entries_iff.mp (show (e.1, e.2) ∈ current.entries from he')
        rw [h2, he, hk] at this
        cases this
      · cases h

theorem keeps_update_nonClashing (current incoming : Dict String ℕ) :
    Keeps current (current.update (nonClashing current incoming).1.entries) := by
  intro k v hk
  rw [Dict.get?_update_entries]
  cases hn : (nonClashing current incoming).1.get? k with
  | none => exact hk
  | some w =>
    have hkeep := mergeVerdict_keep (of_decide_eq_true (Dict.get?_filter.mp hn).2)
    rw [hkeep.1] at hk
    cases hk

theorem update_nonClashing_injective {current incoming : Dict String ℕ} {P : ℕ → Prop}
    (hc : ∀ k k' v, P v → current.get? k = some v → current.get? k' = some v → k = k')
    (hi : ∀ k k' v, P v → incoming.get? k = some v → incoming.get? k' = some v → k = k') :
    ∀ k k' v, P v → (current.update (nonClashing current incoming).1.entries).get? k = some v →
      (current.update (nonClashing current incoming).1.entries).get? k' = some v → k = k' := by
  have hcases : ∀ k v, (current.update (nonClashing current incoming).1.entries).get? k = some v →
      (incoming.get? k = some v ∧ ∀ k', current.get? k' ≠ some v) ∨ current.get? k = some v := by
    intro k v hk
    rw [Dict.get?_update_entries] at hk
    cases hn : (nonClashing current incoming).1.get? k with
    | none =>
      rw [hn] at hk
      exact Or.inr hk
    | some w =>
      rw [hn] at hk
      cases hk
      obtain ⟨hin, hkeep⟩ := Dict.get?_filter.mp hn
      exact Or.inl ⟨hin, (mergeVerdict_keep (of_decide_eq_true hkeep)).2⟩
  intro k k' v hP hk hk'
  rcases hcases k v hk with ⟨hin, hfresh⟩ | hcur
  · rcases hcases k' v hk' with ⟨hin', -⟩ | hcur'
    · exact hi k k' v hP hin hin'
    · exact absurd hcur' (hfresh k')
  · rcases hcases k' v hk' with ⟨-, hfresh⟩ | hcur'
    · exact absurd hcur (hfresh k)
    · exact hc k k' v hP hcur hcur'

theorem mergeCodes_ok (h : s.Ok) {codes : Option (Dict String ℕ)}
    (hc : ∀ m, codes = some m → InjectiveCodes m) :
    (s.mergeCodes codes).Ok ∧ Extends s.identity (s.mergeCodes codes).identity := by
  rw [RunSlab.mergeCodes]
  split
  · exact ⟨h, Extends.refl _⟩
  · next m hm =>
    obtain ⟨hok, hslots, -, hget⟩ := adoptHaulierCodes_ok h (update_nonClashing_injective
        h.codes.injective (hc m (given_eq_some hm)))
    refine ⟨hok, fun a k ha ↦ ?_, fun x c hx ↦ ?_⟩
    · exact (congrArg (fun d ↦ Dict.get? d a) hslots).trans ha
    · refine (hget x).trans ?_
      rw [← Dict.get?_update_entries]
      exact keeps_update_nonClashing _ _ x c hx

theorem mergeSlots_ok (h : s.Ok) {slotMap : Option (Dict String ℕ)}
    (hm : ∀ m, slotMap = some m → InjectiveMap m) :
    (s.mergeSlots slotMap).Ok ∧ Extends s.identity (s.mergeSlots slotMap).identity := by
  rw [RunSlab.mergeSlots]
  split
  · exact ⟨h, Extends.refl _⟩
  · next m hgiven =>
    dsimp only
    split
    · exact ⟨h, Extends.refl _⟩
    · have hinj : InjectiveMap (s.agentToSlot.update (nonClashing s.agentToSlot m).1.entries) := by
        intro k k' v hk hk'
        exact update_nonClashing_injective (P := fun _ ↦ True)
          (fun k k' v _ ↦ h.slots.injective k k' v)
          (fun k k' v _ ↦ hm m (given_eq_some hgiven) k k' v) k k' v trivial hk hk'
      obtain ⟨hok, hcodes, -, hget⟩ := adoptSlotMap_ok h hinj (keeps_update_nonClashing _ m)
      refine ⟨hok, fun a k ha ↦ ?_, fun x c hx ↦ ?_⟩
      · exact (hget a).trans (keeps_update_nonClashing _ m a k ha)
      · exact (congrArg (fun d ↦ Dict.get? d x) hcodes).trans hx

/-! ## A new slab -/

theorem new_ok (capacity : ℕ) (now : ℤ) : (RunSlab.new capacity now).Ok where
  slots := slotsOk_empty
  codes := codesOk_empty
  nActive := rfl
  capacity := Nat.zero_le _

/-- A seed whose maps are injective. -/
structure Seed.Injective (seed : Seed) : Prop where
  slots : ∀ m, seed.slotMap = some m → InjectiveMap m
  codes : ∀ m, seed.haulierCodes = some m → InjectiveCodes m

variable {parked : Option RunIdentity}

theorem initSlots_ok (h : s.Ok) (hempty : s.agentToSlot = Dict.empty)
    {slotMap : Option (Dict String ℕ)} (hm : ∀ m, slotMap = some m → InjectiveMap m)
    (hparked : ∀ id, parked = some id → id.Ok) :
    (s.initSlots slotMap parked).Ok ∧
    (s.initSlots slotMap parked).haulierToCode = s.haulierToCode ∧
    (∀ m, given slotMap = some m →
      ∀ a, (s.initSlots slotMap parked).agentToSlot.get? a = m.get? a) ∧
    (∀ id, given slotMap = none → parked = some id →
      (s.initSlots slotMap parked).agentToSlot = id.agentToSlot) := by
  cases hg : given slotMap with
  | some m =>
    have heq : s.initSlots slotMap parked = s.adoptSlotMap m := by
      simp only [RunSlab.initSlots, hg]
    obtain ⟨hok, hcodes, -, hget⟩ := adoptSlotMap_ok h (hm m (given_eq_some hg)) fun a k ha ↦ by
      rw [hempty] at ha
      cases ha
    rw [heq]
    exact ⟨hok, hcodes, fun m' hm' ↦ Option.some_inj.mp hm' ▸ hget, fun id hn ↦ (nomatch hn)⟩
  | none =>
    cases parked with
    | none =>
      have heq : s.initSlots slotMap none = s := by simp only [RunSlab.initSlots, hg]
      rw [heq]
      exact ⟨h, rfl, fun m hm ↦ (nomatch hm), fun id _ hid ↦ (nomatch hid)⟩
    | some id =>
      have heq : s.initSlots slotMap (some id) =
          { s with
            agentToSlot := id.agentToSlot
            slotToAgent := id.slotToAgent
            nActive := id.slotToAgent.length }.ensureCapacity (id.slotToAgent.length - 1) := by
        simp only [RunSlab.initSlots, hg]
      obtain ⟨hid, hact⟩ := ensureCapacity_identity
        { s with
          agentToSlot := id.agentToSlot
          slotToAgent := id.slotToAgent
          nActive := id.slotToAgent.length } (id.slotToAgent.length - 1)
      have hcap := (lt_capacity_ensureCapacity
        { s with
          agentToSlot := id.agentToSlot
          slotToAgent := id.slotToAgent
          nActive := id.slotToAgent.length } (id.slotToAgent.length - 1)).1
      rw [← heq] at hid hact hcap
      have hslots : (s.initSlots slotMap (some id)).agentToSlot = id.agentToSlot :=
        congrArg RunIdentity.agentToSlot hid
      have hagents : (s.initSlots slotMap (some id)).slotToAgent = id.slotToAgent :=
        congrArg RunIdentity.slotToAgent hid
      have hbook : (s.initSlots slotMap (some id)).haulierToCode = s.haulierToCode :=
        congrArg RunIdentity.haulierToCode hid
      have hnext : (s.initSlots slotMap (some id)).nextHaulierCode = s.nextHaulierCode :=
        congrArg RunIdentity.nextHaulierCode hid
      refine ⟨⟨?_, ?_, ?_, ?_⟩, hbook, fun m hm ↦ (nomatch hm), fun id' _ hid' ↦ ?_⟩
      · rw [hslots, hagents]
        exact (hparked id rfl).slots
      · rw [hbook, hnext]
        exact h.codes
      · rw [hact, hagents]
      · rw [hact]
        dsimp only
        omega
      · exact Option.some_inj.mp hid' ▸ hslots

theorem initCodes_ok (h : s.Ok) (hempty : s.haulierToCode = Dict.empty)
    {codes : Option (Dict String ℕ)} (hc : ∀ m, codes = some m → InjectiveCodes m)
    (hparked : ∀ id, parked = some id → id.Ok) :
    (s.initCodes codes parked).Ok ∧ (s.initCodes codes parked).agentToSlot = s.agentToSlot ∧
    (∀ m, given codes = some m →
      ∀ x, (s.initCodes codes parked).haulierToCode.get? x = m.get? x) ∧
    (∀ id, given codes = none → parked = some id →
      (s.initCodes codes parked).haulierToCode = id.haulierToCode) := by
  cases hg : given codes with
  | some m =>
    have heq : s.initCodes codes parked = s.adoptHaulierCodes m := by
      simp only [RunSlab.initCodes, hg]
    have hupd : ∀ x, (s.haulierToCode.update m.entries).get? x = m.get? x := by
      intro x
      rw [Dict.get?_update_entries, hempty]
      cases m.get? x <;> rfl
    obtain ⟨hok, hslots, -, hget⟩ := adoptHaulierCodes_ok h
      fun k k' v hv hk hk' ↦ hc m (given_eq_some hg) k k' v hv ((hupd k).symm.trans hk)
        ((hupd k').symm.trans hk')
    rw [heq]
    refine ⟨hok, hslots, fun m' hm' x ↦ ?_, fun id hn ↦ (nomatch hn)⟩
    cases hm'
    rw [hget, hempty]
    cases m.get? x <;> rfl
  | none =>
    cases parked with
    | none =>
      have heq : s.initCodes codes none = s := by simp only [RunSlab.initCodes, hg]
      rw [heq]
      exact ⟨h, rfl, fun m hm ↦ (nomatch hm), fun id _ hid ↦ (nomatch hid)⟩
    | some id =>
      have heq : s.initCodes codes (some id) =
          { s with
            haulierToCode := id.haulierToCode
            nextHaulierCode := id.nextHaulierCode } := by
        simp only [RunSlab.initCodes, hg]
      rw [heq]
      refine ⟨⟨h.slots, (hparked id rfl).codes, h.nActive, h.capacity⟩, rfl,
        fun m hm ↦ (nomatch hm), fun id' _ hid' ↦ ?_⟩
      exact Option.some_inj.mp hid' ▸ rfl

theorem initCounters_ok (h : s.Ok) (env : HotEnv) (startFrameIdx : Option ℤ)
    (parked : Option RunIdentity) : (s.initCounters env startFrameIdx parked).Ok ∧
      (s.initCounters env startFrameIdx parked).agentToSlot = s.agentToSlot ∧
      (s.initCounters env startFrameIdx parked).haulierToCode = s.haulierToCode := by
  cases parked with
  | none => exact ⟨⟨h.slots, h.codes, h.nActive, h.capacity⟩, rfl, rfl⟩
  | some id => exact ⟨⟨h.slots, h.codes, h.nActive, h.capacity⟩, rfl, rfl⟩

/-- **A new slab keeps its promises**, and takes each half of its identity from the seed, or else
from the parked one. -/
theorem newSlab_ok (cfg : HotConfig) (env : HotEnv) (capacity : Option ℕ) {seed : Seed}
    (hseed : seed.Injective) (hparked : ∀ id, parked = some id → id.Ok) :
    (newSlab cfg env capacity seed parked).Ok ∧
    (∀ m, given seed.slotMap = some m →
      ∀ a, (newSlab cfg env capacity seed parked).agentToSlot.get? a = m.get? a) ∧
    (∀ id, given seed.slotMap = none → parked = some id →
      (newSlab cfg env capacity seed parked).agentToSlot = id.agentToSlot) ∧
    (∀ m, given seed.haulierCodes = some m →
      ∀ x, (newSlab cfg env capacity seed parked).haulierToCode.get? x = m.get? x) ∧
    (∀ id, given seed.haulierCodes = none → parked = some id →
      (newSlab cfg env capacity seed parked).haulierToCode = id.haulierToCode) := by
  obtain ⟨hok1, hbook1, hslot1, hslot2⟩ := initSlots_ok
    (new_ok ((capacity.filter (· ≠ 0)).getD cfg.capacity) env.now) rfl hseed.slots hparked
  obtain ⟨hok2, hslots2, hcode1, hcode2⟩ := initCodes_ok hok1 hbook1 hseed.codes hparked
  obtain ⟨hok3, hslots3, hcodes3⟩ := initCounters_ok hok2 env seed.startFrameIdx parked
  refine ⟨hok3, fun m hm a ↦ ?_, fun id hn hp ↦ ?_, fun m hm x ↦ ?_, fun id hn hp ↦ ?_⟩
  · rw [newSlab, hslots3, hslots2]
    exact hslot1 m hm a
  · rw [newSlab, hslots3, hslots2]
    exact hslot2 id hn hp
  · rw [newSlab, hcodes3]
    exact hcode1 m hm x
  · rw [newSlab, hcodes3]
    exact hcode2 id hn hp

end OpenRide.Dataplane
