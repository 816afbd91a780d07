import OpenRide.Datagen.FacilityRules
import OpenRide.Datagen.RulesApplied
import Mathlib.Data.List.ReduceOption

/-!
# What a schedule pays

Compilation stamps a schedule onto the profile of its facility, as a block with a point for every
hour, and the settlement reads the blocks of the facility documents into a book.  A schedule pays
the amount its author gave for the hour and nothing at the others (`paid_as_authored`), and a block
that was stamped is read back as the schedule it was stamped for (`readRebateSchedule_asBlock`).  So
the book pays at every facility what its author wrote (`book_pays_schedules`).
-/

namespace OpenRide.Datagen

open Lib

/-- The value a point is priced at, if it carries just one. -/
def pricedAt (entries : List (String × Raw)) : Option Raw :=
  match Dict.lookupIn "amount" entries, Dict.lookupIn "weight" entries with
  | some amount, none => some amount
  | none, some weight => some weight
  | _, _ => none

/-- `value_at`. -/
def RebateSchedule.valueAt (s : RebateSchedule) (hour : ℤ) : ℚ := s.amounts.getD (hour % 24).toNat 0

section

variable (H : PyHost)

/-! ## What is authored is paid -/

variable {points : List Raw} {amounts result : Dict ℕ ℚ} {hour : ℕ} {amount : ℚ}

/-- The point gives the hour an amount. -/
def Authors (point : Raw) (hour : ℕ) (amount : ℚ) : Prop :=
  ∃ entries rawHour value, point = .dict entries ∧ Dict.lookupIn "hour" entries = some rawHour ∧
    coerceHour H rawHour = .ok hour ∧ pricedAt entries = some value ∧
    coerceAmount H value = .ok amount

theorem rebatePoint_eq_ok {point : Raw} : rebatePoint H amounts point = .ok (hour, amount) ↔
    Authors H point hour amount ∧ amounts.contains hour = false := by
  constructor
  · intro h
    unfold rebatePoint at h
    split at h
    · next entries =>
      split at h
      · cases h
      · next rawHour hhour =>
        obtain ⟨taken, hc, h⟩ := bind_eq_ok.mp h
        dsimp only at h
        by_cases hfree : amounts.contains taken = true
        · rw [if_pos hfree] at h
          cases h
        · rw [if_neg hfree] at h
          split at h
          case h_1 | h_2 => cases h
          all_goals
            next value ha hw =>
              obtain ⟨a, hv, he⟩ := bind_eq_ok.mp h
              cases he
              exact ⟨⟨entries, rawHour, value, rfl, hhour, hc, by rw [pricedAt, ha, hw], hv⟩,
                Bool.eq_false_iff.mpr hfree⟩
    · cases h
  · rintro ⟨⟨entries, rawHour, value, rfl, hhour, hc, hp, hv⟩, hfree⟩
    rw [rebatePoint, hhour]
    refine bind_eq_ok.mpr ⟨hour, hc, ?_⟩
    rw [if_neg (Bool.eq_false_iff.mp hfree)]
    rw [pricedAt] at hp
    split at hp
    case h_3 => cases hp
    all_goals
      next ha hw =>
        cases hp
        rw [ha, hw]
        exact bind_eq_ok.mpr ⟨amount, hv, rfl⟩

theorem authors_point (hday : hour ≤ 23) (amount : ℚ) :
    Authors H (.dict [("hour", .int hour), ("amount", .num amount)]) hour amount := by
  refine ⟨_, _, _, rfl, rfl, ?_, rfl, rfl⟩
  rw [coerceHour, if_pos ⟨Int.natCast_nonneg hour, by exact_mod_cast hday⟩]
  rfl

/-- The amounts that are read are those of the points, and no hour has two. -/
theorem get?_rebatePoints {idx : ℕ} (h : rebatePoints H idx points amounts = .ok result) :
    result.get? hour = some amount ↔ amounts.get? hour = some amount ∨
      ∃ point ∈ points, Authors H point hour amount := by
  induction points generalizing idx amounts with
  | nil =>
    cases h
    simp
  | cons point points ih =>
    obtain ⟨⟨h', a'⟩, hpoint, hrest⟩ := bind_eq_ok.mp h
    obtain ⟨halone, hfree⟩ := (rebatePoint_eq_ok H).mp (raiseAs_eq_ok.mp hpoint)
    have hunique : Authors H point hour amount ↔ hour = h' ∧ a' = amount := by
      constructor
      · rintro ⟨_, _, _, rfl, hl, hc, hp, hv⟩
        obtain ⟨_, _, _, he, hl', hc', hp', hv'⟩ := halone
        cases he
        cases hl.symm.trans hl'
        cases hp.symm.trans hp'
        exact ⟨Except.ok.inj (hc.symm.trans hc'), Except.ok.inj (hv'.symm.trans hv)⟩
      · rintro ⟨rfl, rfl⟩
        exact halone
    have hnone : amounts.get? h' = none := by simpa [Dict.contains] using hfree
    rw [ih hrest, Dict.get?_set, List.exists_mem_cons_iff, hunique, ← or_assoc]
    refine or_congr_left ?_
    split
    · next he => simp [he, hnone]
    · next he => simp [he]

variable {entries : List (String × Raw)} {s : RebateSchedule}

/-- The schedule of the amounts that are read. -/
theorem amounts_of_readRebateSchedule (h : readRebateSchedule H (.dict entries) = .ok s) :
    ∃ points amounts, rebatePointList H entries = .ok points ∧
      rebatePoints H 0 points Dict.empty = .ok amounts ∧
      s.amounts = (List.range 24).map fun h ↦ (amounts.get? h).getD 0 := by
  unfold readRebateSchedule at h
  dsimp only at h
  split at h
  case h_3 => cases h
  all_goals
    obtain ⟨currency, -, h⟩ := bind_eq_ok.mp h
    obtain ⟨points, hpoints, h⟩ := bind_eq_ok.mp h
    obtain ⟨amounts, hamounts, h⟩ := bind_eq_ok.mp h
    cases h
    exact ⟨points, amounts, hpoints, hamounts, rfl⟩

/-- **A schedule pays what was authored**: at an hour that is authored its amount, and otherwise
nothing. -/
theorem paid_as_authored (h : readRebateSchedule H (.dict entries) = .ok s)
    (hpoints : rebatePointList H entries = .ok points) (hday : hour ≤ 23) :
    (∀ point ∈ points, ∀ amount, Authors H point hour amount → s.valueAt hour = amount) ∧
      ((∀ point ∈ points, ∀ amount, ¬ Authors H point hour amount) → s.valueAt hour = 0) := by
  obtain ⟨points', amounts, hp, hamounts, hs⟩ := amounts_of_readRebateSchedule H h
  cases hpoints.symm.trans hp
  have hvalue : s.valueAt hour = (amounts.get? hour).getD 0 := by
    have hmod : ((hour : ℤ) % 24).toNat = hour := by omega
    rw [RebateSchedule.valueAt, hs, hmod]
    simp [Nat.lt_succ_of_le hday]
  have hget := fun amount ↦ @get?_rebatePoints H points Dict.empty amounts hour amount 0 hamounts
  rw [hvalue]
  constructor
  · intro point hmem amount ha
    rw [(hget amount).mpr (Or.inr ⟨point, hmem, ha⟩)]
    rfl
  · intro hnone
    cases hfound : amounts.get? hour with
    | none => rfl
    | some amount =>
      rcases (hget amount).mp hfound with hempty | ⟨point, hmem, ha⟩
      · cases hempty
      · exact absurd ha (hnone point hmem amount)

/-! ## A block is read back -/

theorem exists_rebatePoints {f : ℕ → ℚ} {hours : List ℕ} (hn : hours.Nodup)
    (hday : ∀ h ∈ hours, h ≤ 23) (hfree : ∀ h ∈ hours, amounts.get? h = none) (idx : ℕ) :
    ∃ result, rebatePoints H idx (hours.map fun h : ℕ ↦
      .dict [("hour", .int h), ("amount", .num (f h))]) amounts = .ok result := by
  induction hours generalizing idx amounts with
  | nil => exact ⟨amounts, rfl⟩
  | cons h hours ih =>
    obtain ⟨hh, hn⟩ := List.nodup_cons.mp hn
    obtain ⟨hlast, hday⟩ := List.forall_mem_cons.mp hday
    obtain ⟨hnone, hfree⟩ := List.forall_mem_cons.mp hfree
    have hpoint : rebatePoint H amounts (.dict [("hour", .int h), ("amount", .num (f h))]) =
        .ok (h, f h) := by
      refine (rebatePoint_eq_ok H).mpr ⟨authors_point H hlast (f h), ?_⟩
      rw [Dict.contains, hnone]
      rfl
    have hstill : ∀ x ∈ hours, (amounts.set h (f h)).get? x = none := by
      intro x hx
      rw [Dict.get?_set_ne _ _ (ne_of_mem_of_not_mem hx hh)]
      exact hfree x hx
    obtain ⟨result, hresult⟩ := ih hn hday hstill (idx + 1)
    exact ⟨result, bind_eq_ok.mpr ⟨(h, f h), raiseAs_eq_ok.mpr hpoint, hresult⟩⟩

/-- **A block that was stamped is read back** as the schedule it was stamped for. -/
theorem readRebateSchedule_asBlock {raw : Raw} (h : readRebateSchedule H raw = .ok s) :
    readRebateSchedule H s.asBlock = .ok s := by
  obtain ⟨g, hg⟩ : ∃ g : ℕ → ℚ, s.amounts = (List.range 24).map g := by
    cases raw with
    | dict entries =>
      obtain ⟨_, _, -, -, hs⟩ := amounts_of_readRebateSchedule H h
      exact ⟨_, hs⟩
    | null | bool | int | float | str | list => cases h
  have hlast : ∀ x ∈ List.range 24, x ≤ 23 := fun x hx ↦ Nat.le_of_lt_succ (List.mem_range.mp hx)
  obtain ⟨result, hresult⟩ := @exists_rebatePoints H Dict.empty (fun x ↦ s.amounts.getD x 0) _
    List.nodup_range hlast (fun _ _ ↦ rfl) 0
  have hread : readRebateSchedule H s.asBlock =
      .ok ⟨(List.range 24).map fun h ↦ (result.get? h).getD 0, s.currency⟩ := by
    rw [RebateSchedule.asBlock, readRebateSchedule]
    refine bind_eq_ok.mpr ⟨s.currency, rfl, bind_eq_ok.mpr ⟨_, rfl, ?_⟩⟩
    exact bind_eq_ok.mpr ⟨result, hresult, rfl⟩
  have hsame : ((List.range 24).map fun h ↦ (result.get? h).getD 0) = s.amounts := by
    rw [hg]
    refine List.map_congr_left fun x hx ↦ ?_
    have hx' : s.amounts.getD x 0 = g x := by simp [hg, List.mem_range.mp hx]
    rw [(get?_rebatePoints H hresult).mpr (Or.inr ⟨_, List.mem_map_of_mem hx,
      authors_point H (hlast x hx) _⟩), Option.getD_some, hx']
  rw [hread, hsame]

/-! ## The book -/

/-- The turn of a document in `from_facility_docs`: the text of its id, and its schedule. -/
def docSchedule : Raw → Except RulesError (Option (String × RebateSchedule))
  | .dict doc =>
    let fid := Raw.field doc "_id"
    if fid.isNull then .ok none
    else
      match (Raw.field doc "profile").orElse (.dict []) with
      | .dict profile =>
        let block := Raw.field profile "rebate"
        let shown := H.strOf fid
        if block.truthy then
          match parseRebateSchedule H block s!"facility[{shown}].profile.rebate" with
          | .ok s => .ok (some (shown, s))
          | .error (.facilityRules _) => .ok none
          | .error e => .error e
        else .ok none
      | _ => .error .attributeError
  | _ => .ok none

/-- `from_facility_docs`. -/
def fromFacilityDocs (docs : List Raw) : Except RulesError (Dict String RebateSchedule) := do
  return Dict.ofList (← each (docSchedule H) docs).reduceOption

/-- `schedule_for`. -/
def scheduleFor (book : Dict String RebateSchedule) (fid : Raw) : Option RebateSchedule :=
  if fid.isNull then none else book.get? (H.strOf fid)

/-- `RebateBook.price_at`, for an arrival at an hour of the day. -/
def priceAt (book : Dict String RebateSchedule) (fid : Raw) (hour : ℤ) : Option ℚ :=
  (scheduleFor H book fid).map fun s ↦ s.valueAt hour

/-- The document of a facility as the compiler leaves it: the profile carries the block of a
schedule that was read, or none. -/
structure StampedDoc where
  entries : List (String × Raw)
  profile : List (String × Raw)
  schedule : Option RebateSchedule
  named : (Raw.field entries "_id").isNull = false
  profiled : Raw.field entries "profile" = .dict profile
  stamped : Raw.field profile "rebate" = (schedule.map RebateSchedule.asBlock).getD .null
  authored : ∀ s ∈ schedule, ∃ raw, readRebateSchedule H raw = .ok s

namespace StampedDoc

variable {H}

/-- The text of the id. -/
def id (d : StampedDoc H) : String := H.strOf (Raw.field d.entries "_id")

theorem docSchedule_eq (d : StampedDoc H) :
    docSchedule H (.dict d.entries) = .ok (d.schedule.map fun s ↦ (d.id, s)) := by
  have hprofile : (Raw.dict d.profile).orElse (.dict []) = .dict d.profile := by
    cases d.profile <;> rfl
  rw [docSchedule]
  dsimp only
  rw [d.named, d.profiled, hprofile]
  dsimp only
  rw [d.stamped]
  cases hs : d.schedule with
  | none => rfl
  | some s =>
    obtain ⟨raw, hraw⟩ := d.authored s hs
    have hblock (whr : String) : parseRebateSchedule H s.asBlock whr = .ok s :=
      (parseRebateSchedule_eq_ok H).mpr (readRebateSchedule_asBlock H hraw)
    rw [Option.map_some, Option.getD_some, hblock]
    rfl

/-- **The settlement pays what was authored**: at every facility the amount of its schedule for the
hour, and nothing at a facility without one. -/
theorem book_pays_schedules {docs : List (StampedDoc H)} (hids : (docs.map id).Nodup) :
    ∃ book, fromFacilityDocs H (docs.map fun d ↦ .dict d.entries) = .ok book ∧
      ∀ d ∈ docs, ∀ hour, priceAt H book (Raw.field d.entries "_id") hour =
        d.schedule.map fun s ↦ s.valueAt hour := by
  have heach : each (docSchedule H) (docs.map fun d ↦ .dict d.entries) =
      .ok (docs.map fun d ↦ d.schedule.map fun s ↦ (d.id, s)) := by
    rw [each_eq_ok, List.forall₂_map_left_iff, List.forall₂_map_right_iff, List.forall₂_same]
    exact fun d _ ↦ d.docSchedule_eq
  refine ⟨_, by rw [fromFacilityDocs, heach]; rfl, fun d hd hour ↦ ?_⟩
  rw [priceAt, scheduleFor, if_neg (by rw [d.named]; exact Bool.false_ne_true)]
  have hmem {k : String} {s : RebateSchedule} : (k, s) ∈ (docs.map fun d ↦
      d.schedule.map fun s ↦ (d.id, s)).reduceOption ↔
      ∃ d ∈ docs, d.schedule = some s ∧ d.id = k := by
    simp [List.reduceOption_mem_iff]
  have hone {d₁ d₂ : StampedDoc H} (h₁ : d₁ ∈ docs) (h₂ : d₂ ∈ docs) (he : d₁.id = d₂.id) :
      d₁ = d₂ := List.inj_on_of_nodup_map hids h₁ h₂ he
  refine congrArg _ (Option.ext fun s ↦ (Dict.get?_ofList_iff ?_).trans (hmem.trans ?_))
  · intro k v w hv hw
    obtain ⟨d₁, h₁, hs₁, rfl⟩ := hmem.mp hv
    obtain ⟨d₂, h₂, hs₂, he⟩ := hmem.mp hw
    rw [hone h₂ h₁ he, hs₁] at hs₂
    exact Option.some.inj hs₂
  · constructor
    · rintro ⟨d', hd', hs, he⟩
      rwa [← hone hd' hd he]
    · exact fun hs ↦ ⟨d, hd, hs, rfl⟩

end StampedDoc

end

/-! ## A depot that pays in the morning -/

/-- Twenty credits at seven. -/
def morning : Raw := .dict [("points", .list [.dict [("hour", .int 7), ("amount", .num 20)]])]

/-- The schedule that is read. -/
def morningSchedule : RebateSchedule where
  amounts := (List.range 24).map fun h ↦ if h = 7 then 20 else 0
  currency := "credit"

theorem reads_morning : readRebateSchedule asciiHost morning = .ok morningSchedule :=
  rfl

theorem morning_paid : morningSchedule.valueAt 7 = 20 :=
  (@paid_as_authored asciiHost _ 7 _ _ reads_morning rfl (by decide)).1 _ List.mem_cons_self _
    (authors_point asciiHost (by decide) 20)

def depot : StampedDoc asciiHost where
  entries := [("_id", .str "depot"), ("profile", .dict [("rebate", morningSchedule.asBlock)])]
  profile := [("rebate", morningSchedule.asBlock)]
  schedule := some morningSchedule
  named := rfl
  profiled := rfl
  stamped := rfl
  authored := by
    rintro s ⟨⟩
    exact ⟨morning, reads_morning⟩

theorem depot_pays : ∃ book, fromFacilityDocs asciiHost [.dict depot.entries] = .ok book ∧
    priceAt asciiHost book (.str "depot") 7 = some 20 := by
  obtain ⟨book, hbook, hpays⟩ := @StampedDoc.book_pays_schedules asciiHost [depot] (by simp)
  exact ⟨book, hbook, (hpays depot List.mem_cons_self 7).trans (by decide +kernel)⟩

end OpenRide.Datagen
