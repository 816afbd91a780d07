import OpenRide.RideHail.Solvers

/-!
# What the model based solvers maximise

The linear program of a solver is about some of the drivers only, and about ids; the solver returns
positions in the lists it was given.  An optimum of the program with values 0 and 1 is nevertheless
the best matching of the whole lists (`solve_optimal`): a matching of near pairs has no driver that
was left out, its table of zeros and ones satisfies the constraints, and the objective of such a
table is what its pairs weigh.
-/

namespace OpenRide.RideHail.Solvers

open Lib

/-! ## Matchings of the whole lists -/

/-- What a pair of positions weighs: the solver's own coefficient. -/
def pairWeight (cost : Cost) (pb : Problem) (drivers : List Driver) (trips : List PassengerTrip)
    (k : ℕ × ℕ) : ℚ :=
  match drivers[k.1]?, trips[k.2]? with
  | some d, some p => cost.value pb (d, k.1) (p, k.2)
  | _, _ => 0

/-- What a matching weighs. -/
def weight (cost : Cost) (pb : Problem) (drivers : List Driver) (trips : List PassengerTrip)
    (ks : List (ℕ × ℕ)) : ℚ :=
  (ks.map (pairWeight cost pb drivers trips)).sum

/-- A matching of the lists, by positions: nobody occurs twice, and every pair is near. -/
structure NearMatching (pb : Problem) (drivers : List Driver) (trips : List PassengerTrip)
    (ks : List (ℕ × ℕ)) : Prop where
  drivers_nodup : (ks.map Prod.fst).Nodup
  trips_nodup : (ks.map Prod.snd).Nodup
  driver_lt : ∀ k ∈ ks, k.1 < drivers.length
  trip_lt : ∀ k ∈ ks, k.2 < trips.length
  near : ∀ k ∈ ks, pb.pickupTime k.1 k.2 < pb.params.maxTravelTimePickup

/-! ## The objective -/

/-- The objective of a program. -/
def LpModel.objective (m : LpModel) (x : String → String → ℚ) : ℚ :=
  (m.paxIds.map fun p ↦ (m.driverIds.map fun d ↦ (m.cost.get? (p, d)).getD 0 * x p d).sum).sum

/-- An optimal solution of a program, with values 0 and 1. -/
structure LpModel.IntegralOptimum (m : LpModel) (x : String → String → ℚ) : Prop where
  satisfied : m.Satisfied x
  integral : ∀ p ∈ m.paxIds, ∀ d ∈ m.driverIds, x p d = 0 ∨ x p d = 1
  optimal : ∀ y, m.Satisfied y → m.objective y ≤ m.objective x

section Model

variable {cost : Cost} {pb : Problem} {drivers : List Driver} {trips : List PassengerTrip}
  {x : String → String → ℚ} (hd : (drivers.map Driver.driver).Nodup)
  (ht : (trips.map PassengerTrip.id).Nodup)

include hd ht in
/-- The objective, over the members of the lists instead of their ids. -/
theorem objective_eq :
    (program cost pb (driverListPotential pb drivers trips) trips).objective x =
      (trips.zipIdx.map fun p ↦ ((driverListPotential pb drivers trips).map fun d ↦
        cost.value pb d p * x p.1.id d.1.driver).sum).sum := by
  have hids : trips.map PassengerTrip.id = trips.zipIdx.map fun p ↦ p.1.id := by
    rw [← Function.comp_def, ← List.map_map, List.zipIdx_map_fst]
  rw [LpModel.objective]
  simp only [program, hids, List.map_map, Function.comp_def]
  refine congrArg List.sum (List.map_congr_left fun p hp ↦ congrArg List.sum
    (List.map_congr_left fun d hmem ↦ ?_))
  rw [get?_table hd ht hmem hp (cost.value pb), Option.getD_some]

theorem value_eq_pairWeight {d : Driver × ℕ} {p : PassengerTrip × ℕ}
    (hd : drivers[d.2]? = some d.1) (hp : trips[p.2]? = some p.1) :
    cost.value pb d p = pairWeight cost pb drivers trips (d.2, p.2) := by
  rw [pairWeight, hd, hp]

/-! ## The table of a matching -/

/-- The table of a matching: a one for every pair, by ids. -/
def table (drivers : List Driver) (trips : List PassengerTrip) (ks : List (ℕ × ℕ))
    (p d : String) : ℚ :=
  if (p, d) ∈ (pairsAt drivers trips ks).map fun x ↦ (x.2.id, x.1.driver) then 1 else 0

variable {ks : List (ℕ × ℕ)}

include hd ht in
theorem mem_ids_iff {d : Driver × ℕ} {p : PassengerTrip × ℕ}
    (hdriver : drivers[d.2]? = some d.1) (hpax : trips[p.2]? = some p.1) :
    (p.1.id, d.1.driver) ∈ ((pairsAt drivers trips ks).map fun x ↦ (x.2.id, x.1.driver)) ↔
      (d.2, p.2) ∈ ks := by
  rw [List.mem_map]
  constructor
  · rintro ⟨x, hx, heq⟩
    obtain ⟨k, hk, hkd, hkp⟩ := mem_pairsAt.mp hx
    obtain ⟨hid, hdrv⟩ := Prod.mk.inj heq
    rw [← position_inj hd hkd hdriver hdrv, ← position_inj ht hkp hpax hid]
    exact hk
  · intro h
    exact ⟨(d.1, p.1), mem_pairsAt.mpr ⟨_, h, hdriver, hpax⟩, rfl⟩

/-- A driver of a near pair was not left out. -/
theorem NearMatching.mem_potential (h : NearMatching pb drivers trips ks) {k : ℕ × ℕ}
    (hk : k ∈ ks) : k.1 ∈ (driverListPotential pb drivers trips).map Prod.snd := by
  refine List.mem_map.mpr ⟨(drivers.get ⟨k.1, h.driver_lt k hk⟩, k.1), ?_, rfl⟩
  refine List.mem_filter.mpr ⟨?_, ?_⟩
  · rw [List.mem_zipIdx_iff_getElem?]
    exact List.getElem?_eq_getElem (h.driver_lt k hk)
  · rw [List.any_eq_true]
    exact ⟨k.2, List.mem_range.mpr (h.trip_lt k hk), decide_eq_true (h.near k hk)⟩

include hd ht in
/-- **The table of a near matching satisfies the constraints.** -/
theorem table_satisfied (h : NearMatching pb drivers trips ks) :
    (program cost pb (driverListPotential pb drivers trips) trips).Satisfied
      (table drivers trips ks) := by
  have hdrivers : ((pairsAt drivers trips ks).map fun x ↦ x.1.driver).Nodup :=
    pairsAt_nodup hd Prod.fst h.drivers_nodup fun k x hx _ ↦ hx
  have htrips : ((pairsAt drivers trips ks).map fun x ↦ x.2.id).Nodup :=
    pairsAt_nodup ht Prod.snd h.trips_nodup fun k x _ hx ↦ hx
  have hpotential : ((driverListPotential pb drivers trips).map fun d ↦ d.1.driver).Nodup := by
    have hsub : ((driverListPotential pb drivers trips).map Prod.fst).Sublist drivers := by
      have hfilter := (List.filter_sublist (l := drivers.zipIdx) (p := fun d ↦
        (List.range trips.length).any fun i ↦
          pb.pickupTime d.2 i < pb.params.maxTravelTimePickup)).map Prod.fst
      rwa [List.zipIdx_map_fst] at hfilter
    have hnodup := hd.sublist (hsub.map Driver.driver)
    rwa [List.map_map] at hnodup
  refine ⟨fun p _ d _ ↦ ?_, fun p _ d _ ↦ ?_, fun d _ ↦ ?_, fun p _ ↦ ?_, fun k hk ↦ ?_⟩
  · rw [table]
    split
    · exact zero_le_one
    · exact le_rfl
  · rw [table]
    split
    · exact le_rfl
    · exact zero_le_one
  · -- two passenger trips of one driver are the same pair
    refine sum_indicator_le_one ht _ fun p _ q _ hp hq ↦ ?_
    obtain ⟨x, hx, hxp⟩ := List.mem_map.mp hp
    obtain ⟨y, hy, hyq⟩ := List.mem_map.mp hq
    obtain ⟨rfl, rfl⟩ := Prod.mk.inj hxp
    obtain ⟨rfl, hsame⟩ := Prod.mk.inj hyq
    rw [List.inj_on_of_nodup_map hdrivers hy hx hsame]
  · refine sum_indicator_le_one hpotential _ fun d _ e _ hd he ↦ ?_
    obtain ⟨x, hx, hxd⟩ := List.mem_map.mp hd
    obtain ⟨y, hy, hye⟩ := List.mem_map.mp he
    obtain ⟨rfl, rfl⟩ := Prod.mk.inj hxd
    obtain ⟨hsame, rfl⟩ := Prod.mk.inj hye
    rw [List.inj_on_of_nodup_map htrips hy hx hsame]
  · obtain ⟨d, hmem, hk⟩ := List.mem_flatMap.mp hk
    obtain ⟨p, hp, hk⟩ := List.mem_filterMap.mp hk
    split at hk
    · simp at hk
    · next hfar =>
      cases hk
      refine if_neg fun hids ↦ hfar ?_
      exact h.near _ ((mem_ids_iff hd ht (mem_driverListPotential hmem)
        (List.mem_zipIdx_iff_getElem?.mp hp)).mp hids)

include hd ht in
/-- **The objective of the table of a near matching is what it weighs.** -/
theorem objective_table (h : NearMatching pb drivers trips ks) :
    (program cost pb (driverListPotential pb drivers trips) trips).objective
      (table drivers trips ks) = weight cost pb drivers trips ks := by
  have hnodup : (ks.map Prod.swap).Nodup :=
    (List.Nodup.of_map _ h.drivers_nodup).map Prod.swap_injective
  have hpotential : ((driverListPotential pb drivers trips).map Prod.snd).Nodup := by
    have hsub := (List.filter_sublist (l := drivers.zipIdx) (p := fun d ↦
      (List.range trips.length).any fun i ↦
        pb.pickupTime d.2 i < pb.params.maxTravelTimePickup)).map Prod.snd
    rw [List.zipIdx_map_snd] at hsub
    exact List.Nodup.sublist hsub List.nodup_range'
  have htrips : (trips.zipIdx.map Prod.snd).Nodup := by
    rw [List.zipIdx_map_snd]
    exact List.nodup_range'
  have hmember : ∀ p ∈ trips.zipIdx, ∀ d ∈ driverListPotential pb drivers trips,
      cost.value pb d p * table drivers trips ks p.1.id d.1.driver =
        pairWeight cost pb drivers trips (d.2, p.2) *
          if (p.2, d.2) ∈ ks.map Prod.swap then 1 else 0 := by
    intro p hp d hmem
    have hdriver := mem_driverListPotential hmem
    have hpax := List.mem_zipIdx_iff_getElem?.mp hp
    have hswap : (p.2, d.2) ∈ ks.map Prod.swap ↔ (d.2, p.2) ∈ ks := by
      simp
    simp only [table, mem_ids_iff hd ht hdriver hpax, hswap]
    split
    · rw [value_eq_pairWeight hdriver hpax]
    · rw [mul_zero, mul_zero]
  calc (program cost pb (driverListPotential pb drivers trips) trips).objective
        (table drivers trips ks)
      = (trips.zipIdx.map fun p ↦ ((driverListPotential pb drivers trips).map fun d ↦
          pairWeight cost pb drivers trips (d.2, p.2) *
            if (p.2, d.2) ∈ ks.map Prod.swap then 1 else 0).sum).sum := by
        rw [objective_eq hd ht]
        exact congrArg List.sum (List.map_congr_left fun p hp ↦ congrArg List.sum
          (List.map_congr_left fun d hmem ↦ hmember p hp d hmem))
    _ = ((trips.zipIdx.map Prod.snd).map fun i ↦
          (((driverListPotential pb drivers trips).map Prod.snd).map fun j ↦
            pairWeight cost pb drivers trips (j, i) *
              if (i, j) ∈ ks.map Prod.swap then 1 else 0).sum).sum := by
        simp only [List.map_map, Function.comp_def]
    _ = ((ks.map Prod.swap).map fun k ↦ pairWeight cost pb drivers trips (k.2, k.1)).sum := by
        refine sum_table htrips hpotential hnodup (fun k hk ↦ ?_)
          fun i j ↦ pairWeight cost pb drivers trips (j, i)
        obtain ⟨j, hj, rfl⟩ := List.mem_map.mp hk
        refine ⟨?_, h.mem_potential hj⟩
        rw [List.zipIdx_map_snd, List.mem_range'_1]
        have hlt := h.trip_lt j hj
        simp only [Prod.fst_swap]
        omega
    _ = weight cost pb drivers trips ks := by
        rw [List.map_map]
        rfl

/-! ## What the rounding finds -/

include hd ht in
/-- **What the rounding finds weighs what the objective is**, of a solution in zeros and ones. -/
theorem weight_roundedPairs
    (hx : (program cost pb (driverListPotential pb drivers trips) trips).IntegralOptimum x)
    (reduced : Dict (String × String) ℚ) :
    weight cost pb drivers trips
        ((roundedPairs x reduced (driverListPotential pb drivers trips) trips).map
          MatchedPair.position) =
      (program cost pb (driverListPotential pb drivers trips) trips).objective x := by
  rw [weight, roundedPairs, List.map_filterMap, sum_map_filterMap, objective_eq hd ht]
  refine congrArg List.sum (List.map_congr_left fun p hp ↦ ?_)
  have hid : p.1.id ∈ trips.map PassengerTrip.id :=
    List.mem_map_of_mem (List.fst_mem_of_mem_zipIdx hp)
  have hzeroOne : ∀ d ∈ driverListPotential pb drivers trips,
      x p.1.id d.1.driver = 0 ∨ x p.1.id d.1.driver = 1 := fun d hmem ↦
    hx.integral p.1.id hid d.1.driver (List.mem_map_of_mem (f := fun d ↦ d.1.driver) hmem)
  have hsum : ((driverListPotential pb drivers trips).map fun d ↦ x p.1.id d.1.driver).sum ≤ 1 := by
    have hpassenger := hx.satisfied.passenger p.1.id hid
    simpa only [program, List.map_map, Function.comp_def] using hpassenger
  rw [sum_found hzeroOne hsum fun d ↦ cost.value pb d p]
  cases hfind : (driverListPotential pb drivers trips).find?
      (fun d ↦ 1 / 2 < x p.1.id d.1.driver) with
  | none => rfl
  | some d =>
    have hmem := List.mem_of_find?_eq_some hfind
    have hvalue := @value_eq_pairWeight cost pb drivers trips d p
      (mem_driverListPotential hmem) (List.mem_zipIdx_iff_getElem?.mp hp)
    simp [MatchedPair.position, hvalue]

/-! ## The best matching -/

/-- Without a passenger trip, or a driver that is near one, there is nothing to match. -/
theorem NearMatching.eq_nil (h : NearMatching pb drivers trips ks)
    (hnone : ¬(0 < trips.length ∧ 0 < (driverListPotential pb drivers trips).length)) :
    ks = [] := by
  cases ks with
  | nil => rfl
  | cons k ks =>
    have htrip := h.trip_lt k List.mem_cons_self
    have hdriver := List.length_pos_of_mem (h.mem_potential List.mem_cons_self)
    rw [List.length_map] at hdriver
    exact absurd ⟨by omega, hdriver⟩ hnone

include hd ht in
/-- The matching of a program that is solved to an integral optimum is the best there is. -/
theorem modelSolve_optimal {glpk : LpModel → String → String → ℚ} {out : Solved}
    (hopt : ∀ m, lpModel cost pb (driverListPotential pb drivers trips) trips = .ok m →
      m.IntegralOptimum (glpk m))
    (h : modelSolve cost glpk pb drivers trips = .ok out) :
    NearMatching pb drivers trips (out.matchedPairs.map MatchedPair.position) ∧
      out.assignment = pairsAt drivers trips (out.matchedPairs.map MatchedPair.position) ∧
      ∀ ks, NearMatching pb drivers trips ks → weight cost pb drivers trips ks ≤
        weight cost pb drivers trips (out.matchedPairs.map MatchedPair.position) := by
  have hsat := fun m hm ↦ (hopt m hm).satisfied
  obtain ⟨hpairs, hassignment, -, -⟩ := modelSolve_eq_ok hd ht hsat h
  obtain ⟨hpax, hdriver, hall⟩ := doMatching_spec hd ht hsat hpairs
  refine ⟨⟨?_, ?_, ?_, ?_, ?_⟩, hassignment, fun ks hks ↦ ?_⟩
  · rw [List.map_map]
    exact hdriver
  · rw [List.map_map]
    exact hpax
  · intro k hk
    obtain ⟨m, hm, rfl⟩ := List.mem_map.mp hk
    exact (hall m hm).1
  · intro k hk
    obtain ⟨m, hm, rfl⟩ := List.mem_map.mp hk
    exact (hall m hm).2.1
  · intro k hk
    obtain ⟨m, hm, rfl⟩ := List.mem_map.mp hk
    obtain ⟨-, -, htime, hnear⟩ := hall m hm
    exact htime ▸ hnear
  · rcases doMatching_cases hpairs with ⟨-, -, hm, hrounded⟩ | ⟨hnone, hempty⟩
    · have hx := hopt _ hm
      rw [hrounded, weight_roundedPairs hd ht hx, ← objective_table hd ht hks]
      exact hx.optimal _ (table_satisfied hd ht hks)
    · rw [hks.eq_nil hnone, hempty]
      exact le_rfl

end Model

/-- **The solvers that state a program are optimal over the whole instance.**  What such a solver
returns is a matching of near pairs, and no matching of near pairs of the whole lists weighs more;
every near pair of the lists then has a coefficient. -/
theorem solve_optimal (ext : External) (name : SolverName) (cost : Cost)
    (hname : name.cost ext.sqrt = some cost) (pb : Problem) (drivers : List Driver)
    (trips : List PassengerTrip) (hd : (drivers.map Driver.driver).Nodup)
    (ht : (trips.map PassengerTrip.id).Nodup)
    (hopt : ∀ m, lpModel cost pb (driverListPotential pb drivers trips) trips = .ok m →
      m.IntegralOptimum (ext.glpk m)) (out : Solved)
    (h : solve ext name pb drivers trips = .ok out) :
    NearMatching pb drivers trips (out.matchedPairs.map MatchedPair.position) ∧
      out.assignment = pairsAt drivers trips (out.matchedPairs.map MatchedPair.position) ∧
      Weighable cost pb drivers trips ∧
      ∀ ks, NearMatching pb drivers trips ks → weight cost pb drivers trips ks ≤
        weight cost pb drivers trips (out.matchedPairs.map MatchedPair.position) := by
  rw [solve_eq_modelSolve hname] at h
  obtain ⟨hmatching, hassignment, hbest⟩ := modelSolve_optimal hd ht hopt h
  exact ⟨hmatching, hassignment, modelSolve_returns_iff.mp ⟨out, h⟩, hbest⟩

/-! The three drivers and two passenger trips of `solve_feasible_uneven`. -/

theorem uneven_potential : driverListPotential (uneven 10) threeDrivers twoTrips =
    [(⟨"d1", 4⟩, 0), (⟨"d2", 4⟩, 1)] := by
  decide +kernel

/-- The bound on the objective adds up the constraints of the first driver and of the first
passenger trip, weighed with 13/2 and 22/3. -/
theorem uneven_optimum : (program compromiseScaledMatching (uneven 10)
    (driverListPotential (uneven 10) threeDrivers twoTrips) twoTrips).IntegralOptimum
      (unevenSolver.glpk (program compromiseScaledMatching (uneven 10)
        (driverListPotential (uneven 10) threeDrivers twoTrips) twoTrips)) := by
  refine ⟨unevenSolver_satisfied _, fun p _ d _ ↦ ?_, fun y hy ↦ ?_⟩
  · simp only [unevenSolver]
    split
    · exact Or.inr rfl
    · exact Or.inl rfl
  · have hbest : (program compromiseScaledMatching (uneven 10)
        (driverListPotential (uneven 10) threeDrivers twoTrips) twoTrips).objective
          (unevenSolver.glpk (program compromiseScaledMatching (uneven 10)
            (driverListPotential (uneven 10) threeDrivers twoTrips) twoTrips)) = 83 / 6 := by
      decide +kernel
    have hpax : (program compromiseScaledMatching (uneven 10)
        (driverListPotential (uneven 10) threeDrivers twoTrips) twoTrips).paxIds = ["p1", "p2"] :=
      rfl
    have hids : (program compromiseScaledMatching (uneven 10)
        (driverListPotential (uneven 10) threeDrivers twoTrips) twoTrips).driverIds =
          ["d1", "d2"] := by
      decide +kernel
    have hdriver := hy.driver "d1" (by rw [hids]; decide)
    have hpassenger := hy.passenger "p1" (by rw [hpax]; decide)
    have hnonneg := hy.nonneg "p1" (by rw [hpax]; decide) "d1" (by rw [hids]; decide)
    have hfixed : y "p2" "d2" = 0 := hy.fixed ("p2", "d2") (by decide +kernel)
    rw [hpax] at hdriver
    rw [hids] at hpassenger
    rw [hbest, objective_eq (by decide) (by decide), uneven_potential]
    have h11 : compromiseScaledMatching.value (uneven 10) (⟨"d1", 4⟩, 0) (⟨"p1", 20⟩, 0) = 49 / 6 :=
      by decide +kernel
    have h21 : compromiseScaledMatching.value (uneven 10) (⟨"d1", 4⟩, 0) (⟨"p2", 20⟩, 1) = 13 / 2 :=
      by decide +kernel
    have h12 : compromiseScaledMatching.value (uneven 10) (⟨"d2", 4⟩, 1) (⟨"p1", 20⟩, 0) = 22 / 3 :=
      by decide +kernel
    simp only [twoTrips, List.zipIdx_cons, List.zipIdx_nil, List.map_cons, List.map_nil,
      List.sum_cons, List.sum_nil, h11, h21, h12, hfixed] at hdriver hpassenger ⊢
    linarith

/-- No matching weighs more than the one the scaled solver returns, 83/6. -/
theorem solve_optimal_uneven :
    weight compromiseScaledMatching (uneven 10) threeDrivers twoTrips [(1, 0), (0, 1)] = 83 / 6 ∧
      ∀ ks, NearMatching (uneven 10) threeDrivers twoTrips ks →
        weight compromiseScaledMatching (uneven 10) threeDrivers twoTrips ks ≤
          weight compromiseScaledMatching (uneven 10) threeDrivers twoTrips [(1, 0), (0, 1)] := by
  refine ⟨by decide +kernel, (solve_optimal unevenSolver .compromiseScaledMatching
    compromiseScaledMatching rfl (uneven 10) threeDrivers twoTrips (by decide) (by decide)
    (fun m hm ↦ ?_) unevenSolved solve_uneven).2.2.2⟩
  rw [(lpModel_eq_ok.mp hm).2]
  exact uneven_optimum

end OpenRide.RideHail.Solvers
