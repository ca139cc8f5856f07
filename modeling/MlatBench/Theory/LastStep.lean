import Mathlib.Analysis.SpecialFunctions.Trigonometric.Bounds
import Mathlib.LinearAlgebra.Matrix.Nondegenerate
import MlatBench.Theory.Haversine
import MlatBench.Theory.Normal
import MlatBench.Theory.Residuals

/-!
# What the Gate Has Looked At

A solution comes with the root mean square that the gate has tested. The loop
computes it before it takes the step, so it speaks of the point the last step
started from, and what is returned is the point where it ended. These are one
point exactly if the last step is zero, where the weighted residuals are stationary,
and then the gate has spoken of the solution.

Steps are for the weighted residuals and are cut to a millisecond in time. Where
the last one starts from a point that few precise receivers are off, it moves the
error over to the many imprecise ones.

## Main definitions

* `Solve.Gated`: A solution whose gate speaks of it.
* `Solve.Still`: No last step from a credible point.
* `Solve.SawReturned`: The gate has looked at the point that is returned.
* `Solve.tried`: The sets the retry may look at.
* `Solve.gram`: The normal matrix of three directions.
* `Solve.farObs`: Receivers whose solve ends at the last step.

## Theorems

* `LastStep.stays_iff`: A last step of zero.
* `gated_of_still`, `sawReturned_iff`: What the gate has looked at.
* `solve_gated`: The same with the retry.
* `solve3_column`: A system that is solved by one coordinate.
* `farObs_ungated`: A solution past the gate that is not credible.
-/

namespace MlatBench

namespace Server

open Library F64 F64Fn

namespace Solve

section Gate

variable {K : Type} [Field K] [LinearOrder K] [FloorRing K] [Fns K]
variable (toEcef : Geodetic K → Ecef K)

/-- Arithmetic is exact. -/
local instance (priority := low) exactResiduals : F64Fn K := F64.exactFn K

/-- The gate has spoken of the solution: its residuals are those at its position,
    their root mean square is the one it comes with, and is credible. -/
structure Gated (obs : List (Observation K)) (sol : Solution K) : Prop where
  residuals : sol.residualsS = obs.map (residualAt toEcef sol)
  rms : sol.rmsS = rmsOf sol.residualsS
  credible : rmsOf sol.residualsS ≤ maxRmsS

/-- The loop has no credible point to step away from at its end: there is none, it
    fails the gate, or the step from it is zero. -/
def Still (altM : K) (init : Geodetic K) (obs : List (Observation K)) : Prop :=
  ∀ q ∈ lastPoint toEcef altM init obs,
    maxRmsS < rmsOf (residualsBy toEcef obs q.lat q.lon altM q.tTx) ∨
      ∀ k, normalVector (jacobianBy toEcef obs q.lat q.lon altM q.tTx) k = 0

/-- The sets the retry may look at. -/
def tried (obs : List (Observation K)) : List (List (Observation K)) :=
  obs :: (List.range obs.length).map obs.eraseIdx

theorem robustBy_tried (solve : Solver K) (obs : List (Observation K)) (altM : K)
    (init : Geodetic K) :
    ∃ set ∈ tried obs, robustBy solve obs altM init = solve set altM init := by
  rcases robustBy_cases solve obs altM init with h | ⟨skip, hskip, _, _, h⟩
  · exact ⟨obs, List.mem_cons_self, h⟩
  · refine ⟨obs.eraseIdx skip, List.mem_cons_of_mem _ ?_, h⟩
    exact List.mem_map_of_mem (List.mem_range.mpr hskip)

variable [IsStrictOrderedRing K]

/-- A step that is cut is zero only if it was. -/
theorem clamp_eq_zero (c : ℚ) (hc : 0 < c) (x : K) :
    (clamp (lit (-c)) (lit c) x : K) = 0 ↔ x = 0 := by
  have hpos : (0 : K) < lit c := Rat.cast_pos.mpr hc
  have hneg : (lit (-c) : K) < 0 := Rat.cast_lt_zero.mpr (neg_lt_zero.mpr hc)
  unfold clamp
  split_ifs with hlow hhigh
  · exact iff_of_false hneg.ne (hlow.trans hneg).ne
  · exact iff_of_false hpos.ne' (hpos.trans hhigh).ne'
  · rfl

/-- The last step is no step just if the weighted residuals are stationary where it
    starts. -/
theorem LastStep.stays_iff {obs : List (Observation K)} {altM : K} {init : Geodetic K}
    {q p : Point K} (h : LastStep toEcef obs altM init q p) :
    (p.lat = q.lat ∧ p.lon = q.lon ∧ p.tTx = q.tTx) ↔
      ∀ k, normalVector (jacobianBy toEcef obs q.lat q.lon altM q.tTx) k = 0 := by
  rcases h.solved with ⟨step, hstep, hlat, hlon, htime, _⟩
  have hmilli : ((-1 : ℚ) / 1000) = -(1 / 1000) := by norm_num
  have hsystem := solve3_mulVec _ _ step hstep
  rw [hlat, hlon, htime, hmilli, add_eq_left, add_eq_left, add_eq_left,
    clamp_eq_zero 1 one_pos, clamp_eq_zero 1 one_pos, clamp_eq_zero (1 / 1000) (by norm_num)]
  constructor
  · rintro ⟨h0, h1, h2⟩ k
    have hzero : step = 0 := by
      funext k
      fin_cases k
      · exact h0
      · exact h1
      · exact h2
    rw [← hsystem, hzero, Matrix.mulVec_zero]
    rfl
  · intro hnormal
    -- A right side of zeros is solved by zeros alone.
    have hdet : (Matrix.of (normalMatrix
        (jacobianBy toEcef obs q.lat q.lon altM q.tTx))).det ≠ 0 := by
      refine det_ne_zero _ fun hsingular => ?_
      rw [solve3, if_pos hsingular] at hstep
      exact Option.some_ne_none step hstep.symm
    have hzero := Matrix.eq_zero_of_mulVec_eq_zero hdet (hsystem.trans (funext hnormal))
    rw [hzero]
    exact ⟨rfl, rfl, rfl⟩

/-- What is returned when the last step is no step. -/
theorem gated_of_still (obs : List (Observation K)) (altM : K) (init : Geodetic K)
    (h : Still toEcef altM init obs) (sol : Solution K)
    (hsol : solveBy toEcef obs altM init = some sol) : Gated toEcef obs sol := by
  rcases (solveBy_eq_some toEcef obs altM init sol).mp hsol with ⟨q, p, hlast, hans⟩
  rcases answerBy_eq_some toEcef obs altM p sol hans with ⟨hgate, _, _, _, hrmsS, hres, hat⟩
  rcases hlast.solved with ⟨_, _, _, _, _, hrms⟩
  -- The gate has let the point through, so the step from it is zero.
  have hzero := (h q hlast.start).resolve_left (hrms ▸ hgate)
  rcases (hlast.stays_iff toEcef).mpr hzero with ⟨hlat, hlon, htime⟩
  have hsame : sol.rmsS = rmsOf sol.residualsS := by
    rw [hres, hlat, hlon, htime, hrmsS, hrms]
  refine ⟨hat, hsame, ?_⟩
  rw [← hsame, hrmsS]
  exact not_lt.mp hgate

/-- The gate has looked at the point that is returned. -/
def SawReturned (altM : K) (init : Geodetic K) (obs : List (Observation K)) (sol : Solution K) :
    Prop :=
  ∃ q ∈ lastPoint toEcef altM init obs, sol.pos = ⟨q.lat, q.lon, altM⟩ ∧ sol.tTx = q.tTx

theorem sawReturned_iff (obs : List (Observation K)) (altM : K) (init : Geodetic K)
    (sol : Solution K) (hsol : solveBy toEcef obs altM init = some sol) :
    SawReturned toEcef altM init obs sol ↔ Still toEcef altM init obs := by
  rcases (solveBy_eq_some toEcef obs altM init sol).mp hsol with ⟨q, p, hlast, hans⟩
  rcases answerBy_eq_some toEcef obs altM p sol hans with ⟨hgate, _, hpos, htime, _⟩
  rcases hlast.solved with ⟨_, _, _, _, _, hrms⟩
  rw [hrms] at hgate
  constructor
  · rintro ⟨q', hq', hpos', htime'⟩ r hr
    -- There is one last point only.
    obtain rfl : q' = q := Option.some.inj (hq'.symm.trans hlast.start)
    obtain rfl : r = q' := Option.some.inj (hr.symm.trans hlast.start)
    rw [hpos, Geodetic.mk.injEq] at hpos'
    exact Or.inr ((hlast.stays_iff toEcef).mp ⟨hpos'.1, hpos'.2.1, htime.symm.trans htime'⟩)
  · intro h
    rcases (hlast.stays_iff toEcef).mpr ((h q hlast.start).resolve_left hgate) with
      ⟨hlat, hlon, htx⟩
    refine ⟨q, hlast.start, ?_, htime.trans htx⟩
    rw [hpos, hlat, hlon]

/-- If the loop ends with no step from a credible point, the gate speaks of what a
    solve returns, and, if every set the retry may look at ends so, of what the retry
    returns. The solutions whose gate has looked at another point are all the others. -/
theorem solve_gated (obs : List (Observation K)) (altM : K) (init : Geodetic K) :
    (Still toEcef altM init obs →
      ∀ sol, solveBy toEcef obs altM init = some sol → Gated toEcef obs sol) ∧
      ((∀ set ∈ tried obs, Still toEcef altM init set) →
        ∀ sol, robustBy (solveBy toEcef) obs altM init = some sol →
          ∃ set ∈ tried obs, Gated toEcef set sol) ∧
      ∀ sol, solveBy toEcef obs altM init = some sol →
        (SawReturned toEcef altM init obs sol ↔ Still toEcef altM init obs) := by
  refine ⟨gated_of_still toEcef obs altM init, fun h sol hsol => ?_,
    sawReturned_iff toEcef obs altM init⟩
  rcases robustBy_tried (solveBy toEcef) obs altM init with ⟨set, hset, hsame⟩
  exact ⟨set, hset, gated_of_still toEcef set altM init (h set hset) sol (hsame.symm.trans hsol)⟩

end Gate

section Near

/-- Arithmetic is exact. -/
local instance (priority := low) exactNear : F64Fn ℚ := F64.exactFn ℚ

/-- A receiver in some direction from latitude and longitude zero, as far as a solve
    assumes at first. -/
def nearAt (x y z : ℚ) : Observation ℚ :=
  ⟨⟨6378137 + 200000 * x, 200000 * y, 200000 * z⟩, 100, 1 / 10 ^ 7⟩

def nearObs : List (Observation ℚ) :=
  [nearAt (-1) 0 0, nearAt (-1 / 3) (2 / 3) (2 / 3), nearAt (-1 / 3) (-2 / 3) (2 / 3),
    nearAt (-1 / 3) (2 / 3) (-2 / 3), nearAt (-1 / 3) (-2 / 3) (-2 / 3)]

/-- The solve and the retry start where all the receivers agree. -/
theorem still_near : ∀ set ∈ tried nearObs, Still Geodetic.toEcef 0 ⟨0, 0, 0⟩ set := by
  unfold Still
  decide +kernel

theorem solve_near : (solveBy Geodetic.toEcef nearObs 0 ⟨0, 0, 0⟩).isSome = true ∧
    (robustBy (solveBy Geodetic.toEcef) nearObs 0 ⟨0, 0, 0⟩).isSome = true := by
  decide +kernel

theorem solve_gated_near :
    (∃ sol, solveBy Geodetic.toEcef nearObs 0 ⟨0, 0, 0⟩ = some sol ∧
      Gated Geodetic.toEcef nearObs sol ∧ SawReturned Geodetic.toEcef 0 ⟨0, 0, 0⟩ nearObs sol) ∧
    ∃ sol, robustBy (solveBy Geodetic.toEcef) nearObs 0 ⟨0, 0, 0⟩ = some sol ∧
      ∃ set ∈ tried nearObs, Gated Geodetic.toEcef set sol := by
  rcases solve_gated Geodetic.toEcef nearObs 0 ⟨0, 0, 0⟩ with ⟨hsolve, hrobust, hsaw⟩
  have hstill := still_near nearObs List.mem_cons_self
  rcases Option.isSome_iff_exists.mp solve_near.1 with ⟨sol, hsol⟩
  rcases Option.isSome_iff_exists.mp solve_near.2 with ⟨best, hbest⟩
  exact ⟨⟨sol, hsol, hsolve hstill sol hsol, (hsaw sol hsol).mpr hstill⟩,
    best, hbest, hrobust still_near best hbest⟩

end Near

section Systems

variable {K : Type} [Field K] [LinearOrder K] [FloorRing K] [Fns K]

/-- Arithmetic is exact. -/
local instance (priority := low) exactSystems : F64Fn K := F64.exactFn K

/-- The normal matrix of three directions, with one weight. -/
def gram (w : K) (v : Fin 3 → Fin 3 → K) (a b : Fin 3) : K :=
  w * ∑ i, v i a * v i b

theorem det3_gram (w : K) (v : Fin 3 → Fin 3 → K) : det3 (gram w v) = w ^ 3 * det3 v ^ 2 := by
  unfold det3 gram
  simp only [Fin.sum_univ_three]
  ring

/-- A system whose right side is a multiple of the last column. -/
theorem solve3_column (m : Fin 3 → Fin 3 → K) (z : K) (hne : det3 m ≠ 0)
    (hdet : ¬ F64.abs (det3 m) < lit (1 / 10 ^ 30)) :
    solve3 m (fun r => z * m r 2) = some fun k => if k = 2 then z else 0 := by
  unfold solve3
  simp only []
  rw [if_neg hdet]
  refine congrArg some (funext fun k => ?_)
  rw [div_eq_iff hne]
  fin_cases k <;> simp [det3] <;> ring

theorem invert3_isSome (m : Fin 3 → Fin 3 → K)
    (hdet : ¬ F64.abs (det3 m) < lit (1 / 10 ^ 30)) : (invert3 m).isSome = true := by
  unfold invert3 solve3
  simp only [if_neg hdet]
  rfl

theorem least_of_forall (x : K) (xs : List K) (h : ∀ y ∈ xs, x ≤ y) : least x xs = x := by
  unfold least
  refine List.foldlRecOn xs _ (motive := fun m : K => m = x) rfl ?_
  rintro m rfl y hy
  exact min_eq_left (h y hy)

end Systems

/-- Roots a given distance apart. -/
theorem sqrt_sub_sqrt_ge (a b s g : ℝ) (ha : 0 ≤ a) (hs : 0 < s) (hgap : g ≤ b - a)
    (hb : b ≤ s ^ 2) (hg : 0 ≤ g) : g / (2 * s) ≤ Real.sqrt b - Real.sqrt a := by
  have hab : a ≤ b := by linarith
  have hle := Real.sqrt_le_sqrt hab
  have hbs : Real.sqrt b ≤ s := Real.sqrt_le_iff.mpr ⟨hs.le, hb⟩
  have hsqa := Real.mul_self_sqrt ha
  have hsqb := Real.mul_self_sqrt (ha.trans hab)
  rw [div_le_iff₀ (by linarith)]
  -- The gap is the product of the sum and the difference of the roots.
  have hprod : (Real.sqrt b - Real.sqrt a) * (Real.sqrt b + Real.sqrt a) = b - a := by
    linear_combination hsqb - hsqa
  nlinarith [Real.sqrt_nonneg a]

/-- A gap of this size between the squares of distances on this scale is a
    centimeter between the distances. -/
theorem centimeter_le (a b : ℝ) (ha : 0 ≤ a) (hgap : 5000000 ≤ b - a) (hb : b ≤ 20000000 ^ 2) :
    1 / 100 ≤ Real.sqrt b - Real.sqrt a := by
  have h := sqrt_sub_sqrt_ge a b 20000000 5000000 ha (by norm_num) hgap hb (by norm_num)
  linarith

section Example

/-- Arithmetic is exact, and roots and angles are the true ones. -/
noncomputable local instance (priority := low) exactEarth : F64Fn ℝ := F64.exactFn ℝ

/-- Fourteen milliseconds of light farther than a solve assumes at first, and the
    error of the precise receivers besides. -/
def farM : ℚ := 200000 + 299792458 * (14 / 1000 + 5 / 1000000)

/-- A place at that distance from latitude and longitude zero. -/
noncomputable def farPlace (y z : ℚ) : Ecef ℝ :=
  ⟨lit (6378137 - farM / 3), lit (y * farM * 2 / 3), lit (z * farM * 2 / 3)⟩

/-- A precise receiver, early by five microseconds, and three others. -/
noncomputable def farAt (place : Ecef ℝ) : List (Observation ℝ) :=
  ⟨place, lit (100 - 5 / 1000000), lit (1 / 10 ^ 7)⟩ ::
    List.replicate 3 ⟨place, lit 100, lit (1 / 10 ^ 5)⟩

/-- Such receivers at three places. -/
noncomputable def farObs : List (Observation ℝ) :=
  farAt (farPlace 1 1) ++ farAt (farPlace (-1) 1) ++ farAt (farPlace 1 (-1))

/-- The first of the receivers, and the others. -/
noncomputable def farFirst : Observation ℝ :=
  ⟨farPlace 1 1, lit (100 - 5 / 1000000), lit (1 / 10 ^ 7)⟩

noncomputable def farRest : List (Observation ℝ) :=
  List.replicate 3 ⟨farPlace 1 1, lit 100, lit (1 / 10 ^ 5)⟩ ++ farAt (farPlace (-1) 1) ++
    farAt (farPlace 1 (-1))

theorem farObs_eq : farObs = farFirst :: farRest :=
  rfl

theorem lit_real (q : ℚ) : (lit q : ℝ) = q :=
  rfl

/-- A north step of the numeric Jacobian. -/
noncomputable def north : Ecef ℝ :=
  Geodetic.toEcef ⟨0 + lit (1 / 100000), 0, 0⟩

/-- An east step. -/
noncomputable def east : Ecef ℝ :=
  Geodetic.toEcef ⟨0, 0 + lit (1 / 100000) / F64.max (cos (toRadians 0)) (lit (2 / 10)), 0⟩

/-- The sine of the step, which is a hundred-thousandth of a degree. -/
theorem sin_step : (1 : ℝ) / 9000000 ≤ Real.sin (1 / 100000 * (Real.pi / 180)) := by
  have hpi := Real.pi_pos
  have h := Real.mul_le_sin (x := 1 / 100000 * (Real.pi / 180)) (by positivity) (by linarith)
  have heq : 2 / Real.pi * (1 / 100000 * (Real.pi / 180)) = 1 / 9000000 := by
    field_simp
    norm_num
  rwa [heq] at h

/-- The map over the reals. -/
theorem toEcef_real (lat lon alt : ℝ) : Geodetic.toEcef ⟨lat, lon, alt⟩ =
    { x := (wgs84A / Real.sqrt (1 - wgs84E2 * Real.sin (lat * (Real.pi / 180)) *
        Real.sin (lat * (Real.pi / 180))) + alt) * Real.cos (lat * (Real.pi / 180)) *
          Real.cos (lon * (Real.pi / 180))
      y := (wgs84A / Real.sqrt (1 - wgs84E2 * Real.sin (lat * (Real.pi / 180)) *
        Real.sin (lat * (Real.pi / 180))) + alt) * Real.cos (lat * (Real.pi / 180)) *
          Real.sin (lon * (Real.pi / 180))
      z := (wgs84A / Real.sqrt (1 - wgs84E2 * Real.sin (lat * (Real.pi / 180)) *
        Real.sin (lat * (Real.pi / 180))) * (1 - wgs84E2) + alt) *
          Real.sin (lat * (Real.pi / 180)) } := by
  have hone : (lit 1 : ℝ) = 1 := Rat.cast_one
  have hdeg : (lit 180 : ℝ) = 180 := Rat.cast_ofNat 180
  unfold Geodetic.toEcef toRadians
  rw [hone, hdeg]
  rfl

/-- The ellipsoid is almost a sphere. -/
theorem wgs84E2_mem : (0 : ℝ) ≤ wgs84E2 ∧ (wgs84E2 : ℝ) ≤ 1 / 100 := by
  have he : (wgs84E2 : ℝ) = ((1 / (298257223563 / 1000000000) *
      (2 - 1 / (298257223563 / 1000000000)) : ℚ) : ℝ) := by
    simp only [wgs84E2, wgs84F, lit_real]
    push_cast
    ring
  have hbound : ((1 / 100 : ℚ) : ℝ) = 1 / 100 := by norm_num
  rw [he, ← Rat.cast_zero, ← hbound, Rat.cast_le, Rat.cast_le]
  norm_num

/-- The north step leads off the equator, in the plane of the meridian. -/
theorem north_spec : north.y = 0 ∧ 1 / 2 ≤ north.z ∧ north.z ≤ 7000000 ∧ |north.x| ≤ 7000000 := by
  have hlat : (0 + lit (1 / 100000) : ℝ) = 1 / 100000 := by
    rw [lit_real]
    norm_num
  have hs := sin_step
  have hs1 := Real.sin_le_one (1 / 100000 * (Real.pi / 180))
  have hc := Real.abs_cos_le_one (1 / 100000 * (Real.pi / 180))
  rcases wgs84E2_mem with ⟨he0, he1⟩
  have ha : (wgs84A : ℝ) = 6378137 := Rat.cast_ofNat 6378137
  unfold north
  rw [hlat, toEcef_real]
  simp only [zero_mul, Real.sin_zero, Real.cos_zero, mul_zero, mul_one, add_zero, ha]
  generalize Real.sin (1 / 100000 * (Real.pi / 180)) = u at *
  generalize Real.cos (1 / 100000 * (Real.pi / 180)) = w at *
  have hu : 0 ≤ u := by linarith
  have hsq0 : 0 ≤ wgs84E2 * u * u := mul_nonneg (mul_nonneg he0 hu) hu
  have hsq1 : wgs84E2 * u * u ≤ 1 / 100 := by
    calc wgs84E2 * u * u ≤ wgs84E2 * 1 * 1 := by gcongr
      _ ≤ 1 / 100 := by linarith
  -- The radius across the meridian is about that of the equator.
  have hroot1 : Real.sqrt (1 - wgs84E2 * u * u) ≤ 1 := by
    rw [Real.sqrt_le_one]
    linarith
  have hroot0 : 99 / 100 ≤ Real.sqrt (1 - wgs84E2 * u * u) := by
    refine Real.le_sqrt_of_sq_le ?_
    linarith
  generalize Real.sqrt (1 - wgs84E2 * u * u) = r at *
  have hr : 0 < r := by linarith
  have hn0 : 6378137 ≤ 6378137 / r := by
    rw [le_div_iff₀ hr]
    linarith
  have hn1 : 6378137 / r ≤ 6500000 := by
    rw [div_le_iff₀ hr]
    linarith
  generalize 6378137 / r = n at *
  have hm0 : 6300000 ≤ n * (1 - wgs84E2) := by nlinarith
  have hm1 : n * (1 - wgs84E2) ≤ 6500000 := by nlinarith
  generalize n * (1 - wgs84E2) = m at *
  refine ⟨trivial, ?_, ?_, ?_⟩
  · nlinarith
  · nlinarith
  · rw [abs_mul, abs_of_nonneg (by linarith)]
    nlinarith [abs_nonneg w]

/-- At the equator a degree of longitude is as long as one of latitude. -/
theorem east_step : (lit (1 / 100000) / F64.max (cos (toRadians 0)) (lit (2 / 10)) : ℝ) =
    1 / 100000 := by
  have hcos : (F64Fn.cos (toRadians 0) : ℝ) = 1 := by
    have hrad : (toRadians 0 : ℝ) = 0 := zero_mul _
    rw [hrad]
    exact Real.cos_zero
  have hmax : (F64.max 1 (lit (2 / 10)) : ℝ) = 1 := by
    refine max_eq_left ?_
    rw [lit_real]
    norm_num
  rw [hcos, hmax, lit_real]
  norm_num

/-- The east step leads off the meridian, in the plane of the equator. -/
theorem east_spec : east.z = 0 ∧ 1 / 2 ≤ east.y ∧ east.y ≤ 7000000 ∧ |east.x| ≤ 7000000 := by
  have hlon := east_step
  have hs := sin_step
  have hs1 := Real.sin_le_one (1 / 100000 * (Real.pi / 180))
  have hc := Real.abs_cos_le_one (1 / 100000 * (Real.pi / 180))
  have ha : (wgs84A : ℝ) = 6378137 := Rat.cast_ofNat 6378137
  unfold east
  rw [hlon, zero_add, toEcef_real]
  simp only [zero_mul, Real.sin_zero, Real.cos_zero, mul_zero, mul_one, add_zero, ha, sub_zero,
    Real.sqrt_one, div_one]
  generalize Real.sin (1 / 100000 * (Real.pi / 180)) = u at *
  generalize Real.cos (1 / 100000 * (Real.pi / 180)) = w at *
  refine ⟨trivial, by linarith, by linarith, ?_⟩
  rw [abs_mul, abs_of_nonneg (by norm_num)]
  linarith

theorem dist_real (a b : Ecef ℝ) : a.dist b =
    Real.sqrt ((a.x - b.x) ^ 2 + (a.y - b.y) ^ 2 + (a.z - b.z) ^ 2) := by
  unfold Ecef.dist square
  rw [← sq, ← sq, ← sq]
  rfl

theorem farPlace_real (y z : ℚ) : farPlace y z =
    ⟨491193920857 / 100000, y * (146619779143 / 50000), z * (146619779143 / 50000)⟩ := by
  unfold farPlace farM
  simp only [lit_real]
  push_cast
  congr 1 <;> ring

/-- All receivers are at the distance. -/
theorem dist_far (y z : ℚ) (hy : y ^ 2 = 1) (hz : z ^ 2 = 1) :
    (Geodetic.toEcef (⟨0, 0, 0⟩ : Geodetic ℝ)).dist (farPlace y z) = farM := by
  have hy' : (y : ℝ) ^ 2 = 1 := by exact_mod_cast hy
  have hz' : (z : ℝ) ^ 2 = 1 := by exact_mod_cast hz
  have ha : (wgs84A : ℝ) = 6378137 := Rat.cast_ofNat 6378137
  have hfar : (farM : ℝ) = 439859337429 / 100000 := by
    norm_num [farM]
  rw [dist_real, farPlace_real, toEcef_real, hfar]
  simp only [zero_mul, Real.sin_zero, Real.cos_zero, mul_zero, mul_one, add_zero, ha, sub_zero,
    Real.sqrt_one, div_one]
  have hsq : ((6378137 : ℝ) - 491193920857 / 100000) ^ 2 +
      (0 - (y : ℝ) * (146619779143 / 50000)) ^ 2 + (0 - (z : ℝ) * (146619779143 / 50000)) ^ 2 =
        (439859337429 / 100000) ^ 2 := by
    linear_combination ((146619779143 / 50000 : ℝ) ^ 2) * hy' + (146619779143 / 50000) ^ 2 * hz'
  rw [hsq]
  exact Real.sqrt_sq (by norm_num)

/-- The north step leads as far from the first place as from the second, and
    farther from the third. -/
theorem north_dist : north.dist (farPlace (-1) 1) = north.dist (farPlace 1 1) ∧
    1 / 100 ≤ north.dist (farPlace 1 (-1)) - north.dist (farPlace 1 1) := by
  rcases north_spec with ⟨hy, hz0, hz1, hx⟩
  rcases abs_le.mp hx with ⟨hx0, hx1⟩
  simp only [dist_real, farPlace_real, hy]
  push_cast
  generalize north.x = x at *
  generalize north.z = z at *
  constructor
  · congr 1
    ring
  · refine centimeter_le _ _ (by positivity) ?_ ?_
    · nlinarith
    · nlinarith

/-- The east step leads as far from the first place as from the third, and farther
    from the second. -/
theorem east_dist : east.dist (farPlace 1 (-1)) = east.dist (farPlace 1 1) ∧
    1 / 100 ≤ east.dist (farPlace (-1) 1) - east.dist (farPlace 1 1) := by
  rcases east_spec with ⟨hz, hy0, hy1, hx⟩
  rcases abs_le.mp hx with ⟨hx0, hx1⟩
  simp only [dist_real, farPlace_real, hz]
  push_cast
  generalize east.x = x at *
  generalize east.y = y at *
  constructor
  · congr 1
    ring
  · refine centimeter_le _ _ (by positivity) ?_ ?_
    · nlinarith
    · nlinarith

/-- How the arrival time at a place goes with latitude, longitude and transmit
    time. -/
noncomputable def direction (place : Ecef ℝ) : Fin 3 → ℝ :=
  ![(north.dist place - farM) / 299792458 / (1 / 100000),
    (east.dist place - farM) / 299792458 / (1 / 100000), 1]

/-- The directions of the three places. -/
noncomputable def directions : Fin 3 → Fin 3 → ℝ :=
  ![direction (farPlace 1 1), direction (farPlace (-1) 1), direction (farPlace 1 (-1))]

/-- The row of a receiver at one of the places. -/
theorem row_far (y z : ℚ) (hy : y ^ 2 = 1) (hz : z ^ 2 = 1) (t : ℝ) (tS errS : ℚ)
    (herr : 1 / 1000000000 ≤ errS) :
    rowBy Geodetic.toEcef 0 0 0 t ⟨farPlace y z, lit tS, lit errS⟩ =
      (fun k => direction (farPlace y z) k / errS, (t + farM / 299792458 - tS) / errS) := by
  have hmax : (F64.max (lit errS) (lit (1 / 1000000000)) : ℝ) = errS := by
    refine max_eq_left ?_
    rw [lit_real, lit_real, Rat.cast_le]
    exact herr
  have hc : (cMps : ℝ) = 299792458 := Rat.cast_ofNat 299792458
  have hdeg : (lit (1 / 100000) : ℝ) = 1 / 100000 := by
    rw [lit_real]
    norm_num
  have hdt : (lit (1 / 10000000) : ℝ) = 1 / 10000000 := by
    rw [lit_real]
    norm_num
  have hne : (errS : ℝ) ≠ 0 := by
    rw [Rat.cast_ne_zero]
    linarith
  have hd := dist_far y z hy hz
  have hn : (Geodetic.toEcef ⟨0 + lit (1 / 100000), 0, 0⟩ : Ecef ℝ) = north := rfl
  have he : (Geodetic.toEcef ⟨0, 0 + 1 / 100000, 0⟩ : Ecef ℝ) = east := by
    unfold east
    rw [east_step]
  unfold rowBy weightedBy
  simp only [hmax, hc, east_step, hn, he, hd, lit_real tS]
  refine Prod.ext (funext fun k => ?_) rfl
  unfold direction
  simp only [hdeg, hdt]
  fin_cases k <;> simp only [Fin.zero_eta, Fin.mk_one, Fin.reduceFinMk, Matrix.cons_val]
  · field_simp
    ring
  · field_simp
    ring
  · field_simp
    ring

/-- The rows of the receivers at a place. -/
noncomputable def farRows (y z : ℚ) (t : ℝ) : List ((Fin 3 → ℝ) × ℝ) :=
  (fun k => direction (farPlace y z) k * lit (10 ^ 7),
    (t + farM / 299792458 - 100 + 1 / 200000) * lit (10 ^ 7)) ::
  List.replicate 3 (fun k => direction (farPlace y z) k * lit (10 ^ 5),
    (t + farM / 299792458 - 100) * lit (10 ^ 5))

theorem rows_farAt (y z : ℚ) (hy : y ^ 2 = 1) (hz : z ^ 2 = 1) (t : ℝ) :
    (farAt (farPlace y z)).map (rowBy Geodetic.toEcef 0 0 0 t) = farRows y z t := by
  -- Receivers at one place differ in their times and weights only.
  have hprecise := row_far y z hy hz t (100 - 5 / 1000000) (1 / 10 ^ 7) (by norm_num)
  have hother := row_far y z hy hz t 100 (1 / 10 ^ 5) (by norm_num)
  unfold farAt farRows
  rw [List.map_cons, List.map_replicate, hprecise, hother]
  simp only [lit_real]
  refine congrArg₂ List.cons ?_ (congrArg (List.replicate 3) ?_)
  · refine Prod.ext (funext fun k => ?_) ?_ <;> push_cast <;> ring
  · refine Prod.ext (funext fun k => ?_) ?_ <;> push_cast <;> ring

theorem jacobian_far (t : ℝ) : jacobianBy Geodetic.toEcef farObs 0 0 0 t =
    farRows 1 1 t ++ farRows (-1) 1 t ++ farRows 1 (-1) t := by
  have hone : (1 : ℚ) ^ 2 = 1 := one_pow 2
  have hneg : (-1 : ℚ) ^ 2 = 1 := by norm_num
  rw [jacobianBy_eq]
  unfold farObs
  rw [List.map_append, List.map_append, rows_farAt 1 1 hone hone t, rows_farAt (-1) 1 hneg hone t,
    rows_farAt 1 (-1) hone hneg t]

/-- Every place has the same weight. -/
theorem normalMatrix_far (t : ℝ) :
    normalMatrix (jacobianBy Geodetic.toEcef farObs 0 0 0 t) =
      gram (10 ^ 14 + 3 * 10 ^ 10) directions := by
  have hzero : (lit 0 : ℝ) = 0 := Rat.cast_zero
  rw [jacobian_far]
  funext a b
  unfold normalMatrix gram directions farRows
  simp only [List.replicate, List.cons_append, List.nil_append, List.foldl_cons, List.foldl_nil,
    hzero, lit_real, Fin.sum_univ_three, Matrix.cons_val]
  push_cast
  ring

/-- The error of the precise receivers, by their part of the weight. The last step
    takes it away. -/
noncomputable def farLast : ℝ :=
  lit (1 / 200000 * (10 ^ 14 / (10 ^ 14 + 3 * 10 ^ 10)))

theorem farLast_eq : farLast = 1 / 200000 * (10 ^ 14 / (10 ^ 14 + 3 * 10 ^ 10)) := by
  unfold farLast
  rw [lit_real]
  push_cast
  ring

/-- The mean error of the receivers, the precise ones counted for ten thousand. -/
noncomputable def farError (t : ℝ) : ℝ :=
  t + farM / 299792458 - 100 + farLast

/-- A change of the transmit time takes away all there is of it. -/
theorem normalVector_far (t : ℝ) :
    normalVector (jacobianBy Geodetic.toEcef farObs 0 0 0 t) =
      fun r => -farError t * gram (10 ^ 14 + 3 * 10 ^ 10) directions r 2 := by
  have hzero : (lit 0 : ℝ) = 0 := Rat.cast_zero
  have htime : ∀ place, direction place 2 = 1 := fun _ => rfl
  rw [jacobian_far]
  funext a
  -- The precise and the imprecise receivers of a place have the same direction, so
  -- their errors only count with their weights.
  unfold normalVector gram directions farError farRows
  simp only [List.replicate, List.cons_append, List.nil_append, List.foldl_cons, List.foldl_nil,
    hzero, lit_real, Fin.sum_univ_three, Matrix.cons_val, htime, farLast_eq]
  push_cast
  ring

/-- The three places are in three directions. -/
theorem det3_far : det3 (gram (10 ^ 14 + 3 * 10 ^ 10) directions) ≠ 0 ∧
    ¬ F64.abs (det3 (gram (10 ^ 14 + 3 * 10 ^ 10) directions)) < lit (1 / 10 ^ 30) := by
  rcases north_dist with ⟨hn, hnorth⟩
  rcases east_dist with ⟨he, heast⟩
  -- A step tells the first place from one of the others only.
  have hdet : det3 directions = -((north.dist (farPlace 1 (-1)) - north.dist (farPlace 1 1)) *
      (east.dist (farPlace (-1) 1) - east.dist (farPlace 1 1)) /
        (299792458 / 100000) ^ 2) := by
    unfold det3 directions direction
    simp only [Matrix.cons_val, hn, he]
    ring
  generalize north.dist (farPlace 1 (-1)) - north.dist (farPlace 1 1) = u at *
  generalize east.dist (farPlace (-1) 1) - east.dist (farPlace 1 1) = v at *
  have huv : 1 / 10000 ≤ u * v := by nlinarith
  -- A hundredth of a meter is enough, with weights as large as these.
  have hlarge : 1 ≤ det3 (gram (10 ^ 14 + 3 * 10 ^ 10) directions) := by
    rw [det3_gram, hdet]
    have hsq : 1 / 10 ^ 8 ≤ (u * v) ^ 2 := by nlinarith
    calc (1 : ℝ) ≤ (10 ^ 14 + 3 * 10 ^ 10) ^ 3 * ((1 / 10 ^ 8) / (299792458 / 100000) ^ 4) := by
          norm_num
      _ ≤ (10 ^ 14 + 3 * 10 ^ 10) ^ 3 * ((u * v) ^ 2 / (299792458 / 100000) ^ 4) := by gcongr
      _ = (10 ^ 14 + 3 * 10 ^ 10) ^ 3 * (-(u * v / (299792458 / 100000) ^ 2)) ^ 2 := by ring
  generalize det3 (gram (10 ^ 14 + 3 * 10 ^ 10) directions) = d at *
  refine ⟨by linarith, ?_⟩
  have habs : F64.abs d = d := if_neg (by linarith)
  rw [habs, lit_real, not_lt]
  push_cast
  linarith

/-- A step from latitude and longitude zero is one in time. -/
theorem step_far (t st rms : ℝ) (iters : Nat)
    (hst : clamp (lit (-1 / 1000)) (lit (1 / 1000)) (-farError t) = st)
    (hlong : ¬ F64.abs st < lit (1 / 10 ^ 12)) :
    newtonStepBy Geodetic.toEcef farObs 0 ⟨0, 0, t, rms, iters⟩ =
      some (⟨0, 0, t + st, rmsOf (residualsBy Geodetic.toEcef farObs 0 0 0 t), iters + 1⟩,
        false) := by
  have hclamp : (clamp (lit (-1)) (lit 1) 0 : ℝ) = 0 := by
    unfold clamp
    rw [if_neg (by rw [lit_real]; norm_num), if_neg (by rw [lit_real]; norm_num)]
  unfold newtonStepBy
  simp only [normalMatrix_far, normalVector_far, solve3_column _ _ det3_far.1 det3_far.2,
    Fin.reduceEq, if_false, if_true, hclamp, hst, hlong, and_false, decide_false, add_zero]

/-- The transmit time at which the imprecise receivers are off by `x`. -/
noncomputable def farTime (x : ℝ) : ℝ :=
  100 - farM / 299792458 + x

theorem residuals_far (x : ℝ) : residualsBy Geodetic.toEcef farObs 0 0 0 (farTime x) =
    (List.replicate 3 ((x + 1 / 200000) :: List.replicate 3 x)).flatten := by
  have hc : (cMps : ℝ) = 299792458 := Rat.cast_ofNat 299792458
  have hat : ∀ y z : ℚ, y ^ 2 = 1 → z ^ 2 = 1 →
      ((farAt (farPlace y z)).map fun o => (farTime x +
        (Geodetic.toEcef (⟨0, 0, 0⟩ : Geodetic ℝ)).dist o.rx / cMps) - o.tS) =
        (x + 1 / 200000) :: List.replicate 3 x := by
    intro y z hy hz
    unfold farAt farTime
    simp only [List.map_cons, List.map_replicate, dist_far y z hy hz, hc, lit_real]
    refine congrArg₂ List.cons ?_ (congrArg (List.replicate 3) ?_) <;> push_cast <;> ring
  unfold residualsBy farObs
  rw [List.map_append, List.map_append, hat 1 1 (by norm_num) (by norm_num),
    hat (-1) 1 (by norm_num) (by norm_num), hat 1 (-1) (by norm_num) (by norm_num)]
  rfl

theorem rms_far (x : ℝ) : rmsOf (residualsBy Geodetic.toEcef farObs 0 0 0 (farTime x)) =
    Real.sqrt (((x + 1 / 200000) ^ 2 + 3 * x ^ 2) / 4) := by
  have hzero : (lit 0 : ℝ) = 0 := Rat.cast_zero
  rw [residuals_far]
  unfold rmsOf sum
  change Real.sqrt _ = _
  congr 1
  simp only [List.replicate, List.flatten_cons, List.flatten_nil, List.cons_append,
    List.nil_append, List.append_nil, List.map_cons, List.map_nil, List.foldl_cons, List.foldl_nil,
    List.length_cons, List.length_nil, zero_add, Nat.reduceAdd, hzero, square]
  have hcount : (lit ((12 : Nat) : ℚ) : ℝ) = 12 := Rat.cast_ofNat 12
  rw [hcount]
  ring

/-- The steps are a millisecond until the last, which takes the error away. -/
theorem newton_far (k iters : Nat) (rms : ℝ) :
    newtonBy Geodetic.toEcef farObs 0 (k + 1) ⟨0, 0, farTime (k / 1000), rms, iters⟩ =
      some ⟨0, 0, farTime (-farLast), 1 / 400000, iters + k + 1⟩ := by
  have herror : ∀ x, farError (farTime x) = x + farLast := by
    intro x
    unfold farError farTime
    ring
  have hlast : (1 : ℝ) / 300000 ≤ farLast ∧ farLast ≤ 1 / 200000 := by
    rw [farLast_eq]
    constructor <;> norm_num
  have hmicro : ((1 / 10 ^ 12 : ℚ) : ℝ) = 1 / 10 ^ 12 := by norm_num
  have hmilli : ((1 / 1000 : ℚ) : ℝ) = 1 / 1000 := by norm_num
  have hneg : ((-1 / 1000 : ℚ) : ℝ) = -(1 / 1000) := by norm_num
  induction k generalizing iters rms with
  | zero =>
      have hst : clamp (lit (-1 / 1000)) (lit (1 / 1000)) (-farError (farTime 0)) = -farLast := by
        unfold clamp
        rw [lit_real, lit_real, hmilli, hneg, herror, zero_add, if_neg (by linarith),
          if_neg (by linarith)]
      -- The step is not small, so it is the count that ends the loop.
      have hlong : ¬ F64.abs (-farLast) < lit (1 / 10 ^ 12) := by
        have habs : F64.abs (-farLast) = farLast := by
          refine (abs_exact _).trans ?_
          rw [abs_neg, abs_of_pos (by linarith)]
        rw [habs, lit_real, hmicro, not_lt]
        linarith
      have hrms : rmsOf (residualsBy Geodetic.toEcef farObs 0 0 0 (farTime 0)) = 1 / 400000 := by
        rw [rms_far]
        have hsq : (((0 : ℝ) + 1 / 200000) ^ 2 + 3 * 0 ^ 2) / 4 = (1 / 400000) ^ 2 := by norm_num
        rw [hsq]
        exact Real.sqrt_sq (by norm_num)
      have htime : farTime 0 + -farLast = farTime (-farLast) := by
        unfold farTime
        ring
      rw [Nat.cast_zero, zero_div, newtonBy, step_far _ _ rms iters hst hlong, hrms, htime]
      rfl
  | succ k ih =>
      -- Milliseconds are left, so the step is cut.
      have hk : (0 : ℝ) ≤ k := Nat.cast_nonneg k
      have hst : clamp (lit (-1 / 1000)) (lit (1 / 1000))
          (-farError (farTime ((k + 1 : Nat) / 1000))) = -(1 / 1000) := by
        unfold clamp
        rw [lit_real, lit_real, hmilli, hneg, herror]
        push_cast
        rw [if_pos (by linarith)]
      have hlong : ¬ F64.abs (-(1 / 1000) : ℝ) < lit (1 / 10 ^ 12) := by
        have habs : F64.abs (-(1 / 1000) : ℝ) = 1 / 1000 := by
          refine (abs_exact _).trans ?_
          rw [abs_neg, abs_of_pos (by norm_num)]
        rw [habs, lit_real, hmicro, not_lt]
        norm_num
      have htime : farTime ((k + 1 : Nat) / 1000) + -(1 / 1000) = farTime (k / 1000) := by
        unfold farTime
        push_cast
        ring
      rw [newtonBy, step_far _ _ rms iters hst hlong, htime]
      simp only [Bool.false_eq_true, if_false]
      rw [ih]
      have hiters : iters + 1 + k + 1 = iters + (k + 1) + 1 := by omega
      rw [hiters]

/-- The loop starts fourteen steps and the error of the precise receivers early. -/
theorem start_far : startOf ⟨0, 0, 0⟩ farFirst farRest =
    ⟨0, 0, farTime ((14 : Nat) / 1000), 0, 0⟩ := by
  have hc : (cMps : ℝ) = 299792458 := Rat.cast_ofNat 299792458
  have hzero : (lit 0 : ℝ) = 0 := Rat.cast_zero
  have hle : ∀ place : Ecef ℝ, ∀ o ∈ farAt place, farFirst.tS ≤ o.tS := by
    intro place o ho
    rcases List.mem_cons.mp ho with rfl | ho
    · exact le_refl _
    · rw [List.eq_of_mem_replicate ho]
      change (lit (100 - 5 / 1000000) : ℝ) ≤ lit 100
      rw [lit_real, lit_real, Rat.cast_le]
      norm_num
  -- The precise receivers are the earliest.
  have hleast : least farFirst.tS (farRest.map Observation.tS) = farFirst.tS := by
    refine least_of_forall _ _ fun y hy => ?_
    rcases List.mem_map.mp hy with ⟨o, ho, rfl⟩
    rcases List.mem_append.mp ho with ho | ho
    · rcases List.mem_append.mp ho with ho | ho
      · exact hle (farPlace 1 1) o (List.mem_cons_of_mem _ ho)
      · exact hle _ o ho
    · exact hle _ o ho
  have htime : (farFirst.tS : ℝ) - lit 200000 / cMps = farTime ((14 : Nat) / 1000) := by
    unfold farFirst farTime farM
    simp only [hc, lit_real]
    push_cast
    ring
  unfold startOf
  rw [hleast, htime, hzero]

/-- Past the gate, at the last of its steps, the solve returns a point that is not
    credible. -/
theorem farObs_ungated :
    ∃ sol, Solve.solve farObs (0 : ℝ) ⟨0, 0, 0⟩ = some sol ∧ sol.iterations = maxIter ∧
      sol.rmsS ≤ maxRmsS ∧ maxRmsS < rmsOf sol.residualsS ∧ sol.rmsS ≠ rmsOf sol.residualsS := by
  have hgate : (maxRmsS : ℝ) = 3 / 1000000 := by
    unfold maxRmsS
    rw [lit_real]
    norm_num
  have hlow : (1 / 400000 : ℝ) ≤ maxRmsS := by
    rw [hgate]
    norm_num
  -- Before the last step three receivers are off, after it the nine others.
  have hrms : maxRmsS < rmsOf (residualsBy Geodetic.toEcef farObs 0 0 0 (farTime (-farLast))) := by
    rw [hgate, rms_far]
    refine Real.lt_sqrt_of_sq_lt ?_
    rw [farLast_eq]
    norm_num
  have herr : (errEstBy Geodetic.toEcef farObs 0 0 0 (farTime (-farLast))).isSome = true := by
    rcases Option.isSome_iff_exists.mp (invert3_isSome _ det3_far.2) with ⟨cov, hcov⟩
    unfold errEstBy
    simp only [normalMatrix_far, hcov]
    rfl
  rcases Option.isSome_iff_exists.mp herr with ⟨err, herr⟩
  have hanswer : answerBy Geodetic.toEcef farObs 0 ⟨0, 0, farTime (-farLast), 1 / 400000, maxIter⟩ =
      some { pos := ⟨0, 0, 0⟩, rmsS := 1 / 400000, errEstM := err, iterations := maxIter
             tTx := farTime (-farLast)
             residualsS := residualsBy Geodetic.toEcef farObs 0 0 0 (farTime (-farLast)) } := by
    unfold answerBy
    rw [if_neg, herr]
    rintro (hlat | hlon | hwide)
    · exact Bool.noConfusion hlat
    · exact Bool.noConfusion hlon
    · exact not_lt.mpr hlow hwide
  -- Fourteen steps are cut short, and the fifteenth is the last there is.
  have hloop : newtonBy Geodetic.toEcef farObs 0 maxIter (startOf ⟨0, 0, 0⟩ farFirst farRest) =
      some ⟨0, 0, farTime (-farLast), 1 / 400000, maxIter⟩ := by
    rw [start_far]
    exact newton_far 14 0 0
  have henough : ¬ (farFirst :: farRest).length < 4 := by
    simp only [farRest, farAt, List.length_cons, List.length_append, List.length_replicate]
    omega
  have hsol := solveBy_cons Geodetic.toEcef farFirst farRest 0 ⟨0, 0, 0⟩ henough
  rw [← farObs_eq, hloop, Option.bind_some, hanswer, solveBy_toEcef] at hsol
  exact ⟨_, hsol, rfl, hlow, hrms, (lt_of_le_of_lt hlow hrms).ne⟩

end Example

end Solve

end Server

end MlatBench
