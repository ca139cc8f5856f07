import Mathlib.Data.Fin.VecNotation
import MlatBench.Core.Group

/-!
# The Residuals of a Solution

What a solution consists of: the residuals at its position, and the root mean
square the loop has computed before it took its last step.

The solve is that over any map from geodetic to cartesian coordinates, and the
retry over any solve; the source's are those of `Geodetic.toEcef`.

## Main definitions

* `Solve.residualAt`: The residual of an observation at a solution.
* `Solve.solveBy`, `Solve.robustBy`: The solve over a map, the retry over a solve.
* `Solve.rowBy`: A row of the Jacobian.
* `Solve.lastPoint`, `Solve.LastStep`: The last step of the loop.

## Theorems

* `solveBy_toEcef`, `robustBy_solve`: The solve of the source.
* `jacobianBy_eq`: The Jacobian has a row for each observation.
* `robustBy_cases`: Whose answer the retry gives.
* `newtonBy_eq`: The loop ends with one step from the point before.
* `LastStep.solved`: What the last step is.
* `solveBy_eq_some`, `answerBy_eq_some`: What a solution consists of.
-/

namespace MlatBench

namespace Server

open Library F64 F64Fn

namespace Solve

section Map

variable {F : Type} [F64Fn F] (toEcef : Geodetic F → Ecef F)

/-- The residual of an observation at a solution. -/
def residualAt (sol : Solution F) (o : Observation F) : F :=
  (sol.tTx + (toEcef sol.pos).dist o.rx / cMps) - o.tS

/-- Where the loop starts. -/
def startOf (init : Geodetic F) (o : Observation F) (rest : List (Observation F)) : Point F :=
  { lat := init.latDeg, lon := init.lonDeg
    tTx := least o.tS (rest.map Observation.tS) - lit 200000 / cMps, rms := lit 0, iters := 0 }

/-- The gates and the answer. -/
def answerBy (obs : List (Observation F)) (altM : F) (p : Point F) : Option (Solution F) :=
  if isFinite p.lat = false ∨ isFinite p.lon = false ∨ maxRmsS < p.rms then none
  else
    match errEstBy toEcef obs p.lat p.lon altM p.tTx with
    | none => none
    | some err =>
      some { pos := ⟨p.lat, p.lon, altM⟩, rmsS := p.rms, errEstM := err,
             iterations := p.iters, tTx := p.tTx
             residualsS := residualsBy toEcef obs p.lat p.lon altM p.tTx }

/-- The solve over a map. -/
def solveBy : Solver F := fun obs altM init =>
  match obs with
  | [] => none
  | o :: rest =>
    if (o :: rest).length < 4 then none
    else
      match newtonBy toEcef (o :: rest) altM maxIter (startOf init o rest) with
      | none => none
      | some p => answerBy toEcef (o :: rest) altM p

/-- The retry over a solve. -/
def robustBy (solve : Solver F) : Solver F := fun obs altM init =>
  let full := solve obs altM init
  let trigger := match full with
    | some s => decide (lit (5 / 10000000) < s.rmsS)
    | none => true
  if trigger = false ∨ obs.length < 5 then full
  else
    (List.range obs.length).foldl (fun best skip =>
      match solve (obs.eraseIdx skip) altM init with
      | none => best
      | some s =>
        match best with
        | none => some s
        | some b => if s.rmsS < b.rmsS then some s else some b) full

/-- The residual of an observation by its expected error. -/
def weightedBy (lat lon altM tTx : F) (o : Observation F) : F :=
  ((tTx + (toEcef ⟨lat, lon, altM⟩).dist o.rx / cMps) - o.tS) /
    F64.max o.errS (lit (1 / 1000000000))

/-- The row of the Jacobian for an observation, and its weighted residual. -/
def rowBy (lat lon altM tTx : F) (o : Observation F) : (Fin 3 → F) × F :=
  let r := weightedBy toEcef lat lon altM tTx o
  let dlat : F := lit (1 / 100000)
  let dlon := lit (1 / 100000) / F64.max (cos (toRadians lat)) (lit (2 / 10))
  let dt : F := lit (1 / 10000000)
  (![(weightedBy toEcef (lat + dlat) lon altM tTx o - r) / dlat,
    (weightedBy toEcef lat (lon + dlon) altM tTx o - r) / dlon,
    (weightedBy toEcef lat lon altM (tTx + dt) o - r) / dt], r)

/-- The Jacobian has a row for each observation. -/
theorem jacobianBy_eq (obs : List (Observation F)) (lat lon altM tTx : F) :
    jacobianBy toEcef obs lat lon altM tTx = obs.map (rowBy toEcef lat lon altM tTx) := by
  -- The four lists of residuals are each made from the observations in order.
  have hweighted : ∀ lat lon tTx : F, residualsWBy toEcef obs lat lon altM tTx =
      obs.map (weightedBy toEcef lat lon altM tTx) := by
    intro lat lon tTx
    unfold residualsWBy residualsBy
    rw [List.zipWith_map_left, List.zipWith_self]
    rfl
  unfold jacobianBy
  simp only [hweighted, List.zip_map', List.map_map]
  refine List.map_congr_left fun o _ => Prod.ext (funext fun k => ?_) rfl
  match k with
  | 0 => rfl
  | 1 => rfl
  | 2 => rfl

/-- The solve of the source is that over the ellipsoid. -/
theorem solveBy_toEcef : solveBy Geodetic.toEcef = (Solve.solve : Solver F) := by
  funext obs altM init
  cases obs with
  | nil => rfl
  | cons o rest => rfl

theorem robustBy_solve : robustBy Solve.solve = (Solve.solveRobust : Solver F) :=
  rfl

/-- The answer of the retry is that of the full set or of one without a receiver,
    and without the fifth it is that of the full set. -/
theorem robustBy_cases (solve : Solver F) (obs : List (Observation F)) (altM : F)
    (init : Geodetic F) :
    robustBy solve obs altM init = solve obs altM init ∨
      ∃ skip < obs.length, 5 ≤ obs.length ∧ (solve (obs.eraseIdx skip) altM init).isSome = true ∧
        robustBy solve obs altM init = solve (obs.eraseIdx skip) altM init := by
  unfold robustBy
  simp only []
  split_ifs with h
  · exact Or.inl rfl
  · have hmany : 5 ≤ obs.length := Nat.le_of_not_lt fun hfew => h (Or.inr hfew)
    refine List.foldlRecOn (List.range obs.length) _ (motive := fun best : Option (Solution F) =>
      best = solve obs altM init ∨ ∃ skip < obs.length, 5 ≤ obs.length ∧
        (solve (obs.eraseIdx skip) altM init).isSome = true ∧
        best = solve (obs.eraseIdx skip) altM init) (Or.inl rfl) ?_
    intro best ih skip hskip
    -- Every set tried keeps the best so far or takes its place.
    cases hsol : solve (obs.eraseIdx skip) altM init with
    | none => exact ih
    | some s =>
        have htaken : some s = solve obs altM init ∨ ∃ skip < obs.length, 5 ≤ obs.length ∧
            (solve (obs.eraseIdx skip) altM init).isSome = true ∧
            some s = solve (obs.eraseIdx skip) altM init := by
          refine Or.inr ⟨skip, List.mem_range.mp hskip, hmany, ?_, hsol.symm⟩
          rw [hsol]
          rfl
        cases best with
        | none => exact htaken
        | some b =>
            simp only []
            split_ifs
            · exact htaken
            · exact ih

/-- The point before the last step of the loop: the first from which the step is
    small, or the one the last of the steps is taken from. -/
def lastBy (obs : List (Observation F)) (altM : F) : Nat → Point F → Option (Point F)
  | 0, _ => none
  | fuel + 1, p =>
      match newtonStepBy toEcef obs altM p with
      | none => none
      | some (next, small) =>
        if small = true ∨ fuel = 0 then some p else lastBy obs altM fuel next

/-- The loop ends with one step from the point before. -/
theorem newtonBy_eq (obs : List (Observation F)) (altM : F) (fuel : Nat) (p : Point F) :
    newtonBy toEcef obs altM (fuel + 1) p =
      (lastBy toEcef obs altM (fuel + 1) p).bind fun q =>
        (newtonStepBy toEcef obs altM q).map Prod.fst := by
  induction fuel generalizing p with
  | zero =>
      unfold newtonBy lastBy
      cases hstep : newtonStepBy toEcef obs altM p with
      | none => rfl
      | some step =>
          simp only [or_true, if_true, Option.bind_some, hstep, Option.map_some]
          unfold newtonBy
          exact ite_self _
  | succ fuel ih =>
      rw [newtonBy, lastBy]
      cases hstep : newtonStepBy toEcef obs altM p with
      | none => rfl
      | some step =>
          simp only []
          -- A small step is the last one, any other is followed by more.
          by_cases hsmall : step.2 = true
          · rw [if_pos hsmall, if_pos (Or.inl hsmall), Option.bind_some, hstep, Option.map_some]
          · have hmore : ¬ (step.2 = true ∨ fuel + 1 = 0) :=
              not_or.mpr ⟨hsmall, Nat.succ_ne_zero fuel⟩
            rw [if_neg hsmall, if_neg hmore]
            exact ih step.1

/-- The point the solve takes its last step from. There is none for fewer than four
    observations, and none if a step on the way, or this one, has a singular matrix. -/
def lastPoint (altM : F) (init : Geodetic F) : List (Observation F) → Option (Point F)
  | [] => none
  | o :: rest =>
    if (o :: rest).length < 4 then none
    else lastBy toEcef (o :: rest) altM maxIter (startOf init o rest)

/-- The last step of the loop goes from one point to another. -/
structure LastStep (obs : List (Observation F)) (altM : F) (init : Geodetic F) (q p : Point F) :
    Prop where
  start : lastPoint toEcef altM init obs = some q
  step : (newtonStepBy toEcef obs altM q).map Prod.fst = some p

/-- The solve is the loop and the answer. -/
theorem solveBy_cons (o : Observation F) (rest : List (Observation F)) (altM : F)
    (init : Geodetic F) (h : ¬ (o :: rest).length < 4) : solveBy toEcef (o :: rest) altM init =
      (newtonBy toEcef (o :: rest) altM maxIter (startOf init o rest)).bind
        (answerBy toEcef (o :: rest) altM) := by
  unfold solveBy
  simp only [if_neg h]
  cases newtonBy toEcef (o :: rest) altM maxIter (startOf init o rest) <;> rfl

/-- A solution is the answer at the point after the last step. -/
theorem solveBy_eq_some (obs : List (Observation F)) (altM : F) (init : Geodetic F)
    (sol : Solution F) : solveBy toEcef obs altM init = some sol ↔
      ∃ q p, LastStep toEcef obs altM init q p ∧ answerBy toEcef obs altM p = some sol := by
  cases obs with
  | nil =>
      refine iff_of_false (fun h => Option.some_ne_none sol h.symm) ?_
      rintro ⟨q, p, ⟨h, _⟩, _⟩
      exact Option.some_ne_none q h.symm
  | cons o rest =>
      by_cases hfew : (o :: rest).length < 4
      · unfold solveBy
        simp only [if_pos hfew]
        refine iff_of_false (fun h => Option.some_ne_none sol h.symm) ?_
        rintro ⟨q, p, ⟨h, _⟩, _⟩
        rw [lastPoint, if_pos hfew] at h
        exact Option.some_ne_none q h.symm
      · have hlastPoint : lastPoint toEcef altM init (o :: rest) =
            lastBy toEcef (o :: rest) altM maxIter (startOf init o rest) := if_neg hfew
        have hloop : newtonBy toEcef (o :: rest) altM maxIter (startOf init o rest) = _ :=
          newtonBy_eq toEcef (o :: rest) altM 14 (startOf init o rest)
        rw [solveBy_cons toEcef o rest altM init hfew, hloop, Option.bind_eq_some_iff]
        constructor
        · rintro ⟨p, hp, hans⟩
          rcases Option.bind_eq_some_iff.mp hp with ⟨q, hlast, hstep⟩
          exact ⟨q, p, ⟨hlastPoint.trans hlast, hstep⟩, hans⟩
        · rintro ⟨q, p, ⟨hlast, hstep⟩, hans⟩
          exact ⟨p, Option.bind_eq_some_iff.mpr ⟨q, hlastPoint.symm.trans hlast, hstep⟩, hans⟩

/-- A step is the solution of the normal equations, cut, and comes with the root
    mean square of the point it starts from. -/
theorem LastStep.solved {obs : List (Observation F)} {altM : F} {init : Geodetic F}
    {q p : Point F} (h : LastStep toEcef obs altM init q p) :
    ∃ step, solve3 (normalMatrix (jacobianBy toEcef obs q.lat q.lon altM q.tTx))
        (normalVector (jacobianBy toEcef obs q.lat q.lon altM q.tTx)) = some step ∧
      p.lat = q.lat + clamp (lit (-1)) (lit 1) (step 0) ∧
      p.lon = q.lon + clamp (lit (-1)) (lit 1) (step 1) ∧
      p.tTx = q.tTx + clamp (lit (-1 / 1000)) (lit (1 / 1000)) (step 2) ∧
      p.rms = rmsOf (residualsBy toEcef obs q.lat q.lon altM q.tTx) := by
  rcases Option.map_eq_some_iff.mp h.step with ⟨out, hout, rfl⟩
  unfold newtonStepBy at hout
  simp only [] at hout
  split at hout
  · exact absurd hout.symm (Option.some_ne_none out)
  · next step hstep =>
      rw [← Option.some.inj hout]
      exact ⟨step, hstep, rfl, rfl, rfl, rfl⟩

/-- What a solution consists of. -/
theorem answerBy_eq_some (obs : List (Observation F)) (altM : F) (p : Point F) (sol : Solution F)
    (h : answerBy toEcef obs altM p = some sol) :
    ¬ maxRmsS < p.rms ∧ (errEstBy toEcef obs p.lat p.lon altM p.tTx).isSome = true ∧
      sol.pos = ⟨p.lat, p.lon, altM⟩ ∧ sol.tTx = p.tTx ∧ sol.rmsS = p.rms ∧
      sol.residualsS = residualsBy toEcef obs p.lat p.lon altM p.tTx ∧
      sol.residualsS = obs.map (residualAt toEcef sol) := by
  unfold answerBy at h
  split_ifs at h with hgate
  rw [not_or, not_or] at hgate
  cases herr : errEstBy toEcef obs p.lat p.lon altM p.tTx with
  | none =>
      rw [herr] at h
      exact absurd h.symm (Option.some_ne_none sol)
  | some err =>
      rw [herr] at h
      rw [← Option.some.inj h]
      exact ⟨hgate.2.2, rfl, rfl, rfl, rfl, rfl, rfl⟩

end Map

end Solve

end Server

end MlatBench
