import MlatBench.Core.Geo

/-!
# The Position Solve

Gauss-Newton on latitude, longitude and transmit time, the altitude being
known. The step comes from a numeric Jacobian and Cramer's rule; the residuals
are weighted by the expected timing errors for the step and unweighted for the
credibility gate, which looks at the point before the last step. A bad fit is
tried again without each of the receivers.

The residuals, the step and the error estimate take the map from geodetic to
cartesian coordinates as an argument; the solve has them at `Geodetic.toEcef`.

Infinite starting values of the source are overwritten before they are read and
do not appear here.

## Main definitions

* `Observation`, `Solution`: What goes in and comes out.
* `Solve.solve3`, `Solve.invert3`: Three by three systems.
* `Solve.residualsBy`, `Solve.residualsWBy`: Unweighted and weighted residuals.
* `Solve.newtonBy`, `Solve.errEstBy`: The loop and the error estimate over a map.
* `Solve.solve`: The solve.
* `Solve.solveRobust`: With one receiver left out where that helps.
-/

namespace MlatBench

namespace Server

open Library F64 F64Fn

/-- One receiver's arrival time in the common timebase. -/
structure Observation (F : Type) where
  rx : Ecef F
  tS : F
  errS : F
deriving DecidableEq

/-- A solved position. -/
structure Solution (F : Type) where
  pos : Geodetic F
  rmsS : F
  errEstM : F
  iterations : Nat
  tTx : F
  residualsS : List F
deriving DecidableEq

namespace Solve

variable {F : Type} [F64Fn F]

def maxIter : Nat := 15

def maxRmsS : F := lit (3 / 1000000)

def rmsOf (r : List F) : F :=
  sqrt (sum (r.map square) / lit r.length)

def det3 (m : Fin 3 → Fin 3 → F) : F :=
  m 0 0 * (m 1 1 * m 2 2 - m 1 2 * m 2 1) - m 0 1 * (m 1 0 * m 2 2 - m 1 2 * m 2 0)
    + m 0 2 * (m 1 0 * m 2 1 - m 1 1 * m 2 0)

/-- Cramer's rule. None if the determinant nearly vanishes. -/
def solve3 (a : Fin 3 → Fin 3 → F) (b : Fin 3 → F) : Option (Fin 3 → F) :=
  let det := det3 a
  if F64.abs det < lit (1 / 10 ^ 30) then none
  else some fun k => det3 (fun row col => if col = k then b row else a row col) / det

def invert3 (a : Fin 3 → Fin 3 → F) : Option (Fin 3 → Fin 3 → F) :=
  let unit := fun (k r : Fin 3) => if r = k then (lit 1 : F) else lit 0
  match solve3 a (unit 0), solve3 a (unit 1), solve3 a (unit 2) with
  | some c0, some c1, some c2 => some fun r k => if k = 0 then c0 r else if k = 1 then c1 r else c2 r
  | _, _, _ => none

def normalMatrix (rows : List ((Fin 3 → F) × F)) (a b : Fin 3) : F :=
  rows.foldl (fun acc j => acc + j.1 a * j.1 b) (lit 0)

def normalVector (rows : List ((Fin 3 → F) × F)) (a : Fin 3) : F :=
  rows.foldl (fun acc j => acc - j.1 a * j.2) (lit 0)

/-- A point of the iteration, with the residual of the point before it. -/
structure Point (F : Type) where
  lat : F
  lon : F
  tTx : F
  rms : F
  iters : Nat

section Map

variable (toEcef : Geodetic F → Ecef F)

/-- Predicted minus measured arrival times. -/
def residualsBy (obs : List (Observation F)) (lat lon altM tTx : F) : List F :=
  let p := toEcef (Geodetic.mk lat lon altM)
  obs.map fun o => (tTx + p.dist o.rx / cMps) - o.tS

def residualsWBy (obs : List (Observation F)) (lat lon altM tTx : F) : List F :=
  List.zipWith (fun r o => r / F64.max o.errS (lit (1 / 1000000000)))
    (residualsBy toEcef obs lat lon altM tTx) obs

/-- The rows of the numeric Jacobian, each with its weighted residual. -/
def jacobianBy (obs : List (Observation F)) (lat lon altM tTx : F) : List ((Fin 3 → F) × F) :=
  let r := residualsWBy toEcef obs lat lon altM tTx
  let dlat : F := lit (1 / 100000)
  let dlon := lit (1 / 100000) / F64.max (cos (toRadians lat)) (lit (2 / 10))
  let dt : F := lit (1 / 10000000)
  let jl := residualsWBy toEcef obs (lat + dlat) lon altM tTx
  let jo := residualsWBy toEcef obs lat (lon + dlon) altM tTx
  let jt := residualsWBy toEcef obs lat lon altM (tTx + dt)
  (r.zip (jl.zip (jo.zip jt))).map fun (r, l, o, t) =>
    (fun k => if k = 0 then (l - r) / dlat else if k = 1 then (o - r) / dlon else (t - r) / dt, r)

/-- One step, clamped, and whether it was small. -/
def newtonStepBy (obs : List (Observation F)) (altM : F) (p : Point F) :
    Option (Point F × Bool) :=
  let rows := jacobianBy toEcef obs p.lat p.lon altM p.tTx
  match solve3 (normalMatrix rows) (normalVector rows) with
  | none => none
  | some step =>
    let sl := clamp (lit (-1)) (lit 1) (step 0)
    let so := clamp (lit (-1)) (lit 1) (step 1)
    let st := clamp (lit (-1 / 1000)) (lit (1 / 1000)) (step 2)
    some ({ lat := p.lat + sl, lon := p.lon + so, tTx := p.tTx + st
            rms := rmsOf (residualsBy toEcef obs p.lat p.lon altM p.tTx), iters := p.iters + 1 },
      F64.abs sl < lit (1 / 10 ^ 9) ∧ F64.abs so < lit (1 / 10 ^ 9) ∧
        F64.abs st < lit (1 / 10 ^ 12))

/-- Steps until a small one, at most as many as are left. -/
def newtonBy (obs : List (Observation F)) (altM : F) : Nat → Point F → Option (Point F)
  | 0, p => some p
  | fuel + 1, p =>
      match newtonStepBy toEcef obs altM p with
      | none => none
      | some (p, small) => if small then some p else newtonBy obs altM fuel p

/-- The error estimate of a solved point. None if the matrix does not invert. -/
def errEstBy (obs : List (Observation F)) (lat lon altM tTx : F) : Option F :=
  let r := residualsWBy toEcef obs lat lon altM tTx
  let dof := F64.max (lit obs.length - lit 3) (lit 1)
  let sigma2 := sum (r.map square) / dof
  let perLat : F := lit 111320
  let perLon := lit 111320 * F64.max (cos (toRadians lat)) (lit (5 / 100))
  match invert3 (normalMatrix (jacobianBy toEcef obs lat lon altM tTx)) with
  | none => none
  | some cov =>
    let var := sigma2 * (cov 0 0 * perLat * perLat + cov 1 1 * perLon * perLon)
    some (sqrt (F64.abs var))

end Map

def residuals : List (Observation F) → F → F → F → F → List F := residualsBy Geodetic.toEcef

def newton : List (Observation F) → F → Nat → Point F → Option (Point F) :=
  newtonBy Geodetic.toEcef

def errEst : List (Observation F) → F → F → F → F → Option F := errEstBy Geodetic.toEcef

def solve (obs : List (Observation F)) (altM : F) (init : Geodetic F) : Option (Solution F) :=
  match obs with
  | [] => none
  | o :: rest =>
    if obs.length < 4 then none
    else
      let tMin := least o.tS (rest.map Observation.tS)
      let start : Point F :=
        { lat := init.latDeg, lon := init.lonDeg, tTx := tMin - lit 200000 / cMps, rms := lit 0,
          iters := 0 }
      match newton obs altM maxIter start with
      | none => none
      | some p =>
        if isFinite p.lat = false ∨ isFinite p.lon = false ∨ maxRmsS < p.rms then none
        else
          match errEst obs p.lat p.lon altM p.tTx with
          | none => none
          | some err =>
            some { pos := ⟨p.lat, p.lon, altM⟩, rmsS := p.rms, errEstM := err,
                   iterations := p.iters, tTx := p.tTx
                   residualsS := residuals obs p.lat p.lon altM p.tTx }

/-- The full set, and if that fails or fits badly the best of it and the sets
    without one receiver. -/
def solveRobust (obs : List (Observation F)) (altM : F) (init : Geodetic F) :
    Option (Solution F) :=
  let full := solve obs altM init
  let trigger := match full with
    | some s => decide (lit (5 / 10000000) < s.rmsS)
    | none => true
  if trigger = false ∨ obs.length < 5 then full
  else
    (List.range obs.length).foldl (fun best skip =>
      match solve (obs.eraseIdx skip) altM init with
      | none => best
      | some s =>
        match best with
        | none => some s
        | some b => if s.rmsS < b.rmsS then some s else some b) full

end Solve

end Server

end MlatBench
