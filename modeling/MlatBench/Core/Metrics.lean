import Mathlib.Data.Finset.Card
import Mathlib.Data.List.Dedup
import Mathlib.Data.List.Sort
import MlatBench.Core.Geo
import MlatBench.Core.Proto

/-!
# Scoring

The scorer of `mb-metrics`: result rows are matched to an interpolated truth, and
coverage is counted over the seconds in which enough receivers hear an aircraft.

The maps from aircraft to points, results and seconds are lists searched by
address. The source's hash maps are visited in an order of their own; what is made
of them is a sum, or a map sorted by its keys in which a later entry replaces an
earlier one. Quotients of two counts are exact. The value that is no number is the
quotient of zero and zero.

## Main definitions

* `CsvRow`, `TruthPoint`, `AudibilitySecond`, `ResourceSample`: The inputs.
* `TruthIndex`, `TruthIndex.build`, `TruthIndex.posAt`: The truth.
* `Metrics` and its parts: The outputs.
* `stats`: Percentiles.
* `judge`: What becomes of a row.
* `trackable`: The seconds in which an aircraft could be tracked.
* `aircraftMetrics`, `coverage`, `score`: The score.
-/

namespace MlatBench

open Library F64 F64Fn Proto

namespace Metrics

/-- Results farther from the truth are ghosts. -/
def ghostM : ℚ := 10000

/-- Receivers an aircraft needs to be tracked. -/
def minRx : Nat := 4

/-- One row of the server's output. -/
structure CsvRow (F : Type) where
  tWall : F
  icao : Icao
  lat : F
  lon : F
  altFt : Option F
  errEstM : Option F

/-- A true position, nanoseconds after the start. -/
structure TruthPoint (F : Type) where
  t : Nat
  icao : Icao
  pos : Geodetic F

/-- How many receivers hear an aircraft in a second. -/
structure AudibilitySecond where
  tS : Nat
  icao : Icao
  nReceivers : Nat

structure ResourceSample (F : Type) where
  tWall : F
  cpuUsec : Option Nat
  memBytes : Option Nat

structure ErrorStats (F : Type) where
  n : Nat
  p50 : F
  p90 : F
  p99 : F
  max : F
  mean : F

structure AircraftMetrics (F : Type) where
  results : Nat
  p50ErrorM : Option F
  coverageRatio : Option ℚ
  ttffS : Option F
  updateRatePerMin : Option F

structure Coverage where
  trackableAircraftSeconds : Nat
  trackedAircraftSeconds : Nat
  ratio : Option ℚ
deriving DecidableEq

structure Resources (F : Type) where
  cpuMeanPct : Option F
  cpuMaxPct : Option F
  memMaxMb : Option F
  samples : Nat

structure Report (F : Type) where
  resultsTotal : Nat
  resultsMatched : Nat
  unscoredKnownAircraft : Nat
  ghostsUnknownIcao : Nat
  ghostsGrossError : Nat
  horizontalErrorM : ErrorStats F
  altitudeErrorM : Option (ErrorStats F)
  errEstimateRatioP50 : Option F
  perAircraft : List (String × AircraftMetrics F)
  coverage : Coverage
  resources : Resources F

section

variable {F : Type} [F64Fn F]

/-- The sampled positions of each aircraft, in time order. -/
structure TruthIndex (F : Type) where
  byIcao : Icao → Option (List (F × Geodetic F))

namespace TruthIndex

def build (points : List (TruthPoint F)) : TruthIndex F where
  byIcao icao :=
    match points.filter fun p => p.icao = icao with
    | [] => none
    | ps => some ((ps.map fun p => (lit p.t / lit 1000000000, p.pos)).insertionSort
        fun a b => totalLe a.1 b.1 = true)

def known (truth : TruthIndex F) (icao : Icao) : Bool :=
  (truth.byIcao icao).isSome

/-- The position at a time, up to a second outside the samples. -/
def posAt (truth : TruthIndex F) (icao : Icao) (tS : F) : Option (Geodetic F) :=
  match truth.byIcao icao with
  | none => none
  | some [] => none
  | some (first :: rest) =>
    let pts := first :: rest
    if tS < first.1 - lit 1 ∨ (pts.getLast (List.cons_ne_nil _ _)).1 + lit 1 < tS then none
    else
      let i := (pts.takeWhile fun p => p.1 ≤ tS).length - 1
      let (t0, p0) := pts.getD i first
      let (t1, p1) := pts.getD (i + 1) (t0, p0)
      if F64.abs (t1 - t0) < lit (1 / 1000000000) then some p0
      else
        let f := clamp (lit 0) (lit 1) ((tS - t0) / (t1 - t0))
        some { latDeg := p0.latDeg + f * (p1.latDeg - p0.latDeg)
               lonDeg := p0.lonDeg + f * (p1.lonDeg - p0.lonDeg)
               altM := p0.altM + f * (p1.altM - p0.altM) }

end TruthIndex

/-- The value that is no number. -/
def nan : F := lit 0 / lit 0

def sortF (xs : List F) : List F :=
  xs.insertionSort fun x y => totalLe x y = true

/-- Percentiles of sorted values. -/
def stats : List F → Option (ErrorStats F)
  | [] => none
  | x :: xs =>
    let sorted := x :: xs
    let n := sorted.length
    let q := fun p : ℚ =>
      sorted.getD (min (toInt 0 (2 ^ 64 - 1) ((lit n : F) * lit p)).toNat (n - 1)) x
    some { n := n, p50 := q (50 / 100), p90 := q (90 / 100), p99 := q (99 / 100)
           max := sorted.getLast (List.cons_ne_nil _ _), mean := F64.sum sorted / lit n }

/-- What becomes of a row. -/
inductive Judged (F : Type) where
  | unscored
  | ghostUnknown
  /-- Outside the time of the scenario. -/
  | outside
  | ghostGross
  | matched (simT err : F) (truth : Geodetic F)

/-- A row is matched to the truth at its time. -/
def judge (truth : TruthIndex F) (wallT0 : F) (knownUntruthed : Finset Icao) (r : CsvRow F) :
    Judged F :=
  if truth.known r.icao = false then
    if r.icao ∈ knownUntruthed then .unscored else .ghostUnknown
  else
    let simT := r.tWall - wallT0
    match truth.posAt r.icao simT with
    | none => .outside
    | some tp =>
      let e := Geodetic.haversine ⟨r.lat, r.lon, lit 0⟩ { tp with altM := lit 0 }
      if lit ghostM < e then .ghostGross else .matched simT e tp

/-- The matched rows, with time, error and truth. -/
def matches_ (truth : TruthIndex F) (wallT0 : F) (knownUntruthed : Finset Icao)
    (rows : List (CsvRow F)) : List (CsvRow F × F × F × Geodetic F) :=
  rows.filterMap fun r => match judge truth wallT0 knownUntruthed r with
    | .matched simT e tp => some (r, simT, e, tp)
    | _ => none

/-- The results of one aircraft: time and error. -/
def resultsOf (ms : List (CsvRow F × F × F × Geodetic F)) (hex : String) : List (F × F) :=
  (ms.filter fun m => m.1.icao.toHex = hex).map fun m => (m.2.1, m.2.2.1)

/-- The rows that count: a target, heard by enough receivers. -/
def qualifying (audibility : List AudibilitySecond) (mlatTargets : Finset Icao) :
    List AudibilitySecond :=
  audibility.filter fun a => minRx ≤ a.nReceivers ∧ a.icao ∈ mlatTargets

/-- The seconds of one aircraft, one for each row that counts. -/
def trackable (audibility : List AudibilitySecond) (mlatTargets : Finset Icao) (icao : Icao) :
    List Nat :=
  ((qualifying audibility mlatTargets).filter fun a => a.icao = icao).map AudibilitySecond.tS

/-- The aircraft with such seconds. -/
def trackableIcaos (audibility : List AudibilitySecond) (mlatTargets : Finset Icao) : List Icao :=
  ((qualifying audibility mlatTargets).map AudibilitySecond.icao).dedup

/-- The seconds in which an aircraft has a result. -/
def tracked (results : List (F × F)) : Finset Nat :=
  ((results.filter fun r => lit 0 ≤ r.1).map fun r => (toInt 0 (2 ^ 64 - 1) r.1).toNat).toFinset

/-- The seconds with a result among those that count. -/
def both (results : List (F × F)) (secs : List Nat) : Nat :=
  (tracked results ∩ secs.toFinset).card

/-- The least of some values by the order that sorts. -/
def minBy (xs : List F) : Option F :=
  (sortF xs).head?

def maxBy (xs : List F) : Option F :=
  (sortF xs).getLast?

def aircraftMetrics (results : List (F × F)) (secs : List Nat) : AircraftMetrics F :=
  let onAir := secs.toFinset
  let spanMin : F := F64.max (lit secs.length / lit 60) (lit 1 / lit 60)
  { results := results.length
    p50ErrorM := (stats (sortF (results.map Prod.snd))).map ErrorStats.p50
    coverageRatio := if onAir = ∅ then none else some ((both results secs : ℚ) / onAir.card)
    ttffS := match minBy (results.map Prod.fst), secs.min? with
      | some r, some a => some (r - lit a)
      | _, _ => none
    updateRatePerMin := if results = [] then none else some (lit results.length / spanMin) }

/-- Coverage counts the rows that count, and the seconds with a result. -/
def coverage (results : Icao → List (F × F)) (audibility : List AudibilitySecond)
    (mlatTargets : Finset Icao) : Coverage :=
  let icaos := trackableIcaos audibility mlatTargets
  let secs := trackable audibility mlatTargets
  let trackableSecs := (icaos.map fun icao => (secs icao).length).sum
  let trackedSecs := (icaos.map fun icao => both (results icao) (secs icao)).sum
  { trackableAircraftSeconds := trackableSecs
    trackedAircraftSeconds := trackedSecs
    ratio := if 0 < trackableSecs then some ((trackedSecs : ℚ) / trackableSecs) else none }

/-- The map of some entries: the last of a key stands. -/
def mapOf {α : Type} (entries : List (String × α)) : List (String × α) :=
  (entries.pwFilter fun x y => x.1 ≠ y.1).insertionSort fun x y => x.1 ≤ y.1

/-- Use of the processor between two samples, in percent. -/
def cpuPct (a b : ResourceSample F) : Option F :=
  match a.cpuUsec, b.cpuUsec with
  | some ca, some cb =>
    let dt := b.tWall - a.tWall
    if lit 0 < dt ∧ ca ≤ cb then some (lit (cb - ca : Nat) / (dt * lit 1000000) * lit 100) else none
  | _, _ => none

def resourcesOf (samples : List (ResourceSample F)) : Resources F :=
  let pcts := (samples.zip samples.tail).filterMap fun w => cpuPct w.1 w.2
  { cpuMeanPct := if pcts.length = 0 then none else some (F64.sum pcts / lit pcts.length)
    cpuMaxPct := maxBy pcts
    memMaxMb := (samples.filterMap ResourceSample.memBytes).max?.map fun m => lit m / lit 1000000
    samples := samples.length }

def score (truth : TruthIndex F) (rows : List (CsvRow F)) (wallT0 : F)
    (audibility : List AudibilitySecond) (mlatTargets knownUntruthed : Finset Icao)
    (resources : List (ResourceSample F)) : Report F :=
  let judged := rows.map (judge truth wallT0 knownUntruthed)
  let ms := matches_ truth wallT0 knownUntruthed rows
  let results := fun icao : Icao => resultsOf ms icao.toHex
  let secs := trackable audibility mlatTargets
  let altErr := ms.filterMap fun m =>
    m.1.altFt.map fun ft => F64.abs (ft * lit (3048 / 10000) - m.2.2.2.altM)
  let estRatio := ms.filterMap fun m =>
    m.1.errEstM.bind fun est => if lit 1 < m.2.2.1 then some (est / m.2.2.1) else none
  { resultsTotal := rows.length
    resultsMatched := ms.length
    unscoredKnownAircraft := judged.countP fun j => match j with | .unscored => true | _ => false
    ghostsUnknownIcao := judged.countP fun j => match j with | .ghostUnknown => true | _ => false
    ghostsGrossError := judged.countP fun j => match j with | .ghostGross => true | _ => false
    horizontalErrorM := (stats (sortF (ms.map fun m => m.2.2.1))).getD
      { n := 0, p50 := nan, p90 := nan, p99 := nan, max := nan, mean := nan }
    altitudeErrorM := stats (sortF altErr)
    errEstimateRatioP50 := (stats (sortF estRatio)).map ErrorStats.p50
    perAircraft := mapOf ((trackableIcaos audibility mlatTargets).map fun icao =>
      (icao.toHex, aircraftMetrics (results icao) (secs icao)))
    coverage := coverage results audibility mlatTargets
    resources := resourcesOf resources }

end

end Metrics

end MlatBench
