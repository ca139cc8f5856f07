import MlatBench.Library.F64

/-!
# Pairwise Clock Models

The clock of one receiver read in the clock of another: a line fitted to the
shared events of the two, as decayed sums. An observation far off the line is
refused once the model is warm, and eight refusals in a row clear the model.

## Main definitions

* `PairModel`: The decayed sums.
* `PairModel.push`: One shared event.
* `PairModel.usable`: Enough weight over enough time.
* `PairModel.convert`: A reading carried over, with its sigma.
-/

namespace MlatBench

namespace Server

open Library F64 F64Fn

/-- Decayed weight, means, central sums and residual variance of the shared
    events of two clocks. -/
structure PairModel (F : Type) where
  w : F
  ma : F
  mb : F
  caa : F
  cab : F
  msq : F
  rejects : Nat
  nTotal : Nat
deriving DecidableEq

namespace PairModel

variable {F : Type} [F64Fn F]

/-- Forgetting factor of one accepted observation. -/
def lambda : F := lit (9967 / 10000)

def minWeight : F := lit 8

def minSpanS : F := lit 5

def gateFloorS : F := lit (1 / 1000000)

def resetAfterRejects : Nat := 8

def maxPredSigmaS : F := lit (2 / 1000000)

def default : PairModel F :=
  { w := lit 0, ma := lit 0, mb := lit 0, caa := lit 0, cab := lit 0, msq := lit 0,
    rejects := 0, nTotal := 0 }

/-- Enough weight over enough time. -/
def usable (m : PairModel F) : Bool :=
  let spread := minSpanS / lit 4
  minWeight ≤ m.w ∧ spread * spread ≤ m.caa / F64.max m.w (lit 1)

/-- The line's value and its sigma, larger far from the centre. -/
def predictUnchecked (m : PairModel F) (tFrom : F) : F × F :=
  let beta := if lit 0 < m.caa then m.cab / m.caa else lit 1
  let da := tFrom - m.ma
  let infl := sqrt (lit 1 + lit 1 / m.w + da * da / F64.max m.caa (lit (1 / 1000000000000)))
  (m.mb + beta * da, sqrt m.msq * infl)

/-- The sums take in one observation. -/
def ingest (m : PairModel F) (tFrom tTo : F) : PairModel F :=
  let w := m.w * lambda + lit 1
  let da := tFrom - m.ma
  let db := tTo - m.mb
  let k := lit 1 / w
  let ma := m.ma + k * da
  let mb := m.mb + k * db
  { m with
    w := w, ma := ma, mb := mb
    caa := m.caa * lambda + da * (tFrom - ma)
    cab := m.cab * lambda + da * (tTo - mb)
    nTotal := m.nTotal + 1 }

/-- One shared event. The answer is whether it was accepted. -/
def push (m : PairModel F) (tFrom tTo : F) : PairModel F × Bool :=
  if m.usable then
    let r := tTo - (m.predictUnchecked tFrom).1
    let gate := F64.max (lit 4 * sqrt m.msq) gateFloorS
    if gate < F64.abs r then
      let rejects := m.rejects + 1
      (if resetAfterRejects ≤ rejects then default else { m with rejects := rejects }, false)
    else
      let msq := m.msq + (lit 1 - lambda) * (r * r - m.msq)
      (({ m with rejects := 0, msq := msq }).ingest tFrom tTo, true)
  else (m.ingest tFrom tTo, true)

/-- A reading carried over to the other clock, if its sigma is small. -/
def convert (m : PairModel F) (tFrom : F) : Option (F × F) :=
  if m.usable = false then none
  else if maxPredSigmaS < (m.predictUnchecked tFrom).2 then none
  else some (m.predictUnchecked tFrom)

end PairModel

end Server

end MlatBench
