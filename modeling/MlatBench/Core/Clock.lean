import MlatBench.Core.Scenario

/-!
# Simulated Clocks

The counter a receiver shows for a reception. The phase runs with an offset and
a drift, a walk and jumps on hostile clocks, and jitter on every reading. A
count that does not exceed the last one is put one above it, unless the counter
has just wrapped.

The streams of random numbers come from a library; `Rand` is what is used of it.
Counts are 64-bit.

## Main definitions

* `Rand`: Seeded streams and the draws made from them.
* `ClockModel`: A clock.
* `ClockModel.rawCount`: The count before it is held against the last one.
* `ClockModel.clamps`: The count is put above the last one.
* `ClockModel.countAtHostile`: One reading.
* `ClockModel.countAt`: One reading, jumps not told.
-/

namespace MlatBench

namespace Sim

open Library F64 F64Fn F64Ln

/-- Streams named by a seed and a text, and draws from a half-open and from a
    closed range. -/
structure Rand (F R : Type) where
  rngFor : Nat → String → R
  genRange : F → F → R → F × R
  genRangeInclusive : F → F → R → F × R

variable {F R : Type} [F64Ln F]

/-- The spacing of doubles at one. -/
def epsilon : F := lit (1 / 2 ^ 52)

/-- A normal draw from two uniform ones. -/
def gaussian (rand : Rand F R) (rng : R) : F × R :=
  let (u1, rng) := rand.genRange epsilon (lit 1) rng
  let (u2, rng) := rand.genRange (lit 0) (lit 1) rng
  (sqrt (lit (-2) * ln u1) * cos (lit 2 * pi * u2), rng)

def wrap48 : Nat := 2 ^ 48

structure ClockModel (F R : Type) where
  freqHz : F
  offset : F
  driftPerS : F
  jitterS : F
  startCount : Nat
  lastCount : Option Nat
  wraps : Bool
  wanderPerSqrtS : F
  jumpProbPerS : F
  hostileRng : Option R
  wanderAccum : F
  wanderPhaseS : F
  lastT : F

namespace ClockModel

def new : ClockSpec F → ClockModel F R
  | .dump1090 offsetPpm driftPpmPerHr jitterNs startCount wanderPpmSqrtHr jumpProbPerMin =>
    { freqHz := lit 12000000
      offset := offsetPpm * lit (1 / 10 ^ 6)
      driftPerS := driftPpmPerHr * lit (1 / 10 ^ 6) / lit 3600
      jitterS := jitterNs * lit (1 / 10 ^ 9)
      startCount := startCount
      lastCount := none
      wraps := true
      wanderPerSqrtS := wanderPpmSqrtHr * lit (1 / 10 ^ 6) / lit 60
      jumpProbPerS := jumpProbPerMin / lit 60
      hostileRng := none
      wanderAccum := lit 0
      wanderPhaseS := lit 0
      lastT := lit 0 }
  | .radarcapeGps jitterNs =>
    { freqHz := lit (10 ^ 9)
      offset := lit 0
      driftPerS := lit 0
      jitterS := jitterNs * lit (1 / 10 ^ 9)
      startCount := 0
      lastCount := none
      wraps := false
      wanderPerSqrtS := lit 0
      jumpProbPerS := lit 0
      hostileRng := none
      wanderAccum := lit 0
      wanderPhaseS := lit 0
      lastT := lit 0 }

def isHostile (c : ClockModel F R) : Bool :=
  decide (lit 0 < c.wanderPerSqrtS ∨ lit 0 < c.jumpProbPerS)

/-- The walk goes on for the time since the last reading. -/
def wander (rand : Rand F R) (c : ClockModel F R) (dt : F) (h : R) : ClockModel F R × R :=
  if lit 0 < c.wanderPerSqrtS ∧ lit 0 < dt then
    let (g, h) := gaussian rand h
    ({ c with
        wanderPhaseS := c.wanderPhaseS + c.wanderAccum * dt
        wanderAccum := c.wanderAccum + g * c.wanderPerSqrtS * sqrt dt }, h)
  else (c, h)

/-- The counter may jump, either way; the last count is forgotten then. -/
def jump (rand : Rand F R) (c : ClockModel F R) (dt : F) (h : R) : ClockModel F R × R × Bool :=
  if lit 0 < c.jumpProbPerS then
    let (u, h) := rand.genRange (lit 0) (lit 1) h
    if u < c.jumpProbPerS * dt then
      let (ms, h) := rand.genRange (lit 1) (lit 100) h
      let (side, h) := rand.genRange (lit 0) (lit 1) h
      let ms := ms * if side < lit (1 / 2) then lit (-1) else lit 1
      ({ c with wanderPhaseS := c.wanderPhaseS + ms / lit 1000, lastCount := none }, h, true)
    else (c, h, false)
  else (c, h, false)

/-- What a hostile clock does before a reading. -/
def disturb (rand : Rand F R) (c : ClockModel F R) (dt : F) : ClockModel F R × Bool :=
  match c.hostileRng with
  | none => (c, false)
  | some h =>
    let (c, h) := c.wander rand dt h
    let (c, h, jumped) := c.jump rand dt h
    ({ c with hostileRng := some h }, jumped)

/-- The count of a time, as the clock runs. -/
def rawCount (c : ClockModel F R) (tS jitter : F) : Nat :=
  let phaseS := tS * (lit 1 + c.offset) + lit (1 / 2) * c.driftPerS * tS * tS +
    c.wanderPhaseS + jitter
  let raw := round (lit c.startCount + phaseS * c.freqHz)
  if c.wraps then (toInt (-2 ^ 127) (2 ^ 127 - 1) raw % wrap48).toNat
  else (toInt 0 (2 ^ 64 - 1) (F64.max raw (lit 0))).toNat

/-- A count that does not exceed the last one is put above it, unless the last
    one was in the last second before the wrap. -/
def clamps (c : ClockModel F R) (count : Nat) : Bool :=
  match c.lastCount with
  | none => false
  | some prev =>
    let wrapped := c.wraps = true ∧ wrap48 - (toInt 0 (2 ^ 64 - 1) c.freqHz).toNat < prev ∧
      count < prev
    decide (¬ wrapped ∧ count ≤ prev)

def hold (c : ClockModel F R) (count : Nat) : Nat :=
  if c.clamps count then (c.lastCount.getD 0 + 1) % 2 ^ 64 else count

/-- One reading: the count, and whether the counter jumped. The jitter is drawn
    from the stream given. -/
def countAtHostile (rand : Rand F R) (c : ClockModel F R) (tS : F) (rng : R) :
    ClockModel F R × R × Nat × Bool :=
  let dt := F64.max (tS - c.lastT) (lit 0)
  let c := { c with lastT := tS }
  let (c, jumped) := c.disturb rand dt
  let (g, rng) := gaussian rand rng
  let count := c.hold (c.rawCount tS (g * c.jitterS))
  ({ c with lastCount := some count }, rng, count, jumped)

/-- One reading, jumps not told. -/
def countAt (rand : Rand F R) (c : ClockModel F R) (tS : F) (rng : R) :
    ClockModel F R × R × Nat :=
  let (c, rng, count, _) := c.countAtHostile rand tS rng
  (c, rng, count)

end ClockModel

end Sim

end MlatBench
