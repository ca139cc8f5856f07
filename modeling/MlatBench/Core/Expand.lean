import MlatBench.Core.Gen

/-!
# Expanding A Scenario

A scenario may have a block that stands for many receivers and aircraft around a
place. It is replaced by entries of its own when the file is read, after those
that are written out. Positions and clocks are drawn from one stream; the ids and
the addresses are counted.

Counts are 32-bit.

## Main definitions

* `GenerateSpec`: The block.
* `adsbIcao`, `modesIcao`: The addresses that are counted.
* `Scenario.expandGenerate`: The entries in place of the block.
-/

namespace MlatBench

namespace Sim

open Library F64 F64Fn F64Ln

/-- So many receivers and aircraft around a place. -/
structure GenerateSpec (F : Type) where
  receivers : UInt32
  aircraftAdsb : UInt32
  aircraftModes : UInt32
  center : F × F
  radiusKm : F
  gpsFraction : F

/-- The texts of the addresses, by number. -/
def adsbIcao (i : Nat) : String := "A" ++ padHexUpper 5 (0x10000 + UInt32.ofNat i).toNat

def modesIcao (i : Nat) : String := "B" ++ padHexUpper 5 (0x20000 + UInt32.ofNat i).toNat

/-- One after the other, each from where the stream is after the last. -/
def drawEach {α R : Type} (draw : Nat → R → α × R) : List Nat → R → List α × R
  | [], rng => ([], rng)
  | i :: is, rng =>
    let (x, rng) := draw i rng
    let (xs, rng) := drawEach draw is rng
    (x :: xs, rng)

section

variable {F R : Type} [F64Ln F] (rand : Rand F R) (g : GenerateSpec F)

/-- A place in a disk around the centre. -/
def disk (rKm : F) (rng : R) : (F × F) × R :=
  let (u, rng) := rand.genRange (lit 0) (lit 1) rng
  let r := rKm * sqrt u
  let (th, rng) := rand.genRange (lit 0) tau rng
  ((g.center.1 + r * sin th * (lit 1 / lit (11132 / 100)),
    g.center.2 + r * cos th * (lit 1 / (lit (11132 / 100) * cos (toRadians g.center.1)))), rng)

def genClock (rng : R) : ClockSpec F × R :=
  let (u, rng) := rand.genRange (lit 0) (lit 1) rng
  if u < g.gpsFraction then (.radarcapeGps (lit 15), rng)
  else
    let (offsetPpm, rng) := rand.genRange (lit (-40)) (lit 40) rng
    let (driftPpmPerHr, rng) := rand.genRange (lit 0) (lit (3 / 10)) rng
    let (jitterNs, rng) := rand.genRange (lit 40) (lit 90) rng
    let (wanderPpmSqrtHr, rng) := rand.genRange (lit 0) (lit (4 / 10)) rng
    (.dump1090 offsetPpm driftPpmPerHr jitterNs 0 wanderPpmSqrtHr (lit 0), rng)

def genReceiver (i : Nat) (rng : R) : ReceiverSpec F × R :=
  let (pos, rng) := disk rand g g.radiusKm rng
  let (clock, rng) := genClock rand g rng
  let (altM, rng) := rand.genRange (lit 10) (lit 200) rng
  let (lossProb, rng) := rand.genRange (lit (1 / 100)) (lit (8 / 100)) rng
  ({ id := "gen-" ++ String.ofList ((Nat.toDigits 10 i).leftpad 3 '0')
     lat := pos.1, lon := pos.2, altM := altM, clock := clock, lossProb := lossProb
     maxRangeKm := none, reportedPosErrorM := lit 0, multipathProb := lit 0, compress := "none" },
    rng)

def genTraj (altLo altHi : F) (rng : R) : Trajectory F × R :=
  let (a, rng) := disk rand g (g.radiusKm * lit (13 / 10)) rng
  let (b, rng) := disk rand g (g.radiusKm * lit (13 / 10)) rng
  let (alt, rng) := rand.genRange altLo altHi rng
  let (gsKts, rng) := rand.genRange (lit 320) (lit 500) rng
  (.greatCircle ⟨a.1, a.2, alt⟩ ⟨b.1, b.2, alt⟩ gsKts, rng)

def genAdsb (i : Nat) (rng : R) : AircraftSpec F × R :=
  let (traj, rng) := genTraj rand g (lit 26000) (lit 41000) rng
  ({ icao := adsbIcao i, kind := .adsb, traj := traj, posRateHz := lit 2, df11RateHz := lit 1
     df4RateHz := lit 4, navErrorM := lit 0 }, rng)

def genModes (i : Nat) (rng : R) : AircraftSpec F × R :=
  let (traj, rng) := genTraj rand g (lit 8000) (lit 26000) rng
  let (df4RateHz, rng) := rand.genRange (lit 2) (lit 6) rng
  ({ icao := modesIcao i, kind := .modesOnly, traj := traj, posRateHz := lit 2
     df11RateHz := lit 1, df4RateHz := df4RateHz, navErrorM := lit 0 }, rng)

/-- The entries in place of the block, after those that are written out. -/
def Scenario.expandGenerate (rand : Rand F R) (sc : Scenario F) :
    Option (GenerateSpec F) → Scenario F
  | none => sc
  | some g =>
    let rng := rand.rngFor sc.seed "generate"
    let (receivers, rng) := drawEach (genReceiver rand g) (List.range g.receivers.toNat) rng
    let (adsb, rng) := drawEach (genAdsb rand g) (List.range g.aircraftAdsb.toNat) rng
    let (modes, _) := drawEach (genModes rand g) (List.range g.aircraftModes.toNat) rng
    { sc with
      receivers := sc.receivers ++ receivers
      aircraft := sc.aircraft ++ adsb ++ modes }

end

end Sim

end MlatBench
