import Mathlib.Data.List.Dedup
import MlatBench.Core.Geo
import MlatBench.Core.Modes
import MlatBench.Library.Hex

/-!
# Scenarios

What a capture is generated from: receivers with their clocks, aircraft with
their trajectories, a seed and a duration. `validate` is what a scenario must
pass. The block that stands for many receivers and aircraft is expanded before.

## Main definitions

* `ClockSpec`, `ReceiverSpec`, `AircraftSpec`, `Trajectory`, `Scenario`: The
  scenario.
* `Icao.fromHex`: An address read from text.
* `Scenario.validate`: The checks, with their texts.
* `Trajectory.positionAt`: Where an aircraft is.
-/

namespace MlatBench

open Library F64 F64Fn F64Ln

/-- The characters that are trimmed. -/
def isWhiteSpace (c : Char) : Bool :=
  let n := c.toNat
  decide (9 ≤ n ∧ n ≤ 13 ∨ n = 0x20 ∨ n = 0x85 ∨ n = 0xA0 ∨ n = 0x1680 ∨
    0x2000 ≤ n ∧ n ≤ 0x200A ∨ n = 0x2028 ∨ n = 0x2029 ∨ n = 0x202F ∨ n = 0x205F ∨ n = 0x3000)

def trim (s : String) : String :=
  String.ofList (((s.toList.dropWhile isWhiteSpace).reverse.dropWhile isWhiteSpace).reverse)

/-- An address read from text, at most 24 bits. -/
def Icao.fromHex (s : String) : Option Icao :=
  match readHex (trim s) with
  | some n => if n ≤ 0xFFFFFF then some ⟨UInt32.ofNat n⟩ else none
  | none => none

namespace Sim

/-- A receiver's clock: a free-running counter or one disciplined by GPS. -/
inductive ClockSpec (F : Type) where
  | dump1090 (offsetPpm driftPpmPerHr jitterNs : F) (startCount : Nat)
      (wanderPpmSqrtHr jumpProbPerMin : F)
  | radarcapeGps (jitterNs : F)

structure ReceiverSpec (F : Type) where
  id : String
  lat : F
  lon : F
  altM : F
  clock : ClockSpec F
  lossProb : F
  maxRangeKm : Option F
  reportedPosErrorM : F
  multipathProb : F
  compress : String

def ReceiverSpec.pos {F : Type} (rx : ReceiverSpec F) : Geodetic F :=
  ⟨rx.lat, rx.lon, rx.altM⟩

inductive AircraftKind where
  | adsb
  | modesOnly
deriving DecidableEq

/-- Latitude, longitude and altitude in feet. -/
structure Waypoint (F : Type) where
  latDeg : F
  lonDeg : F
  altFt : F

/-- A leg of a great circle, continued past its end, or a level orbit. -/
inductive Trajectory (F : Type) where
  | greatCircle (start dest : Waypoint F) (gsKts : F)
  | orbit (center : Waypoint F) (radiusM gsKts : F) (clockwise : Bool)

structure AircraftSpec (F : Type) where
  icao : String
  kind : AircraftKind
  traj : Trajectory F
  posRateHz : F
  df11RateHz : F
  df4RateHz : F
  navErrorM : F

structure Network (F : Type) where
  latencyMsMin : F
  latencyMsMax : F
  jitterMs : F

structure Scenario (F : Type) where
  seed : Nat
  durationS : Nat
  network : Network F
  receivers : List (ReceiverSpec F)
  aircraft : List (AircraftSpec F)

/-- What is wrong with a scenario. -/
inductive ScenarioError (F : Type) where
  | noReceivers
  | noAircraft
  | duplicateReceiver (id : String)
  | receiverPosition (id : String)
  | receiverAltitude (id : String) (altM : F)
  | unknownCompress (id compress : String)
  | aircraftAddress (icao : String)
  | duplicateAircraft (icao : String)

/-- The text of an error; `shown` renders a number. -/
def ScenarioError.text {F : Type} (shown : F → String) : ScenarioError F → String
  | .noReceivers => "no receivers"
  | .noAircraft => "no aircraft"
  | .duplicateReceiver id => "duplicate receiver id " ++ id
  | .receiverPosition id => "receiver " ++ id ++ " position out of range"
  | .receiverAltitude id altM => "receiver " ++ id ++ " altitude " ++ shown altM ++
      " outside the oracle's accepted -1000..10000 m"
  | .unknownCompress id compress => "receiver " ++ id ++ ": unknown compress " ++ compress
  | .aircraftAddress icao => "aircraft icao " ++ icao ++ " not 6 hex digits"
  | .duplicateAircraft icao => "duplicate aircraft icao " ++ icao

section

variable {F : Type} [F64 F]

/-- The checks of one receiver, given the ids before it. -/
def ReceiverSpec.validate (ids : List String) (r : ReceiverSpec F) :
    Except (ScenarioError F) Unit :=
  if r.id ∈ ids then .error (.duplicateReceiver r.id)
  else if ¬ (lit (-90) ≤ r.lat ∧ r.lat ≤ lit 90) ∨ ¬ (lit (-180) ≤ r.lon ∧ r.lon ≤ lit 180) then
    .error (.receiverPosition r.id)
  else if ¬ (lit (-1000) ≤ r.altM ∧ r.altM ≤ lit 10000) then
    .error (.receiverAltitude r.id r.altM)
  else if r.compress ≠ "none" ∧ r.compress ≠ "zlib" ∧ r.compress ≠ "zlib2" then
    .error (.unknownCompress r.id r.compress)
  else .ok ()

/-- The checks of one aircraft, given the addresses before it. Addresses are
    compared as texts. -/
def AircraftSpec.validate (icaos : List String) (a : AircraftSpec F) :
    Except (ScenarioError F) Unit :=
  if Icao.fromHex a.icao = none then .error (.aircraftAddress a.icao)
  else if a.icao ∈ icaos then .error (.duplicateAircraft a.icao)
  else .ok ()

/-- The items of a list are checked in turn, each with the names before it. -/
def checkAll {α : Type} (name : α → String) (check : List String → α → Except (ScenarioError F) Unit)
    (seen : List String) : List α → Except (ScenarioError F) Unit
  | [] => .ok ()
  | x :: xs =>
    match check seen x with
    | .error e => .error e
    | .ok () => checkAll name check (name x :: seen) xs

def Scenario.validate (sc : Scenario F) : Except (ScenarioError F) Unit :=
  if sc.receivers = [] then .error .noReceivers
  else if sc.aircraft = [] then .error .noAircraft
  else
    match checkAll ReceiverSpec.id ReceiverSpec.validate [] sc.receivers with
    | .error e => .error e
    | .ok () => checkAll AircraftSpec.icao AircraftSpec.validate [] sc.aircraft

end

section

variable {F : Type} [F64Ln F]

def ktsToMps : F := lit (514444 / 1000000)

def ftToM : F := lit (3048 / 10000)

def toDegrees (x : F) : F :=
  x * (lit 180 / pi)

/-- The direction of a position from the centre of a sphere. -/
def unit (g : Geodetic F) : Ecef F :=
  let lat := toRadians g.latDeg
  let lon := toRadians g.lonDeg
  ⟨cos lat * cos lon, cos lat * sin lon, sin lat⟩

/-- A point of the great circle through two positions. -/
def slerp (a b : Geodetic F) (f : F) : Geodetic F :=
  let va := unit a
  let vb := unit b
  let dot := clamp (lit (-1)) (lit 1) (va.x * vb.x + va.y * vb.y + va.z * vb.z)
  let omega := acos dot
  if omega < lit (1 / 1000000000000) then a
  else
    let so := sin omega
    let ka := sin ((lit 1 - f) * omega) / so
    let kb := sin (f * omega) / so
    let x := ka * va.x + kb * vb.x
    let y := ka * va.y + kb * vb.y
    let z := ka * va.z + kb * vb.z
    ⟨toDegrees (atan2 z (sqrt (x * x + y * y))), toDegrees (atan2 y x), lit 0⟩

namespace Trajectory

/-- Where the aircraft is. -/
def positionAt (traj : Trajectory F) (tS : F) : Geodetic F :=
  match traj with
  | .greatCircle start dest gsKts =>
    let a : Geodetic F := ⟨start.latDeg, start.lonDeg, start.altFt * ftToM⟩
    let b : Geodetic F := ⟨dest.latDeg, dest.lonDeg, dest.altFt * ftToM⟩
    let distM := F64.max (a.haversine b) (lit 1)
    let f := gsKts * ktsToMps * tS / distM
    { slerp a b f with altM := a.altM + (b.altM - a.altM) * clamp (lit 0) (lit 1) f }
  | .orbit center radiusM gsKts clockwise =>
    let omega := gsKts * ktsToMps / F64.max radiusM (lit 1)
    let theta := if clockwise then -omega * tS else omega * tS
    let east := radiusM * cos theta
    let north := radiusM * sin theta
    let mLat : F := lit 111320
    let mLon := mLat * F64.max (cos (toRadians center.latDeg)) (lit (5 / 100))
    ⟨center.latDeg + north / mLat, center.lonDeg + east / mLon, center.altFt * ftToM⟩

/-- Speed over ground. -/
def gsMps : Trajectory F → F
  | .greatCircle _ _ gsKts => gsKts * ktsToMps
  | .orbit _ _ gsKts _ => gsKts * ktsToMps

/-- Rate of climb, up to the end of the leg. -/
def vrateMps (traj : Trajectory F) (tS : F) : F :=
  match traj with
  | .greatCircle start dest gsKts =>
    let a : Geodetic F := ⟨start.latDeg, start.lonDeg, lit 0⟩
    let b : Geodetic F := ⟨dest.latDeg, dest.lonDeg, lit 0⟩
    let legS := F64.max (a.haversine b) (lit 1) / (gsKts * ktsToMps)
    if tS < legS then (dest.altFt - start.altFt) * ftToM / legS else lit 0
  | .orbit _ _ _ _ => lit 0

end Trajectory

end

end Sim

end MlatBench
