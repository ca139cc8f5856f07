import MlatBench.Library.F64

/-!
# Positions and Compact Position Reports

Geodetic and cartesian positions, and the airborne position code of the
aircraft. The number of longitude zones follows the closed form of the source.

## Main definitions

* `Geodetic`, `Ecef`: The two kinds of position.
* `Geodetic.toEcef`, `Geodetic.haversine`, `Ecef.dist`: Conversion, distances.
* `Cpr.nl`: Longitude zones at a latitude.
* `Cpr.encodeAirborne`: The report of a position.
* `Cpr.globalDecodeAirborne`: The position of an even and an odd report.

Both codes take the zone function as an argument first.
-/

namespace MlatBench

open Library F64 F64Fn

/-- Latitude, longitude and height above the ellipsoid. -/
structure Geodetic (F : Type) where
  latDeg : F
  lonDeg : F
  altM : F
deriving DecidableEq

/-- Earth-centred cartesian coordinates. -/
structure Ecef (F : Type) where
  x : F
  y : F
  z : F
deriving DecidableEq

section

variable {F : Type} [F64Fn F]

/-- Speed of light. -/
def cMps : F := lit 299792458

def wgs84A : F := lit 6378137

def wgs84F : F := lit 1 / lit (298257223563 / 1000000000)

def wgs84E2 : F := (wgs84F : F) * (lit 2 - wgs84F)

def toRadians (x : F) : F :=
  x * (pi / lit 180)

def square (x : F) : F :=
  x * x

def Geodetic.toEcef (p : Geodetic F) : Ecef F :=
  let sinLat := sin (toRadians p.latDeg)
  let cosLat := cos (toRadians p.latDeg)
  let n := wgs84A / sqrt (lit 1 - wgs84E2 * sinLat * sinLat)
  { x := (n + p.altM) * cosLat * cos (toRadians p.lonDeg)
    y := (n + p.altM) * cosLat * sin (toRadians p.lonDeg)
    z := (n * (lit 1 - wgs84E2) + p.altM) * sinLat }

/-- The chord between two points. -/
def Ecef.dist (a b : Ecef F) : F :=
  sqrt (square (a.x - b.x) + square (a.y - b.y) + square (a.z - b.z))

/-- The great circle between two points. -/
def Geodetic.haversine (p q : Geodetic F) : F :=
  let lat1 := toRadians p.latDeg
  let lat2 := toRadians q.latDeg
  let dlat := lat2 - lat1
  let dlon := toRadians (q.lonDeg - p.lonDeg)
  let a := square (sin (dlat / lit 2)) + cos lat1 * cos lat2 * square (sin (dlon / lit 2))
  lit 2 * lit (63710008 / 10) * asin (sqrt a)

end

namespace Cpr

section

variable {F : Type} [F64 F]

def two17 : F := lit 131072

/-- The remainder in `[0, m)`. -/
def modp (x m : F) : F :=
  let r := rem x m
  if r < lit 0 then r + m else r

/-- Where in its zone of width `d` a coordinate lies, in 17 bits. -/
def quantize (x d : F) : UInt32 :=
  let z := floor (two17 * modp x d / d + lit (1 / 2))
  UInt32.ofNat ((toInt 0 (2 ^ 64 - 1) z).toNat % 2 ^ 17)

/-- Longitude zones of a format. -/
def zones (nl : Int) (odd : Bool) : Int :=
  if odd then max (nl - 1) 1 else max nl 1

/-- The report of a position, with the longitude zones taken where the decoder is
    expected to see the latitude. -/
def encodeWith (nl : F → Int) (latDeg lonDeg : F) (odd : Bool) : UInt32 × UInt32 :=
  let i : F := if odd then lit 1 else lit 0
  let dlat := lit 360 / (lit 4 * lit 15 - i)
  let yz := quantize latDeg dlat
  let rlat := dlat * (lit yz.toNat / two17 + floor (latDeg / dlat))
  let dlon := lit 360 / lit (zones (nl rlat) odd)
  (yz, quantize lonDeg dlon)

/-- The position of an even and an odd report, by the zone of the newer one.
    None if it lies past a pole or the two are in different zones. -/
def decodeWith (nl : F → Int) (even odd : UInt32 × UInt32) (recentOdd : Bool) :
    Option (F × F) :=
  let yzE : F := lit even.1.toNat
  let xzE : F := lit even.2.toNat
  let yzO : F := lit odd.1.toNat
  let xzO : F := lit odd.2.toNat
  let dlatE : F := lit 360 / lit 60
  let dlatO : F := lit 360 / lit 59
  let j := floor ((lit 59 * yzE - lit 60 * yzO) / two17 + lit (1 / 2))
  let rlatE := dlatE * (modp j (lit 60) + yzE / two17)
  let rlatO := dlatO * (modp j (lit 59) + yzO / two17)
  let rlatE := if lit 270 ≤ rlatE then rlatE - lit 360 else rlatE
  let rlatO := if lit 270 ≤ rlatO then rlatO - lit 360 else rlatO
  if lit 90 < F64.abs rlatE ∨ lit 90 < F64.abs rlatO then none
  else if nl rlatE ≠ nl rlatO then none
  else
    let nlV : F := lit (nl rlatE)
    let m := floor ((xzE * (nlV - lit 1) - xzO * nlV) / two17 + lit (1 / 2))
    let ni := if recentOdd then F64.max (nlV - lit 1) (lit 1) else F64.max nlV (lit 1)
    let xz := if recentOdd then xzO else xzE
    let lon := lit 360 / ni * (modp m ni + xz / two17)
    some (if recentOdd then rlatO else rlatE, if lit 180 ≤ lon then lon - lit 360 else lon)

end

section

variable {F : Type} [F64Fn F]

/-- Longitude zones at a latitude, from 1 to 59. -/
def nl (latDeg : F) : Int :=
  let lat := F64.abs latDeg
  if lat < lit (1047047130 / 100000000) then 59
  else if lit 87 < lat then 1
  else
    let a := lit 1 - cos (pi / (lit 2 * lit 15))
    let b := square (cos (pi * lat / lit 180))
    let x := lit 1 - a / b
    if x < lit (-1) ∨ lit 1 < x then 1
    else clampInt 1 59 (toInt 0 (2 ^ 32 - 1) (floor (lit 2 * pi / acos x)))

def encodeAirborne (latDeg lonDeg : F) (odd : Bool) : UInt32 × UInt32 :=
  encodeWith nl latDeg lonDeg odd

def globalDecodeAirborne (even odd : UInt32 × UInt32) (recentOdd : Bool) : Option (F × F) :=
  decodeWith nl even odd recentOdd

end

end Cpr

end MlatBench
