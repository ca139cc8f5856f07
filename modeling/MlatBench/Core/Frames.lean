import MlatBench.Core.Geo
import MlatBench.Core.Modes

/-!
# Frame Builders

The downlink frames an aircraft transmits, parity included, and the altitude
fields in them. Altitudes are 32-bit integers. The DF11 builder is in
`Core.Modes`.

## Main definitions

* `ac12`, `ac13`: The altitude fields, in steps of 25 ft.
* `quantize25ft`: The nearest step.
* `df17AirbornePosition`, `df18PositionPair`, `df4`: The frames.
-/

namespace MlatBench

namespace Modes

open Library F64 F64Fn

/-- A 32-bit sum or product. -/
def wrap32 (n : Int) : Int := Int.bmod n (2 ^ 32)

/-- The step of an altitude, cut towards zero, if it can be encoded. -/
def altStep (altFt : Int) : Option UInt16 :=
  let n := (wrap32 (altFt + 1000)).tdiv 25
  if 0 ≤ n ∧ n ≤ 2047 then some (UInt16.ofNat n.toNat) else none

/-- The altitude field of DF17. -/
def ac12 (altFt : Int) : Option UInt16 :=
  (altStep altFt).map fun n : UInt16 => ((n &&& 0x7F0) <<< 1) ||| 0x010 ||| (n &&& 0x00F)

/-- The altitude field of DF4. -/
def ac13 (altFt : Int) : Option UInt16 :=
  (altStep altFt).map fun n : UInt16 =>
    ((n &&& 0x7E0) <<< 2) ||| ((n &&& 0x010) <<< 1) ||| 0x010 ||| (n &&& 0x00F)

/-- The nearest step of 25 ft. -/
def quantize25ft {F : Type} [F64 F] (altFt : F) : Int :=
  let n := toInt (-2 ^ 31) (2 ^ 31 - 1) (round ((altFt + lit 1000) / lit 25))
  wrap32 (wrap32 (n * 25) - 1000)

/-- Three bytes of an address or a parity. -/
def bytes24 (x : UInt32) : List UInt8 :=
  [(x >>> 16).toUInt8, (x >>> 8).toUInt8, x.toUInt8]

/-- An airborne position with barometric altitude. -/
def df17AirbornePosition {F : Type} [F64Fn F] (icao : Icao) (ca tc : UInt8) (altFt : Int)
    (latDeg lonDeg : F) (odd : Bool) : Option (List UInt8) :=
  match ac12 altFt with
  | none => none
  | some alt12 =>
    let (yz, xz) := Cpr.encodeAirborne latDeg lonDeg odd
    let oddBit : UInt64 := if odd then 1 else 0
    let me : UInt64 := (tc.toUInt64 <<< 51) ||| (alt12.toUInt64 <<< 36) ||| (oddBit <<< 34) |||
      (yz.toUInt64 <<< 17) ||| xz.toUInt64
    let head := (((17 : UInt8) <<< 3) ||| (ca &&& 0x7)) :: bytes24 icao.val ++
      (List.range 7).map fun i => (me >>> UInt64.ofNat (48 - 8 * i)).toUInt8
    some (head ++ bytes24 (crc24 head))

/-- The two frames a position is reported to other programs with. -/
def df18PositionPair {F : Type} [F64Fn F] (icao : Icao) (altFt : Int) (latDeg lonDeg : F) :
    Option (List UInt8 × List UInt8) :=
  match ac12 altFt with
  | none => none
  | some alt12 =>
    let frame := fun odd : Bool =>
      let (yz, xz) := Cpr.encodeAirborne latDeg lonDeg odd
      let oddBit : UInt64 := if odd then 1 else 0
      let me : UInt64 := ((18 : UInt64) <<< 51) ||| (alt12.toUInt64 <<< 36) ||| (oddBit <<< 34) |||
        (yz.toUInt64 <<< 17) ||| xz.toUInt64
      let head := (((18 : UInt8) <<< 3) ||| 2) :: bytes24 icao.val ++
        (List.range 7).map fun j => (me >>> UInt64.ofNat (48 - 8 * j)).toUInt8
      head ++ bytes24 (crc24 head)
    some (frame false, frame true)

/-- An altitude reply; the address is laid over the parity. -/
def df4 (icao : Icao) (fs : UInt8) (altFt : Int) : Option (List UInt8) :=
  match ac13 altFt with
  | none => none
  | some ac =>
    let word : UInt32 := ((4 : UInt32) <<< 27) ||| ((fs.toUInt32 &&& 0x7) <<< 24) ||| ac.toUInt32
    let head := (word >>> 24).toUInt8 :: bytes24 word
    some (head ++ bytes24 (crc24 head ^^^ icao.val))

end Modes

end MlatBench
