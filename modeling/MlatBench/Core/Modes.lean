import Mathlib.Data.List.Basic
import Mathlib.Logic.Function.Iterate

/-!
# Mode S Frames

The byte-level vocabulary of the `mb-modes` crate: the 24-bit parity, the
downlink format, and the three frame kinds the server decodes. Frames are byte
lists, addresses and remainders are 32-bit words, exactly as in the source, so
that what happens above bit 23 of the parity register is part of the model.

## Main definitions

* `Icao`: A 24-bit aircraft address.
* `crc24Poly`: The Mode S generator without its leading coefficient.
* `crcBit`: One turn of the inner parity loop.
* `crcByte`: One turn of the outer parity loop.
* `crc24`: The Mode S parity of a byte list.
* `be24`: Three big-endian bytes.
* `be56`: Seven big-endian bytes, the DF17 message field.
* `dfOf`: The downlink format, if the length is plausible.
* `ac12Decode`, `ac13Decode`: The altitude fields.
* `Df17Airborne`: A decoded DF17 airborne position message.
* `parseDf17Airborne`, `parseDf11`, `parseDf4`: The frame decoders.
* `df11`: The DF11 frame builder.
-/

namespace MlatBench

/-- 24-bit ICAO aircraft address. -/
structure Icao where
  val : UInt32
deriving DecidableEq, Repr

namespace Modes

/-- Mode S CRC-24 generator polynomial. -/
def crc24Poly : UInt32 := 0xFFF409

/-- One turn of the inner loop: shift, then subtract the generator if the bit
    that left the 24-bit register is set. The register is 32 bits wide and
    keeps what was shifted out; only the final mask removes it. -/
def crcBit (crc : UInt32) : UInt32 :=
  let crc := crc <<< 1
  if crc &&& 0x1000000 ≠ 0 then crc ^^^ crc24Poly else crc

/-- One turn of the outer loop. -/
def crcByte (crc : UInt32) (byte : UInt8) : UInt32 :=
  crcBit^[8] (crc ^^^ (byte.toUInt32 <<< 16))

/-- CRC-24 over `data`, most significant bit first. -/
def crc24 (data : List UInt8) : UInt32 :=
  data.foldl crcByte 0 &&& 0xFFFFFF

/-- Three big-endian bytes as a number. -/
def be24 (b : List UInt8) : UInt32 :=
  ((b.getD 0 0).toUInt32 <<< 16) ||| ((b.getD 1 0).toUInt32 <<< 8) ||| (b.getD 2 0).toUInt32

/-- The seven bytes of a DF17 message field as a number. -/
def be56 (b : List UInt8) : UInt64 :=
  (b.take 7).foldl (fun acc x => (acc <<< 8) ||| x.toUInt64) 0

/-- Downlink format of a raw frame, if its length is plausible. -/
def dfOf (f : List UInt8) : Option UInt8 :=
  if f.length = 7 ∨ f.length = 14 then some (f.getD 0 0 >>> 3) else none

/-- Decode AC12; only the 25 ft encoding is read. -/
def ac12Decode (field : UInt16) : Option Int :=
  if field &&& 0x010 = 0 then none
  else
    let n := ((field &&& 0xFE0) >>> 1) ||| (field &&& 0x00F)
    some (25 * n.toNat - 1000)

/-- Decode AC13; only the 25 ft encoding is read. -/
def ac13Decode (field : UInt16) : Option Int :=
  if field &&& 0x040 ≠ 0 ∨ field &&& 0x010 = 0 then none
  else
    let n := ((field &&& 0x1F80) >>> 2) ||| ((field &&& 0x020) >>> 1) ||| (field &&& 0x00F)
    some (25 * n.toNat - 1000)

/-- A decoded DF17 airborne position message. -/
structure Df17Airborne where
  icao : Icao
  odd : Bool
  cprLat : UInt32
  cprLon : UInt32
  altFt : Option Int
deriving DecidableEq, Repr

/-- Parse a 14-byte DF17 airborne position frame. The parity of the whole
    frame must vanish and the type code must be an airborne position. -/
def parseDf17Airborne (f : List UInt8) : Option Df17Airborne :=
  if f.length ≠ 14 ∨ f.getD 0 0 >>> 3 ≠ 17 ∨ crc24 f ≠ 0 then none
  else
    let me := be56 (f.drop 4)
    let tc := (me >>> 51) &&& 0x1F
    if tc < 9 ∨ 18 < tc then none
    else
      some {
        icao := ⟨be24 (f.drop 1)⟩
        odd := (me >>> 34) &&& 1 = 1
        cprLat := ((me >>> 17) &&& 0x1FFFF).toUInt32
        cprLon := (me &&& 0x1FFFF).toUInt32
        altFt := ac12Decode ((me >>> 36) &&& 0xFFF).toUInt16 }

/-- Parse a 7-byte DF11. The address is read, the parity is not checked. -/
def parseDf11 (f : List UInt8) : Option Icao :=
  if f.length ≠ 7 ∨ f.getD 0 0 >>> 3 ≠ 11 then none
  else some ⟨be24 (f.drop 1)⟩

/-- Parse a 7-byte DF4 altitude reply: the address is what remains of the
    parity field, the altitude is the AC13 field. -/
def parseDf4 (f : List UInt8) : Option (Icao × Option Int) :=
  if f.length ≠ 7 ∨ f.getD 0 0 >>> 3 ≠ 4 then none
  else
    let ap := be24 (f.drop 4)
    let head := ((f.getD 0 0).toUInt32 <<< 24) ||| be24 (f.drop 1)
    some (⟨(crc24 (f.take 4) ^^^ ap) &&& 0xFFFFFF⟩, ac13Decode (head &&& 0x1FFF).toUInt16)

/-- DF11 all-call reply with interrogator code zero: the parity field is the
    bare parity of the first four bytes. -/
def df11 (icao : Icao) (ca : UInt8) : List UInt8 :=
  let head : List UInt8 := [((11 : UInt8) <<< 3) ||| (ca &&& 0x7), (icao.val >>> 16).toUInt8,
    (icao.val >>> 8).toUInt8, icao.val.toUInt8]
  let p := crc24 head
  head ++ [(p >>> 16).toUInt8, (p >>> 8).toUInt8, p.toUInt8]

end Modes

end MlatBench
