import MlatBench.Core.Engine
import MlatBench.Core.Frames
import MlatBench.Library.Words
import MlatBench.Theory.Crc24

/-!
# Frames Decode to What Was Encoded

The frame builders against the frame decoders. Words are taken as numbers: fields
that do not overlap add up, and a field is read by a division and a remainder. The
parity behind a frame makes the parity of the whole vanish; with an address laid
over it, the address is what remains.

The coordinates of a position go through the position code, whose arithmetic is
left open; what is said here is that its two numbers come back.

## Main definitions

* `sealed`: A frame with its parity behind it.
* `message`, `bytes56`: The 56 bits of a position, and their bytes.
* `squitter`: A position frame with a given first byte.
* `typeCode`, `positionFields`: What such a frame carries.
* `Encodable`: Altitudes in steps of 25 ft.
* `carried`: What a position frame is to carry.
* `replyWord`: The first word of an altitude reply.

## Theorems

* `or_add`, `and_block`: Fields of numbers.
* `be24_bytes24`, `be56_bytes56`: Words and their bytes.
* `crc24_sealed`: The parity of a sealed frame vanishes.
* `toNat_message`, `toNat_replyWord`: Fields that do not overlap.
* `ac12Decode_ac12`, `ac13Decode_ac13`: Altitudes come back.
* `positionFields_squitter`: What a position frame carries.
* `unmask`: An address comes off a parity.
* `frames_decode`: All frames decode to what was encoded.
-/

namespace MlatBench

namespace Modes

open Library Client

/-- Fields that do not overlap add up. -/
theorem or_add (i a b : Nat) (hb : b < 2 ^ i) : 2 ^ i * a ||| b = 2 ^ i * a + b :=
  (Nat.two_pow_add_eq_or_of_lt hb a).symm

/-- A run of bits within a word. -/
theorem and_block (n w k : Nat) : n &&& ((2 ^ w - 1) * 2 ^ k) = 2 ^ k * (n / 2 ^ k % 2 ^ w) := by
  have hpos : 0 < 2 ^ k := Nat.two_pow_pos k
  have hhigh : (n &&& ((2 ^ w - 1) * 2 ^ k)) / 2 ^ k = n / 2 ^ k % 2 ^ w := by
    rw [Nat.and_div_two_pow, Nat.mul_div_cancel _ hpos, Nat.and_two_pow_sub_one_eq_mod]
  have hlow : (n &&& ((2 ^ w - 1) * 2 ^ k)) % 2 ^ k = 0 := by
    rw [Nat.and_mod_two_pow, Nat.mul_mod_left, Nat.and_zero]
  rw [← Nat.div_add_mod (n &&& ((2 ^ w - 1) * 2 ^ k)) (2 ^ k), hhigh, hlow, Nat.add_zero]

theorem toNat_be24 (a b c : UInt8) (rest : List UInt8) :
    (be24 (a :: b :: c :: rest)).toNat = a.toNat * 65536 + b.toNat * 256 + c.toNat := by
  have ha := a.toNat_lt
  have hb := b.toNat_lt
  have hc := c.toNat_lt
  -- The bytes are fields that do not overlap.
  have hword : (be24 (a :: b :: c :: rest)).toNat =
      2 ^ 16 * a.toNat ||| 2 ^ 8 * b.toNat ||| c.toNat := by
    change ((a.toUInt32 <<< 16) ||| (b.toUInt32 <<< 8) ||| c.toUInt32).toNat = _
    rw [UInt32.toNat_or, UInt32.toNat_or, UInt32.toNat_shiftLeft, UInt32.toNat_shiftLeft,
      UInt8.toNat_toUInt32, UInt8.toNat_toUInt32, UInt8.toNat_toUInt32]
    simp only [UInt32.toNat_ofNat, Nat.reduceMod, Nat.reducePow, Nat.shiftLeft_eq]
    rw [Nat.mod_eq_of_lt (by omega), Nat.mod_eq_of_lt (by omega), Nat.mul_comm, Nat.mul_comm b.toNat]
  rw [hword, or_add 16 _ _ (by omega)]
  have hsplit : 2 ^ 16 * a.toNat + 2 ^ 8 * b.toNat = 2 ^ 8 * (256 * a.toNat + b.toNat) := by omega
  rw [hsplit, or_add 8 _ _ (by omega)]
  omega

/-- Three bytes of a word are its lowest 24 bits. -/
theorem be24_bytes24 (x : UInt32) (rest : List UInt8) (hx : x.toNat < 2 ^ 24) :
    be24 (bytes24 x ++ rest) = x := by
  refine UInt32.toNat_inj.mp ?_
  change (be24 ((x >>> 16).toUInt8 :: (x >>> 8).toUInt8 :: x.toUInt8 :: rest)).toNat = _
  rw [toNat_be24]
  simp only [UInt32.toNat_toUInt8, UInt32.toNat_shiftRight, UInt32.toNat_ofNat, Nat.reduceMod,
    Nat.reducePow, Nat.shiftRight_eq_div_pow]
  omega

/-- A frame with its parity behind it. -/
def sealed (head : List UInt8) : List UInt8 :=
  head ++ bytes24 (crc24 head)

theorem low24_bytes24 (x : UInt32) : field24 (x >>> 16).toUInt8.toBitVec
    (x >>> 8).toUInt8.toBitVec x.toUInt8.toBitVec = low24 (be24 (bytes24 x)) :=
  (low24_be24 _ _ _).symm

/-- The parity of a sealed frame vanishes. -/
theorem crc24_sealed (head : List UInt8) : crc24 (sealed head) = 0 := by
  refine eq_of_low24_eq (crc24_lt _) (by decide) ?_
  have hlfsr := iterate_lfsr_xor gen24 24 (low24 (crc24 head)) (low24 (crc24 head))
  have happend := low24_crc24_append head (crc24 head >>> 16).toUInt8 (crc24 head >>> 8).toUInt8
    (crc24 head).toUInt8
  have hbytes := be24_bytes24 (crc24 head) [] (crc24_lt head)
  rw [List.append_nil] at hbytes
  -- The parity behind the head is laid over itself.
  rw [low24_bytes24, hbytes, hlfsr, BitVec.xor_self] at happend
  exact happend

/-- A shift that loses nothing. -/
theorem toNat_shiftLeft (x k : UInt64) (hk : k.toNat < 64) (hx : x.toNat * 2 ^ k.toNat < 2 ^ 64) :
    (x <<< k).toNat = 2 ^ k.toNat * x.toNat := by
  rw [UInt64.toNat_shiftLeft, Nat.mod_eq_of_lt hk, Nat.shiftLeft_eq, Nat.mod_eq_of_lt hx,
    Nat.mul_comm]

/-- One more byte. -/
theorem toNat_shift_byte (acc : UInt64) (b : UInt8) (h : (acc.toNat + 1) * 256 ≤ 2 ^ 64) :
    ((acc <<< 8) ||| b.toUInt64).toNat = acc.toNat * 256 + b.toNat := by
  have hb := b.toNat_lt
  have hshift : (acc <<< 8).toNat = 2 ^ 8 * acc.toNat := by
    refine toNat_shiftLeft acc 8 (by decide) ?_
    change acc.toNat * 2 ^ 8 < 2 ^ 64
    omega
  rw [UInt64.toNat_or, hshift, UInt8.toNat_toUInt64, or_add 8 _ _ (by omega)]
  omega

/-- Reading bytes into a word is reading their value, as long as it fits. -/
theorem toNat_foldl_bytes (bs : List UInt8) (acc : UInt64)
    (hacc : (acc.toNat + 1) * 256 ^ bs.length ≤ 2 ^ 64) :
    (bs.foldl (fun (acc : UInt64) (x : UInt8) => (acc <<< 8) ||| x.toUInt64) acc).toNat =
      bs.foldl (fun n c => n * 256 + c.toNat) acc.toNat := by
  induction bs generalizing acc with
  | nil => rfl
  | cons b bs ih =>
      have hb := b.toNat_lt
      rw [List.length_cons, Nat.pow_succ, Nat.mul_comm (256 ^ _), ← Nat.mul_assoc] at hacc
      have hfit : (acc.toNat + 1) * 256 ≤ 2 ^ 64 :=
        le_trans (Nat.le_mul_of_pos_right _ (Nat.pow_pos (by decide))) hacc
      have hstep := toNat_shift_byte acc b hfit
      rw [List.foldl_cons, List.foldl_cons, ih, hstep]
      rw [hstep]
      exact le_trans (Nat.mul_le_mul_right _ (by omega)) hacc

theorem toNat_be56 (bs rest : List UInt8) (h : bs.length = 7) :
    (be56 (bs ++ rest)).toNat = beValue bs := by
  unfold be56 beValue
  rw [List.take_append_of_le_length h.ge, List.take_of_length_le h.le]
  refine toNat_foldl_bytes bs 0 ?_
  rw [h]
  decide

/-- The seven bytes of a message. -/
def bytes56 (me : UInt64) : List UInt8 :=
  (List.range 7).map fun i => (me >>> UInt64.ofNat (48 - 8 * i)).toUInt8

theorem bytes56_eq (me : UInt64) : bytes56 me = beBytes 7 me.toNat := by
  have hbyte : ∀ k, k < 64 → (me >>> UInt64.ofNat k).toUInt8 = UInt8.ofNat (me.toNat / 2 ^ k) := by
    intro k hk
    refine UInt8.toNat_inj.mp ?_
    rw [UInt64.toNat_toUInt8, UInt64.toNat_shiftRight, UInt8.toNat_ofNat', UInt64.toNat_ofNat',
      Nat.mod_eq_of_lt (by omega : k < 2 ^ 64), Nat.mod_eq_of_lt hk, Nat.shiftRight_eq_div_pow]
  have hrange : List.range 7 = [0, 1, 2, 3, 4, 5, 6] := by decide
  unfold bytes56
  rw [hrange]
  simp only [List.map_cons, List.map_nil]
  rw [hbyte _ (by decide), hbyte _ (by decide), hbyte _ (by decide), hbyte _ (by decide),
    hbyte _ (by decide), hbyte _ (by decide), hbyte _ (by decide)]
  simp only [beBytes, leBytes, Nat.div_div_eq_div_mul, List.reverse_cons, List.reverse_nil,
    List.nil_append, List.cons_append, Nat.reduceMul, Nat.reduceSub, Nat.reducePow, Nat.div_one]

/-- Seven bytes of a word are its lowest 56 bits. -/
theorem be56_bytes56 (me : UInt64) (rest : List UInt8) (hme : me.toNat < 2 ^ 56) :
    be56 (bytes56 me ++ rest) = me := by
  refine UInt64.toNat_inj.mp ?_
  rw [bytes56_eq, toNat_be56 _ rest (length_beBytes 7 _)]
  exact beValue_beBytes 7 me.toNat hme

/-- The 56 bits of a position: type code, altitude, parity and coordinates. -/
def message (tc : UInt64) (alt12 : UInt16) (odd : Bool) (yz xz : UInt32) : UInt64 :=
  let oddBit : UInt64 := if odd then 1 else 0
  (tc <<< 51) ||| (alt12.toUInt64 <<< 36) ||| (oddBit <<< 34) ||| (yz.toUInt64 <<< 17) |||
    xz.toUInt64

/-- The fields of a message do not overlap. -/
theorem toNat_message (tc : UInt64) (alt12 : UInt16) (odd : Bool) (yz xz : UInt32)
    (htc : tc.toNat < 32) (halt : alt12.toNat < 4096) (hyz : yz.toNat < 131072)
    (hxz : xz.toNat < 131072) :
    (message tc alt12 odd yz xz).toNat = tc.toNat * 2 ^ 51 + alt12.toNat * 2 ^ 36 +
      (if odd then 1 else 0) * 2 ^ 34 + yz.toNat * 2 ^ 17 + xz.toNat := by
  have hodd : (if odd then 1 else 0 : UInt64).toNat = if odd then 1 else 0 := by
    cases odd <;> rfl
  have hbit : (if odd then 1 else 0 : Nat) < 2 := by
    cases odd <;> decide
  have hc : (tc <<< 51).toNat = 2 ^ 51 * tc.toNat := by
    refine toNat_shiftLeft tc 51 (by decide) ?_
    change tc.toNat * 2 ^ 51 < 2 ^ 64
    omega
  have ha : (alt12.toUInt64 <<< 36).toNat = 2 ^ 36 * alt12.toNat := by
    refine toNat_shiftLeft alt12.toUInt64 36 (by decide) ?_
    change alt12.toNat * 2 ^ 36 < 2 ^ 64
    omega
  have ho : ((if odd then 1 else 0 : UInt64) <<< 34).toNat =
      2 ^ 34 * if odd then 1 else 0 := by
    rw [← hodd]
    refine toNat_shiftLeft _ 34 (by decide) ?_
    rw [hodd]
    change (if odd then 1 else 0) * 2 ^ 34 < 2 ^ 64
    omega
  have hy : (yz.toUInt64 <<< 17).toNat = 2 ^ 17 * yz.toNat := by
    refine toNat_shiftLeft yz.toUInt64 17 (by decide) ?_
    change yz.toNat * 2 ^ 17 < 2 ^ 64
    omega
  unfold message
  simp only [UInt64.toNat_or, hc, ha, ho, hy, UInt32.toNat_toUInt64]
  generalize (if odd then 1 else 0 : Nat) = o at hbit ⊢
  generalize alt12.toNat = a at halt ⊢
  generalize tc.toNat = c at htc ⊢
  generalize yz.toNat = y at hyz ⊢
  generalize xz.toNat = x at hxz ⊢
  -- From the highest field down, each sum is a multiple of what the next field counts.
  rw [or_add 51 c _ (by omega)]
  have h36 : 2 ^ 51 * c + 2 ^ 36 * a = 2 ^ 36 * (32768 * c + a) := by omega
  rw [h36, or_add 36 _ _ (by omega)]
  have h34 : 2 ^ 36 * (32768 * c + a) + 2 ^ 34 * o = 2 ^ 34 * (4 * (32768 * c + a) + o) := by omega
  rw [h34, or_add 34 _ _ (by omega)]
  have h17 : 2 ^ 34 * (4 * (32768 * c + a) + o) + 2 ^ 17 * y =
      2 ^ 17 * (131072 * (4 * (32768 * c + a) + o) + y) := by omega
  rw [h17, or_add 17 _ _ (by omega)]
  omega

/-- A field of a word. -/
theorem toNat_field (me k m : UInt64) (w : Nat) (hk : k.toNat < 64) (hm : m.toNat = 2 ^ w - 1) :
    ((me >>> k) &&& m).toNat = me.toNat / 2 ^ k.toNat % 2 ^ w := by
  rw [UInt64.toNat_and, UInt64.toNat_shiftRight, Nat.mod_eq_of_lt hk, hm,
    Nat.and_two_pow_sub_one_eq_mod, Nat.shiftRight_eq_div_pow]

/-- The type code of a position frame. -/
def typeCode (f : List UInt8) : UInt64 :=
  (be56 (f.drop 4) >>> 51) &&& 0x1F

/-- What a position frame carries, whatever its format. -/
def positionFields (f : List UInt8) : Df17Airborne :=
  { icao := ⟨be24 (f.drop 1)⟩
    odd := (be56 (f.drop 4) >>> 34) &&& 1 = 1
    cprLat := ((be56 (f.drop 4) >>> 17) &&& 0x1FFFF).toUInt32
    cprLon := (be56 (f.drop 4) &&& 0x1FFFF).toUInt32
    altFt := ac12Decode ((be56 (f.drop 4) >>> 36) &&& 0xFFF).toUInt16 }

theorem parseDf17Airborne_eq (f : List UInt8) :
    parseDf17Airborne f =
      if f.length ≠ 14 ∨ f.getD 0 0 >>> 3 ≠ 17 ∨ crc24 f ≠ 0 then none
      else if typeCode f < 9 ∨ 18 < typeCode f then none
      else some (positionFields f) := rfl

/-- A position frame with a given first byte. -/
def squitter (first : UInt8) (icao : Icao) (me : UInt64) : List UInt8 :=
  sealed (first :: bytes24 icao.val ++ bytes56 me)

theorem length_squitter (first : UInt8) (icao : Icao) (me : UInt64) :
    (squitter first icao me).length = 14 := by
  unfold squitter sealed bytes56 bytes24
  simp only [List.length_append, List.length_cons, List.length_nil, List.length_map,
    List.length_range]

theorem drop_squitter (first : UInt8) (icao : Icao) (me : UInt64) :
    (squitter first icao me).drop 4 =
      bytes56 me ++ bytes24 (crc24 (first :: bytes24 icao.val ++ bytes56 me)) := rfl

/-- A position frame carries what was put in. -/
theorem positionFields_squitter (first : UInt8) (icao : Icao) (tc : UInt64) (alt12 : UInt16)
    (altFt : Int) (odd : Bool) (yz xz : UInt32) (hicao : icao.val.toNat < 2 ^ 24)
    (htc : tc.toNat < 32) (halt : alt12.toNat < 4096) (hdecode : ac12Decode alt12 = some altFt)
    (hyz : yz.toNat < 131072) (hxz : xz.toNat < 131072) :
    typeCode (squitter first icao (message tc alt12 odd yz xz)) = tc ∧
      positionFields (squitter first icao (message tc alt12 odd yz xz)) =
        { icao := icao, odd := odd, cprLat := yz, cprLon := xz, altFt := some altFt } := by
  have hsum := toNat_message tc alt12 odd yz xz htc halt hyz hxz
  have hbit : (if odd then 1 else 0 : Nat) < 2 := by
    cases odd <;> decide
  have hme : be56 ((squitter first icao (message tc alt12 odd yz xz)).drop 4) =
      message tc alt12 odd yz xz := by
    rw [drop_squitter]
    exact be56_bytes56 _ _ (by omega)
  have haddr : be24 ((squitter first icao (message tc alt12 odd yz xz)).drop 1) = icao.val :=
    be24_bytes24 icao.val _ hicao
  unfold typeCode positionFields
  rw [hme, haddr]
  generalize message tc alt12 odd yz xz = me at hsum
  -- Each field is a quotient and a remainder of the word.
  have h51 : ((me >>> 51) &&& 0x1F).toNat = me.toNat / 2 ^ 51 % 2 ^ 5 :=
    toNat_field me 51 0x1F 5 (by decide) (by decide)
  have h34 : ((me >>> 34) &&& 1).toNat = me.toNat / 2 ^ 34 % 2 ^ 1 :=
    toNat_field me 34 1 1 (by decide) (by decide)
  have h17 : ((me >>> 17) &&& 0x1FFFF).toNat = me.toNat / 2 ^ 17 % 2 ^ 17 :=
    toNat_field me 17 0x1FFFF 17 (by decide) (by decide)
  have h36 : ((me >>> 36) &&& 0xFFF).toNat = me.toNat / 2 ^ 36 % 2 ^ 12 :=
    toNat_field me 36 0xFFF 12 (by decide) (by decide)
  have h0 : (me &&& 0x1FFFF).toNat = me.toNat % 2 ^ 17 := by
    rw [UInt64.toNat_and]
    exact Nat.and_two_pow_sub_one_eq_mod _ 17
  have hodd : decide ((me >>> 34) &&& 1 = 1) = odd := by
    have hiff : (me >>> 34) &&& 1 = 1 ↔ odd = true := by
      rw [← UInt64.toNat_inj, h34, hsum]
      cases odd with
      | false =>
          simp only [Bool.false_eq_true, if_false, iff_false]
          change ¬ _ = 1
          omega
      | true =>
          simp only [if_true, iff_true]
          change _ = 1
          omega
    exact Bool.eq_iff_iff.mpr (decide_eq_true_iff.trans hiff)
  refine ⟨UInt64.toNat_inj.mp (by omega), ?_⟩
  have hlat : ((me >>> 17) &&& 0x1FFFF).toUInt32 = yz :=
    UInt32.toNat_inj.mp (by rw [UInt64.toNat_toUInt32]; omega)
  have hlon : (me &&& 0x1FFFF).toUInt32 = xz :=
    UInt32.toNat_inj.mp (by rw [UInt64.toNat_toUInt32]; omega)
  have hfield : ((me >>> 36) &&& 0xFFF).toUInt16 = alt12 :=
    UInt16.toNat_inj.mp (by rw [UInt64.toNat_toUInt16]; omega)
  rw [hodd, hlat, hlon, hfield, hdecode]

/-- The format of a first byte. -/
theorem format_first (d c : UInt8) (hd : d.toNat < 32) : ((d <<< 3) ||| (c &&& 0x7)) >>> 3 = d := by
  refine UInt8.toNat_inj.mp ?_
  have hlow : (c &&& 0x7).toNat = c.toNat % 8 := by
    rw [UInt8.toNat_and]
    exact Nat.and_two_pow_sub_one_eq_mod _ 3
  have hhigh : (d <<< 3).toNat = 2 ^ 3 * d.toNat := by
    rw [UInt8.toNat_shiftLeft]
    simp only [UInt8.toNat_ofNat, Nat.reduceMod, Nat.reducePow, Nat.shiftLeft_eq]
    omega
  rw [UInt8.toNat_shiftRight, UInt8.toNat_or, hlow, hhigh, or_add 3 _ _ (by omega)]
  simp only [UInt8.toNat_ofNat, Nat.reduceMod, Nat.reducePow, Nat.shiftRight_eq_div_pow]
  omega

/-- Altitudes that can be encoded, in feet. -/
def Encodable (altFt : Int) : Prop :=
  -1000 ≤ altFt ∧ altFt ≤ 50175 ∧ 25 ∣ altFt

theorem altStep_eq (altFt : Int) (h : Encodable altFt) :
    ∃ n : Nat, n < 2048 ∧ altFt = 25 * n - 1000 ∧ altStep altFt = some (UInt16.ofNat n) := by
  rcases h with ⟨hlow, hhigh, q, rfl⟩
  refine ⟨(q + 40).toNat, by omega, by omega, ?_⟩
  have hwrap : wrap32 (25 * q + 1000) = 25 * (q + 40) := by
    unfold wrap32
    rw [Int.bmod_eq_of_le (by omega) (by omega)]
    ring
  have hstep : (25 * (q + 40)).tdiv 25 = q + 40 := Int.mul_tdiv_cancel_left (q + 40) (by decide)
  unfold altStep
  simp only [hwrap, hstep]
  rw [if_pos (by omega)]

/-- The step in the altitude field of a position: seven bits, a one, four bits. -/
theorem toNat_ac12 (n : UInt16) (hn : n.toNat < 2048) :
    (((n &&& 0x7F0) <<< 1) ||| 0x010 ||| (n &&& 0x00F)).toNat =
      n.toNat / 16 * 32 + 16 + n.toNat % 16 := by
  have hhigh : n.toNat &&& 0x7F0 = 2 ^ 4 * (n.toNat / 2 ^ 4 % 2 ^ 7) := and_block n.toNat 7 4
  have hlow : n.toNat &&& 0x00F = n.toNat % 2 ^ 4 := Nat.and_two_pow_sub_one_eq_mod n.toNat 4
  have hshift : ((n &&& 0x7F0) <<< 1).toNat = 2 ^ 5 * (n.toNat / 16) := by
    rw [UInt16.toNat_shiftLeft, UInt16.toNat_and]
    change (n.toNat &&& 0x7F0) <<< 1 % 65536 = _
    rw [hhigh, Nat.shiftLeft_eq]
    omega
  rw [UInt16.toNat_or, UInt16.toNat_or, UInt16.toNat_and, hshift]
  change 2 ^ 5 * (n.toNat / 16) ||| 16 ||| (n.toNat &&& 0x00F) = _
  rw [hlow, or_add 5 _ 16 (by decide)]
  have hsplit : 2 ^ 5 * (n.toNat / 16) + 16 = 2 ^ 4 * (2 * (n.toNat / 16) + 1) := by omega
  rw [hsplit, or_add 4 _ _ (Nat.mod_lt _ (by decide))]
  omega

/-- In a reply: six bits, a zero, one bit, a one, four bits. -/
theorem toNat_ac13 (n : UInt16) (hn : n.toNat < 2048) :
    (((n &&& 0x7E0) <<< 2) ||| ((n &&& 0x010) <<< 1) ||| 0x010 ||| (n &&& 0x00F)).toNat =
      n.toNat / 32 * 128 + n.toNat / 16 % 2 * 32 + 16 + n.toNat % 16 := by
  have hhigh : n.toNat &&& 0x7E0 = 2 ^ 5 * (n.toNat / 2 ^ 5 % 2 ^ 6) := and_block n.toNat 6 5
  have hmid : n.toNat &&& 0x010 = 2 ^ 4 * (n.toNat / 2 ^ 4 % 2 ^ 1) := and_block n.toNat 1 4
  have hlow : n.toNat &&& 0x00F = n.toNat % 2 ^ 4 := Nat.and_two_pow_sub_one_eq_mod n.toNat 4
  have hshift : ((n &&& 0x7E0) <<< 2).toNat = 2 ^ 7 * (n.toNat / 32) := by
    rw [UInt16.toNat_shiftLeft, UInt16.toNat_and]
    change (n.toNat &&& 0x7E0) <<< 2 % 65536 = _
    rw [hhigh, Nat.shiftLeft_eq]
    omega
  have hbit : ((n &&& 0x010) <<< 1).toNat = 32 * (n.toNat / 16 % 2) := by
    rw [UInt16.toNat_shiftLeft, UInt16.toNat_and]
    change (n.toNat &&& 0x010) <<< 1 % 65536 = _
    rw [hmid, Nat.shiftLeft_eq]
    omega
  rw [UInt16.toNat_or, UInt16.toNat_or, UInt16.toNat_or, UInt16.toNat_and, hshift, hbit]
  change 2 ^ 7 * (n.toNat / 32) ||| 32 * (n.toNat / 16 % 2) ||| 16 ||| (n.toNat &&& 0x00F) = _
  rw [hlow, or_add 7 _ _ (by omega)]
  have h5 : 2 ^ 7 * (n.toNat / 32) + 32 * (n.toNat / 16 % 2) =
      2 ^ 5 * (4 * (n.toNat / 32) + n.toNat / 16 % 2) := by omega
  rw [h5, or_add 5 _ 16 (by decide)]
  have h4 : 2 ^ 5 * (4 * (n.toNat / 32) + n.toNat / 16 % 2) + 16 =
      2 ^ 4 * (2 * (4 * (n.toNat / 32) + n.toNat / 16 % 2) + 1) := by omega
  rw [h4, or_add 4 _ _ (Nat.mod_lt _ (by decide))]
  omega

/-- The altitude field of a position comes back. -/
theorem ac12Decode_ac12 (altFt : Int) (h : Encodable altFt) :
    ∃ field, ac12 altFt = some field ∧ field.toNat < 4096 ∧ ac12Decode field = some altFt := by
  rcases altStep_eq altFt h with ⟨n, hn, rfl, hstep⟩
  have hword : (UInt16.ofNat n).toNat = n := by
    rw [UInt16.toNat_ofNat', Nat.mod_eq_of_lt (by omega)]
  have hfield := toNat_ac12 (UInt16.ofNat n) (by omega)
  rw [hword] at hfield
  unfold ac12
  rw [hstep, Option.map_some]
  refine ⟨_, rfl, by omega, ?_⟩
  generalize ((UInt16.ofNat n &&& 0x7F0) <<< 1) ||| 0x010 ||| (UInt16.ofNat n &&& 0x00F) = x
    at hfield ⊢
  have hq : x.toNat &&& 0x010 = 2 ^ 4 * (x.toNat / 2 ^ 4 % 2 ^ 1) := and_block x.toNat 1 4
  have hhigh : x.toNat &&& 0xFE0 = 2 ^ 5 * (x.toNat / 2 ^ 5 % 2 ^ 7) := and_block x.toNat 7 5
  have hlow : x.toNat &&& 0x00F = x.toNat % 2 ^ 4 := Nat.and_two_pow_sub_one_eq_mod x.toNat 4
  -- The bit for steps of 25 ft is set.
  have hone : x &&& 0x010 ≠ 0 := by
    intro hzero
    have hnat : x.toNat &&& 0x010 = 0 := congrArg UInt16.toNat hzero
    omega
  have hsteps : (((x &&& 0xFE0) >>> 1) ||| (x &&& 0x00F)).toNat = n := by
    rw [UInt16.toNat_or, UInt16.toNat_shiftRight, UInt16.toNat_and, UInt16.toNat_and]
    change (x.toNat &&& 0xFE0) >>> 1 ||| (x.toNat &&& 0x00F) = n
    have hhalf : (x.toNat &&& 0xFE0) >>> 1 = 2 ^ 4 * (n / 16) := by
      rw [hhigh, Nat.shiftRight_eq_div_pow]
      omega
    rw [hhalf, hlow, or_add 4 _ _ (Nat.mod_lt _ (by decide))]
    omega
  unfold ac12Decode
  rw [if_neg hone]
  simp only [hsteps]

/-- The altitude field of a reply comes back. -/
theorem ac13Decode_ac13 (altFt : Int) (h : Encodable altFt) :
    ∃ field, ac13 altFt = some field ∧ field.toNat < 8192 ∧ ac13Decode field = some altFt := by
  rcases altStep_eq altFt h with ⟨n, hn, rfl, hstep⟩
  have hword : (UInt16.ofNat n).toNat = n := by
    rw [UInt16.toNat_ofNat', Nat.mod_eq_of_lt (by omega)]
  have hfield := toNat_ac13 (UInt16.ofNat n) (by omega)
  rw [hword] at hfield
  unfold ac13
  rw [hstep, Option.map_some]
  refine ⟨_, rfl, by omega, ?_⟩
  generalize ((UInt16.ofNat n &&& 0x7E0) <<< 2) ||| ((UInt16.ofNat n &&& 0x010) <<< 1) ||| 0x010 |||
    (UInt16.ofNat n &&& 0x00F) = x at hfield ⊢
  have hm : x.toNat &&& 0x040 = 2 ^ 6 * (x.toNat / 2 ^ 6 % 2 ^ 1) := and_block x.toNat 1 6
  have hq : x.toNat &&& 0x010 = 2 ^ 4 * (x.toNat / 2 ^ 4 % 2 ^ 1) := and_block x.toNat 1 4
  have hhigh : x.toNat &&& 0x1F80 = 2 ^ 7 * (x.toNat / 2 ^ 7 % 2 ^ 6) := and_block x.toNat 6 7
  have hmid : x.toNat &&& 0x020 = 2 ^ 5 * (x.toNat / 2 ^ 5 % 2 ^ 1) := and_block x.toNat 1 5
  have hlow : x.toNat &&& 0x00F = x.toNat % 2 ^ 4 := Nat.and_two_pow_sub_one_eq_mod x.toNat 4
  -- Feet, and in steps of 25.
  have hread : ¬ (x &&& 0x040 ≠ 0 ∨ x &&& 0x010 = 0) := by
    rintro (hone | hzero)
    · refine hone (UInt16.toNat_inj.mp ?_)
      rw [UInt16.toNat_and]
      change x.toNat &&& 0x040 = 0
      omega
    · have hnat : x.toNat &&& 0x010 = 0 := congrArg UInt16.toNat hzero
      omega
  have hsteps : (((x &&& 0x1F80) >>> 2) ||| ((x &&& 0x020) >>> 1) ||| (x &&& 0x00F)).toNat = n := by
    rw [UInt16.toNat_or, UInt16.toNat_or, UInt16.toNat_shiftRight, UInt16.toNat_shiftRight,
      UInt16.toNat_and, UInt16.toNat_and, UInt16.toNat_and]
    change (x.toNat &&& 0x1F80) >>> 2 ||| (x.toNat &&& 0x020) >>> 1 ||| (x.toNat &&& 0x00F) = n
    have hquarter : (x.toNat &&& 0x1F80) >>> 2 = 2 ^ 5 * (n / 32) := by
      rw [hhigh, Nat.shiftRight_eq_div_pow]
      omega
    have hhalf : (x.toNat &&& 0x020) >>> 1 = 16 * (n / 16 % 2) := by
      rw [hmid, Nat.shiftRight_eq_div_pow]
      omega
    rw [hquarter, hhalf, hlow, or_add 5 _ _ (by omega)]
    have hsplit : 2 ^ 5 * (n / 32) + 16 * (n / 16 % 2) = 2 ^ 4 * (n / 16) := by omega
    rw [hsplit, or_add 4 _ _ (Nat.mod_lt _ (by decide))]
    omega
  unfold ac13Decode
  rw [if_neg hread]
  simp only [hsteps]

section Frames

variable {F : Type} [F64Fn F]

/-- A coordinate's report has 17 bits, whatever its arithmetic. -/
theorem quantize_lt (x d : F) : (Cpr.quantize x d).toNat < 131072 := by
  unfold Cpr.quantize
  rw [UInt32.toNat_ofNat']
  omega

theorem encodeAirborne_lt (lat lon : F) (odd : Bool) :
    (Cpr.encodeAirborne lat lon odd).1.toNat < 131072 ∧
      (Cpr.encodeAirborne lat lon odd).2.toNat < 131072 :=
  ⟨quantize_lt _ _, quantize_lt _ _⟩

/-- What a position frame is to carry. -/
def carried (icao : Icao) (altFt : Int) (lat lon : F) (odd : Bool) : Df17Airborne :=
  { icao := icao, odd := odd, cprLat := (Cpr.encodeAirborne lat lon odd).1
    cprLon := (Cpr.encodeAirborne lat lon odd).2, altFt := some altFt }

/-- A position is given back. -/
theorem squitter_position (first : UInt8) (icao : Icao) (hicao : icao.val.toNat < 2 ^ 24)
    (tc : UInt64) (htc : tc.toNat < 32) (altFt : Int) (field : UInt16)
    (hfield : field.toNat < 4096) (hdecode : ac12Decode field = some altFt) (lat lon : F)
    (odd : Bool) :
    typeCode (squitter first icao (message tc field odd (Cpr.encodeAirborne lat lon odd).1
        (Cpr.encodeAirborne lat lon odd).2)) = tc ∧
      positionFields (squitter first icao (message tc field odd (Cpr.encodeAirborne lat lon odd).1
        (Cpr.encodeAirborne lat lon odd).2)) = carried icao altFt lat lon odd :=
  positionFields_squitter first icao tc field altFt odd _ _ hicao htc hfield hdecode
    (encodeAirborne_lt lat lon odd).1 (encodeAirborne_lt lat lon odd).2

/-- Of an airborne position. -/
theorem parse_df17 (icao : Icao) (hicao : icao.val.toNat < 2 ^ 24) (ca tc : UInt8)
    (htc : 9 ≤ tc.toNat ∧ tc.toNat ≤ 18) (altFt : Int) (halt : Encodable altFt) (lat lon : F)
    (odd : Bool) :
    (df17AirbornePosition icao ca tc altFt lat lon odd).bind parseDf17Airborne =
      some (carried icao altFt lat lon odd) := by
  rcases ac12Decode_ac12 altFt halt with ⟨field, hac, hfield, hdecode⟩
  have hbuilt : df17AirbornePosition icao ca tc altFt lat lon odd =
      some (squitter (((17 : UInt8) <<< 3) ||| (ca &&& 0x7)) icao (message tc.toUInt64 field odd
        (Cpr.encodeAirborne lat lon odd).1 (Cpr.encodeAirborne lat lon odd).2)) := by
    unfold df17AirbornePosition
    rw [hac]
    rfl
  have hcode : tc.toUInt64.toNat = tc.toNat := UInt8.toNat_toUInt64 tc
  have hsquitter := squitter_position (((17 : UInt8) <<< 3) ||| (ca &&& 0x7)) icao hicao tc.toUInt64
    (by omega) altFt field hfield hdecode lat lon odd
  rw [hbuilt, Option.bind_some, parseDf17Airborne_eq, hsquitter.1, hsquitter.2]
  have hfirst : ∀ me, (squitter (((17 : UInt8) <<< 3) ||| (ca &&& 0x7)) icao me).getD 0 0 >>> 3 = 17 :=
    fun me => format_first 17 ca (by decide)
  have hcrc : ∀ first me, crc24 (squitter first icao me) = 0 := fun first me => crc24_sealed _
  -- The frame passes the checks, and the type code is one of a position.
  rw [if_neg (by rw [length_squitter, hfirst, hcrc]; decide), if_neg]
  rw [not_or, UInt64.not_lt, UInt64.not_lt, UInt64.le_iff_toNat_le, UInt64.le_iff_toNat_le, hcode]
  exact htc

/-- Both frames of a pair carry the position, each in its own format. -/
theorem fields_df18 (icao : Icao) (hicao : icao.val.toNat < 2 ^ 24) (altFt : Int)
    (halt : Encodable altFt) (lat lon : F) :
    ∃ frame : Bool → List UInt8, df18PositionPair icao altFt lat lon = some (frame false, frame true) ∧
      ∀ odd, dfOf (frame odd) = some 18 ∧ crc24 (frame odd) = 0 ∧ typeCode (frame odd) = 18 ∧
        positionFields (frame odd) = carried icao altFt lat lon odd := by
  rcases ac12Decode_ac12 altFt halt with ⟨field, hac, hfield, hdecode⟩
  refine ⟨fun odd => squitter (((18 : UInt8) <<< 3) ||| 2) icao (message 18 field odd
    (Cpr.encodeAirborne lat lon odd).1 (Cpr.encodeAirborne lat lon odd).2), ?_, fun odd => ?_⟩
  · unfold df18PositionPair
    rw [hac]
    rfl
  · have hsquitter := squitter_position (((18 : UInt8) <<< 3) ||| 2) icao hicao 18 (by decide) altFt
      field hfield hdecode lat lon odd
    refine ⟨?_, crc24_sealed _, hsquitter.1, hsquitter.2⟩
    have hfirst : (((18 : UInt8) <<< 3) ||| 2) >>> 3 = 18 := by decide
    exact (if_pos (Or.inr (length_squitter _ icao _))).trans (congrArg some hfirst)

end Frames

/-- Of an all-call reply. -/
theorem parse_df11 (icao : Icao) (hicao : icao.val.toNat < 2 ^ 24) (ca : UInt8) :
    parseDf11 (df11 icao ca) = some icao ∧ crc24 (df11 icao ca) = 0 := by
  have hbuilt : df11 icao ca =
      sealed ((((11 : UInt8) <<< 3) ||| (ca &&& 0x7)) :: bytes24 icao.val) := rfl
  have haddr : be24 ((df11 icao ca).drop 1) = icao.val := be24_bytes24 icao.val _ hicao
  have hfirst : (df11 icao ca).getD 0 0 >>> 3 = 11 := format_first 11 ca (by decide)
  refine ⟨?_, by rw [hbuilt, crc24_sealed]⟩
  unfold parseDf11
  rw [if_neg, haddr]
  rw [hfirst]
  rintro (hlen | hdf)
  · exact hlen rfl
  · exact hdf rfl

/-- The first word of an altitude reply. -/
def replyWord (fs : UInt8) (ac : UInt16) : UInt32 :=
  ((4 : UInt32) <<< 27) ||| ((fs.toUInt32 &&& 0x7) <<< 24) ||| ac.toUInt32

theorem toNat_replyWord (fs : UInt8) (ac : UInt16) (hac : ac.toNat < 8192) :
    (replyWord fs ac).toNat = 2 ^ 24 * (32 + fs.toNat % 8) + ac.toNat := by
  have hstatus : ((fs.toUInt32 &&& 0x7) <<< 24).toNat = 2 ^ 24 * (fs.toNat % 8) := by
    rw [UInt32.toNat_shiftLeft, UInt32.toNat_and, UInt8.toNat_toUInt32]
    change (fs.toNat &&& 7) <<< 24 % 2 ^ 32 = _
    have hlow : fs.toNat &&& 7 = fs.toNat % 2 ^ 3 := Nat.and_two_pow_sub_one_eq_mod fs.toNat 3
    rw [hlow, Nat.shiftLeft_eq]
    omega
  unfold replyWord
  rw [UInt32.toNat_or, UInt32.toNat_or, hstatus, UInt16.toNat_toUInt32]
  change 2 ^ 27 * 4 ||| 2 ^ 24 * (fs.toNat % 8) ||| ac.toNat = _
  rw [or_add 27 4 _ (by omega)]
  have hsplit : 2 ^ 27 * 4 + 2 ^ 24 * (fs.toNat % 8) = 2 ^ 24 * (32 + fs.toNat % 8) := by omega
  rw [hsplit, or_add 24 _ _ (by omega)]

/-- Four bytes put together again. -/
theorem word_bytes (x : UInt32) (rest : List UInt8) :
    ((x >>> 24).toUInt8.toUInt32 <<< 24) ||| be24 (bytes24 x ++ rest) = x := by
  refine UInt32.toNat_inj.mp ?_
  have hx := x.toNat_lt
  have hhigh : ((x >>> 24).toUInt8.toUInt32 <<< 24).toNat = 2 ^ 24 * (x.toNat / 2 ^ 24) := by
    rw [UInt32.toNat_shiftLeft, UInt8.toNat_toUInt32, UInt32.toNat_toUInt8, UInt32.toNat_shiftRight]
    change (x.toNat >>> 24 % 2 ^ 8) <<< 24 % 2 ^ 32 = _
    rw [Nat.shiftRight_eq_div_pow, Nat.shiftLeft_eq]
    omega
  have hlow : (be24 (bytes24 x ++ rest)).toNat = x.toNat % 2 ^ 24 := by
    change (be24 ((x >>> 16).toUInt8 :: (x >>> 8).toUInt8 :: x.toUInt8 :: rest)).toNat = _
    rw [toNat_be24]
    simp only [UInt32.toNat_toUInt8, UInt32.toNat_shiftRight, UInt32.toNat_ofNat, Nat.reduceMod,
      Nat.reducePow, Nat.shiftRight_eq_div_pow]
    omega
  rw [UInt32.toNat_or, hhigh, hlow, or_add 24 _ _ (Nat.mod_lt _ (by decide))]
  omega

/-- An address laid over a parity comes off again. -/
theorem unmask (p : UInt32) (icao : Icao) (hp : p.toNat < 2 ^ 24) (hicao : icao.val.toNat < 2 ^ 24)
    (rest : List UInt8) :
    (p ^^^ be24 (bytes24 (p ^^^ icao.val) ++ rest)) &&& 0xFFFFFF = icao.val := by
  have hlt : (p ^^^ icao.val).toNat < 2 ^ 24 := by
    rw [UInt32.toNat_xor]
    exact Nat.xor_lt_two_pow hp hicao
  rw [be24_bytes24 _ _ hlt, ← UInt32.xor_assoc, UInt32.xor_self, UInt32.zero_xor]
  refine UInt32.toNat_inj.mp ?_
  rw [UInt32.toNat_and]
  exact (Nat.and_two_pow_sub_one_eq_mod icao.val.toNat 24).trans (Nat.mod_eq_of_lt hicao)

/-- Of an altitude reply; the engine recovers the same address. -/
theorem parse_df4 (icao : Icao) (hicao : icao.val.toNat < 2 ^ 24) (fs : UInt8) (altFt : Int)
    (halt : Encodable altFt) :
    ∃ f, df4 icao fs altFt = some f ∧ parseDf4 f = some (icao, some altFt) ∧ dfOf f = some 4 ∧
      Engine.apAddress f = icao.val := by
  rcases ac13Decode_ac13 altFt halt with ⟨field, hac, hfield, hdecode⟩
  have hword := toNat_replyWord fs field hfield
  have hstatus := Nat.mod_lt fs.toNat (by decide : 0 < 8)
  generalize hw : replyWord fs field = w at hword
  have hbuilt : df4 icao fs altFt = some ((w >>> 24).toUInt8 :: bytes24 w ++
      bytes24 (crc24 ((w >>> 24).toUInt8 :: bytes24 w) ^^^ icao.val)) := by
    unfold df4
    rw [hac, ← hw]
    rfl
  have hunmask := unmask (crc24 ((w >>> 24).toUInt8 :: bytes24 w)) icao (crc24_lt _) hicao []
  rw [List.append_nil] at hunmask
  -- The flight status stays below the format.
  have hfirst : (w >>> 24).toUInt8 >>> 3 = 4 := by
    refine UInt8.toNat_inj.mp ?_
    rw [UInt8.toNat_shiftRight, UInt32.toNat_toUInt8, UInt32.toNat_shiftRight]
    change (w.toNat >>> 24 % 2 ^ 8) >>> 3 = 4
    rw [Nat.shiftRight_eq_div_pow, Nat.shiftRight_eq_div_pow]
    omega
  refine ⟨_, hbuilt, ?_, ?_, hunmask⟩
  · have hread : (w &&& 0x1FFF).toUInt16 = field := by
      refine UInt16.toNat_inj.mp ?_
      rw [UInt32.toNat_toUInt16, UInt32.toNat_and]
      have hlow : w.toNat &&& 0x1FFF = w.toNat % 2 ^ 13 :=
        Nat.and_two_pow_sub_one_eq_mod w.toNat 13
      change (w.toNat &&& 0x1FFF) % 2 ^ 16 = _
      rw [hlow]
      omega
    have hhead := word_bytes w (bytes24 (crc24 ((w >>> 24).toUInt8 :: bytes24 w) ^^^ icao.val))
    unfold parseDf4
    rw [if_neg]
    · change some (_, ac13Decode (((((w >>> 24).toUInt8.toUInt32 <<< 24) |||
        be24 (bytes24 w ++ _)) &&& 0x1FFF).toUInt16)) = _
      rw [hhead, hread, hdecode]
      exact congrArg (fun a : UInt32 => some ((⟨a⟩ : Icao), some altFt)) hunmask
    · rintro (hlen | hdf)
      · exact hlen rfl
      · exact hdf hfirst
  · exact (if_pos (Or.inl rfl)).trans (congrArg some hfirst)

section Frames

variable {F : Type} [F64Fn F]

/-- Every frame decodes to what was encoded: airborne positions of both formats,
    altitude replies, all-call replies and the pair for other programs. -/
theorem frames_decode (icao : Icao) (hicao : icao.val.toNat < 2 ^ 24) (ca fs tc : UInt8)
    (htc : 9 ≤ tc.toNat ∧ tc.toNat ≤ 18) (altFt : Int) (halt : Encodable altFt) (lat lon : F) :
    (∀ odd, (df17AirbornePosition icao ca tc altFt lat lon odd).bind parseDf17Airborne =
      some (carried icao altFt lat lon odd)) ∧
    (∃ f, df4 icao fs altFt = some f ∧ parseDf4 f = some (icao, some altFt) ∧ dfOf f = some 4 ∧
      Engine.apAddress f = icao.val) ∧
    (parseDf11 (df11 icao ca) = some icao ∧ crc24 (df11 icao ca) = 0) ∧
    ∃ frame : Bool → List UInt8,
      df18PositionPair icao altFt lat lon = some (frame false, frame true) ∧
      ∀ odd, dfOf (frame odd) = some 18 ∧ crc24 (frame odd) = 0 ∧ typeCode (frame odd) = 18 ∧
        positionFields (frame odd) = carried icao altFt lat lon odd :=
  ⟨parse_df17 icao hicao ca tc htc altFt halt lat lon, parse_df4 icao hicao fs altFt halt,
    parse_df11 icao hicao ca, fields_df18 icao hicao altFt halt lat lon⟩

end Frames

/-- The reply of an aircraft at 21000 ft. -/
theorem frames_decode_reply :
    ∃ f, df4 ⟨0x3944F1⟩ 0 21000 = some f ∧ parseDf4 f = some (⟨0x3944F1⟩, some 21000) ∧
      dfOf f = some 4 ∧ Engine.apAddress f = 0x3944F1 :=
  (frames_decode ⟨0x3944F1⟩ (by decide) 5 0 11 (by decide) 21000 ⟨by decide, by decide, by decide⟩
    (472 / 10 : ℚ) (-15 / 10)).2.1

end Modes

end MlatBench
