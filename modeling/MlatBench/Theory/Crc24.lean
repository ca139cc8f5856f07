import MlatBench.Core.Modes
import MlatBench.Library.Lfsr

/-!
# The Mode S Parity

The parity loop of the source against the shift register of `Library.Lfsr`.

The source keeps its remainder in a 32-bit word and never clears what it has
shifted out of the low 24 bits. `low24` forgets those bits, and `low24_crcBit`
says that the forgotten part never comes back: the bit the loop tests is the
top bit of the 24-bit register. `crc24_toBitVec` is the refinement this gives,
and from there on every fact about the parity is a fact about the register.

`low24_crc24_append` is the fact frames rest on. Appending a 24-bit field to a
message shifts the difference between the field and the message's own parity
through the register 24 times. The result is zero exactly when the field is the
parity, and otherwise it is *not* that difference but its image under a linear
bijection.

## Main definitions

* `low24`: The 24-bit register inside the 32-bit word.
* `gen24`: The generator as a 24-bit register.
* `field24`: A 24-bit field read from its three bytes.

## Theorems

* `low24_xor`: Forgetting commutes with exclusive or.
* `tested_bit`: The bit the loop tests is the register's top bit.
* `low24_crcBit`, `low24_crcByte`, `low24_fold`: The loops are register steps.
* `low24_crc24`: The parity is the register after all bytes were fed.
* `crc24_lt`: The parity is below `2 ^ 24`.
* `eq_of_low24_eq`: A word below `2 ^ 24` is determined by its register.
* `be24_lt`: A field is below `2 ^ 24`.
* `parseDf17Airborne_lt`, `parseDf11_lt`, `parseDf4_lt`: So is an address.
* `low24_be24`: A field read from its bytes.
* `feed_three`: Three bytes fed one by one are one field added at once.
* `low24_crc24_append`: The parity of a message with a field appended.
-/

namespace MlatBench

namespace Modes

open Library

/-- The 24-bit register inside the 32-bit word. -/
def low24 (x : UInt32) : BitVec 24 := x.toBitVec.setWidth 24

/-- The generator as a 24-bit register. -/
def gen24 : BitVec 24 := 0xFFF409#24

theorem low24_xor (x y : UInt32) : low24 (x ^^^ y) = low24 x ^^^ low24 y := by
  simp only [low24, UInt32.toBitVec_xor, BitVec.setWidth_xor]

/-- The bit the loop tests after shifting is the register's top bit before. -/
theorem tested_bit (x : UInt32) :
    ((x <<< 1) &&& 0x1000000 ≠ 0) ↔ (low24 x).msb = true := by
  have hmask : (0x1000000 : UInt32).toBitVec = BitVec.twoPow 32 24 := by decide
  have hbit : (x.toBitVec <<< 1).getLsbD 24 = (low24 x).msb := by
    simp only [low24, BitVec.msb_eq_getLsbD_last, BitVec.getLsbD_setWidth,
      BitVec.getLsbD_shiftLeft]
    rfl
  have hword : ((x <<< 1) &&& 0x1000000).toBitVec
      = if (low24 x).msb then BitVec.twoPow 32 24 else 0#32 := by
    rw [UInt32.toBitVec_and, hmask, show (x <<< 1).toBitVec = x.toBitVec <<< 1 from rfl,
      BitVec.and_twoPow, hbit]
  rw [ne_eq, ← UInt32.toBitVec_inj, hword]
  cases (low24 x).msb <;> decide

theorem low24_crcBit (x : UInt32) : low24 (crcBit x) = lfsr gen24 (low24 x) := by
  have hshift : low24 (x <<< 1) = low24 x <<< 1 := by
    simp only [low24, show (x <<< 1).toBitVec = x.toBitVec <<< 1 from rfl]
    refine BitVec.eq_of_getLsbD_eq fun i hi => ?_
    simp only [BitVec.getLsbD_setWidth, BitVec.getLsbD_shiftLeft]
    cases h1 : decide (i < 1) <;> simp only [hi, decide_true, Bool.true_and, Bool.not_false,
      Bool.not_true, Bool.and_true, Bool.and_false, Bool.false_and,
      show i < 32 by omega, show i - 1 < 24 by omega]
  unfold crcBit lfsr
  by_cases hm : (low24 x).msb = true
  · rw [if_pos ((tested_bit x).mpr hm), if_pos hm, low24_xor, hshift]
    rfl
  · rw [if_neg fun h => hm ((tested_bit x).mp h), if_neg hm, hshift]

theorem low24_crcByte (c : UInt32) (b : UInt8) :
    low24 (crcByte c b) = feed gen24 (low24 c) b.toBitVec := by
  have hiter : ∀ n x, low24 (crcBit^[n] x) = (lfsr gen24)^[n] (low24 x) := by
    intro n
    induction n with
    | zero => intro x; rfl
    | succ n ih =>
        intro x
        rw [Function.iterate_succ_apply, ih, low24_crcBit, Function.iterate_succ_apply]
  have hbyte : low24 (b.toUInt32 <<< 16) = b.toBitVec.setWidth 24 <<< 16 := by
    simp only [low24, show (b.toUInt32 <<< 16).toBitVec = b.toBitVec.setWidth 32 <<< 16 from rfl]
    refine BitVec.eq_of_getLsbD_eq fun i hi => ?_
    simp only [BitVec.getLsbD_setWidth, BitVec.getLsbD_shiftLeft]
    cases h1 : decide (i < 16) <;> simp only [hi, decide_true, Bool.true_and, Bool.not_false,
      Bool.not_true, Bool.and_true, Bool.and_false, Bool.false_and,
      show i < 32 by omega, show i - 16 < 32 by omega, show i - 16 < 24 by omega]
  rw [crcByte, hiter, low24_xor, hbyte, feed]

theorem low24_fold (d : List UInt8) : ∀ (c : UInt32),
    low24 (d.foldl crcByte c) = (d.map UInt8.toBitVec).foldl (feed gen24) (low24 c) := by
  induction d with
  | nil => intro c; rfl
  | cons b d ih =>
      intro c
      rw [List.foldl_cons, ih, low24_crcByte, List.map_cons, List.foldl_cons]

/-- The parity is the register after every byte was fed; the final mask only
    removes what the register never held. -/
theorem low24_crc24 (d : List UInt8) :
    low24 (crc24 d) = (d.map UInt8.toBitVec).foldl (feed gen24) 0#24 := by
  have hmask : ∀ x : UInt32, low24 (x &&& 0xFFFFFF) = low24 x := by
    intro x
    have hones : BitVec.setWidth 24 (0xFFFFFF : UInt32).toBitVec = BitVec.allOnes 24 := by decide
    rw [low24, UInt32.toBitVec_and, BitVec.setWidth_and, hones, BitVec.and_allOnes]
    rfl
  rw [crc24, hmask, low24_fold]
  rfl

theorem crc24_lt (d : List UInt8) : (crc24 d).toNat < 2 ^ 24 := by
  have hle : (crc24 d).toNat ≤ (0xFFFFFF : UInt32).toNat := by
    rw [crc24, UInt32.toNat_and]
    exact Nat.and_le_right
  exact lt_of_le_of_lt hle (by decide)

/-- A word below `2 ^ 24` is determined by its register. -/
theorem eq_of_low24_eq {x y : UInt32} (hx : x.toNat < 2 ^ 24) (hy : y.toNat < 2 ^ 24)
    (h : low24 x = low24 y) : x = y := by
  have hnat := congrArg BitVec.toNat h
  simp only [low24, BitVec.toNat_setWidth, UInt32.toNat_toBitVec] at hnat
  rw [Nat.mod_eq_of_lt hx, Nat.mod_eq_of_lt hy] at hnat
  exact UInt32.toNat_inj.mp hnat

/-- A 24-bit field read from its three bytes. -/
def field24 (a b c : BitVec 8) : BitVec 24 :=
  (a.setWidth 24 <<< 16) ^^^ (b.setWidth 24 <<< 8) ^^^ c.setWidth 24

theorem be24_lt (b : List UInt8) : (be24 b).toNat < 2 ^ 24 := by
  have hshift : ∀ (x : UInt8) (k : UInt32), k.toNat ≤ 16 → (x.toUInt32 <<< k).toNat < 2 ^ 24 := by
    intro x k hk
    have hx : x.toNat < 2 ^ 8 := x.toNat_lt
    rw [UInt32.toNat_shiftLeft, UInt8.toNat_toUInt32, Nat.shiftLeft_eq,
      Nat.mod_eq_of_lt (show k.toNat < 32 by omega)]
    have hpow : 2 ^ k.toNat ≤ 2 ^ 16 := Nat.pow_le_pow_right (by decide) hk
    have hmul : x.toNat * 2 ^ k.toNat < 2 ^ 8 * 2 ^ 16 := by
      exact Nat.mul_lt_mul_of_lt_of_le hx hpow (by decide)
    exact lt_of_le_of_lt (Nat.mod_le _ _) hmul
  unfold be24
  rw [UInt32.toNat_or, UInt32.toNat_or]
  refine Nat.or_lt_two_pow (Nat.or_lt_two_pow (hshift _ 16 (by decide)) (hshift _ 8 (by decide))) ?_
  have hx : (b.getD 2 0).toNat < 2 ^ 8 := (b.getD 2 0).toNat_lt
  rw [UInt8.toNat_toUInt32]
  omega

theorem parseDf17Airborne_lt (f : List UInt8) (d : Df17Airborne)
    (h : parseDf17Airborne f = some d) : d.icao.val.toNat < 2 ^ 24 := by
  unfold parseDf17Airborne at h
  simp only [] at h
  split_ifs at h
  rw [← Option.some.inj h]
  exact be24_lt _

theorem parseDf11_lt (f : List UInt8) (icao : Icao) (h : parseDf11 f = some icao) :
    icao.val.toNat < 2 ^ 24 := by
  unfold parseDf11 at h
  split_ifs at h
  rw [← Option.some.inj h]
  exact be24_lt _

theorem parseDf4_lt (f : List UInt8) (icao : Icao) (alt : Option Int)
    (h : parseDf4 f = some (icao, alt)) : icao.val.toNat < 2 ^ 24 := by
  unfold parseDf4 at h
  simp only [] at h
  split_ifs at h
  rw [← (Prod.mk.inj (Option.some.inj h)).1]
  have hle : ∀ x : UInt32, (x &&& 0xFFFFFF).toNat ≤ (0xFFFFFF : UInt32).toNat := by
    intro x
    rw [UInt32.toNat_and]
    exact Nat.and_le_right
  exact lt_of_le_of_lt (hle _) (by decide)

/-- The three bytes of a field do not overlap, so reading it with inclusive or
    is reading it with exclusive or. -/
theorem low24_be24 (a b c : UInt8) :
    low24 (be24 [a, b, c]) = field24 a.toBitVec b.toBitVec c.toBitVec := by
  have hword : (be24 [a, b, c]).toBitVec = (a.toBitVec.setWidth 32 <<< 16) |||
      (b.toBitVec.setWidth 32 <<< 8) ||| c.toBitVec.setWidth 32 := rfl
  unfold low24 field24
  rw [hword]
  refine BitVec.eq_of_getLsbD_eq fun i hi => ?_
  simp only [BitVec.getLsbD_setWidth, BitVec.getLsbD_xor, BitVec.getLsbD_or,
    BitVec.getLsbD_shiftLeft]
  -- At each position at most one of the three bytes has a bit to offer.
  by_cases h8 : i < 8
  · simp [h8, hi, show i < 16 by omega, show i < 32 by omega]
  · rw [BitVec.getLsbD_of_ge c.toBitVec i (by omega)]
    by_cases h16 : i < 16
    · simp [h8, h16, hi, show i < 32 by omega, show i - 8 < 24 by omega, show i - 8 < 32 by omega]
    · rw [BitVec.getLsbD_of_ge b.toBitVec (i - 8) (by omega)]
      simp [h8, h16, hi, show i < 32 by omega, show i - 16 < 24 by omega,
        show i - 16 < 32 by omega]

/-- Three bytes fed one after the other are one field added to the register
    before 24 shifts: a byte waiting below the top is only moved up until its
    turn comes. -/
theorem feed_three (r : BitVec 24) (a b c : BitVec 8) :
    feed gen24 (feed gen24 (feed gen24 r a) b) c = (lfsr gen24)^[24] (r ^^^ field24 a b c) := by
  have hb : (lfsr gen24)^[8] (b.setWidth 24 <<< 8) = b.setWidth 24 <<< 16 := by
    rw [iterate_lfsr_eq_shiftLeft, ← BitVec.shiftLeft_add]
    have := b.isLt
    rw [BitVec.toNat_shiftLeft, BitVec.toNat_setWidth, Nat.shiftLeft_eq]
    omega
  have hc : (lfsr gen24)^[8] ((lfsr gen24)^[8] (c.setWidth 24)) = c.setWidth 24 <<< 16 := by
    rw [← Function.iterate_add_apply, iterate_lfsr_eq_shiftLeft]
    have := c.isLt
    rw [BitVec.toNat_setWidth]
    omega
  have hsplit : ∀ x, (lfsr gen24)^[24] x
      = (lfsr gen24)^[8] ((lfsr gen24)^[8] ((lfsr gen24)^[8] x)) := fun x => rfl
  unfold feed field24
  rw [hsplit, ← BitVec.xor_assoc, ← BitVec.xor_assoc]
  simp only [iterate_lfsr_xor, hb, hc]

/-- Appending a field to a message: what is left is the difference between the
    field and the message's own parity, shifted through the register. -/
theorem low24_crc24_append (d : List UInt8) (a b c : UInt8) :
    low24 (crc24 (d ++ [a, b, c]))
      = (lfsr gen24)^[24] (low24 (crc24 d) ^^^ field24 a.toBitVec b.toBitVec c.toBitVec) := by
  rw [low24_crc24, low24_crc24, List.map_append, List.foldl_append]
  simp only [List.map_cons, List.map_nil, List.foldl_cons, List.foldl_nil]
  exact feed_three _ _ _ _

end Modes

end MlatBench
