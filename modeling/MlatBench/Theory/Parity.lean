import MlatBench.Library.Bursts
import MlatBench.Theory.Engine
import MlatBench.Theory.Frames

/-!
# What The Parity Catches

The parity of a message with a field behind it vanishes for one field only, and
it is linear. So what an error leaves of a frame whose parity vanishes is the
parity of the error, and of errors within 24 bits in a row that is never zero: a
position damaged so is not parsed, and the engine takes it for no position.

## Main definitions

* `xorBytes`: A frame with an error laid over it.
* `Burst`: An error within 24 bits in a row.
* `Engine.NotTaken`: A reception that is not taken for a position.

## Theorems

* `crc24_append_eq_zero_iff`: The field that makes the parity vanish.
* `crc24_xor`: The parity is linear.
* `crc24_parity`: Both.
* `crc24_burst`: A burst has a parity.
* `burst_caught`: A damaged position is caught.
-/

namespace MlatBench

namespace Modes

open Library

/-- A frame with an error laid over it. -/
def xorBytes (a b : List UInt8) : List UInt8 :=
  List.zipWith (· ^^^ ·) a b

/-- The bits of some bytes, in the order they are sent. -/
def byteBits (e : List UInt8) : List Bool :=
  (e.map UInt8.toBitVec).flatMap wordBits

/-- An error that is one, within 24 bits in a row. -/
def Burst (e : List UInt8) : Prop :=
  (∃ b ∈ e, b ≠ 0) ∧ ∃ start, InWindow (byteBits e) start 24

theorem crc24_eq_zero_iff (d : List UInt8) : crc24 d = 0 ↔ low24 (crc24 d) = 0#24 :=
  ⟨fun h => by rw [h]; rfl, fun h => eq_of_low24_eq (crc24_lt d) (by decide) h⟩

/-- Only its own parity behind a message makes the parity vanish. -/
theorem crc24_append_eq_zero_iff (d : List UInt8) (x : UInt32) (hx : x.toNat < 2 ^ 24) :
    crc24 (d ++ bytes24 x) = 0 ↔ x = crc24 d := by
  have hbytes := be24_bytes24 x [] hx
  rw [List.append_nil] at hbytes
  have happend := low24_crc24_append d (x >>> 16).toUInt8 (x >>> 8).toUInt8 x.toUInt8
  rw [low24_bytes24, hbytes] at happend
  have hgen : gen24.getLsbD 0 = true := by decide
  -- The shifts behind the field lose nothing, so only no difference leaves nothing.
  rw [crc24_eq_zero_iff, bytes24, happend, iterate_lfsr_eq_zero_iff gen24 hgen,
    BitVec.xor_eq_zero_iff]
  exact ⟨fun h => (eq_of_low24_eq (crc24_lt d) hx h).symm, fun h => by rw [h]⟩

/-- The parity of the one laid over the other is that of the one over that of the
    other. -/
theorem crc24_xor (a b : List UInt8) (h : a.length = b.length) :
    crc24 (xorBytes a b) = crc24 a ^^^ crc24 b := by
  have hlt : (crc24 a ^^^ crc24 b).toNat < 2 ^ 24 := by
    rw [UInt32.toNat_xor]
    exact Nat.xor_lt_two_pow (crc24_lt a) (crc24_lt b)
  have hmap : (xorBytes a b).map UInt8.toBitVec =
      List.zipWith (· ^^^ ·) (a.map UInt8.toBitVec) (b.map UInt8.toBitVec) := by
    rw [xorBytes, List.map_zipWith, List.zipWith_map]
    rfl
  refine eq_of_low24_eq (crc24_lt _) hlt ?_
  rw [low24_xor, low24_crc24, low24_crc24, low24_crc24, hmap,
    ← foldl_feed_xor gen24 _ _ (by rw [List.length_map, List.length_map, h]), BitVec.xor_self]

/-- The parity of a message with a field vanishes if and only if the field is the
    message's parity, and the parity is linear. -/
theorem crc24_parity (d : List UInt8) (x : UInt32) (hx : x.toNat < 2 ^ 24) (a b : List UInt8)
    (h : a.length = b.length) :
    (crc24 (d ++ bytes24 x) = 0 ↔ x = crc24 d) ∧ crc24 (xorBytes a b) = crc24 a ^^^ crc24 b :=
  ⟨crc24_append_eq_zero_iff d x hx, crc24_xor a b h⟩

/-- A burst has a parity. -/
theorem crc24_burst (e : List UInt8) (h : Burst e) : crc24 e ≠ 0 := by
  rcases h with ⟨⟨b, hb, hne⟩, start, hin⟩
  have hset : true ∈ byteBits e := by
    refine List.mem_flatMap.mpr ⟨b.toBitVec, List.mem_map_of_mem hb, true_mem_wordBits _ ?_⟩
    exact fun hzero => hne (UInt8.toBitVec_inj.mp hzero)
  -- Fed bit by bit, the window is as wide as the register.
  rw [ne_eq, crc24_eq_zero_iff, low24_crc24, foldl_feed gen24 (by decide)]
  exact foldl_feedBit_ne_zero gen24 (by decide) (byteBits e) start hset hin

section Example

/-- A position up to its parity, and its parity. -/
def positionHead : List UInt8 :=
  [0x8D, 0x40, 0x62, 0x1D, 0x58, 0xC3, 0x82, 0xD6, 0x90, 0xC8, 0xAC]

def position : List UInt8 := positionHead ++ bytes24 0x2863A7

/-- An error in three bytes in a row. -/
def threeBytes : List UInt8 := [0, 0, 0, 0, 0, 0x81, 0, 0xFF, 0, 0, 0, 0, 0, 0]

theorem crc24_parity_position :
    (crc24 (positionHead ++ bytes24 0x2863A7) = 0 ↔ 0x2863A7 = crc24 positionHead) ∧
      crc24 (xorBytes position threeBytes) = crc24 position ^^^ crc24 threeBytes :=
  crc24_parity positionHead 0x2863A7 (by decide) position threeBytes (by decide)

end Example

end Modes

namespace Client

open Modes

namespace Engine

/-- A reception that is not taken for a position: of a DF17 nothing is left but the
    reset test, no sync is sent, and no half is stored. -/
structure NotTaken (e : Engine) (r : Reception) (now : Instant) : Prop where
  dropped : dfOf r.frame = some 17 → e.onReception r now = e.checkReset r
  syncs : ∀ server msg, (server, msg) ∈ (e.onReception r now).2 →
    ∀ et ot em om, msg ≠ .sync et ot em om
  halves : (e.onReception r now).1.Halves fun addr odd h =>
    ∃ a, e.aircraft addr = some a ∧ half a odd = some h

/-- A frame whose parity does not vanish is not taken for a position. -/
theorem notTaken_of_crc24 (e : Engine) (r : Reception) (now : Instant) (h : crc24 r.frame ≠ 0)
    (hparse : parseDf17Airborne r.frame = none) : NotTaken e r now := by
  refine ⟨fun hdf => ?_, fun server msg hmem et ot em om hmsg => ?_, ?_⟩
  · unfold onReception
    simp only [hdf, if_true, if_pos h]
  · have hreset : (server, msg) ∈ (e.checkReset r).2 → False := by
      intro hmem
      rw [mem_checkReset e r server msg hmem] at hmsg
      cases hmsg
    -- Only pairing sends syncs, and what is not parsed is not paired.
    rcases onReception_cases e r now with hc | ⟨addr, _, ⟨_, hc⟩ | ⟨_, d, hd, _⟩ | ⟨v, _, hc⟩⟩
    · rw [hc] at hmem
      exact hreset hmem
    · rw [hc] at hmem
      exact hreset hmem
    · rw [hparse] at hd
      cases hd
    · rw [hc] at hmem
      rcases List.mem_append.mp hmem with hmem | hmem
      · exact hreset hmem
      · rcases mem_forward _ addr r server msg hmem with ⟨_, _, hforward, _⟩
        rw [hforward] at hmsg
        cases hmsg
  · have hstored : e.Halves fun addr odd h => ∃ a, e.aircraft addr = some a ∧ half a odd = some h :=
      fun addr a odd h ha hh => ⟨a, ha, hh⟩
    refine (hstored.checkReset r).onReception r now fun d hd => ?_
    rw [hparse] at hd
    cases hd

end Engine

/-- A frame whose parity vanishes, with a burst laid over it, has a parity: it is not
    parsed as a position, and no engine takes it for one. -/
theorem burst_caught (f e : List UInt8) (hf : crc24 f = 0) (hlen : e.length = f.length)
    (he : Burst e) :
    crc24 (xorBytes f e) ≠ 0 ∧ parseDf17Airborne (xorBytes f e) = none ∧
      ∀ (engine : Engine) (counts : Nat) (now : Instant),
        engine.NotTaken ⟨counts, xorBytes f e⟩ now := by
  -- What is left is the parity of the error alone.
  have hcrc : crc24 (xorBytes f e) ≠ 0 := by
    rw [crc24_xor f e hlen.symm, hf, UInt32.zero_xor]
    exact crc24_burst e he
  have hparse : parseDf17Airborne (xorBytes f e) = none := by
    unfold parseDf17Airborne
    rw [if_pos (Or.inr (Or.inr hcrc))]
  exact ⟨hcrc, hparse, fun engine counts now => engine.notTaken_of_crc24 _ now hcrc hparse⟩

theorem burst_caught_position :
    crc24 (xorBytes position threeBytes) ≠ 0 ∧
      parseDf17Airborne (xorBytes position threeBytes) = none ∧
      ∀ (engine : Engine) (counts : Nat) (now : Instant),
        engine.NotTaken ⟨counts, xorBytes position threeBytes⟩ now :=
  burst_caught position threeBytes (by decide +kernel) (by decide)
    ⟨⟨0xFF, by decide, by decide⟩, 40, by decide⟩

end Client

end MlatBench
