import Mathlib.Data.BitVec
import Mathlib.Logic.Function.Iterate

/-!
# Shift Register Remainders

The remainder register of a cyclic redundancy check, as a function on bit
vectors. `lfsr g` multiplies the register by the indeterminate and reduces by
the generator whose lower coefficients are `g`; the coefficient of the leading
power is implicit, which is why the bit that falls off the top is only
inspected and never stored.

Two facts carry everything built on it. The register is linear in exclusive or
(`lfsr_xor`), so a message and an error pattern can be run separately. And it
is injective as soon as the generator has a constant term
(`iterate_lfsr_injective`), so a non-zero remainder never decays to zero.

`feed` is the byte-wise form: a byte is added to the top of the register and
eight shifts follow.

## Main definitions

* `lfsr`: One shift of the remainder register.
* `feed`: One byte added at the top, then eight shifts.

## Theorems

* `lfsr_zero`: The zero register stays zero.
* `lfsr_xor`: One shift is linear.
* `iterate_lfsr_xor`: Any number of shifts is linear.
* `lfsr_eq_shiftLeft`: With the top bit clear a shift is a plain shift.
* `iterate_lfsr_eq_shiftLeft`: The same for several shifts.
* `lfsr_eq_zero_iff`: A generator with a constant term loses nothing.
* `iterate_lfsr_eq_zero_iff`: Only the zero register reaches zero.
* `iterate_lfsr_injective`: Several shifts lose nothing.
-/

namespace MlatBench

namespace Library

/-- One shift of a `w`-bit remainder register: the bit that falls off the top
    decides whether the generator is subtracted. -/
def lfsr {w : Nat} (g x : BitVec w) : BitVec w :=
  if x.msb then (x <<< 1) ^^^ g else x <<< 1

theorem lfsr_zero {w : Nat} (g : BitVec w) : lfsr g 0#w = 0#w := by
  simp only [lfsr, BitVec.msb_zero, Bool.false_eq_true, if_false, BitVec.zero_shiftLeft]

theorem lfsr_xor {w : Nat} (g a b : BitVec w) : lfsr g (a ^^^ b) = lfsr g a ^^^ lfsr g b := by
  have hshift : (a ^^^ b) <<< 1 = (a <<< 1) ^^^ (b <<< 1) := BitVec.shiftLeft_xor_distrib a b 1
  -- The generator is subtracted an odd number of times exactly when one top bit is set.
  unfold lfsr
  rw [BitVec.msb_xor, hshift]
  cases ha : a.msb <;> cases hb : b.msb
  · rfl
  · simp only [Bool.false_xor, if_true, Bool.false_eq_true, if_false]
    rw [BitVec.xor_assoc]
  · simp only [Bool.xor_false, if_true, Bool.false_eq_true, if_false]
    rw [BitVec.xor_assoc, BitVec.xor_assoc, BitVec.xor_comm g]
  · simp only [Bool.xor_self, Bool.false_eq_true, if_false, if_true]
    rw [BitVec.xor_comm (b <<< 1) g, ← BitVec.xor_assoc, BitVec.xor_assoc (a <<< 1) g g,
      BitVec.xor_self, BitVec.xor_zero]

theorem iterate_lfsr_xor {w : Nat} (g : BitVec w) (n : Nat) :
    ∀ (a b : BitVec w), (lfsr g)^[n] (a ^^^ b) = (lfsr g)^[n] a ^^^ (lfsr g)^[n] b := by
  induction n with
  | zero => intro a b; rfl
  | succ n ih =>
      intro a b
      rw [Function.iterate_succ_apply, Function.iterate_succ_apply, Function.iterate_succ_apply,
        lfsr_xor, ih]

/-- With the top bit clear the shift subtracts nothing. -/
theorem lfsr_eq_shiftLeft {w : Nat} (g x : BitVec w) (h : x.msb = false) :
    lfsr g x = x <<< 1 := by
  simp only [lfsr, h, Bool.false_eq_true, if_false]

/-- A register whose value fits below the top `n` bits is only moved up by `n`
    shifts: no set bit reaches the top while it moves. -/
theorem iterate_lfsr_eq_shiftLeft {w : Nat} (g : BitVec w) (n : Nat) :
    ∀ (x : BitVec w), x.toNat * 2 ^ n < 2 ^ w → (lfsr g)^[n] x = x <<< n := by
  induction n with
  | zero => intro x _; exact (BitVec.shiftLeft_zero x).symm
  | succ n ih =>
      intro x hx
      have hn : 0 < 2 ^ n := Nat.two_pow_pos n
      have hdouble : x.toNat * 2 * 2 ^ n < 2 ^ w := by
        rw [Nat.mul_assoc, ← Nat.pow_succ']
        exact hx
      have hlt : x.toNat * 2 < 2 ^ w := lt_of_le_of_lt (Nat.le_mul_of_pos_right _ hn) hdouble
      have hmsb : x.msb = false := by
        rw [BitVec.msb_eq_false_iff_two_mul_lt]
        omega
      have hnat : (x <<< 1).toNat = x.toNat * 2 := by
        rw [BitVec.toNat_shiftLeft, Nat.shiftLeft_eq, Nat.pow_one, Nat.mod_eq_of_lt hlt]
      rw [Function.iterate_succ_apply, lfsr_eq_shiftLeft g x hmsb,
        ih _ (by rw [hnat]; exact hdouble),
        ← BitVec.shiftLeft_add, Nat.add_comm]

/-- A generator with a constant term loses nothing: the bottom bit after a
    shift says whether the generator was subtracted, and the rest is the old
    register moved up. -/
theorem lfsr_eq_zero_iff {w : Nat} (g x : BitVec w) (hg : g.getLsbD 0 = true) :
    lfsr g x = 0#w ↔ x = 0#w := by
  refine ⟨fun h => ?_, fun h => by rw [h, lfsr_zero]⟩
  have hw : 0 < w := by
    by_contra hc
    rw [BitVec.getLsbD_of_ge g 0 (by omega)] at hg
    exact absurd hg (by decide)
  cases hm : x.msb with
  | true =>
      -- The bottom bit of the result is the generator's constant term.
      have hbit : (lfsr g x).getLsbD 0 = true := by
        simp only [lfsr, hm, if_true, BitVec.getLsbD_xor, BitVec.getLsbD_shiftLeft, hg,
          Nat.lt_one_iff, decide_true, Bool.not_true, Bool.and_false, Bool.false_and,
          Bool.false_xor]
      rw [h, BitVec.getLsbD_zero] at hbit
      exact absurd hbit (by decide)
  | false =>
      rw [lfsr_eq_shiftLeft g x hm] at h
      have hlt : 2 * x.toNat < 2 ^ w := by
        rw [← BitVec.msb_eq_false_iff_two_mul_lt]
        exact hm
      have hnat := congrArg BitVec.toNat h
      rw [BitVec.toNat_shiftLeft, Nat.shiftLeft_eq, Nat.pow_one, Nat.mod_eq_of_lt (by omega),
        BitVec.toNat_zero] at hnat
      exact BitVec.eq_of_toNat_eq (by rw [BitVec.toNat_zero]; omega)

theorem iterate_lfsr_eq_zero_iff {w : Nat} (g : BitVec w) (hg : g.getLsbD 0 = true) (n : Nat) :
    ∀ (x : BitVec w), (lfsr g)^[n] x = 0#w ↔ x = 0#w := by
  induction n with
  | zero => intro x; exact Iff.rfl
  | succ n ih =>
      intro x
      rw [Function.iterate_succ_apply, ih, lfsr_eq_zero_iff g x hg]

/-- Shifting is injective: two registers with one image differ by a register
    whose image is zero. -/
theorem iterate_lfsr_injective {w : Nat} (g : BitVec w) (hg : g.getLsbD 0 = true) (n : Nat) :
    Function.Injective (lfsr g)^[n] := by
  intro a b h
  have hz : (lfsr g)^[n] (a ^^^ b) = 0#w := by
    rw [iterate_lfsr_xor, h, BitVec.xor_self]
  exact BitVec.xor_eq_zero_iff.mp ((iterate_lfsr_eq_zero_iff g hg n _).mp hz)

/-- One byte enters at the top of the register and eight shifts follow. -/
def feed {w : Nat} (g c : BitVec w) (b : BitVec 8) : BitVec w :=
  (lfsr g)^[8] (c ^^^ (b.setWidth w <<< (w - 8)))

end Library

end MlatBench
