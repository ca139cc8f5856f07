import Mathlib.Algebra.Group.Nat.Defs
import Mathlib.Data.List.Basic
import Mathlib.Data.Nat.Basic

/-!
# Numbers as Bytes

Numbers written in a fixed number of bytes, the least significant first or last.
What does not fit is cut off at the top.

## Main definitions

* `leBytes`, `leValue`: The least significant byte first.
* `beBytes`, `beValue`: The most significant byte first.

## Theorems

* `leValue_leBytes`, `beValue_beBytes`: A number that fits reads back.
-/

namespace MlatBench

namespace Library

/-- The lowest bytes of a number, the least significant first. -/
def leBytes : Nat → Nat → List UInt8
  | 0, _ => []
  | k + 1, n => UInt8.ofNat n :: leBytes k (n / 256)

def leValue : List UInt8 → Nat
  | [] => 0
  | b :: bs => b.toNat + 256 * leValue bs

/-- The lowest bytes of a number, the most significant first. -/
def beBytes (k n : Nat) : List UInt8 :=
  (leBytes k n).reverse

def beValue (bs : List UInt8) : Nat :=
  bs.foldl (fun n c => n * 256 + c.toNat) 0

@[simp]
theorem length_leBytes (k n : Nat) : (leBytes k n).length = k := by
  induction k generalizing n with
  | zero => rfl
  | succ k ih => rw [leBytes, List.length_cons, ih]

@[simp]
theorem length_beBytes (k n : Nat) : (beBytes k n).length = k := by
  rw [beBytes, List.length_reverse, length_leBytes]

theorem leValue_leBytes (k n : Nat) (h : n < 256 ^ k) : leValue (leBytes k n) = n := by
  induction k generalizing n with
  | zero =>
      rw [Nat.pow_zero] at h
      simp only [leBytes, leValue]
      omega
  | succ k ih =>
      have hdiv : n / 256 < 256 ^ k := by
        rw [Nat.pow_succ] at h
        exact Nat.div_lt_of_lt_mul (by rw [Nat.mul_comm]; exact h)
      rw [leBytes, leValue, ih (n / 256) hdiv, UInt8.toNat_ofNat']
      omega

theorem take_leBytes (k j n : Nat) : (leBytes (k + j) n).take k = leBytes k n := by
  induction k generalizing n with
  | zero => rfl
  | succ k ih => rw [Nat.succ_add, leBytes, List.take_succ_cons, ih, leBytes]

/-- Without the highest bytes the lowest are left. -/
theorem drop_beBytes (k j n : Nat) : (beBytes (k + j) n).drop j = beBytes k n := by
  rw [beBytes, List.drop_reverse, length_leBytes, Nat.add_sub_cancel, take_leBytes, beBytes]

/-- Reading from the top is reading from the bottom, backwards. -/
theorem beValue_reverse (bs : List UInt8) : beValue bs.reverse = leValue bs := by
  induction bs with
  | nil => rfl
  | cons b bs ih =>
      unfold beValue at ih ⊢
      rw [List.reverse_cons, List.foldl_append, ih, leValue, List.foldl_cons, List.foldl_nil]
      omega

theorem beValue_beBytes (k n : Nat) (h : n < 256 ^ k) : beValue (beBytes k n) = n := by
  rw [beBytes, beValue_reverse, leValue_leBytes k n h]

end Library

end MlatBench
