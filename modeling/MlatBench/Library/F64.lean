import Mathlib.Algebra.Order.Archimedean.Real.Basic
import Mathlib.Algebra.Order.Field.Basic
import Mathlib.Algebra.Order.Round
import Mathlib.Data.List.Sort
import Mathlib.Data.Nat.Sqrt
import Mathlib.Data.Rat.Floor
import Mathlib.Tactic.Linarith

/-!
# Arithmetic Interfaces

The operations a program in double precision uses, as classes without laws. A
definition over `F64` is the program's own; what its rounding does is left to
the instance, so a theorem for every instance holds for every rounding. An
ordered field with a floor is the exact instance.

`F64Fn` adds roots and angles, `F64Ln` logarithms and the angle of a point. The
rationals have an instance with roots rounded to twelve decimals and the others
by their first terms, so that everything can be evaluated.

Casts to integers saturate and cut towards zero.

## Main definitions

* `clampInt`: Saturation.
* `F64`, `F64Fn`, `F64Ln`: The operations.
* `F64.TotalOrder`: What sorting relies on.
* `F64.exact`: The exact instance of an ordered field.

## Theorems

* `clampInt_of_mem`: Saturation keeps what is in range.
* `F64.totalOrder_exact`: Exact numbers sort.
* `F64.TotalOrder.pairwise_sort`: What is sorted by a key is in the order of the
  keys, for exact numbers by `F64.exact_pairwise_sort`.
* `toInt_exact`: The exact cast of a whole number.
* `abs_exact`: The exact absolute value.
* `roundAway_near`: Rounding changes a number by a half at most.
* `roundAway_mono`: Rounding keeps the order.
-/

namespace MlatBench

namespace Library

/-- A value saturated to a range. -/
def clampInt (lo hi n : Int) : Int :=
  max lo (min hi n)

/-- The operations on double precision numbers. -/
class F64 (F : Type) extends Add F, Sub F, Mul F, Div F, Neg F, LT F, LE F where
  -- A literal, or an integer converted.
  lit : ℚ → F
  decLT : DecidableLT F
  decLE : DecidableLE F
  -- The total order that sorting uses.
  totalLe : F → F → Bool
  abs : F → F
  max : F → F → F
  min : F → F → F
  floor : F → F
  -- Halves go away from zero.
  round : F → F
  -- The remainder of the quotient cut towards zero.
  rem : F → F → F
  isFinite : F → Bool
  toInt : Int → Int → F → Int

attribute [reducible, instance] F64.decLT F64.decLE

/-- Roots and angles. -/
class F64Fn (F : Type) extends F64 F where
  sqrt : F → F
  sin : F → F
  cos : F → F
  asin : F → F
  acos : F → F
  pi : F

/-- Logarithms and the angle of a point. -/
class F64Ln (F : Type) extends F64Fn F where
  ln : F → F
  atan2 : F → F → F

namespace F64

/-- The order that sorting uses is total. -/
structure TotalOrder (F : Type) [F64 F] : Prop where
  total : ∀ x y : F, totalLe x y = true ∨ totalLe y x = true
  trans : ∀ x y z : F, totalLe x y = true → totalLe y z = true → totalLe x z = true

section Operations

variable {F : Type} [F64 F]

def clamp (lo hi x : F) : F :=
  if x < lo then lo else if hi < x then hi else x

def sum (xs : List F) : F :=
  xs.foldl (· + ·) (lit 0)

/-- The least of some numbers. -/
def least (x : F) (xs : List F) : F :=
  xs.foldl min x

end Operations

section Exact

variable {K : Type} [Field K] [LinearOrder K] [FloorRing K]

/-- Rounding halves away from zero. -/
def roundAway (x : K) : Int :=
  if x < 0 then -⌊-x + 1 / 2⌋ else ⌊x + 1 / 2⌋

/-- Rounding halves up. -/
def roundUp {K : Type*} [Field K] [LinearOrder K] [FloorRing K] (x : K) : Int :=
  ⌊x + 1 / 2⌋

/-- Cutting towards zero. -/
def truncate (x : K) : Int :=
  if x < 0 then ⌈x⌉ else ⌊x⌋

end Exact

/-- The exact operations of an ordered field. -/
@[reducible]
def exact (K : Type) [Field K] [LinearOrder K] [FloorRing K] : F64 K where
  lit q := q
  decLT := inferInstance
  decLE := inferInstance
  totalLe x y := decide (x ≤ y)
  abs x := if x < 0 then -x else x
  max := Max.max
  min := Min.min
  floor x := ⌊x⌋
  round x := roundAway x
  rem x y := x - y * truncate (x / y)
  isFinite _ := true
  toInt lo hi x := clampInt lo hi (truncate x)

theorem totalOrder_exact (K : Type) [Field K] [LinearOrder K] [FloorRing K] :
    @TotalOrder K (exact K) := by
  refine @TotalOrder.mk K (exact K) (fun x y => ?_) (fun x y z hxy hyz => ?_)
  · exact (le_total x y).imp decide_eq_true decide_eq_true
  · exact decide_eq_true ((of_decide_eq_true hxy).trans (of_decide_eq_true hyz))

namespace TotalOrder

variable {F α : Type} [F64 F] (h : TotalOrder F) (key : α → F)

include h

theorem total_key : Std.Total fun x y => totalLe (key x) (key y) = true :=
  ⟨fun x y => h.total (key x) (key y)⟩

theorem trans_key : IsTrans α fun x y => totalLe (key x) (key y) = true :=
  ⟨fun x y z => h.trans (key x) (key y) (key z)⟩

/-- What is sorted by a key is in the order of the keys. -/
theorem pairwise_sort (xs : List α) :
    (xs.insertionSort fun x y => totalLe (key x) (key y) = true).Pairwise fun x y =>
      totalLe (key x) (key y) = true := by
  have := h.total_key key
  have := h.trans_key key
  exact List.pairwise_insertionSort _ xs

end TotalOrder

theorem exact_pairwise_sort {K α : Type} [Field K] [LinearOrder K] [FloorRing K] (key : α → K)
    (xs : List α) : (xs.insertionSort fun x y => (exact K).totalLe (key x) (key y) = true).Pairwise
      fun x y => key x ≤ key y :=
  (@TotalOrder.pairwise_sort K α (exact K) (totalOrder_exact K) key xs).imp
    fun hle => of_decide_eq_true hle

instance : F64 ℚ := exact ℚ

noncomputable instance : F64 ℝ := exact ℝ

/-- A root rounded to twelve decimals. -/
def ratSqrt (q : ℚ) : ℚ :=
  (Nat.sqrt ⌊q * 10 ^ 24⌋.toNat : ℚ) / 10 ^ 12

instance : F64Fn ℚ where
  sqrt := ratSqrt
  sin x := x - x ^ 3 / 6 + x ^ 5 / 120
  cos x := 1 - x ^ 2 / 2 + x ^ 4 / 24
  asin x := x + x ^ 3 / 6 + 3 * x ^ 5 / 40
  acos x := 314159265358979 / 200000000000000 - (x + x ^ 3 / 6 + 3 * x ^ 5 / 40)
  pi := 314159265358979 / 100000000000000

instance : F64Ln ℚ where
  ln x := 2 * ((x - 1) / (x + 1) + ((x - 1) / (x + 1)) ^ 3 / 3)
  atan2 y x := y / x

end F64

theorem clampInt_of_mem (lo hi n : Int) (hlo : lo ≤ n) (hhi : n ≤ hi) : clampInt lo hi n = n := by
  unfold clampInt
  omega

theorem toInt_exact {K : Type} [Field K] [LinearOrder K] [IsStrictOrderedRing K] [FloorRing K]
    (lo hi n : Int) : (F64.exact K).toInt lo hi (n : K) = clampInt lo hi n := by
  change clampInt lo hi (if (n : K) < 0 then ⌈(n : K)⌉ else ⌊(n : K)⌋) = _
  rw [Int.ceil_intCast, Int.floor_intCast, ite_self]

theorem abs_exact {K : Type} [Field K] [LinearOrder K] [IsStrictOrderedRing K] [FloorRing K]
    (x : K) : (F64.exact K).abs x = |x| := by
  change (if x < 0 then -x else x) = |x|
  split_ifs with hneg
  · exact (abs_of_neg hneg).symm
  · exact (abs_of_nonneg (not_lt.mp hneg)).symm

/-- Rounding changes a number by a half at most. -/
theorem roundAway_near {K : Type} [Field K] [LinearOrder K] [IsStrictOrderedRing K] [FloorRing K]
    (x : K) : |((F64.roundAway x : Int) : K) - x| ≤ 1 / 2 := by
  unfold F64.roundAway
  rw [abs_le]
  split_ifs
  · have hle := Int.floor_le (-x + 1 / 2)
    have hlt := Int.lt_floor_add_one (-x + 1 / 2)
    push_cast
    constructor <;> linarith
  · have hle := Int.floor_le (x + 1 / 2)
    have hlt := Int.lt_floor_add_one (x + 1 / 2)
    constructor <;> linarith

/-- Rounding keeps the order. -/
theorem roundAway_mono {K : Type} [Field K] [LinearOrder K] [IsStrictOrderedRing K] [FloorRing K]
    (x y : K) (h : x ≤ y) : F64.roundAway x ≤ F64.roundAway y := by
  unfold F64.roundAway
  split_ifs with hx hy hy
  · exact neg_le_neg (Int.floor_le_floor (by linarith))
  · have hneg : 0 ≤ ⌊-x + 1 / 2⌋ := Int.floor_nonneg.mpr (by linarith)
    have hpos : 0 ≤ ⌊y + 1 / 2⌋ := Int.floor_nonneg.mpr (by linarith)
    omega
  · exact absurd (lt_of_le_of_lt h hy) hx
  · exact Int.floor_le_floor (by linarith)

end Library

end MlatBench
