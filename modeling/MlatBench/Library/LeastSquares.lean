import Mathlib.Algebra.Order.BigOperators.Group.List
import Mathlib.Data.Matrix.Mul
import Mathlib.Tactic.Linarith
import Mathlib.Tactic.Ring

/-!
# Least Squares

Rows of a linear map, each with a residual. Around a point the sum of the squares
is that at the point, twice the gradient there in the direction, and the squares
of the direction alone (`sumSquares_add`). So where the gradient vanishes, which
is where the normal equations hold, the sum is least.

## Main definitions

* `sumSquares`: The sum of the squares at a point.
* `gram`, `cross`: The two sides of the normal equations.
* `gradient`: What they leave at a point.

## Theorems

* `gradient_cons`: Each row's share.
* `sumSquares_add`: The sum around a point.
* `sumSquares_le`: It is least where the normal equations hold.
-/

namespace MlatBench

namespace Library

namespace LeastSquares

variable {ι K : Type} [Fintype ι] [Field K]

/-- The sum of the squares of residuals that change with a point. -/
def sumSquares (rows : List ((ι → K) × K)) (d : ι → K) : K :=
  (rows.map fun j => (j.2 + dotProduct j.1 d) ^ 2).sum

/-- The products of the coordinates of the rows. -/
def gram (rows : List ((ι → K) × K)) : Matrix ι ι K :=
  Matrix.of fun a b => (rows.map fun j => j.1 a * j.1 b).sum

/-- The products of the coordinates with the residuals. -/
def cross (rows : List ((ι → K) × K)) (a : ι) : K :=
  (rows.map fun j => j.1 a * j.2).sum

/-- The gradient of the sum of the squares at a point, halved. -/
def gradient (rows : List ((ι → K) × K)) (x : ι → K) : ι → K :=
  cross rows + (gram rows).mulVec x

theorem gradient_nil (x : ι → K) : gradient ([] : List ((ι → K) × K)) x = 0 := by
  funext a
  unfold gradient cross gram Matrix.mulVec dotProduct
  simp only [Pi.add_apply, List.map_nil, List.sum_nil, Matrix.of_apply, zero_mul,
    Finset.sum_const_zero, add_zero, Pi.zero_apply]

/-- Each row is in the gradient by its residual at the point. -/
theorem gradient_cons (j : (ι → K) × K) (rows : List ((ι → K) × K)) (x : ι → K) :
    gradient (j :: rows) x = (j.2 + dotProduct j.1 x) • j.1 + gradient rows x := by
  funext a
  have hgram : (gram (j :: rows)).mulVec x a =
      j.1 a * dotProduct j.1 x + (gram rows).mulVec x a := by
    unfold gram Matrix.mulVec dotProduct
    simp only [Matrix.of_apply, List.map_cons, List.sum_cons]
    rw [Finset.mul_sum, ← Finset.sum_add_distrib]
    refine Finset.sum_congr rfl fun b _ => ?_
    ring
  have hcross : cross (j :: rows) a = j.1 a * j.2 + cross rows a := by
    unfold cross
    rw [List.map_cons, List.sum_cons]
  unfold gradient
  simp only [Pi.add_apply, Pi.smul_apply, smul_eq_mul, hgram, hcross]
  ring

/-- The sum of the squares around a point. -/
theorem sumSquares_add (rows : List ((ι → K) × K)) (x e : ι → K) :
    sumSquares rows (x + e) = sumSquares rows x + 2 * dotProduct (gradient rows x) e +
      (rows.map fun j => dotProduct j.1 e ^ 2).sum := by
  induction rows with
  | nil =>
      rw [gradient_nil, zero_dotProduct, mul_zero, add_zero]
      exact (add_zero _).symm
  | cons j rows ih =>
      have hsum : ∀ d, sumSquares (j :: rows) d =
          (j.2 + dotProduct j.1 d) ^ 2 + sumSquares rows d := by
        intro d
        rw [sumSquares, List.map_cons, List.sum_cons]
        rfl
      rw [hsum, hsum, ih, gradient_cons, add_dotProduct, smul_dotProduct, smul_eq_mul,
        dotProduct_add, List.map_cons, List.sum_cons]
      ring

/-- Where the normal equations hold the sum of the squares is least. -/
theorem sumSquares_le [LinearOrder K] [IsStrictOrderedRing K] (rows : List ((ι → K) × K))
    (x : ι → K) (h : (gram rows).mulVec x = -cross rows) (d : ι → K) :
    sumSquares rows x ≤ sumSquares rows d := by
  have hnonneg : 0 ≤ (rows.map fun j => dotProduct j.1 (d - x) ^ 2).sum := by
    refine List.sum_nonneg fun y hy => ?_
    rcases List.mem_map.mp hy with ⟨j, _, rfl⟩
    exact sq_nonneg _
  -- Around that point only the squares of the direction are left.
  have hsplit := sumSquares_add rows x (d - x)
  rw [add_sub_cancel, gradient, h, add_neg_cancel, zero_dotProduct, mul_zero, add_zero] at hsplit
  linarith

end LeastSquares

end Library

end MlatBench
