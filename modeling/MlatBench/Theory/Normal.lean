import MlatBench.Core.Solve
import MlatBench.Library.Ext
import MlatBench.Library.LeastSquares
import Mathlib.LinearAlgebra.Matrix.Adjugate
import Mathlib.LinearAlgebra.Matrix.Determinant.Basic

/-!
# The Step Of A Solve

Three by three systems are solved by Cramer's rule, so what comes out of them
solves them, and what inverts them column by column is the inverse. The sums of a
step are the normal equations of its rows, so the step is the one with the least
squares, in exact arithmetic and before it is clamped.

## Theorems

* `det3_eq`: The determinant.
* `solve3_mulVec`, `invert3_mul`: Systems and inverses.
* `normalMatrix_eq`, `normalVector_eq`: The sums of a step.
* `step_least`: All three.
-/

namespace MlatBench

namespace Server

open Library F64 F64Fn

namespace Solve

section Exact

variable {K : Type} [Field K] [LinearOrder K] [IsStrictOrderedRing K] [FloorRing K] [Fns K]

/-- Arithmetic is exact. -/
local instance (priority := low) exactNormal : F64Fn K := F64.exactFn K

omit [IsStrictOrderedRing K] in
theorem det3_eq (a : Fin 3 → Fin 3 → K) : det3 a = (Matrix.of a).det := by
  rw [Matrix.det_fin_three]
  simp only [det3, Matrix.of_apply]
  ring

/-- A determinant that does not nearly vanish does not vanish. -/
theorem det_ne_zero (a : Fin 3 → Fin 3 → K) (h : ¬ F64.abs (det3 a) < lit (1 / 10 ^ 30)) :
    (Matrix.of a).det ≠ 0 := by
  rw [← det3_eq]
  intro hzero
  refine h ?_
  have habs : F64.abs (0 : K) = |0| := abs_exact 0
  rw [hzero, habs, abs_zero]
  change 0 < ((1 / 10 ^ 30 : ℚ) : K)
  rw [Rat.cast_pos]
  norm_num

/-- What solves a system by Cramer's rule solves it. -/
theorem solve3_mulVec (a : Fin 3 → Fin 3 → K) (b x : Fin 3 → K) (h : solve3 a b = some x) :
    (Matrix.of a).mulVec x = b := by
  unfold solve3 at h
  simp only [] at h
  split_ifs at h with hdet
  have hne := det_ne_zero a hdet
  -- The solution is the vector of Cramer's rule over the determinant.
  have hx : x = (Matrix.of a).det⁻¹ • (Matrix.of a).cramer b := by
    rw [← Option.some.inj h]
    funext k
    have hcolumn : (Matrix.of fun row col => if col = k then b row else a row col) =
        (Matrix.of a).updateCol k b := by
      ext row col
      rw [Matrix.of_apply, Matrix.updateCol_apply, Matrix.of_apply]
    rw [Pi.smul_apply, Matrix.cramer_apply, smul_eq_mul, det3_eq, det3_eq, hcolumn, div_eq_inv_mul]
  rw [hx, Matrix.mulVec_smul, Matrix.mulVec_cramer, inv_smul_smul₀ hne]

/-- What is inverted column by column is the inverse. -/
theorem invert3_mul (a m : Fin 3 → Fin 3 → K) (h : invert3 a = some m) :
    Matrix.of a * Matrix.of m = 1 := by
  -- The columns solve the systems of the units.
  have hcolumn : ∀ k, (Matrix.of a).mulVec (fun r => m r k) = fun r => if r = k then 1 else 0 := by
    have hunit : ∀ k c, solve3 a (fun r => if r = k then lit 1 else lit 0) = some c →
        (Matrix.of a).mulVec c = fun r => if r = k then 1 else 0 := by
      intro k c hc
      rw [solve3_mulVec a _ c hc]
      funext r
      change (if r = k then ((1 : ℚ) : K) else ((0 : ℚ) : K)) = _
      rw [Rat.cast_one, Rat.cast_zero]
    unfold invert3 at h
    simp only [] at h
    split at h
    · next c0 c1 c2 h0 h1 h2 =>
        cases h
        intro k
        fin_cases k
        · exact hunit _ c0 h0
        · exact hunit _ c1 h1
        · exact hunit _ c2 h2
    · cases h
  -- An entry of the product is an entry of the column's image.
  ext i k
  have hentry := congrFun (hcolumn k) i
  rw [Matrix.mul_apply, Matrix.one_apply]
  exact hentry

omit [IsStrictOrderedRing K] in
theorem normalMatrix_eq (rows : List ((Fin 3 → K) × K)) :
    Matrix.of (normalMatrix rows) = LeastSquares.gram rows := by
  ext a b
  change rows.foldl (fun acc j => acc + j.1 a * j.1 b) ((0 : ℚ) : K) =
    (rows.map fun j => j.1 a * j.1 b).sum
  rw [List.sum_eq_foldl, List.foldl_map, Rat.cast_zero]

omit [IsStrictOrderedRing K] in
/-- The right side is subtracted up. -/
theorem normalVector_eq (rows : List ((Fin 3 → K) × K)) :
    normalVector rows = -LeastSquares.cross rows := by
  funext a
  have hneg : ∀ acc : K, rows.foldl (fun acc j => acc - j.1 a * j.2) acc =
      acc - (rows.map fun j => j.1 a * j.2).sum := by
    induction rows with
    | nil => exact fun acc => (sub_zero acc).symm
    | cons j rows ih =>
        intro acc
        rw [List.foldl_cons, ih, List.map_cons, List.sum_cons, sub_sub]
  change rows.foldl (fun acc j => acc - j.1 a * j.2) ((0 : ℚ) : K) = _
  rw [hneg, Rat.cast_zero, zero_sub]
  rfl

/-- A solved system, an inverse, and the step with the least squares. -/
theorem step_least :
    (∀ (a : Fin 3 → Fin 3 → K) (b x : Fin 3 → K), solve3 a b = some x →
      (Matrix.of a).mulVec x = b) ∧
    (∀ a m : Fin 3 → Fin 3 → K, invert3 a = some m → Matrix.of a * Matrix.of m = 1) ∧
    ∀ (rows : List ((Fin 3 → K) × K)) (x : Fin 3 → K),
      solve3 (normalMatrix rows) (normalVector rows) = some x → ∀ d,
        (rows.map fun j => (j.2 + dotProduct j.1 x) ^ 2).sum ≤
          (rows.map fun j => (j.2 + dotProduct j.1 d) ^ 2).sum := by
  refine ⟨solve3_mulVec, invert3_mul, fun rows x h d => ?_⟩
  refine LeastSquares.sumSquares_le rows x ?_ d
  rw [← normalMatrix_eq, ← normalVector_eq]
  exact solve3_mulVec _ _ x h

end Exact

section Example

/-- A row for each coordinate. -/
def unitRows : List ((Fin 3 → ℚ) × ℚ) :=
  [(![1, 0, 0], 1), (![0, 1, 0], 2), (![0, 0, 1], 3)]

/-- The step takes all three residuals away. -/
theorem step_least_units :
    (Matrix.of (normalMatrix unitRows)).mulVec ![-1, -2, -3] = normalVector unitRows ∧
      Matrix.of (normalMatrix unitRows) * Matrix.of ![![1, 0, 0], ![0, 1, 0], ![0, 0, 1]] = 1 ∧
      (unitRows.map fun j => (j.2 + dotProduct j.1 ![-1, -2, -3]) ^ 2).sum ≤
        (unitRows.map fun j => (j.2 + dotProduct j.1 0) ^ 2).sum :=
  ⟨step_least.1 _ _ _ (by decide +kernel), step_least.2.1 _ _ (by decide +kernel),
    step_least.2.2 _ _ (by decide +kernel) 0⟩

end Example

end Solve

end Server

end MlatBench
