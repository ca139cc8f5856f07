import Mathlib.Analysis.SpecialFunctions.Trigonometric.Inverse
import MlatBench.Library.Ext

/-!
# Functions of the Reals

Exact arithmetic with the true roots and angles.

## Main definitions

* `Fns ℝ`: The functions of the reals.
-/

namespace MlatBench

namespace Library

noncomputable instance : Fns ℝ where
  sqrt := Real.sqrt
  sin := Real.sin
  cos := Real.cos
  asin := Real.arcsin
  acos := Real.arccos
  pi := Real.pi

end Library

end MlatBench
