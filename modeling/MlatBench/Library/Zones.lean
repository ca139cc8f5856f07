import Mathlib.Algebra.Order.Round
import Mathlib.Tactic.FieldSimp
import Mathlib.Tactic.Linarith
import Mathlib.Tactic.LinearCombination
import Mathlib.Tactic.Ring
import MlatBench.Library.F64

/-!
# Zones

A coordinate divided into numbered zones, with `T` cells a zone. A coarse reading
rounds to the nearest cell and keeps the cell within its zone. Two readings of one
coordinate, with `A` and `B` zones to the turn, have the zone in common: for
`A = B + 1` their difference gives the number of the zone back, as long as the
roundings stay small beside a zone.

## Main definitions

* `mark`: The nearest cell.
* `drift`: How far, in zones, two marks are from agreeing.

## Theorems

* `mark_le`, `lt_mark`: A mark is within half a cell.
* `mark_fract`: The cell within the zone.
* `drift_eq`: The drift of marks that nearly agree.
* `index_eq`: The zone index two readings give.
* `index_emod`, `index_emod_pred`: What it says of the two zones.
* `zone_cell`: A zone and a cell make a mark, up to whole turns.
-/

namespace MlatBench

namespace Library

variable {K : Type*} [Field K] [LinearOrder K] [IsStrictOrderedRing K] [FloorRing K]

/-- The nearest cell; halves go up. -/
def mark (T : ℤ) (y : K) : ℤ :=
  F64.roundUp (T * y)

omit [IsStrictOrderedRing K] in
theorem mark_le (T : ℤ) (y : K) : (mark T y : K) ≤ T * y + 1 / 2 :=
  Int.floor_le _

theorem lt_mark (T : ℤ) (y : K) : T * y - 1 / 2 < mark T y := by
  have h := Int.lt_floor_add_one (T * y + 1 / 2 : K)
  unfold mark F64.roundUp
  linarith

/-- A mark is within half a cell. -/
theorem abs_mark_sub (T : ℤ) (y : K) : |(mark T y : K) - T * y| ≤ 1 / 2 := by
  rw [abs_le]
  constructor
  · have h := lt_mark T y
    linarith
  · have h := mark_le T y
    linarith

/-- Whole numbers of cells are marked exactly. -/
theorem mark_mono (T : ℤ) (y : K) (c : ℤ) (h : T * y ≤ c) : mark T y ≤ c := by
  have hle : (mark T y : K) < c + 1 := by
    have hmark := mark_le T y
    linarith
  exact Int.lt_add_one_iff.mp (by exact_mod_cast hle)

theorem le_mark (T : ℤ) (y : K) (c : ℤ) (h : (c : K) ≤ T * y) : c ≤ mark T y := by
  refine Int.le_floor.mpr ?_
  linarith

/-- The mark within the zone. -/
theorem mark_fract (T : ℤ) (y : K) :
    ⌊(T : K) * Int.fract y + 1 / 2⌋ = mark T y - T * ⌊y⌋ := by
  have hsplit : (T : K) * Int.fract y + 1 / 2 = T * y + 1 / 2 - ((T * ⌊y⌋ : ℤ) : K) := by
    unfold Int.fract
    push_cast
    ring
  rw [hsplit, Int.floor_sub_intCast]
  rfl

/-- How far two marks are from agreeing, in zones. -/
def drift (K : Type*) [Field K] [LinearOrder K] [FloorRing K] (T A B a b : ℤ) : ℤ :=
  F64.roundUp (((B * a - A * b : ℤ) : K) / T)

/-- Marks that agree up to `c` zones and less than half a zone. -/
theorem drift_eq (T A B a b c : ℤ) (hT : 0 < T)
    (h : |((B * a - A * b : ℤ) : K) - T * c| < T / 2) : drift K T A B a b = c := by
  have hT' : (0 : K) < T := by exact_mod_cast hT
  rw [abs_lt] at h
  unfold drift F64.roundUp
  rw [Int.floor_eq_iff]
  have hdiv : ((B * a - A * b : ℤ) : K) / T * T = ((B * a - A * b : ℤ) : K) :=
    div_mul_cancel₀ _ hT'.ne'
  constructor
  · rw [← mul_le_mul_iff_of_pos_right hT']
    linarith
  · rw [← mul_lt_mul_iff_of_pos_right hT']
    linarith

/-- The index two readings give: zones and drift. -/
theorem index_eq (T A B a b : ℤ) (hT : 0 < T) :
    F64.roundUp (((B * (a % T) - A * (b % T) : ℤ) : K) / T) =
      A * (b / T) - B * (a / T) + drift K T A B a b := by
  have hT' : (T : K) ≠ 0 := by exact_mod_cast hT.ne'
  have hsplit : ((B * (a % T) - A * (b % T) : ℤ) : K) / T + 1 / 2 =
      ((B * a - A * b : ℤ) : K) / T + 1 / 2 + ((A * (b / T) - B * (a / T) : ℤ) : K) := by
    have hcells : B * (a % T) - A * (b % T) =
        B * a - A * b + T * (A * (b / T) - B * (a / T)) := by
      have ha := Int.emod_add_mul_ediv a T
      have hb := Int.emod_add_mul_ediv b T
      linear_combination B * ha - A * hb
    rw [hcells]
    push_cast
    field_simp
    ring
  unfold drift F64.roundUp
  rw [hsplit, Int.floor_add_intCast]
  ring

/-- With one zone more, the index is the zone of the first reading. -/
theorem index_emod (A a b f : ℤ) : (A * b - (A - 1) * a + f) % A = (a + f) % A := by
  have hsplit : A * b - (A - 1) * a + f = a + f + A * (b - a) := by ring
  rw [hsplit, Int.add_mul_emod_self_left]

/-- And it is the zone of the second. -/
theorem index_emod_pred (A a b f : ℤ) :
    (A * b - (A - 1) * a + f) % (A - 1) = (b + f) % (A - 1) := by
  have hsplit : A * b - (A - 1) * a + f = b + f + (A - 1) * (b - a) := by ring
  rw [hsplit, Int.add_mul_emod_self_left]

/-- A zone and a cell make a mark, up to whole turns. -/
theorem zone_cell (T A a f : ℤ) (hT : 0 < T) (hA : 0 < A) (turn : K) : ∃ k : ℤ,
    turn / A * (((a / T + f) % A : ℤ) + ((a % T : ℤ) : K) / T) =
      turn / A * (a / T + f) - turn * k := by
  refine ⟨(a / T + f) / A, ?_⟩
  have hT' : (T : K) ≠ 0 := by exact_mod_cast hT.ne'
  have hA' : (A : K) ≠ 0 := by exact_mod_cast hA.ne'
  have hzone : ((((a / T + f) % A : ℤ)) : K) =
      ((a / T : ℤ) : K) + f - A * (((a / T + f) / A : ℤ) : K) := by
    have h := Int.emod_add_mul_ediv (a / T + f) A
    have h' : (((a / T + f) % A : ℤ) : K) + A * (((a / T + f) / A : ℤ) : K) =
        ((a / T : ℤ) : K) + f := by exact_mod_cast h
    linear_combination h'
  have hmark : ((a % T : ℤ) : K) / T = a / T - ((a / T : ℤ) : K) := by
    have h := Int.emod_add_mul_ediv a T
    have h' : ((a % T : ℤ) : K) + T * ((a / T : ℤ) : K) = a := by exact_mod_cast h
    field_simp
    linear_combination h'
  rw [hzone, hmark]
  field_simp
  ring

end Library

end MlatBench
