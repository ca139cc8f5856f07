import Mathlib.Algebra.Order.Field.Basic
import Mathlib.Algebra.BigOperators.Group.List.Basic
import Mathlib.Algebra.BigOperators.Ring.List
import Mathlib.Tactic.FieldSimp
import Mathlib.Tactic.LinearCombination
import Mathlib.Tactic.Linarith
import Mathlib.Tactic.Positivity
import Mathlib.Tactic.Ring

/-!
# Decayed Statistics

Items weighted by their age: the newest counts once, and each older one by a
factor less. Weight, means and central moments of such items can be kept up to
date item by item (`mean_append`, `moment_append`), and from them comes the line
that fits best (`squares_fit_le`).

## Main definitions

* `decayed`: The decayed sum of a quantity.
* `weight`, `mean`, `moment`: The statistics.
* `squares`: The decayed squares of the distances from a line.

## Theorems

* `decayed_append`: One more item.
* `weight_append`, `mean_append`, `moment_append`: The statistics with one more.
* `mean_affine`, `moment_affine`: The statistics of a quantity on a line in another.
* `squares_eq`: The squares of a line by the statistics.
* `squares_fit_le`, `fit_unique`: The line that fits best.
-/

namespace MlatBench

namespace Library

variable {α K : Type} [Field K]

/-- The decayed sum of a quantity over items, the newest last. -/
def decayed (L : K) (f : α → K) (xs : List α) : K :=
  (xs.mapIdx fun i x => L ^ (xs.length - 1 - i) * f x).sum

def weight (L : K) (xs : List α) : K :=
  decayed L (fun _ => 1) xs

def mean (L : K) (f : α → K) (xs : List α) : K :=
  decayed L f xs / weight L xs

/-- The central moment of two quantities. -/
def moment (L : K) (f g : α → K) (xs : List α) : K :=
  decayed L (fun x => (f x - mean L f xs) * (g x - mean L g xs)) xs

/-- The squares of the distances of one quantity from a line in the other. -/
def squares (L : K) (f g : α → K) (c b : K) (xs : List α) : K :=
  decayed L (fun x => (g x - (c + b * f x)) ^ 2) xs

theorem decayed_nil (L : K) (f : α → K) : decayed L f ([] : List α) = 0 := rfl

theorem decayed_append (L : K) (f : α → K) (xs : List α) (x : α) :
    decayed L f (xs ++ [x]) = L * decayed L f xs + f x := by
  have hold : xs.mapIdx (fun i y => L ^ ((xs ++ [x]).length - 1 - i) * f y) =
      (xs.mapIdx fun i y => L ^ (xs.length - 1 - i) * f y).map (L * ·) := by
    refine List.ext_getElem (by simp only [List.length_mapIdx, List.length_map]) ?_
    intro i hi _
    rw [List.length_mapIdx] at hi
    have hexp : (xs ++ [x]).length - 1 - i = xs.length - 1 - i + 1 := by
      rw [List.length_append, List.length_singleton]
      omega
    rw [List.getElem_mapIdx, List.getElem_map, List.getElem_mapIdx, hexp, pow_succ]
    ring
  unfold decayed
  rw [List.mapIdx_append, List.sum_append, hold, List.sum_map_mul_left]
  simp only [List.mapIdx_singleton, List.sum_singleton, List.length_append, List.length_singleton]
  rw [Nat.zero_add, Nat.add_sub_cancel, Nat.sub_self, pow_zero, one_mul, List.map_id']

theorem weight_append (L : K) (xs : List α) (x : α) :
    weight L (xs ++ [x]) = L * weight L xs + 1 :=
  decayed_append L _ xs x

section Ordered

variable [LinearOrder K] [IsStrictOrderedRing K]

theorem decayed_nonneg (L : K) (hL : 0 ≤ L) (f : α → K) (xs : List α) (hf : ∀ x ∈ xs, 0 ≤ f x) :
    0 ≤ decayed L f xs := by
  induction xs using List.reverseRecOn with
  | nil => exact le_rfl
  | append_singleton xs x ih =>
      rw [decayed_append]
      have hold := ih fun y hy => hf y (List.mem_append_left _ hy)
      have hnew := hf x (List.mem_append_right _ (List.mem_singleton.mpr rfl))
      have hmul := mul_nonneg hL hold
      linarith

/-- Squares that add up to nothing are nothing. -/
theorem eq_zero_of_decayed_eq_zero (L : K) (hL : 0 < L) (f : α → K) (xs : List α)
    (hf : ∀ x ∈ xs, 0 ≤ f x) (h : decayed L f xs = 0) : ∀ x ∈ xs, f x = 0 := by
  induction xs using List.reverseRecOn with
  | nil => exact fun x hx => absurd hx List.not_mem_nil
  | append_singleton xs x ih =>
      rw [decayed_append] at h
      have hxs : ∀ y ∈ xs, 0 ≤ f y := fun y hy => hf y (List.mem_append_left _ hy)
      have hnew := hf x (List.mem_append_right _ (List.mem_singleton.mpr rfl))
      have hold := decayed_nonneg L hL.le f xs hxs
      have hmul := mul_nonneg hL.le hold
      have hzero : decayed L f xs = 0 := by
        have : L * decayed L f xs = 0 := by linarith
        exact (mul_eq_zero.mp this).resolve_left hL.ne'
      intro y hy
      rcases List.mem_append.mp hy with hy | hy
      · exact ih hxs hzero y hy
      · rw [List.mem_singleton.mp hy]
        rw [hzero, mul_zero] at h
        linarith

theorem weight_nonneg (L : K) (hL : 0 ≤ L) (xs : List α) : 0 ≤ weight L xs :=
  decayed_nonneg L hL _ xs fun _ _ => zero_le_one

theorem weight_pos (L : K) (hL : 0 ≤ L) (xs : List α) (x : α) : 0 < weight L (xs ++ [x]) := by
  rw [weight_append]
  have h := mul_nonneg hL (weight_nonneg L hL xs)
  linarith

/-- The mean times the weight is the sum. -/
theorem weight_mul_mean (L : K) (hL : 0 ≤ L) (f : α → K) (xs : List α) :
    weight L xs * mean L f xs = decayed L f xs := by
  induction xs using List.reverseRecOn with
  | nil => exact zero_mul _
  | append_singleton xs x _ => exact mul_div_cancel₀ _ (weight_pos L hL xs x).ne'

/-- The mean moves towards the new item by its share of the weight. -/
theorem mean_append (L : K) (hL : 0 ≤ L) (f : α → K) (xs : List α) (x : α) :
    mean L f (xs ++ [x]) =
      mean L f xs + 1 / weight L (xs ++ [x]) * (f x - mean L f xs) := by
  have hw := (weight_pos L hL xs x).ne'
  have hnew := weight_mul_mean L hL f (xs ++ [x])
  have hold := weight_mul_mean L hL f xs
  rw [decayed_append, ← hold] at hnew
  have hweight := weight_append L xs x
  field_simp
  rw [hweight] at hnew ⊢
  linear_combination hnew

omit [LinearOrder K] [IsStrictOrderedRing K] in
/-- Items with the same quantity have the same sum. -/
theorem decayed_congr (L : K) (f g : α → K) (xs : List α) (h : ∀ x ∈ xs, f x = g x) :
    decayed L f xs = decayed L g xs := by
  induction xs using List.reverseRecOn with
  | nil => rfl
  | append_singleton xs x ih =>
      rw [decayed_append, decayed_append, ih fun y hy => h y (List.mem_append_left _ hy),
        h x (List.mem_append_right _ (List.mem_singleton.mpr rfl))]

/-- A quantity on a line in another has its mean on the line. -/
theorem mean_affine (L : K) (hL : 0 ≤ L) (f g : α → K) (a b : K) (xs : List α) (hne : xs ≠ [])
    (h : ∀ x ∈ xs, g x = a + b * f x) : mean L g xs = a + b * mean L f xs := by
  have hsum : decayed L g xs = a * weight L xs + b * decayed L f xs := by
    rw [decayed_congr L g _ xs h]
    clear h hne
    induction xs using List.reverseRecOn with
    | nil =>
        rw [weight]
        simp only [decayed_nil]
        ring
    | append_singleton xs x ih =>
        rw [weight_append, decayed_append, decayed_append, ih]
        ring
  have hw : 0 < weight L xs := by
    rw [← List.dropLast_append_getLast hne]
    exact weight_pos L hL _ _
  rw [← weight_mul_mean L hL g xs, ← weight_mul_mean L hL f xs] at hsum
  refine mul_left_cancel₀ hw.ne' ?_
  linear_combination hsum

/-- And moments that go with it by the slope. -/
theorem moment_affine (L : K) (hL : 0 ≤ L) (f g : α → K) (a b : K) (xs : List α)
    (h : ∀ x ∈ xs, g x = a + b * f x) : moment L f g xs = b * moment L f f xs := by
  by_cases hne : xs = []
  · rw [hne]
    exact (mul_zero b).symm
  have hterm : moment L f g xs =
      decayed L (fun x => b * ((f x - mean L f xs) * (f x - mean L f xs))) xs := by
    refine decayed_congr L _ _ xs fun x hx => ?_
    rw [mean_affine L hL f g a b xs hne h, h x hx]
    ring
  rw [hterm, moment]
  generalize mean L f xs = m
  clear h hne hterm
  induction xs using List.reverseRecOn with
  | nil => exact (mul_zero b).symm
  | append_singleton xs x ih =>
      rw [decayed_append, decayed_append, ih]
      ring

/-- A central moment is the sum of products less that of the means. -/
theorem moment_eq (L : K) (hL : 0 ≤ L) (f g : α → K) (xs : List α) :
    moment L f g xs =
      decayed L (fun x => f x * g x) xs - weight L xs * mean L f xs * mean L g xs := by
  have hexpand : ∀ m n : K, decayed L (fun x => (f x - m) * (g x - n)) xs =
      decayed L (fun x => f x * g x) xs - m * decayed L g xs - n * decayed L f xs +
        m * n * weight L xs := by
    intro m n
    induction xs using List.reverseRecOn with
    | nil =>
        rw [weight]
        simp only [decayed_nil]
        ring
    | append_singleton xs x ih =>
        rw [weight_append]
        simp only [decayed_append]
        rw [ih]
        ring
  rw [moment, hexpand, ← weight_mul_mean L hL f xs, ← weight_mul_mean L hL g xs]
  ring

/-- A central moment decays and grows by the product of the distance from the old
    mean and that from the new one. -/
theorem moment_append (L : K) (hL : 0 ≤ L) (f g : α → K) (xs : List α) (x : α) :
    moment L f g (xs ++ [x]) =
      L * moment L f g xs + (f x - mean L f xs) * (g x - mean L g (xs ++ [x])) := by
  have hf := weight_mul_mean L hL f (xs ++ [x])
  have hg := weight_mul_mean L hL g (xs ++ [x])
  rw [decayed_append, ← weight_mul_mean L hL f xs] at hf
  rw [decayed_append, ← weight_mul_mean L hL g xs] at hg
  rw [moment_eq L hL f g, moment_eq L hL f g, decayed_append, hf]
  rw [weight_append] at hg
  linear_combination -mean L f xs * hg

theorem moment_self_nonneg (L : K) (hL : 0 ≤ L) (f : α → K) (xs : List α) :
    0 ≤ moment L f f xs :=
  decayed_nonneg L hL _ xs fun x _ => mul_self_nonneg (f x - mean L f xs)

/-- Without spread in one quantity it goes with nothing. -/
theorem moment_eq_zero (L : K) (hL : 0 < L) (f g : α → K) (xs : List α)
    (h : moment L f f xs = 0) : moment L f g xs = 0 := by
  have hzero := eq_zero_of_decayed_eq_zero L hL _ xs
    (fun x _ => mul_self_nonneg (f x - mean L f xs)) h
  have hterm : ∀ ys : List α, (∀ x ∈ ys, (f x - mean L f xs) * (f x - mean L f xs) = 0) →
      decayed L (fun x => (f x - mean L f xs) * (g x - mean L g xs)) ys = 0 := by
    intro ys
    induction ys using List.reverseRecOn with
    | nil => exact fun _ => rfl
    | append_singleton ys y ih =>
        intro hys
        have hy := hys y (List.mem_append_right _ (List.mem_singleton.mpr rfl))
        rw [decayed_append, ih fun x hx => hys x (List.mem_append_left _ hx),
          mul_self_eq_zero.mp hy]
        ring
  exact hterm xs hzero

/-- The squares of a line, by its distance from the means and its slope. -/
theorem squares_eq (L : K) (hL : 0 ≤ L) (f g : α → K) (c b : K) (xs : List α) :
    squares L f g c b xs =
      moment L g g xs - 2 * b * moment L f g xs + b ^ 2 * moment L f f xs +
        weight L xs * (mean L g xs - (c + b * mean L f xs)) ^ 2 := by
  have hexpand : squares L f g c b xs = decayed L (fun x => g x * g x) xs -
      2 * b * decayed L (fun x => f x * g x) xs + b ^ 2 * decayed L (fun x => f x * f x) xs -
      2 * c * decayed L g xs + 2 * c * b * decayed L f xs + c ^ 2 * weight L xs := by
    induction xs using List.reverseRecOn with
    | nil =>
        rw [squares, weight]
        simp only [decayed_nil]
        ring
    | append_singleton xs x ih =>
        rw [squares] at ih ⊢
        rw [weight_append]
        simp only [decayed_append]
        rw [ih]
        ring
  rw [hexpand, moment_eq L hL g g, moment_eq L hL f g, moment_eq L hL f f,
    ← weight_mul_mean L hL f xs, ← weight_mul_mean L hL g xs]
  ring

/-- A slope that fits: the ratio of the moments, or any without spread. -/
def FitSlope (L : K) (f g : α → K) (b : K) (xs : List α) : Prop :=
  0 < moment L f f xs → b = moment L f g xs / moment L f f xs

/-- The line through the means with a slope that fits has the least squares. -/
theorem squares_fit_le (L : K) (hL : 0 < L) (f g : α → K) (b : K) (xs : List α)
    (hb : FitSlope L f g b xs) (c' b' : K) :
    squares L f g (mean L g xs - b * mean L f xs) b xs ≤ squares L f g c' b' xs := by
  have hw := mul_nonneg (weight_nonneg L hL.le xs)
    (sq_nonneg (mean L g xs - (c' + b' * mean L f xs)))
  rw [squares_eq L hL.le, squares_eq L hL.le]
  rcases (moment_self_nonneg L hL.le f xs).eq_or_lt with hzero | hpos
  · rw [moment_eq_zero L hL f g xs hzero.symm, ← hzero]
    linarith
  · have hslope : moment L f g xs = b * moment L f f xs := by
      rw [hb hpos, div_mul_cancel₀ _ hpos.ne']
    have hsq := mul_nonneg hpos.le (sq_nonneg (b' - b))
    rw [hslope]
    nlinarith only [hw, hsq]

/-- With spread, no other line fits as well. -/
theorem fit_unique (L : K) (hL : 0 < L) (f g : α → K) (b : K) (xs : List α)
    (hb : FitSlope L f g b xs) (hpos : 0 < moment L f f xs) (c' b' : K)
    (h : squares L f g c' b' xs ≤ squares L f g (mean L g xs - b * mean L f xs) b xs) :
    b' = b ∧ c' = mean L g xs - b * mean L f xs := by
  have hslope : moment L f g xs = b * moment L f f xs := by
    rw [hb hpos, div_mul_cancel₀ _ hpos.ne']
  have hweight : 0 < weight L xs := by
    induction xs using List.reverseRecOn with
    | nil => exact absurd hpos (lt_irrefl 0)
    | append_singleton xs x _ => exact weight_pos L hL.le xs x
  rw [squares_eq L hL.le, squares_eq L hL.le, hslope] at h
  have hw := mul_nonneg hweight.le (sq_nonneg (mean L g xs - (c' + b' * mean L f xs)))
  have hsq := mul_nonneg hpos.le (sq_nonneg (b' - b))
  have hb' : moment L f f xs * (b' - b) ^ 2 = 0 := by nlinarith only [h, hw, hsq]
  have hc' : weight L xs * (mean L g xs - (c' + b' * mean L f xs)) ^ 2 = 0 := by
    nlinarith only [h, hw, hsq]
  have hbb := sub_eq_zero.mp (pow_eq_zero_iff two_ne_zero |>.mp
    ((mul_eq_zero.mp hb').resolve_left hpos.ne'))
  have hcc := sub_eq_zero.mp (pow_eq_zero_iff two_ne_zero |>.mp
    ((mul_eq_zero.mp hc').resolve_left hweight.ne'))
  refine ⟨hbb, ?_⟩
  rw [hbb] at hcc
  linear_combination -hcc

end Ordered

end Library

end MlatBench
