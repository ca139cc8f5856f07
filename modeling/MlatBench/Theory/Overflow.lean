import Mathlib.Tactic.LinearCombination
import MlatBench.Theory.Sweep

/-!
# Times That Do Not Overflow

The sums of a pair model are means and decayed central moments. Of times within
a bound `B` the means are within it too, and the moments within a multiple of
its square. The line of a model that is usable then carries a time over to a
multiple of the cube of `B`, and a second model to a multiple of the fifth
power. While that is in range nothing overflows and every sweep ends.

The sums are followed as exact numbers beside the model, which reads them
as long as they are in range.

## Main definitions

* `Sums`, `Sums.ingest`, `Sums.line`: A model's sums as exact numbers.
* `Sums.Tame`: Their bounds.
* `PairModel.Reads`: A model has these sums.
* `State.Tame`: All pending times and all models are within bounds.
* `State.Plausible`: A report's times are within the bound.

## Theorems

* `Sums.Tame.ingest`: The bounds are kept.
* `PairModel.Tame.push`, `PairModel.Tame.predict`: Models within bounds.
* `State.tame_step`: Steps keep what is within bounds.
* `State.finite_of_tame`: Times within bounds come out finite.
* `State.sweeps_end_iff`: The runs that never hang.
-/

namespace MlatBench

namespace Server

open Library F64 F64Fn Modes

section Exact

variable {K : Type} [Field K]

/-- The sums of a pair model as exact numbers. -/
structure Sums (K : Type) where
  w : K
  ma : K
  mb : K
  caa : K
  cab : K

namespace Sums

def default : Sums K := ⟨0, 0, 0, 0, 0⟩

/-- The sums take in one observation. -/
def ingest (s : Sums K) (t u : K) : Sums K :=
  let w := s.w * (9967 / 10000) + 1
  let ma := s.ma + 1 / w * (t - s.ma)
  let mb := s.mb + 1 / w * (u - s.mb)
  { w := w, ma := ma, mb := mb
    caa := s.caa * (9967 / 10000) + (t - s.ma) * (t - ma)
    cab := s.cab * (9967 / 10000) + (t - s.ma) * (u - mb) }

/-- The line's value. -/
def line (s : Sums K) (t : K) : K :=
  s.mb + s.cab / s.caa * (t - s.ma)

variable [LinearOrder K] [IsStrictOrderedRing K]

/-- The sums of times within a bound. -/
structure Tame (B : K) (s : Sums K) : Prop where
  w_nonneg : 0 ≤ s.w
  w_le : s.w ≤ 304
  ma : |s.ma| ≤ B
  mb : |s.mb| ≤ B
  caa_nonneg : 0 ≤ s.caa
  caa : |s.caa| ≤ 1300 * B ^ 2
  cab : |s.cab| ≤ 1300 * B ^ 2

theorem tame_default (B : K) (hB : 0 ≤ B) : Tame B (default : Sums K) := by
  have h : (0 : K) ≤ 1300 * B ^ 2 := by positivity
  refine ⟨le_rfl, by norm_num [default], ?_, ?_, le_rfl, ?_, ?_⟩ <;>
    simpa only [default, abs_zero]

/-- A mean moved towards a time stays within the bound of both. -/
theorem mean_le (B m t k : K) (hm : |m| ≤ B) (ht : |t| ≤ B) (h0 : 0 ≤ k) (h1 : k ≤ 1) :
    |m + k * (t - m)| ≤ B := by
  have heq : m + k * (t - m) = (1 - k) * m + k * t := by ring
  calc |m + k * (t - m)| ≤ |(1 - k) * m| + |k * t| := by
        rw [heq]
        exact abs_add_le _ _
    _ = (1 - k) * |m| + k * |t| := by
        rw [abs_mul, abs_mul, abs_of_nonneg h0, abs_of_nonneg (sub_nonneg.mpr h1)]
    _ ≤ (1 - k) * B + k * B :=
        add_le_add (mul_le_mul_of_nonneg_left hm (sub_nonneg.mpr h1))
          (mul_le_mul_of_nonneg_left ht h0)
    _ = B := by ring

theorem diff_le (B x y : K) (hx : |x| ≤ B) (hy : |y| ≤ B) : |x - y| ≤ 2 * B := by
  have h := abs_sub x y
  linarith

theorem product_le (B x y : K) (hx : |x| ≤ 2 * B) (hy : |y| ≤ 2 * B) : |x * y| ≤ 4 * B ^ 2 := by
  rw [abs_mul]
  have h := mul_le_mul hx hy (abs_nonneg y) (le_trans (abs_nonneg x) hx)
  linarith [h]

/-- A moment decays and grows by one product. -/
theorem moment_le (B c d : K) (hc : |c| ≤ 1300 * B ^ 2) (hd : |d| ≤ 4 * B ^ 2) :
    |c * (9967 / 10000) + d| ≤ 1300 * B ^ 2 := by
  have hdecay : |c * (9967 / 10000)| = |c| * (9967 / 10000) := by
    rw [abs_mul, abs_of_nonneg (by norm_num : (0 : K) ≤ 9967 / 10000)]
  have h := abs_add_le (c * (9967 / 10000)) d
  have hB : 0 ≤ B ^ 2 := sq_nonneg B
  rw [hdecay] at h
  linarith

/-- One more observation within the bound keeps the sums within theirs. -/
theorem Tame.ingest {B : K} {s : Sums K} (h : s.Tame B) (t u : K) (ht : |t| ≤ B)
    (hu : |u| ≤ B) : (s.ingest t u).Tame B := by
  have hw : 1 ≤ s.w * (9967 / 10000) + 1 := by
    have := h.w_nonneg
    linarith
  have hk0 : 0 ≤ 1 / (s.w * (9967 / 10000) + 1) := by positivity
  have hk1 : 1 / (s.w * (9967 / 10000) + 1) ≤ 1 := by
    rw [div_le_one (by linarith)]
    exact hw
  have hma := mean_le B s.ma t _ h.ma ht hk0 hk1
  have hmb := mean_le B s.mb u _ h.mb hu hk0 hk1
  have hda := diff_le B t s.ma ht h.ma
  refine ⟨zero_le_one.trans hw, ?_, hma, hmb, ?_, ?_, ?_⟩
  · have := h.w_le
    simp only [Sums.ingest]
    linarith
  · -- The new product is a square times what the mean did not move.
    have hsq : (t - s.ma) * (t - (s.ma + 1 / (s.w * (9967 / 10000) + 1) * (t - s.ma))) =
        (1 - 1 / (s.w * (9967 / 10000) + 1)) * (t - s.ma) ^ 2 := by ring
    simp only [Sums.ingest]
    rw [hsq]
    have h1 := mul_nonneg (sub_nonneg.mpr hk1) (sq_nonneg (t - s.ma))
    have h2 := h.caa_nonneg
    linarith
  · exact moment_le B _ _ h.caa (product_le B _ _ hda (diff_le B _ _ ht hma))
  · exact moment_le B _ _ h.cab (product_le B _ _ hda (diff_le B _ _ hu hmb))

/-- The line carries a time within one bound to within another. -/
theorem Tame.line_le {B : K} {s : Sums K} (h : s.Tame B) (hcaa : 1 ≤ s.caa) (T t : K)
    (ht : |t| ≤ T) : |s.cab / s.caa| ≤ 1300 * B ^ 2 ∧ |t - s.ma| ≤ T + B ∧
      |s.cab / s.caa * (t - s.ma)| ≤ 1300 * B ^ 2 * (T + B) ∧
      |s.line t| ≤ B + 1300 * B ^ 2 * (T + B) := by
  have hbeta : |s.cab / s.caa| ≤ 1300 * B ^ 2 := by
    rw [abs_div, abs_of_nonneg h.caa_nonneg]
    exact (div_le_self (abs_nonneg _) hcaa).trans h.cab
  have hda : |t - s.ma| ≤ T + B := (abs_sub t s.ma).trans (add_le_add ht h.ma)
  have hmul : |s.cab / s.caa * (t - s.ma)| ≤ 1300 * B ^ 2 * (T + B) := by
    rw [abs_mul]
    exact mul_le_mul hbeta hda (abs_nonneg _) (by positivity)
  exact ⟨hbeta, hda, hmul, (abs_add_le _ _).trans (add_le_add h.mb hmul)⟩

end Sums

end Exact

namespace PairModel

section Room

variable {K : Type} [Field K] [LinearOrder K] [IsStrictOrderedRing K]

/-- The bound is at least one, and a multiple of its fifth power is in range. -/
structure Room (B : K) : Prop where
  one_le : 1 ≤ B
  fifth : 4000000 * B ^ 5 ≤ maxFinite K

variable {B : K}

theorem Room.pos (h : Room B) : 0 < B := zero_lt_one.trans_le h.one_le

theorem Room.le_max (h : Room B) (c : K) (n : Nat) (hc : c ≤ 4000000) (hn : n ≤ 5) :
    c * B ^ n ≤ maxFinite K := by
  have hpow : B ^ n ≤ B ^ 5 := pow_le_pow_right₀ h.one_le hn
  have hpos : 0 ≤ B ^ n := pow_nonneg h.pos.le n
  calc c * B ^ n ≤ 4000000 * B ^ n := mul_le_mul_of_nonneg_right hc hpos
    _ ≤ 4000000 * B ^ 5 := mul_le_mul_of_nonneg_left hpow (by norm_num)
    _ ≤ maxFinite K := h.fifth

theorem Room.const (h : Room B) (c : K) (h0 : 0 ≤ c) (hc : c ≤ 4000000) :
    |c| ≤ maxFinite K := by
  have := h.le_max c 0 hc (by omega)
  rwa [pow_zero, mul_one, ← abs_of_nonneg h0] at this

theorem Room.direct (hB : Room B) : B + 1300 * B ^ 2 * (B + B) ≤ maxFinite K := by
  have h := hB.le_max 2601 3 (by norm_num) (by norm_num)
  have hpow : B ^ 1 ≤ B ^ 3 := pow_le_pow_right₀ hB.one_le (by norm_num)
  calc B + 1300 * B ^ 2 * (B + B) = B ^ 1 + 2600 * B ^ 3 := by ring
    _ ≤ 2601 * B ^ 3 := by linarith
    _ ≤ maxFinite K := h

theorem Room.relayed (hB : Room B) :
    B + 1300 * B ^ 2 * (B + 1300 * B ^ 2 * (B + B) + B) ≤ maxFinite K := by
  have h1 : B ^ 1 ≤ B ^ 5 := pow_le_pow_right₀ hB.one_le (by norm_num)
  have h3 : B ^ 3 ≤ B ^ 5 := pow_le_pow_right₀ hB.one_le (by norm_num)
  have hpos := hB.pos
  calc B + 1300 * B ^ 2 * (B + 1300 * B ^ 2 * (B + B) + B)
      = B ^ 1 + 2600 * B ^ 3 + 3380000 * B ^ 5 := by ring
    _ ≤ 4000000 * B ^ 5 := by linarith [pow_pos hpos 5]
    _ ≤ maxFinite K := hB.fifth

theorem room_sixty : Room (10 ^ 60 : K) := by
  refine ⟨one_le_pow₀ (by norm_num), ?_⟩
  have hnat : 4000000 * (10 ^ 60) ^ 5 ≤ (2 ^ 53 - 1) * 2 ^ 971 := by decide +kernel
  unfold maxFinite
  exact_mod_cast hnat

variable [FloorRing K]

/-- A literal is the number it names. -/
theorem Room.lit (h : Room B) (q : ℚ) (a : K) (hq : (q : K) = a) (h0 : 0 ≤ a) (ha : a ≤ 4000000) :
    Ext.Val (F64.lit q : Ext K) a := by
  rw [← hq] at h0 ha ⊢
  exact Ext.val_lit q (h.const _ h0 ha)

theorem Room.diff_val (hB : Room B) {x y : Ext K} {a b : K} (hx : Ext.Val x a) (hy : Ext.Val y b)
    (ha : |a| ≤ B) (hb : |b| ≤ B) : Ext.Val (x - y) (a - b) := by
  refine hx.sub hy ((Sums.diff_le B a b ha hb).trans ?_)
  simpa only [pow_one] using hB.le_max 2 1 (by norm_num) (by norm_num)

theorem Room.mean_val (hB : Room B) {x y z : Ext K} {m t k : K} (hm : Ext.Val x m)
    (ht : Ext.Val y t) (hk : Ext.Val z k) (hm' : |m| ≤ B) (ht' : |t| ≤ B) (h0 : 0 ≤ k)
    (h1 : k ≤ 1) : Ext.Val (x + z * (y - x)) (m + k * (t - m)) := by
  have hdiff := Sums.diff_le B t m ht' hm'
  have hmul : |k * (t - m)| ≤ 2 * B := by
    rw [abs_mul, abs_of_nonneg h0]
    exact (mul_le_of_le_one_left (abs_nonneg _) h1).trans hdiff
  have h2 := hB.le_max 2 1 (by norm_num) (by norm_num)
  have hmean := hB.le_max 1 1 (by norm_num) (by norm_num)
  rw [pow_one] at h2 hmean
  rw [one_mul] at hmean
  refine hm.add (hk.mul (hB.diff_val ht hm ht' hm') (hmul.trans h2)) ?_
  exact (Sums.mean_le B m t k hm' ht' h0 h1).trans hmean

end Room

section Bounds

variable {K : Type} [Field K] [LinearOrder K]

/-- A model has these sums. -/
structure Reads (m : PairModel (Ext K)) (s : Sums K) : Prop where
  w : Ext.Val m.w s.w
  ma : Ext.Val m.ma s.ma
  mb : Ext.Val m.mb s.mb
  caa : Ext.Val m.caa s.caa
  cab : Ext.Val m.cab s.cab

/-- The sums of a model are those of times within a bound. -/
def Tame (B : K) (m : PairModel (Ext K)) : Prop :=
  ∃ s : Sums K, m.Reads s ∧ s.Tame B

/-- A time within a bound. -/
def Within (B : K) (x : Ext K) : Prop :=
  ∃ a, Ext.Val x a ∧ |a| ≤ B

theorem Within.finite {B : K} {x : Ext K} (h : Within B x) : x.isFinite = true := by
  rcases h with ⟨a, hx, _⟩
  exact hx.isFinite

theorem within_fin (B a : K) (h : |a| ≤ maxFinite K) : Within B (.fin a h) ↔ |a| ≤ B := by
  constructor
  · rintro ⟨b, ⟨_, heq⟩, hle⟩
    cases heq
    exact hle
  · exact fun hle => ⟨a, ⟨h, rfl⟩, hle⟩

instance (B : K) (x : Ext K) : Decidable (Within B x) :=
  match x with
  | .fin a h => decidable_of_iff _ (within_fin B a h).symm
  | .inf _ => isFalse (by rintro ⟨_, ⟨_, heq⟩, _⟩; cases heq)
  | .nan => isFalse (by rintro ⟨_, ⟨_, heq⟩, _⟩; cases heq)

end Bounds

variable {K : Type} [Field K] [LinearOrder K] [IsStrictOrderedRing K] [FloorRing K] [Fns K]
variable {B : K}

theorem tame_default (h : Room B) : (default : PairModel (Ext K)).Tame B := by
  have hzero : Ext.Val (F64.lit 0 : Ext K) 0 :=
    h.lit 0 0 (by norm_num) le_rfl (by norm_num)
  exact ⟨Sums.default, ⟨hzero, hzero, hzero, hzero, hzero⟩, Sums.tame_default B h.pos.le⟩

theorem Room.moment_val (hB : Room B) {x y z : Ext K} {c d e : K} (hc : Ext.Val x c)
    (hd : Ext.Val y d) (he : Ext.Val z e) (hc' : |c| ≤ 1300 * B ^ 2) (hd' : |d| ≤ 2 * B)
    (he' : |e| ≤ 2 * B) : Ext.Val (x * lambda + y * z) (c * (9967 / 10000) + d * e) := by
  have hlam : Ext.Val (lambda : Ext K) (9967 / 10000) :=
    hB.lit _ _ (by norm_num) (by norm_num) (by norm_num)
  have hprod := Sums.product_le B d e hd' he'
  have hsq := hB.le_max 1300 2 (by norm_num) (by norm_num)
  have hdecay : |c * (9967 / 10000)| ≤ 1300 * B ^ 2 := by
    rw [abs_mul, abs_of_nonneg (by norm_num : (0 : K) ≤ 9967 / 10000)]
    exact (mul_le_of_le_one_right (abs_nonneg c) (by norm_num)).trans hc'
  refine (hc.mul hlam (hdecay.trans hsq)).add (hd.mul he (hprod.trans ?_)) ?_
  · exact hB.le_max 4 2 (by norm_num) (by norm_num)
  · exact (Sums.moment_le B c _ hc' hprod).trans hsq

/-- While the sums are within their bounds the model's are exact. -/
theorem Reads.ingest (hB : Room B) {m : PairModel (Ext K)} {s : Sums K} (h : m.Reads s)
    (hs : s.Tame B) (x y : Ext K) (t u : K) (hx : Ext.Val x t) (hy : Ext.Val y u)
    (ht : |t| ≤ B) (hu : |u| ≤ B) : (m.ingest x y).Reads (s.ingest t u) := by
  have hlam : Ext.Val (lambda : Ext K) (9967 / 10000) :=
    hB.lit _ _ (by norm_num) (by norm_num) (by norm_num)
  have hone : Ext.Val (F64.lit 1 : Ext K) 1 :=
    hB.lit _ _ (by norm_num) (by norm_num) (by norm_num)
  have hw0 := hs.w_nonneg
  have hw1 := hs.w_le
  have hwd : Ext.Val (m.w * lambda) (s.w * (9967 / 10000)) :=
    h.w.mul hlam (hB.const _ (by positivity) (by linarith))
  have hw : Ext.Val (m.w * lambda + F64.lit 1) (s.w * (9967 / 10000) + 1) :=
    hwd.add hone (hB.const _ (by positivity) (by linarith))
  have hk0 : 0 ≤ 1 / (s.w * (9967 / 10000) + 1) := by positivity
  have hk1 : 1 / (s.w * (9967 / 10000) + 1) ≤ 1 := by
    rw [div_le_one (by linarith)]
    linarith
  have hk : Ext.Val (F64.lit 1 / (m.w * lambda + F64.lit 1)) (1 / (s.w * (9967 / 10000) + 1)) :=
    hone.div hw (by positivity) (hB.const _ hk0 (by linarith))
  have hma := hB.mean_val h.ma hx hk hs.ma ht hk0 hk1
  have hmb := hB.mean_val h.mb hy hk hs.mb hu hk0 hk1
  have hma' := Sums.mean_le B s.ma t _ hs.ma ht hk0 hk1
  have hmb' := Sums.mean_le B s.mb u _ hs.mb hu hk0 hk1
  have hda := hB.diff_val hx h.ma ht hs.ma
  have hda' := Sums.diff_le B t s.ma ht hs.ma
  refine ⟨hw, hma, hmb, ?_, ?_⟩
  · exact hB.moment_val h.caa hda (hB.diff_val hx hma ht hma') hs.caa hda'
      (Sums.diff_le B _ _ ht hma')
  · exact hB.moment_val h.cab hda (hB.diff_val hy hmb hu hmb') hs.cab hda'
      (Sums.diff_le B _ _ hu hmb')

theorem Tame.ingest (hB : Room B) {m : PairModel (Ext K)} (h : m.Tame B) (x y : Ext K)
    (hx : Within B x) (hy : Within B y) : (m.ingest x y).Tame B := by
  rcases h with ⟨s, hread, hs⟩
  rcases hx with ⟨t, hx, ht⟩
  rcases hy with ⟨u, hy, hu⟩
  exact ⟨s.ingest t u, hread.ingest hB hs x y t u hx hy ht hu, hs.ingest t u ht hu⟩

/-- A push ingests, refuses or clears. -/
theorem Tame.push (hB : Room B) {m : PairModel (Ext K)} (h : m.Tame B) (x y : Ext K)
    (hx : Within B x) (hy : Within B y) : (m.push x y).1.Tame B := by
  -- Neither the refusals nor the variance is one of the sums.
  have hsame : ∀ msq rejects,
      ({ m with rejects := rejects, msq := msq } : PairModel (Ext K)).Tame B := by
    rcases h with ⟨s, hread, hs⟩
    exact fun msq rejects => ⟨s, ⟨hread.w, hread.ma, hread.mb, hread.caa, hread.cab⟩, hs⟩
  unfold PairModel.push
  simp only []
  split_ifs
  · exact tame_default hB
  · exact hsame m.msq (m.rejects + 1)
  · exact Tame.ingest hB (hsame _ 0) x y hx hy
  · exact Tame.ingest hB h x y hx hy

/-- The central sum of a usable model is not small. -/
theorem Reads.usable (hB : Room B) {m : PairModel (Ext K)} {s : Sums K} (h : m.Reads s)
    (hs : s.Tame B) (hu : m.usable = true) : 1 ≤ s.caa := by
  have hconst := fun (q : ℚ) (a : K) => hB.lit q a
  have hspan : Ext.Val (minSpanS / F64.lit 4 : Ext K) (5 / 4) :=
    (hconst 5 5 (by norm_num) (by norm_num) (by norm_num)).div
      (hconst 4 4 (by norm_num) (by norm_num) (by norm_num)) (by norm_num)
      (hB.const _ (by norm_num) (by norm_num))
  have hspread := hspan.mul hspan (hB.const _ (by norm_num) (by norm_num))
  have hmax := h.w.max (hconst 1 1 (by norm_num) (by norm_num) (by norm_num))
  have hpos : (1 : K) ≤ Max.max s.w 1 := le_max_right _ _
  have hvar := h.caa.div hmax (by positivity) (by
    rw [abs_div, abs_of_nonneg (zero_le_one.trans hpos)]
    refine (div_le_self (abs_nonneg _) hpos).trans (hs.caa.trans ?_)
    exact hB.le_max 1300 2 (by norm_num) (by norm_num))
  unfold PairModel.usable at hu
  have hle := (of_decide_eq_true hu).2
  rw [hspread.le_iff hvar, le_div_iff₀ (by positivity)] at hle
  have h1 : (5 / 4 * (5 / 4) : K) * 1 ≤ 5 / 4 * (5 / 4) * Max.max s.w 1 :=
    mul_le_mul_of_nonneg_left hpos (by norm_num)
  linarith

/-- The line of a usable model within bounds carries times over exactly. -/
theorem Tame.predict (hB : Room B) {m : PairModel (Ext K)} (h : m.Tame B) (hu : m.usable = true)
    (T : K) (hT : 0 ≤ T) (x : Ext K) (hx : Within T x)
    (hroom : B + 1300 * B ^ 2 * (T + B) ≤ maxFinite K) :
    Within (B + 1300 * B ^ 2 * (T + B)) (m.predictUnchecked x).1 := by
  rcases h with ⟨s, hread, hs⟩
  rcases hx with ⟨t, hx, ht⟩
  have hcaa := hread.usable hB hs hu
  rcases hs.line_le hcaa T t ht with ⟨hbeta, hda, hmul, hline⟩
  have hBpos := hB.pos
  have hsq := hB.le_max 1300 2 (by norm_num) (by norm_num)
  have hprod : 1300 * B ^ 2 * (T + B) ≤ maxFinite K := by linarith
  have hsum : T + B ≤ maxFinite K := by
    have h1 : 1 * (T + B) ≤ 1300 * B ^ 2 * (T + B) := by
      refine mul_le_mul_of_nonneg_right ?_ (by linarith)
      have := one_le_pow₀ hB.one_le (n := 2)
      linarith
    linarith
  have hzero : Ext.Val (F64.lit 0 : Ext K) 0 := hB.lit 0 0 (by norm_num) le_rfl (by norm_num)
  have hslope : Ext.Val (if F64.lit 0 < m.caa then m.cab / m.caa else F64.lit 1)
      (s.cab / s.caa) := by
    rw [if_pos ((hzero.lt_iff hread.caa).mpr (by linarith))]
    exact hread.cab.div hread.caa (zero_lt_one.trans_le hcaa).ne'
      (hbeta.trans hsq)
  refine ⟨s.line t, ?_, hline⟩
  exact hread.mb.add (hslope.mul (hx.sub hread.ma (hda.trans hsum)) (hmul.trans hprod))
    (hline.trans hroom)

end PairModel

namespace State

open PairModel

variable {K : Type} [Field K] [LinearOrder K]

/-- The models and the pending times are within a bound. -/
structure Tame (B : K) (s : State (Ext K)) : Prop where
  pairs : ∀ k p, s.pairs k = some p → p.Tame B
  reporters : ∀ k sp, s.syncpoints k = some sp → ∀ rep ∈ sp.reporters,
    Within B rep.te ∧ Within B rep.tO
  entries : ∀ key g, s.groups key = some g → ∀ e ∈ g.entries, Within B e.tS

variable {B : K}

theorem tame_new (shardId : Nat) (mlatAdsb emitFiltered : Bool) :
    Tame B (State.new shardId mlatAdsb emitFiltered : State (Ext K)) where
  pairs _ p h := absurd h (Option.some_ne_none p).symm
  reporters _ sp h := absurd h (Option.some_ne_none sp).symm
  entries _ g h := absurd h (Option.some_ne_none g).symm

/-- What is left of models and pending times is within the bound. -/
theorem Tame.fewer {s s' : State (Ext K)} (h : Tame B s)
    (hp : ∀ k p, s'.pairs k = some p → s.pairs k = some p)
    (hs : ∀ k sp, s'.syncpoints k = some sp → s.syncpoints k = some sp)
    (hg : ∀ k g, s'.groups k = some g → s.groups k = some g) : Tame B s' where
  pairs k p hk := h.pairs k p (hp k p hk)
  reporters k sp hk := h.reporters k sp (hs k sp hk)
  entries k g hk := h.entries k g (hg k g hk)

theorem Tame.frame {s s' : State (Ext K)} (h : Tame B s) (hf : Frame s s') : Tame B s' := by
  refine h.fewer ?_ ?_ ?_
  · rw [hf.pairs]
    exact fun _ _ hk => hk
  · rw [hf.syncpoints]
    exact fun _ _ hk => hk
  · rw [hf.groups]
    exact fun _ _ hk => hk

theorem Tame.dropPairs {s : State (Ext K)} (h : Tame B s) (rx : Nat) : Tame B (s.dropPairs rx) := by
  refine h.fewer (fun k p hk => ?_) (fun _ _ hk => hk) (fun _ _ hk => hk)
  simp only [State.dropPairs] at hk
  split_ifs at hk
  exact hk

theorem Tame.clockReset {s : State (Ext K)} (h : Tame B s) (r : RxRef) :
    Tame B (s.clockReset r) := by
  unfold State.clockReset
  split_ifs
  · exact h
  · have hdrop := h.dropPairs r.idx
    exact ⟨hdrop.pairs, hdrop.reporters, hdrop.entries⟩

variable [FloorRing K] [Fns K]

theorem Tame.removeReceiver {s : State (Ext K)} (h : Tame B s) (r : RxRef) :
    Tame B (s.removeReceiver r) := by
  unfold State.removeReceiver
  split_ifs
  · exact h
  · have hdrop := h.dropPairs r.idx
    exact ⟨hdrop.pairs, hdrop.reporters, hdrop.entries⟩

theorem Tame.addReceiver {s : State (Ext K)} (h : Tame B s) (info : ReceiverInfo (Ext K)) :
    Tame B (s.addReceiver info).1 := by
  have htake : ∀ t : State (Ext K), Tame B t → Tame B (t.takeSlot info).1 := by
    intro t ht
    unfold takeSlot
    split <;> exact ⟨ht.pairs, ht.reporters, ht.entries⟩
  unfold State.addReceiver
  cases s.byUser info.user with
  | none =>
      have hnew := htake s h
      exact ⟨hnew.pairs, hnew.reporters, hnew.entries⟩
  | some old =>
      have hnew := htake _ (h.removeReceiver ⟨old, s.genOf old⟩)
      exact ⟨hnew.pairs, hnew.reporters, hnew.entries⟩

theorem Tame.onMlat {s : State (Ext K)} (h : Tame B s) (now : Nat) (r : RxRef) (tCounts : Ext K)
    (mHex : String) (atScaled : Ext K) (ht : Within B (tCounts / (s.receiver r.idx).freqHz)) :
    Tame B (s.onMlat now r tCounts mHex atScaled) := by
  rcases s.onMlat_cases now r tCounts mHex atScaled with heq | ⟨_, alts, g, ⟨hg, _⟩, heq⟩
  · rw [heq]
    exact h
  · rw [heq]
    refine ⟨h.pairs, h.reporters, fun key g' hkey e he => ?_⟩
    by_cases hne : key = mHex
    · simp only [hne, Function.update_self, Option.some.injEq] at hkey
      rw [← hkey] at he
      rcases List.mem_append.mp he with he | he
      · cases hold : s.groups mHex with
        | none =>
            rw [hold, Option.getD_none, hg] at he
            exact absurd he List.not_mem_nil
        | some old =>
            rw [hold, Option.getD_some] at he
            exact h.entries mHex old hold e he
      · rw [List.mem_singleton.mp he]
        exact ht
    · simp only [Function.update_of_ne hne] at hkey
      exact h.entries key g' hkey e he

theorem Tame.sweep {s : State (Ext K)} (h : Tame B s) (solver : Solver (Ext K)) (now window : Nat)
    (order : List String) (clock : String → Nat → Ext K) :
    Tame B (s.sweep solver now window order clock) := by
  refine List.foldlRecOn _ (solveKey solver clock) (motive := fun s' : State (Ext K) => Tame B s')
    ?_ ?_
  · exact h.fewer (fun _ _ hk => hk) (fun k sp hk => (Option.filter_eq_some_iff.mp hk).1)
      (fun _ _ hk => hk)
  · intro s' hs' key _
    unfold solveKey
    split
    · exact hs'
    · split_ifs
      · exact hs'
      · refine Tame.frame ?_ (solveGroup_solved solver _ (clock key) _).frame
        refine hs'.fewer (fun _ _ hk => hk) (fun _ _ hk => hk) fun k g hk => ?_
        by_cases hne : k = key
        · simp only [hne, Function.update_self] at hk
          exact absurd hk (Option.some_ne_none g).symm
        · simpa only [Function.update_of_ne hne] using hk

variable [IsStrictOrderedRing K]

theorem Tame.trainPair (hB : Room B) {s : State (Ext K)} (h : Tame B s) (a b : Nat) (x y : Ext K)
    (hx : Within B x) (hy : Within B y) : Tame B (s.trainPair a b x y) := by
  -- A model that is not there yet starts from the default.
  have hget : ∀ ps : Nat × Nat → Option (PairModel (Ext K)),
      (∀ k p, ps k = some p → p.Tame B) → ∀ k, ((ps k).getD PairModel.default).Tame B := by
    intro ps hps k
    cases hk : ps k with
    | none => exact tame_default hB
    | some p => exact hps k p hk
  have hset : ∀ (ps : Nat × Nat → Option (PairModel (Ext K))) (k : Nat × Nat)
      (m : PairModel (Ext K)), (∀ k p, ps k = some p → p.Tame B) → m.Tame B →
      ∀ k' p, Function.update ps k (some m) k' = some p → p.Tame B := by
    intro ps k m hps hm k' p hp
    by_cases hne : k' = k
    · rw [hne, Function.update_self, Option.some.injEq] at hp
      rwa [← hp]
    · rw [Function.update_of_ne hne] at hp
      exact hps k' p hp
  have hab := hset s.pairs (a, b) _ h.pairs ((hget s.pairs h.pairs (a, b)).push hB x y hx hy)
  exact ⟨hset _ (b, a) _ hab ((hget _ hab (b, a)).push hB y x hy hx), h.reporters, h.entries⟩

theorem Tame.trainWith (hB : Room B) {s : State (Ext K)} (h : Tame B s)
    (me other : Reporter (Ext K)) (hme : Within B me.te ∧ Within B me.tO)
    (hother : Within B other.te ∧ Within B other.tO) :
    Tame B (s.trainWith me other) := by
  unfold State.trainWith
  split_ifs
  · exact h
  · have heven := h.trainPair hB me.rx other.rx me.te other.te hme.1 hother.1
    have hodd := heven.trainPair hB me.rx other.rx me.tO other.tO hme.2 hother.2
    exact ⟨hodd.pairs, hodd.reporters, hodd.entries⟩

theorem Tame.joinSync (hB : Room B) {s : State (Ext K)} (h : Tame B s) (now : Nat) (r : RxRef)
    (te tO : Ext K) (key : String × String) (hte : Within B te) (hto : Within B tO) :
    Tame B (s.joinSync now r te tO key) := by
  have hreps : ∀ rep ∈ ((s.syncpoints key).getD { created := now, reporters := [] }).reporters,
      Within B rep.te ∧ Within B rep.tO := by
    cases hkey : s.syncpoints key with
    | none => exact fun rep hrep => absurd hrep List.not_mem_nil
    | some sp => exact h.reporters key sp hkey
  have hset : ∀ sp : SyncPoint (Ext K),
      (∀ rep ∈ sp.reporters, Within B rep.te ∧ Within B rep.tO) →
      Tame B { s with syncpoints := Function.update s.syncpoints key (some sp) } := by
    intro sp hsp
    refine ⟨h.pairs, fun k sp' hk => ?_, h.entries⟩
    by_cases hne : k = key
    · simp only [hne, Function.update_self, Option.some.injEq] at hk
      rwa [← hk]
    · simp only [Function.update_of_ne hne] at hk
      exact h.reporters k sp' hk
  unfold State.joinSync
  simp only []
  split_ifs
  · exact hset _ hreps
  · refine List.foldlRecOn _ _ (motive := fun s' : State (Ext K) => Tame B s') ?_ ?_
    · refine hset _ fun rep hrep => ?_
      rcases List.mem_append.mp hrep with hrep | hrep
      · exact hreps rep hrep
      · rw [List.mem_singleton.mp hrep]
        exact ⟨hte, hto⟩
    · exact fun s' hs' other hother => hs'.trainWith hB _ other ⟨hte, hto⟩ (hreps other hother)

/-- The transmit times of a sync message in the receiver's clock. -/
def transmitTimes (s : State (Ext K)) (r : RxRef) (et ot : Ext K) (emHex omHex : String) :
    List (Ext K) :=
  match syncEvent emHex omHex with
  | none => []
  | some (de, pe, po) =>
    let altM : Ext K := lit (de.altFt.getD 0) * lit (3048 / 10000)
    let info := s.receiver r.idx
    [et / info.freqHz - info.ecef.dist (⟨pe.1, pe.2, altM⟩ : Geodetic (Ext K)).toEcef / cMps,
      ot / info.freqHz - info.ecef.dist (⟨po.1, po.2, altM⟩ : Geodetic (Ext K)).toEcef / cMps]

/-- The times of a report, read in seconds of the receiver's clock, are within
    a bound; so are the transmit times of a sync message. -/
def Plausible (B : K) (s : State (Ext K)) : Event (Ext K) → Prop
  | .sync _ r et ot emHex omHex _ => Within B (et / (s.receiver r.idx).freqHz) ∧
      ∀ t ∈ s.transmitTimes r et ot emHex omHex, Within B t
  | .mlat _ r tCounts _ _ => Within B (tCounts / (s.receiver r.idx).freqHz)
  | _ => True

theorem Tame.onSync (hB : Room B) {s : State (Ext K)} (h : Tame B s) (now : Nat) (r : RxRef)
    (et ot : Ext K) (emHex omHex : String) (atScaled : Ext K)
    (hp : s.Plausible B (.sync now r et ot emHex omHex atScaled)) :
    Tame B (s.onSync now r et ot emHex omHex atScaled) := by
  rcases hp with ⟨het, htimes⟩
  unfold transmitTimes at htimes
  unfold State.onSync
  split_ifs
  · exact h
  · cases hev : (syncEvent emHex omHex :
        Option (Df17Airborne × (Ext K × Ext K) × (Ext K × Ext K))) with
    | none => exact h
    | some ev =>
        rcases ev with ⟨de, pe, po⟩
        rw [hev] at htimes
        simp only [List.forall_mem_cons] at htimes
        have hnote : ∀ geo, Tame B (s.noteAdsb de geo atScaled) := fun geo =>
          ⟨h.pairs, h.reporters, h.entries⟩
        refine Tame.joinSync hB ?_ now r _ _ _ htimes.1 htimes.2.1
        split_ifs
        · exact (hnote _).onMlat now r et emHex atScaled het
        · exact hnote _

/-- Steps whose times are within the bound keep the state within it. -/
theorem tame_step (hB : Room B) (solver : Solver (Ext K)) (s : State (Ext K)) (e : Event (Ext K))
    (h : Tame B s) (hp : s.Plausible B e) : Tame B (s.step solver e) := by
  unfold step
  split_ifs
  · exact h
  · cases e with
    | add info => exact h.addReceiver info
    | remove r => exact h.removeReceiver r
    | reset r => exact h.clockReset r
    | sync now r et ot emHex omHex atScaled => exact h.onSync hB now r et ot emHex omHex atScaled hp
    | mlat now r tCounts mHex atScaled => exact h.onMlat now r tCounts mHex atScaled hp
    | stats r => exact h.frame (quiet_receiverStats s r).toFrame
    | sweep now window order clock => exact h.sweep solver now window order clock

instance (B : K) (s : State (Ext K)) (e : Event (Ext K)) : Decidable (s.Plausible B e) :=
  match e with
  | .sync _ r et ot emHex omHex _ => inferInstanceAs (Decidable
      (Within B (et / (s.receiver r.idx).freqHz) ∧
        ∀ t ∈ s.transmitTimes r et ot emHex omHex, Within B t))
  | .mlat _ r tCounts _ _ =>
      inferInstanceAs (Decidable (Within B (tCounts / (s.receiver r.idx).freqHz)))
  | .add _ => isTrue trivial
  | .remove _ => isTrue trivial
  | .reset _ => isTrue trivial
  | .stats _ => isTrue trivial
  | .sweep _ _ _ _ => isTrue trivial

/-- A model within bounds carries times over to within a larger bound. -/
theorem Tame.hop (hB : Room B) {s : State (Ext K)} (h : Tame B s) (a b : Nat) (T : K) (hT : 0 ≤ T)
    (hroom : B + 1300 * B ^ 2 * (T + B) ≤ maxFinite K) (x : Ext K) (hx : Within T x)
    (t sigma : Ext K) (hhop : s.hop a b x = some (t, sigma)) :
    Within (B + 1300 * B ^ 2 * (T + B)) t := by
  rcases Option.bind_eq_some_iff.mp hhop with ⟨p, hp, hconv⟩
  unfold PairModel.convert at hconv
  split_ifs at hconv with husable hgate
  have hpred := (h.pairs _ p hp).predict hB (Bool.not_eq_false _ ▸ husable) T hT x hx hroom
  rw [Option.some.inj hconv] at hpred
  exact hpred

/-- Times within bounds come out finite, over one model or two. -/
theorem toRef_finite (hB : Room B) {s : State (Ext K)} (h : Tame B s) (members : List Nat)
    (ref rx : Nat) (x : Ext K) (hx : Within B x) (t sigma : Ext K)
    (ht : s.toRef members ref rx x = some (t, sigma)) : t.isFinite = true := by
  have hpos := hB.pos.le
  unfold toRef at ht
  split_ifs at ht
  · rw [← (Prod.mk.inj (Option.some.inj ht)).1]
    exact Within.finite hx
  · split at ht
    · next direct hdirect =>
        rw [ht] at hdirect
        exact Within.finite (h.hop hB rx ref B hpos (Room.direct hB) x hx t sigma hdirect)
    · revert t sigma
      refine List.foldlRecOn _ _ (motive := fun best : Option (Ext K × Ext K) =>
        ∀ t sigma, best = some (t, sigma) → t.isFinite = true) ?_ ?_
      · exact fun t sigma ht => absurd ht (Option.some_ne_none _).symm
      · intro best hbest m _ t sigma ht
        split at ht
        · exact hbest t sigma ht
        · next t1 s1 hfirst =>
            have hone := h.hop hB rx m B hpos (Room.direct hB) x hx t1 s1 hfirst
            split at ht
            · exact hbest t sigma ht
            · next t2 s2 hsecond =>
                have htwo := h.hop hB m ref _ (by positivity) (Room.relayed hB) t1 hone
                  t2 s2 hsecond
                split at ht
                · rw [← (Prod.mk.inj (Option.some.inj ht)).1]
                  exact Within.finite htwo
                · simp only [] at ht
                  split_ifs at ht
                  · rw [← (Prod.mk.inj (Option.some.inj ht)).1]
                    exact Within.finite htwo
                  · exact hbest t sigma ht

theorem finite_of_tame (hB : Room B) (s : State (Ext K)) (e : Event (Ext K)) (h : Tame B s) :
    s.FiniteTimes e := by
  cases e with
  | sweep now window order clock =>
      intro key _ g hg _ ref _ entry hentry t sigma ht
      exact toRef_finite hB h g.members ref entry.rx entry.tS (h.entries key g hg entry hentry)
        t sigma ht
  | add info => trivial
  | remove r => trivial
  | reset r => trivial
  | sync now r et ot emHex omHex atScaled => trivial
  | mlat now r tCounts mHex atScaled => trivial
  | stats r => trivial

/-- Along a run whose times are within the bound all times come out finite. -/
theorem finiteTimes_of_plausible (hB : Room B) (solver : Solver (Ext K)) (s : State (Ext K))
    (h : Tame B s) (es : List (Event (Ext K))) (hp : Along (step solver) (Plausible B) s es) :
    Along (step solver) FiniteTimes s es := by
  induction es generalizing s with
  | nil => trivial
  | cons e es ih =>
      exact ⟨finite_of_tame hB s e h, ih _ (tame_step hB solver s e h hp.1) hp.2⟩

/-- A run never hangs, that is every turn of every sweep's loop moves the index,
    just when the times its sweeps cut come out finite. For that it is enough that
    the times reported are at most `10 ^ 60` seconds. -/
theorem sweeps_end_iff (solver : Solver (Ext K)) (shardId : Nat) (mlatAdsb emitFiltered : Bool)
    (es : List (Event (Ext K))) :
    ((∀ n, (exec (step solver) (State.new shardId mlatAdsb emitFiltered)
        (es.take n)).hung = false) ↔
      Along (step solver) FiniteTimes (State.new shardId mlatAdsb emitFiltered) es) ∧
    (Along (step solver) Advancing (State.new shardId mlatAdsb emitFiltered) es ↔
      Along (step solver) FiniteTimes (State.new shardId mlatAdsb emitFiltered) es) ∧
    (Along (step solver) (Plausible (10 ^ 60)) (State.new shardId mlatAdsb emitFiltered) es →
      Along (step solver) FiniteTimes (State.new shardId mlatAdsb emitFiltered) es) := by
  have hiff : (Advancing : State (Ext K) → Event (Ext K) → Prop) = FiniteTimes := by
    ext s e
    exact advancing_iff s e
  refine ⟨?_, by rw [hiff], ?_⟩
  · rw [← hiff]
    exact along_iff_take (step solver) Advancing (fun s => s.hung = false)
      (step_hung solver) _ es rfl
  · exact finiteTimes_of_plausible room_sixty solver _ (tame_new shardId mlatAdsb emitFiltered) es

/-- One of four receivers at one place on the equator. -/
def fieldRx (user : String) : ReceiverInfo (Ext ℚ) :=
  { user := user, geo := ⟨lit 0, lit 0, lit 0⟩, ecef := ⟨lit 6378137, lit 0, lit 0⟩
    freqHz := lit 12000000, gps := false, jitterS := lit (1 / 2000000) }

/-- The four report a pair three times, the odd message at a count `ot`, then a
    reply, and a sweep follows. -/
def fieldRun (ot : ℚ) : List (Event (Ext ℚ)) :=
  ["a", "b", "c", "d"].map (fun user => .add (fieldRx user)) ++
    [0, 1, 2, 3, 0, 1, 2, 3, 0, 1, 2, 3].map (fun i => .sync 0 ⟨i, 0⟩ (lit 12000000) (lit ot)
      "8d3c644458b500000000008c4ccb" "8d3c644458b504000000008067f3" (lit 0)) ++
    [0, 1, 2, 3].map (fun i => .mlat 0 ⟨i, 0⟩ (lit 12000000) "5d3c6444dc6d6a" (lit 0)) ++
    [.sweep (10 ^ 9) (10 ^ 9) ["5d3c6444dc6d6a"] fun _ _ => lit 10]

/-- With the odd message ten seconds later the sweep cuts one cluster, which
    does not pass the gates, and ends. -/
theorem sweeps_end_field :
    (exec (step Solve.solveRobust) (State.new 0 false false)
      (fieldRun 132000000)).statsRejected = 1 ∧
      ∀ n, (exec (step Solve.solveRobust) (State.new 0 false false)
        ((fieldRun 132000000).take n)).hung = false := by
  refine ⟨by decide +kernel, (sweeps_end_iff Solve.solveRobust 0 false false _).1.mpr ?_⟩
  exact (sweeps_end_iff Solve.solveRobust 0 false false _).2.2 (by decide +kernel)

/-- With the odd message at a count of `10 ^ 307`, a finite double, the central
    sums overflow, the times come out as no numbers and the sweep does not end. -/
theorem overflow_hangs :
    (lit (10 ^ 307) : Ext ℚ).isFinite = true ∧
      (exec (step Solve.solveRobust) (State.new 0 false false) (fieldRun (10 ^ 307))).hung = true ∧
      ¬ Along (step Solve.solveRobust) Advancing (State.new 0 false false)
        (fieldRun (10 ^ 307)) := by
  have hhung : (exec (step Solve.solveRobust) (State.new 0 false false)
      (fieldRun (10 ^ 307))).hung = true := by decide +kernel
  refine ⟨by decide +kernel, hhung, fun hadv => ?_⟩
  have hfree := (along_iff_take (step Solve.solveRobust) Advancing (fun s => s.hung = false)
    (step_hung Solve.solveRobust) _ _ rfl).mpr hadv (fieldRun (10 ^ 307)).length
  rw [List.take_length] at hfree
  exact absurd (hhung.symm.trans hfree) Bool.false_ne_true.symm

end State

end Server

end MlatBench
