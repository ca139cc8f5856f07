import MlatBench.Core.PairModel
import MlatBench.Library.Decay
import MlatBench.Library.Ext

/-!
# Pair Models Are Fits

The sums of a pair model against the observations it stands for, in exact
arithmetic. The observations it has accepted since it was last cleared are kept
beside it. Its five sums are their decayed weight, means and central moments, so
its line is the line that fits them best, each weighted by its age.

## Main definitions

* `PairModel.keep`, `PairModel.kept`: Observations, with the accepted ones beside the
  model.
* `PairModel.Batch`: The sums are those of a list of observations.

## Theorems

* `PairModel.push_cases`: One observation.
* `PairModel.Batch.ingest`: The sums take in one more.
* `PairModel.Batch.line`: The line of a model.
* `PairModel.keep_batch`: Models are fits of what they accepted.
-/

namespace MlatBench

namespace Server

open Library F64 F64Fn

namespace PairModel

variable {K : Type} [Field K] [LinearOrder K] [IsStrictOrderedRing K] [FloorRing K] [Fns K]

/-- Arithmetic is exact. -/
local instance (priority := low) exactF64Fn : F64Fn K := F64.exactFn K

/-- An observation, with those accepted since the model was last cleared. -/
def keep (s : PairModel K × List (K × K)) (o : K × K) : PairModel K × List (K × K) :=
  ((s.1.push o.1 o.2).1,
    if (s.1.push o.1 o.2).2 then s.2 ++ [o]
    else if resetAfterRejects ≤ s.1.rejects + 1 then [] else s.2)

/-- The model after some observations, with those accepted since it was last
    cleared. -/
def kept (os : List (K × K)) : PairModel K × List (K × K) :=
  os.foldl keep (default, [])

/-- The sums are those of a list of observations, the newest last. -/
structure Batch (m : PairModel K) (os : List (K × K)) : Prop where
  w : m.w = weight lambda os
  ma : m.ma = mean lambda Prod.fst os
  mb : m.mb = mean lambda Prod.snd os
  caa : m.caa = moment lambda Prod.fst Prod.fst os
  cab : m.cab = moment lambda Prod.fst Prod.snd os

omit [IsStrictOrderedRing K] in
/-- An observation is taken in, or clears the model, or is only counted. -/
theorem push_cases (m : PairModel K) (a b : K) :
    (∃ rejects msq, m.push a b = (({ m with rejects := rejects, msq := msq }).ingest a b, true)) ∨
    (resetAfterRejects ≤ m.rejects + 1 ∧ m.push a b = (default, false)) ∨
    (¬ resetAfterRejects ≤ m.rejects + 1 ∧
      m.push a b = ({ m with rejects := m.rejects + 1 }, false)) := by
  unfold push
  by_cases husable : m.usable = true
  · rw [if_pos husable]
    simp only []
    split_ifs with _ hreset
    · exact Or.inr (Or.inl ⟨hreset, rfl⟩)
    · exact Or.inr (Or.inr ⟨hreset, rfl⟩)
    · exact Or.inl ⟨_, _, rfl⟩
  · rw [if_neg husable]
    exact Or.inl ⟨m.rejects, m.msq, rfl⟩

theorem lambda_pos : 0 < (lambda : K) := by
  change (0 : K) < ((9967 / 10000 : ℚ) : K)
  rw [Rat.cast_pos]
  norm_num

omit [IsStrictOrderedRing K] in
theorem batch_default : Batch (default : PairModel K) [] := by
  have hzero : ((0 : ℚ) : K) = 0 := Rat.cast_zero
  refine ⟨hzero, ?_, ?_, hzero, hzero⟩
  · exact hzero.trans (zero_div _).symm
  · exact hzero.trans (zero_div _).symm

/-- The sums take in one observation. -/
theorem Batch.ingest {m : PairModel K} {os : List (K × K)} (h : Batch m os) (a b : K) :
    Batch (m.ingest a b) (os ++ [(a, b)]) := by
  have hL := (lambda_pos : 0 < (lambda : K)).le
  have hone : ((1 : ℚ) : K) = 1 := Rat.cast_one
  have hw : m.w * lambda + ((1 : ℚ) : K) = weight lambda (os ++ [(a, b)]) := by
    rw [weight_append, h.w, hone, mul_comm]
  have hma : m.ma + ((1 : ℚ) : K) / (m.w * lambda + ((1 : ℚ) : K)) * (a - m.ma) =
      mean lambda Prod.fst (os ++ [(a, b)]) := by
    rw [mean_append lambda hL, hw, h.ma, hone]
  have hmb : m.mb + ((1 : ℚ) : K) / (m.w * lambda + ((1 : ℚ) : K)) * (b - m.mb) =
      mean lambda Prod.snd (os ++ [(a, b)]) := by
    rw [mean_append lambda hL, hw, h.mb, hone]
  refine ⟨hw, hma, hmb, ?_, ?_⟩
  · change m.caa * lambda + (a - m.ma) * (a - (m.ma + ((1 : ℚ) : K) /
      (m.w * lambda + ((1 : ℚ) : K)) * (a - m.ma))) = _
    rw [hma, moment_append lambda hL, h.caa, h.ma, mul_comm]
  · change m.cab * lambda + (a - m.ma) * (b - (m.mb + ((1 : ℚ) : K) /
      (m.w * lambda + ((1 : ℚ) : K)) * (b - m.mb))) = _
    rw [hmb, moment_append lambda hL, h.cab, h.ma, mul_comm]

theorem batch_keep (s : PairModel K × List (K × K)) (o : K × K) (h : Batch s.1 s.2) :
    Batch (keep s o).1 (keep s o).2 := by
  unfold keep
  rcases s.1.push_cases o.1 o.2 with ⟨rejects, msq, heq⟩ | ⟨hreset, heq⟩ | ⟨hreset, heq⟩
  · rw [heq]
    have h' : Batch { s.1 with rejects := rejects, msq := msq } s.2 :=
      ⟨h.w, h.ma, h.mb, h.caa, h.cab⟩
    exact h'.ingest o.1 o.2
  · rw [heq, if_neg Bool.false_ne_true, if_pos hreset]
    exact batch_default
  · rw [heq, if_neg Bool.false_ne_true, if_neg hreset]
    exact ⟨h.w, h.ma, h.mb, h.caa, h.cab⟩

/-- The slope of the line. -/
def slope (m : PairModel K) : K :=
  if 0 < m.caa then m.cab / m.caa else 1

omit [IsStrictOrderedRing K] in
theorem predictUnchecked_line (m : PairModel K) (t : K) :
    (m.predictUnchecked t).1 = m.mb - m.slope * m.ma + m.slope * t := by
  have hslope : (if ((0 : ℚ) : K) < m.caa then m.cab / m.caa else ((1 : ℚ) : K)) = m.slope := by
    rw [Rat.cast_zero, Rat.cast_one, slope]
  change m.mb + (if ((0 : ℚ) : K) < m.caa then m.cab / m.caa else ((1 : ℚ) : K)) * (t - m.ma) = _
  rw [hslope]
  ring

omit [IsStrictOrderedRing K] in
/-- The line of a model is the line through the means with a slope that fits. -/
theorem Batch.line {m : PairModel K} {os : List (K × K)} (h : Batch m os) :
    FitSlope lambda Prod.fst Prod.snd m.slope os ∧ ∀ t, (m.predictUnchecked t).1 =
      mean lambda Prod.snd os - m.slope * mean lambda Prod.fst os + m.slope * t := by
  refine ⟨fun hpos => ?_, fun t => ?_⟩
  · rw [slope, h.caa, h.cab, if_pos hpos]
  · rw [predictUnchecked_line, h.ma, h.mb]

/-- After any observations the sums are those of the accepted ones, and no line
    has smaller decayed squares than the model's; with spread in the first clock
    no other line has as small ones. -/
theorem keep_batch (os : List (K × K)) :
    Batch (kept os).1 (kept os).2 ∧ 0 ≤ (kept os).1.caa ∧
      (∀ c b, decayed lambda (fun o => (o.2 - ((kept os).1.predictUnchecked o.1).1) ^ 2)
          (kept os).2 ≤
        squares lambda Prod.fst Prod.snd c b (kept os).2) ∧
      (0 < (kept os).1.caa → ∀ c b, squares lambda Prod.fst Prod.snd c b (kept os).2 ≤
          decayed lambda (fun o => (o.2 - ((kept os).1.predictUnchecked o.1).1) ^ 2)
            (kept os).2 →
        ∀ t, c + b * t = ((kept os).1.predictUnchecked t).1) := by
  have hbatch : Batch (kept os).1 (kept os).2 :=
    List.foldlRecOn os _ (motive := fun s : PairModel K × List (K × K) => Batch s.1 s.2)
      batch_default fun s h o _ => batch_keep s o h
  generalize kept os = s at hbatch ⊢
  rcases hbatch.line with ⟨hslope, hline⟩
  have hfit : decayed lambda (fun o => (o.2 - (s.1.predictUnchecked o.1).1) ^ 2) s.2 =
      squares lambda Prod.fst Prod.snd
        (mean lambda Prod.snd s.2 - s.1.slope * mean lambda Prod.fst s.2) s.1.slope s.2 := by
    unfold squares
    simp only [hline]
  refine ⟨hbatch, ?_, fun c b => ?_, fun hpos c b hle t => ?_⟩
  · rw [hbatch.caa]
    exact moment_self_nonneg lambda lambda_pos.le Prod.fst s.2
  · rw [hfit]
    exact squares_fit_le lambda lambda_pos Prod.fst Prod.snd s.1.slope s.2 hslope c b
  · rw [hfit] at hle
    rw [hbatch.caa] at hpos
    rcases fit_unique lambda lambda_pos Prod.fst Prod.snd s.1.slope s.2 hslope hpos c b hle with
      ⟨rfl, rfl⟩
    exact (hline t).symm

/-- Three observations over the rationals: the sums are those of all three. -/
theorem keep_batch_three :
    (kept [((0 : ℚ), (0 : ℚ)), (1, 1), (2, 3)]).2 = [(0, 0), (1, 1), (2, 3)] ∧
      Batch (kept [((0 : ℚ), (0 : ℚ)), (1, 1), (2, 3)]).1
        (kept [((0 : ℚ), (0 : ℚ)), (1, 1), (2, 3)]).2 :=
  ⟨by decide +kernel, (keep_batch [(0, 0), (1, 1), (2, 3)]).1⟩

end PairModel

end Server

end MlatBench
