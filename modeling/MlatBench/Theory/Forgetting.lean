import MlatBench.Theory.Outliers

/-!
# Pairs Forget By The Observation

A pair model forgets a share of what it knows with every observation it accepts,
however soon that comes after the last one. Its weight never falls below what is
wanted, but its spread does, when observations come so densely that what it still
remembers has happened in a moment: usable it is exactly while the times it
remembers, each weighted by its age, are spread out as widely as wanted around
every centre. Observations a sixth of a second apart are sparse enough.

## Main definitions

* `PairModel.weightAfter`, `PairModel.spreadAfter`: What a model and observations
  after it weigh, and their squares around a centre.
* `PairModel.spreadWanted`: The spread of a usable model, squared.
* `PairModel.Sparse`: Observations that are far enough apart.

## Theorems

* `PairModel.ingest_spread`: One observation, around every centre.
* `PairModel.usable_iff_caa`: Usable models.
* `PairModel.take_sparse`: One observation that is far enough off.
* `PairModel.usable_iff_spread`: When a model stays usable.
* `PairModel.dense_forgotten`: A thousand observations a second.
-/

namespace MlatBench

namespace Server

open Library F64 F64Fn

namespace PairModel

section Exact

variable {K : Type} [Field K] [LinearOrder K] [IsStrictOrderedRing K] [FloorRing K] [Fns K]

/-- Arithmetic is exact. -/
local instance (priority := low) exactForgetting : F64Fn K := F64.exactFn K

/-- The weight of a model and of some observations after it, by their age. -/
def weightAfter (m : PairModel K) (os : List (K × K)) : K :=
  lambda ^ os.length * m.w + weight lambda os

/-- Their squared distances in time from a centre, by their age. -/
def spreadAfter (m : PairModel K) (os : List (K × K)) (c : K) : K :=
  lambda ^ os.length * (m.caa + m.w * (m.ma - c) ^ 2) + decayed lambda (fun o => (o.1 - c) ^ 2) os

/-- The squared spread of a usable model. -/
def spreadWanted : K := minSpanS / lit 4 * (minSpanS / lit 4)

omit [IsStrictOrderedRing K] in
theorem spreadWanted_eq : (spreadWanted : K) = ((25 / 16 : ℚ) : K) := by
  change ((5 : ℚ) : K) / ((4 : ℚ) : K) * (((5 : ℚ) : K) / ((4 : ℚ) : K)) = _
  norm_num

omit [IsStrictOrderedRing K] in
theorem lambda_eq : (lambda : K) = ((9967 / 10000 : ℚ) : K) := rfl

omit [IsStrictOrderedRing K] in
theorem minWeight_eq : (minWeight : K) = ((8 : ℚ) : K) := rfl

/-- A usable model has the weight and, for each of its weight, the spread. -/
theorem usable_iff_caa (m : PairModel K) :
    m.usable = true ↔ minWeight ≤ m.w ∧ spreadWanted * m.w ≤ m.caa := by
  have hunfold : m.usable = true ↔
      minWeight ≤ m.w ∧ spreadWanted ≤ m.caa / Max.max m.w ((1 : ℚ) : K) :=
    decide_eq_true_iff
  rw [hunfold]
  refine and_congr_right fun hw => ?_
  -- The weight is more than one, so it is what the spread is divided by.
  have hone : ((1 : ℚ) : K) ≤ m.w := le_trans (by rw [minWeight_eq]; norm_num) hw
  have hpos : 0 < m.w := lt_of_lt_of_le (by norm_num) hone
  rw [max_eq_left hone, le_div_iff₀ hpos]

omit [IsStrictOrderedRing K] in
/-- The sums after one observation. -/
theorem ingest_sums (m : PairModel K) (a b : K) :
    (m.ingest a b).w = lambda * m.w + 1 ∧
      (m.ingest a b).ma = m.ma + (a - m.ma) / (lambda * m.w + 1) ∧
      (m.ingest a b).caa = lambda * m.caa + (a - m.ma) * (a - (m.ingest a b).ma) := by
  have hw : (m.ingest a b).w = lambda * m.w + 1 := by
    change m.w * lambda + ((1 : ℚ) : K) = _
    rw [Rat.cast_one, mul_comm]
  refine ⟨hw, ?_, ?_⟩
  · rw [← hw]
    change m.ma + ((1 : ℚ) : K) / (m.ingest a b).w * (a - m.ma) = _
    rw [Rat.cast_one]
    ring
  · change m.caa * lambda + _ = _
    rw [mul_comm]
    rfl

/-- Around every centre the squares decay, and those of the observation come on top. -/
theorem ingest_spread (m : PairModel K) (a b c : K) (hw : 0 ≤ m.w) :
    (m.ingest a b).caa + (m.ingest a b).w * ((m.ingest a b).ma - c) ^ 2 =
      lambda * (m.caa + m.w * (m.ma - c) ^ 2) + (a - c) ^ 2 := by
  rcases m.ingest_sums a b with ⟨hsum, hma, hcaa⟩
  have hpos : 0 < lambda * m.w + 1 := by
    have := mul_nonneg (lambda_pos : 0 < (lambda : K)).le hw
    linarith
  -- With the new mean put in, the mixed terms cancel.
  rw [hcaa, hma, hsum]
  field_simp
  ring

omit [IsStrictOrderedRing K] in
/-- An accepted observation is taken in. -/
theorem take_accepted (m : PairModel K) (o : K × K) (h : (m.push o.1 o.2).2 = true) :
    (m.take o).w = (m.ingest o.1 o.2).w ∧ (m.take o).ma = (m.ingest o.1 o.2).ma ∧
      (m.take o).caa = (m.ingest o.1 o.2).caa := by
  unfold take
  rcases m.push_cases o.1 o.2 with ⟨rejects, msq, heq⟩ | ⟨_, heq⟩ | ⟨_, heq⟩
  · rw [heq]
    exact ⟨rfl, rfl, rfl⟩
  · rw [heq] at h
    exact absurd h Bool.false_ne_true
  · rw [heq] at h
    exact absurd h Bool.false_ne_true

/-- A model that has the weight keeps it. -/
theorem minWeight_ingest (m : PairModel K) (a b : K) (h : minWeight ≤ m.w) :
    minWeight ≤ (m.ingest a b).w := by
  rw [(m.ingest_sums a b).1]
  rw [minWeight_eq] at h ⊢
  rw [lambda_eq]
  push_cast at h ⊢
  linarith

/-- The sums of a run are those of the model and the observations after it. -/
theorem run_sums (m : PairModel K) (hw : minWeight ≤ m.w) (os : List (K × K))
    (h : Along take (fun m o => (m.push o.1 o.2).2 = true) m os) :
    minWeight ≤ (exec take m os).w ∧ (exec take m os).w = m.weightAfter os ∧
      ∀ c, (exec take m os).caa + (exec take m os).w * ((exec take m os).ma - c) ^ 2 =
        m.spreadAfter os c := by
  induction os using List.reverseRecOn with
  | nil =>
      refine ⟨hw, ?_, fun c => ?_⟩
      · rw [exec_nil, weightAfter, List.length_nil, pow_zero, one_mul, weight, decayed_nil, add_zero]
      · rw [exec_nil, spreadAfter, List.length_nil, pow_zero, one_mul, decayed_nil, add_zero]
  | append_singleton os o ih =>
      rcases (along_append _ _ _ _ _).mp h with ⟨hos, ho, _⟩
      rcases ih hos with ⟨hmin, hweight, hspread⟩
      rw [exec_concat]
      -- One observation more: everything before it decays by one step.
      generalize exec take m os = n at ho hmin hweight hspread ⊢
      rcases n.take_accepted o ho with ⟨hw', hma', hcaa'⟩
      rw [hw', hma', hcaa']
      have hpos : 0 ≤ n.w := le_trans (by rw [minWeight_eq]; norm_num) hmin
      refine ⟨n.minWeight_ingest o.1 o.2 hmin, ?_, fun c => ?_⟩
      · rw [(n.ingest_sums o.1 o.2).1, hweight, weightAfter, weightAfter, weight_append,
          List.length_append, List.length_singleton, pow_succ]
        ring
      · rw [n.ingest_spread o.1 o.2 c hpos, hspread, spreadAfter, spreadAfter, decayed_append,
          List.length_append, List.length_singleton, pow_succ]
        ring

/-- Around its mean a model has its least spread. -/
theorem spread_iff_caa (m : PairModel K) (hw : 0 ≤ m.w) :
    spreadWanted * m.w ≤ m.caa ↔
      ∀ c, spreadWanted * m.w ≤ m.caa + m.w * (m.ma - c) ^ 2 := by
  constructor
  · intro h c
    have := mul_nonneg hw (sq_nonneg (m.ma - c))
    linarith
  · -- Around the mean the distance is nothing.
    intro h
    have hmean := h m.ma
    rwa [sub_self, zero_pow two_ne_zero, mul_zero, add_zero] at hmean

/-- What is far enough behind the mean keeps the spread, and a sixth of a second
    later it is far enough behind the new mean. -/
theorem take_sparse (m : PairModel K) (hm : m.usable = true) (o : K × K)
    (hacc : (m.push o.1 o.2).2 = true) (hfar : m.ma + lit (4 / 3) ≤ o.1) :
    (m.take o).usable = true ∧ (m.take o).ma + lit (4 / 3) ≤ o.1 + lit (1 / 6) := by
  rcases m.usable_iff_caa.mp hm with ⟨hmin, hcaa⟩
  rcases m.take_accepted o hacc with ⟨hw', hma', hcaa'⟩
  rcases m.ingest_sums o.1 o.2 with ⟨hsum, hmean, hmoment⟩
  have hmin' := m.minWeight_ingest o.1 o.2 hmin
  have hlambda := (lambda_pos : 0 < (lambda : K)).le
  -- The share of the new observation is a ninth at most, so most of its distance stays.
  have hshare : 1 / (lambda * m.w + 1) ≤ ((9 / 80 : ℚ) : K) := by
    have hlarge : ((80 / 9 : ℚ) : K) ≤ lambda * m.w + 1 := by
      rw [minWeight_eq] at hmin
      rw [lambda_eq]
      push_cast at hmin ⊢
      linarith
    have hpos : (0 : K) < ((80 / 9 : ℚ) : K) := by norm_num
    refine (one_div_le_one_div_of_le hpos hlarge).trans_eq ?_
    push_cast
    norm_num
  have hfar' : ((4 / 3 : ℚ) : K) ≤ o.1 - m.ma := by
    change m.ma + ((4 / 3 : ℚ) : K) ≤ o.1 at hfar
    linarith
  have hleft : o.1 - (m.ingest o.1 o.2).ma =
      (o.1 - m.ma) * (1 - 1 / (lambda * m.w + 1)) := by
    rw [hmean]
    ring
  have hkept : ((71 / 60 : ℚ) : K) ≤ o.1 - (m.ingest o.1 o.2).ma := by
    rw [hleft]
    push_cast at hshare hfar' ⊢
    nlinarith only [hshare, hfar']
  rw [usable_iff_caa, hw', hma', hcaa']
  refine ⟨⟨hmin', ?_⟩, ?_⟩
  · -- What the old squares lose the new distance brings back.
    have hdecay := mul_le_mul_of_nonneg_left hcaa hlambda
    rw [hmoment, hsum]
    rw [spreadWanted_eq] at hdecay ⊢
    push_cast at hkept hfar' hdecay ⊢
    nlinarith only [hkept, hfar', hdecay]
  · change (m.ingest o.1 o.2).ma + ((4 / 3 : ℚ) : K) ≤ o.1 + ((1 / 6 : ℚ) : K)
    push_cast at hkept ⊢
    linarith

/-- Observations that are far enough behind the mean and then far enough apart. -/
def Sparse (m : PairModel K) (os : List (K × K)) : Prop :=
  (∀ o ∈ os.head?, m.ma + lit (4 / 3) ≤ o.1) ∧ os.IsChain fun o p => o.1 + lit (1 / 6) ≤ p.1

theorem usable_sparse (m : PairModel K) (hm : m.usable = true) (os : List (K × K))
    (h : Along take (fun m o => (m.push o.1 o.2).2 = true) m os) (hsparse : m.Sparse os) :
    (exec take m os).usable = true := by
  induction os generalizing m with
  | nil => exact hm
  | cons o os ih =>
      rcases m.take_sparse hm o h.1 (hsparse.1 o rfl) with ⟨husable, hnext⟩
      rw [exec_cons]
      refine ih (m.take o) husable h.2 ⟨fun p hp => hnext.trans ?_, hsparse.2.tail⟩
      cases os with
      | nil => exact absurd hp.symm (Option.some_ne_none p)
      | cons q os =>
          cases hp
          exact (List.isChain_cons_cons.mp hsparse.2).1

/-- After any accepted observations a usable model has its weight, and it is usable if
    and only if the times it remembers are spread out as wanted around every centre.
    After sparse ones it is. -/
theorem usable_iff_spread (m : PairModel K) (hm : m.usable = true) (os : List (K × K))
    (h : Along take (fun m o => (m.push o.1 o.2).2 = true) m os) :
    minWeight ≤ (exec take m os).w ∧
      ((exec take m os).usable = true ↔
        ∀ c, spreadWanted * m.weightAfter os ≤ m.spreadAfter os c) ∧
      (m.Sparse os → (exec take m os).usable = true) := by
  rcases m.run_sums (m.usable_iff_caa.mp hm).1 os h with ⟨hmin, hweight, hspread⟩
  refine ⟨hmin, ?_, m.usable_sparse hm os h⟩
  have hpos : 0 ≤ (exec take m os).w := le_trans (by rw [minWeight_eq]; norm_num) hmin
  rw [usable_iff_caa, spread_iff_caa _ hpos, hweight]
  rw [hweight] at hspread
  simp only [hspread]
  exact and_iff_right (hweight ▸ hmin)

end Exact

section Example

/-- Two readings a second, over four seconds. -/
def halves : List (ℚ × ℚ) := (List.range 9).map fun i => ((i : ℚ) / 2, (i : ℚ) / 2)

/-- A thousand readings a second after them. -/
def burst (n : Nat) : List (ℚ × ℚ) :=
  (List.range n).map fun i => (4 + (i + 1 : ℚ) / 1000, 4 + (i + 1 : ℚ) / 1000)

/-- A second apart, the model stays usable. -/
theorem usable_after_second :
    minWeight ≤ (exec take (exec take default halves) [((6 : ℚ), (6 : ℚ))]).w ∧
      (∀ c, spreadWanted * (exec take default halves).weightAfter [((6 : ℚ), (6 : ℚ))] ≤
        (exec take default halves).spreadAfter [((6 : ℚ), (6 : ℚ))] c) ∧
      (exec take (exec take default halves) [((6 : ℚ), (6 : ℚ))]).usable = true := by
  rcases usable_iff_spread (exec take default halves) (by decide +kernel) [(6, 6)]
    (by decide +kernel) with ⟨hmin, hiff, hsparse⟩
  have husable := hsparse (by
    unfold Sparse
    decide +kernel)
  exact ⟨hmin, hiff.mp husable, husable⟩

/-- A burst of readings, none refused, and the model is not usable any more. -/
theorem dense_forgotten :
    (exec take default halves).usable = true ∧
      Along take (fun m o => (m.push o.1 o.2).2 = true) (exec take default halves) (burst 15) ∧
      (burst 15).Pairwise (fun o p => o.1 ≤ p.1) ∧
      (exec take (exec take default halves) (burst 15)).usable = false :=
  ⟨by decide +kernel, by decide +kernel, by decide +kernel, by decide +kernel⟩

end Example

end PairModel

end Server

end MlatBench
