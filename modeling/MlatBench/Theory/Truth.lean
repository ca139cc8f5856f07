import Mathlib.Data.List.TakeWhile
import Mathlib.Order.Interval.Set.UnorderedInterval
import Mathlib.Tactic.FieldSimp
import Mathlib.Tactic.Ring
import MlatBench.Core.Metrics
import MlatBench.Library.Ext
import MlatBench.Library.Lists

/-!
# Truth Between Samples

The scorer places an aircraft between the two samples around a time. Latitude,
longitude and height are each taken in proportion. For the longitude this is right
as long as the samples are no more than half a turn apart: across the antimeridian
the proportion leads around the globe the other way, and a correct result is scored
as a ghost.

## Main definitions

* `bracket`, `interpolate`: The two steps of the search.
* `Bracketed`: The samples around a time.
* `ShorterArc`: The way around that is not the longer one.
* `Between`: A position between two samples.

## Theorems

* `posAt_eq`, `bracket_append`, `split_at`: What the search finds.
* `build_samples`: The samples of an aircraft, in order.
* `posAt_bracketed`: The position returned.
* `share_on_arc_iff`: When a share of a difference is a share of the arc.
* `posAt_sample`: A sample at the time itself.
* `posAt_between_iff`: When the position lies between the samples.
* `antimeridian_around`: The way around the globe.
-/

namespace MlatBench

open Library F64 F64Fn Proto

namespace Metrics

section Bracket

variable {F : Type} [F64Fn F]

/-- The last sample at or before a time and the next one, as the search finds them. -/
def bracket (first : F × Geodetic F) (rest : List (F × Geodetic F)) (tS : F) :
    (F × Geodetic F) × (F × Geodetic F) :=
  let i := ((first :: rest).takeWhile fun p => p.1 ≤ tS).length - 1
  let p := (first :: rest).getD i first
  (p, (first :: rest).getD (i + 1) p)

/-- The position at a share of the way from one to another. -/
def blend (p q : Geodetic F) (f : F) : Geodetic F where
  latDeg := p.latDeg + f * (q.latDeg - p.latDeg)
  lonDeg := p.lonDeg + f * (q.lonDeg - p.lonDeg)
  altM := p.altM + f * (q.altM - p.altM)

/-- The position at a time between two samples. -/
def interpolate (p q : F × Geodetic F) (tS : F) : Geodetic F :=
  if F64.abs (q.1 - p.1) < lit (1 / 1000000000) then p.2
  else blend p.2 q.2 (clamp (lit 0) (lit 1) ((tS - p.1) / (q.1 - p.1)))

theorem posAt_eq (truth : TruthIndex F) (icao : Icao) (tS : F) (first : F × Geodetic F)
    (rest : List (F × Geodetic F)) (h : truth.byIcao icao = some (first :: rest)) :
    truth.posAt icao tS =
      if tS < first.1 - lit 1 ∨
          ((first :: rest).getLast (List.cons_ne_nil _ _)).1 + lit 1 < tS then none
      else some (interpolate (bracket first rest tS).1 (bracket first rest tS).2 tS) := by
  unfold TruthIndex.posAt interpolate bracket
  rw [h]
  simp only []
  split_ifs <;> rfl

/-- A position is found for an aircraft with samples. -/
theorem posAt_some (truth : TruthIndex F) (icao : Icao) (tS : F) (tp : Geodetic F)
    (h : truth.posAt icao tS = some tp) :
    ∃ first rest, truth.byIcao icao = some (first :: rest) ∧ ¬ tS < first.1 - lit 1 ∧
      ¬ ((first :: rest).getLast (List.cons_ne_nil _ _)).1 + lit 1 < tS ∧
        tp = interpolate (bracket first rest tS).1 (bracket first rest tS).2 tS := by
  cases hpts : truth.byIcao icao with
  | none =>
      rw [TruthIndex.posAt, hpts] at h
      exact absurd h.symm (Option.some_ne_none tp)
  | some pts =>
      cases pts with
      | nil =>
          rw [TruthIndex.posAt, hpts] at h
          exact absurd h.symm (Option.some_ne_none tp)
      | cons first rest =>
          rw [posAt_eq truth icao tS first rest hpts] at h
          split_ifs at h with hout
          rw [not_or] at hout
          exact ⟨first, rest, rfl, hout.1, hout.2, (Option.some.inj h).symm⟩

/-- Before the first sample the search stays at it. -/
theorem bracket_before (first : F × Geodetic F) (rest : List (F × Geodetic F)) (tS : F)
    (h : ¬ first.1 ≤ tS) : bracket first rest tS = (first, rest.headD first) := by
  have hnil : ((first :: rest).takeWhile fun p => p.1 ≤ tS) = [] := by
    rw [List.takeWhile_cons, if_neg (Bool.not_eq_true _ ▸ decide_eq_false h)]
  unfold bracket
  simp only [hnil]
  cases rest <;> rfl

/-- The search finds the last of the samples up to a time, and the next one. -/
theorem bracket_append (first : F × Geodetic F) (rest before after : List (F × Geodetic F))
    (p : F × Geodetic F) (tS : F) (hsplit : first :: rest = before ++ p :: after)
    (hbefore : ∀ x ∈ before, x.1 ≤ tS) (hp : p.1 ≤ tS) (hafter : ∀ q ∈ after.head?, ¬ q.1 ≤ tS) :
    bracket first rest tS = (p, after.headD p) := by
  have htake : ((before ++ p :: after).takeWhile fun x => x.1 ≤ tS) = before ++ [p] := by
    have hstop : (after.takeWhile fun x => x.1 ≤ tS) = [] := by
      cases after with
      | nil => rfl
      | cons q after =>
          have hq : ¬ q.1 ≤ tS := hafter q rfl
          rw [List.takeWhile_cons, if_neg (Bool.not_eq_true _ ▸ decide_eq_false hq)]
    rw [List.takeWhile_append_of_pos fun x hx => decide_eq_true (hbefore x hx),
      List.takeWhile_cons, if_pos (decide_eq_true hp), hstop]
  have hget : (before ++ p :: after).getD before.length first = p := by
    rw [List.getD_eq_getElem?_getD, List.getElem?_append_right (Nat.le_refl _), Nat.sub_self,
      List.getElem?_cons_zero, Option.getD_some]
  have hnext : (before ++ p :: after).getD (before.length + 1) p = after.headD p := by
    rw [List.getD_eq_getElem?_getD, List.getElem?_append_right (Nat.le_add_right _ 1),
      Nat.add_sub_cancel_left, List.getElem?_cons_succ]
    cases after <;> rfl
  unfold bracket
  simp only [hsplit, htake, List.length_append, List.length_singleton, Nat.add_sub_cancel, hget,
    hnext]

/-- From the first sample on there is a last sample up to a time. -/
theorem split_at (first : F × Geodetic F) (rest : List (F × Geodetic F)) (tS : F)
    (h : first.1 ≤ tS) :
    ∃ before p after, first :: rest = before ++ p :: after ∧ (∀ x ∈ before, x.1 ≤ tS) ∧
      p.1 ≤ tS ∧ ∀ q ∈ after.head?, ¬ q.1 ≤ tS := by
  have hsplit : ((first :: rest).takeWhile fun p => p.1 ≤ tS) ++
      ((first :: rest).dropWhile fun p => p.1 ≤ tS) = first :: rest :=
    List.takeWhile_append_dropWhile
  have hall : ∀ p ∈ (first :: rest).takeWhile fun p => p.1 ≤ tS, p.1 ≤ tS := by
    intro p hp
    have hle := List.mem_takeWhile_imp hp
    exact of_decide_eq_true hle
  have hstop := List.head?_dropWhile_not (fun p => decide (p.1 ≤ tS)) (first :: rest)
  rcases List.eq_nil_or_concat' ((first :: rest).takeWhile fun p => p.1 ≤ tS) with
    hnil | ⟨before, p, htake⟩
  · rw [List.takeWhile_cons, if_pos (decide_eq_true h)] at hnil
    exact absurd hnil (List.cons_ne_nil _ _)
  · rw [htake] at hsplit hall
    rw [List.append_assoc, List.singleton_append] at hsplit
    refine ⟨before, p, _, hsplit.symm, ?_, ?_, ?_⟩
    · exact fun x hx => hall x (List.mem_append_left _ hx)
    · exact hall p (List.mem_append_right before (List.mem_singleton_self p))
    · intro q hq
      rw [Option.mem_def] at hq
      rw [hq] at hstop
      have hfalse : decide (q.1 ≤ tS) = false := hstop
      exact of_decide_eq_false hfalse

end Bracket

section Exact

variable {K : Type} [Field K] [LinearOrder K] [IsStrictOrderedRing K] [FloorRing K] [Fns K]

local instance (priority := low) exactTruth : F64Fn K := F64.exactFn K

/-- The time of a true position in seconds, and the position. -/
def sample (p : TruthPoint K) : K × Geodetic K :=
  (lit p.t / lit 1000000000, p.pos)

/-- The samples on both sides of a time, or the end sample within a second of it. -/
def Bracketed (samples : List (K × Geodetic K)) (tS : K) (p q : K × Geodetic K) : Prop :=
  (∃ before after, samples = before ++ p :: q :: after ∧ p.1 ≤ tS ∧ tS < q.1) ∨
    p = q ∧ ((∃ after, samples = p :: after ∧ tS < p.1 ∧ p.1 - 1 ≤ tS) ∨
      ∃ before, samples = before ++ [p] ∧ p.1 ≤ tS ∧ tS ≤ p.1 + 1)

/-- The way around from one longitude to another that is not the longer one. -/
def ShorterArc (a b d : K) : Prop :=
  |d| ≤ ((180 : ℤ) : K) ∧ ∃ n : ℤ, b = a + d + ((360 : ℤ) : K) * n

/-- A position between two samples. At the end samples the share is zero. -/
structure Between (p q : K × Geodetic K) (tS : K) (tp : Geodetic K) : Prop where
  lat : tp.latDeg ∈ Set.uIcc p.2.latDeg q.2.latDeg
  alt : tp.altM ∈ Set.uIcc p.2.altM q.2.altM
  lon : ∃ d, ShorterArc p.2.lonDeg q.2.lonDeg d ∧
    ∃ n : ℤ, tp.lonDeg = p.2.lonDeg + (tS - p.1) / (q.1 - p.1) * d + ((360 : ℤ) : K) * n

/-- Up to the time of a sample that comes first, the sample is returned. -/
theorem interpolate_self (p q : K × Geodetic K) (tS : K) (hle : tS ≤ p.1) (hpq : p.1 ≤ q.1) :
    interpolate p q tS = p.2 := by
  have hzero : (lit 0 : K) = 0 := Rat.cast_zero
  have hone : (lit 1 : K) = 1 := Rat.cast_one
  unfold interpolate
  split_ifs
  · rfl
  · have hshare : (tS - p.1) / (q.1 - p.1) ≤ 0 :=
      div_nonpos_of_nonpos_of_nonneg (sub_nonpos.mpr hle) (sub_nonneg.mpr hpq)
    have hclamp : clamp (lit 0) (lit 1) ((tS - p.1) / (q.1 - p.1)) = (0 : K) := by
      rw [clamp, hzero, hone]
      rcases hshare.lt_or_eq with hneg | hnull
      · rw [if_pos hneg]
      · rw [hnull, if_neg (lt_irrefl 0), if_neg (not_lt.mpr zero_le_one)]
    rw [hclamp]
    simp only [blend, zero_mul, add_zero]

/-- Between two samples the share of the time is the share of the way. -/
theorem interpolate_between (p q : K × Geodetic K) (tS : K) (hp : p.1 ≤ tS) (hq : tS < q.1)
    (hapart : ¬ F64.abs (q.1 - p.1) < lit (1 / 1000000000)) :
    interpolate p q tS = blend p.2 q.2 ((tS - p.1) / (q.1 - p.1)) := by
  have hzero : (lit 0 : K) = 0 := Rat.cast_zero
  have hone : (lit 1 : K) = 1 := Rat.cast_one
  have hpos : 0 < q.1 - p.1 := sub_pos.mpr (hp.trans_lt hq)
  have hlo : 0 ≤ (tS - p.1) / (q.1 - p.1) := div_nonneg (sub_nonneg.mpr hp) hpos.le
  have hhi : (tS - p.1) / (q.1 - p.1) ≤ 1 := by
    rw [div_le_one hpos]
    linarith
  rw [interpolate, if_neg hapart, clamp, hzero, hone, if_neg (not_lt.mpr hlo),
    if_neg (not_lt.mpr hhi)]

/-- Alone, the sample is returned. -/
theorem interpolate_same (p : K × Geodetic K) (tS : K) : interpolate p p tS = p.2 := by
  have hpos : (0 : K) < ((1 / 1000000000 : ℚ) : K) := by
    exact_mod_cast (by norm_num : (0 : ℚ) < 1 / 1000000000)
  have hclose : F64.abs (p.1 - p.1) < (lit (1 / 1000000000) : K) := by
    have habs : F64.abs (p.1 - p.1) = |p.1 - p.1| := abs_exact _
    rw [habs, sub_self, abs_zero]
    exact hpos
  rw [interpolate, if_pos hclose]

omit [IsStrictOrderedRing K] in
theorem blend_self (x : Geodetic K) (f : K) : blend x x f = x := by
  simp only [blend, sub_self, mul_zero, add_zero]

section Samples

variable (points : List (TruthPoint K)) (icao : Icao) (samples : List (K × Geodetic K))
  (h : (TruthIndex.build points).byIcao icao = some samples)

include h

omit [IsStrictOrderedRing K] in
/-- The samples of an aircraft are those of the log, in the order of time. -/
theorem build_samples :
    samples.Perm ((points.filter fun p => p.icao = icao).map sample) ∧
      samples.Pairwise fun x y => x.1 ≤ y.1 := by
  have hsorted : samples = ((points.filter fun p => p.icao = icao).map sample).insertionSort
      fun x y => totalLe x.1 y.1 = true := by
    simp only [TruthIndex.build] at h
    cases hps : points.filter fun p => p.icao = icao with
    | nil =>
        rw [hps] at h
        exact absurd h.symm (Option.some_ne_none samples)
    | cons p ps =>
        rw [hps] at h
        exact (Option.some.inj h).symm
  rw [hsorted]
  exact ⟨List.perm_insertionSort _ _, exact_pairwise_sort Prod.fst _⟩

omit [IsStrictOrderedRing K] in
theorem sample_of_mem (x : K × Geodetic K) (hx : x ∈ samples) :
    ∃ p ∈ points, p.icao = icao ∧ x = sample p := by
  have hmem := (build_samples points icao samples h).1.mem_iff.mp hx
  rcases List.mem_map.mp hmem with ⟨p, hp, rfl⟩
  rw [List.mem_filter, decide_eq_true_eq] at hp
  exact ⟨p, hp.1, hp.2, rfl⟩

/-- Samples at different times are a nanosecond apart. -/
theorem samples_apart (x y : K × Geodetic K) (hx : x ∈ samples) (hy : y ∈ samples)
    (hlt : x.1 < y.1) : ¬ F64.abs (y.1 - x.1) < lit (1 / 1000000000) := by
  rcases sample_of_mem points icao samples h x hx with ⟨p, _, _, rfl⟩
  rcases sample_of_mem points icao samples h y hy with ⟨q, _, _, rfl⟩
  have hsec : (0 : K) < ((1000000000 : ℚ) : K) := by norm_num
  -- Times of the log are whole nanoseconds.
  have htimes : ((p.t : ℚ) : K) < ((q.t : ℚ) : K) := by
    exact (div_lt_div_iff_of_pos_right hsec).mp hlt
  have hstep : ((p.t : ℚ) : K) + 1 ≤ ((q.t : ℚ) : K) := by
    exact_mod_cast htimes
  have hone : ((1 / 1000000000 : ℚ) : K) * ((1000000000 : ℚ) : K) = 1 := by
    rw [← Rat.cast_mul]
    norm_num
  have hgap : (sample q).1 - (sample p).1 =
      (((q.t : ℚ) : K) - ((p.t : ℚ) : K)) / ((1000000000 : ℚ) : K) := (sub_div _ _ _).symm
  have habs : F64.abs ((sample q).1 - (sample p).1) = |(sample q).1 - (sample p).1| :=
    abs_exact _
  rw [habs, abs_of_nonneg (sub_nonneg.mpr hlt.le), not_lt, hgap]
  change ((1 / 1000000000 : ℚ) : K) ≤ _
  rw [le_div_iff₀ hsec, hone]
  linarith

/-- The position returned, for the samples that bracket the time. -/
theorem posAt_bracketed (tS : K) (tp : Geodetic K) (p q : K × Geodetic K)
    (hpos : (TruthIndex.build points).posAt icao tS = some tp)
    (hb : Bracketed samples tS p q) :
    tp = blend p.2 q.2 ((tS - p.1) / (q.1 - p.1)) := by
  have hsorted := (build_samples points icao samples h).2
  rcases posAt_some _ icao tS tp hpos with ⟨first, rest, hpts, _, _, rfl⟩
  have hsamples : samples = first :: rest := Option.some.inj (h.symm.trans hpts)
  rcases hb with ⟨before, after, hsplit, hp, hq⟩ | ⟨rfl, ⟨after, hsplit, hlt, _⟩ |
    ⟨before, hsplit, hle, _⟩⟩
  · rw [hsplit] at hsorted
    have hbefore : ∀ x ∈ before, x.1 ≤ tS := fun x hx =>
      ((List.pairwise_append.mp hsorted).2.2 x hx p List.mem_cons_self).trans hp
    have hafter : ∀ x ∈ (q :: after).head?, ¬ x.1 ≤ tS := by
      intro x hx
      cases hx
      exact not_le.mpr hq
    rw [bracket_append first rest before (q :: after) p tS (hsamples.symm.trans hsplit) hbefore hp
      hafter]
    refine interpolate_between p q tS hp hq ?_
    refine samples_apart points icao samples h p q ?_ ?_ (hp.trans_lt hq)
    · rw [hsplit]
      exact List.mem_append_right before List.mem_cons_self
    · rw [hsplit]
      exact List.mem_append_right before (List.mem_cons_of_mem p List.mem_cons_self)
  · -- Before the first sample the share is cut to none.
    rw [hsplit] at hsamples hsorted
    rw [List.cons.injEq] at hsamples
    rw [← hsamples.1, ← hsamples.2, bracket_before p after tS (not_le.mpr hlt), blend_self]
    refine interpolate_self p _ tS hlt.le ?_
    cases after with
    | nil => exact le_refl _
    | cons q after => exact (List.pairwise_cons.mp hsorted).1 q List.mem_cons_self
  · rw [hsplit] at hsorted
    have hbefore : ∀ x ∈ before, x.1 ≤ tS := fun x hx =>
      ((List.pairwise_append.mp hsorted).2.2 x hx p List.mem_cons_self).trans hle
    rw [bracket_append first rest before [] p tS (hsamples.symm.trans hsplit) hbefore hle
      fun q hq => absurd hq (Option.not_mem_none q), blend_self]
    exact interpolate_same p tS

end Samples

/-- A share of the way lies between the ends. -/
theorem blend_mem (a b f : K) (h0 : 0 ≤ f) (h1 : f ≤ 1) : a + f * (b - a) ∈ Set.uIcc a b := by
  rw [Set.mem_uIcc]
  rcases le_total a b with hab | hab
  · left
    constructor <;> nlinarith
  · right
    constructor <;> nlinarith

/-- There is a way around that is not the longer one. -/
theorem exists_shorterArc (a b : K) (ha : -((180 : ℤ) : K) < a ∧ a ≤ ((180 : ℤ) : K))
    (hb : -((180 : ℤ) : K) < b ∧ b ≤ ((180 : ℤ) : K)) : ∃ d, ShorterArc a b d := by
  push_cast at ha hb
  by_cases hhigh : 180 < b - a
  · refine ⟨b - a - 360, ?_, 1, ?_⟩
    · push_cast
      rw [abs_le]
      constructor <;> linarith
    · push_cast
      ring
  · by_cases hlow : b - a < -180
    · refine ⟨b - a + 360, ?_, -1, ?_⟩
      · push_cast
        rw [abs_le]
        constructor <;> linarith
      · push_cast
        ring
    · refine ⟨b - a, ?_, 0, ?_⟩
      · push_cast
        rw [abs_le]
        constructor <;> linarith
      · push_cast
        ring

/-- A share of the difference of two longitudes is that share of the shorter arc if
    and only if it is none, or the difference is no more than half a turn. -/
theorem share_on_arc_iff (a b f : K) (ha : -((180 : ℤ) : K) < a ∧ a ≤ ((180 : ℤ) : K))
    (hb : -((180 : ℤ) : K) < b ∧ b ≤ ((180 : ℤ) : K)) (h0 : 0 ≤ f) (h1 : f < 1) :
    (∃ d, ShorterArc a b d ∧ ∃ n : ℤ, a + f * (b - a) = a + f * d + ((360 : ℤ) : K) * n) ↔
      f = 0 ∨ |b - a| ≤ ((180 : ℤ) : K) := by
  constructor
  · rintro ⟨d, ⟨hd, m, hm⟩, n, hn⟩
    by_contra hnot
    rw [not_or, not_le] at hnot
    rcases hnot with ⟨hf, hfar⟩
    push_cast at ha hb hd hm hn hfar
    have hpos : 0 < f := lt_of_le_of_ne h0 (Ne.symm hf)
    have hturn : b - a < 360 ∧ -360 < b - a := by constructor <;> linarith
    rcases abs_le.mp hd with ⟨hd0, hd1⟩
    -- The two ways around differ by whole turns, and the share of a turn is none.
    have hshare : f * (m : K) = n := by
      have hdiff : b - a = d + 360 * m := by linarith
      rw [hdiff] at hn
      linarith
    -- Longitudes are less than a turn apart, so it is one turn.
    have hm1 : m = 1 ∨ m = -1 := by
      have hlt : (m : K) < 2 := by linarith
      have hgt : (-2 : K) < m := by linarith
      have hlt' : m < 2 := by exact_mod_cast hlt
      have hgt' : -2 < m := by exact_mod_cast hgt
      have hm0 : m ≠ 0 := by
        rintro rfl
        rw [Int.cast_zero, mul_zero, add_zero] at hm
        have heq : b - a = d := by linarith
        rw [heq] at hfar
        linarith
      omega
    rcases hm1 with rfl | rfl
    · push_cast at hshare
      have hn0 : (0 : K) < n := by linarith
      have hn1 : (n : K) < 1 := by linarith
      have hn0' : 0 < n := by exact_mod_cast hn0
      have hn1' : n < 1 := by exact_mod_cast hn1
      omega
    · push_cast at hshare
      have hn0 : (n : K) < 0 := by linarith
      have hn1 : (-1 : K) < n := by linarith
      have hn0' : n < 0 := by exact_mod_cast hn0
      have hn1' : -1 < n := by exact_mod_cast hn1
      omega
  · rintro (rfl | hnear)
    · rcases exists_shorterArc a b ha hb with ⟨d, hd⟩
      refine ⟨d, hd, 0, ?_⟩
      push_cast
      ring
    · refine ⟨b - a, ⟨hnear, 0, ?_⟩, 0, ?_⟩
      · push_cast
        ring
      · push_cast
        ring

section Log

variable (points : List (TruthPoint K)) (icao : Icao) (tS : K) (tp : Geodetic K)
  (hpos : (TruthIndex.build points).posAt icao tS = some tp)

include hpos

omit [IsStrictOrderedRing K] in
/-- Where the truth has a position, samples bracket the time. -/
theorem exists_bracketed : ∃ samples p q,
    (TruthIndex.build points).byIcao icao = some samples ∧ Bracketed samples tS p q := by
  have hone : (lit 1 : K) = 1 := Rat.cast_one
  rcases posAt_some _ icao tS tp hpos with ⟨first, rest, hpts, hfirst, hlast, _⟩
  rw [hone, not_lt] at hfirst hlast
  by_cases hle : first.1 ≤ tS
  · rcases split_at first rest tS hle with ⟨before, p, after, hsplit, _, hp, hafter⟩
    cases after with
    | nil =>
        refine ⟨_, p, p, hpts, Or.inr ⟨rfl, Or.inr ⟨before, hsplit, hp, ?_⟩⟩⟩
        simp only [hsplit, List.getLast_concat] at hlast
        exact hlast
    | cons q after =>
        exact ⟨_, p, q, hpts, Or.inl ⟨before, after, hsplit, hp, not_le.mp (hafter q rfl)⟩⟩
  · exact ⟨_, first, first, hpts, Or.inr ⟨rfl, Or.inl ⟨rest, rfl, not_le.mp hle, hfirst⟩⟩⟩

/-- At the time of one sample only, that sample is the one returned. -/
theorem posAt_sample (s : TruthPoint K)
    (hs : (points.filter fun p => p.icao = icao ∧ (sample p).1 = tS) = [s]) : tp = s.pos := by
  have hmem : s ∈ points.filter fun p => p.icao = icao ∧ (sample p).1 = tS := by
    rw [hs]
    exact List.mem_singleton_self s
  rw [List.mem_filter, decide_eq_true_eq] at hmem
  rcases hmem with ⟨hpoint, hicao, htime⟩
  rcases exists_bracketed points icao tS tp hpos with ⟨samples, p, q, hpts, hb⟩
  rcases build_samples points icao samples hpts with ⟨hperm, hsorted⟩
  have hsample : sample s ∈ samples := by
    refine hperm.mem_iff.mpr (List.mem_map_of_mem (List.mem_filter.mpr ⟨hpoint, ?_⟩))
    exact decide_eq_true hicao
  -- The sample found is at the time itself, and only one sample is.
  have hp : p ∈ samples ∧ p.1 = tS := by
    rcases hb with ⟨before, after, hsplit, hp, hq⟩ | ⟨rfl, ⟨after, hsplit, hlt, _⟩ |
      ⟨before, hsplit, hle, _⟩⟩
    · rw [hsplit] at hsample hsorted ⊢
      refine ⟨List.mem_append_right before List.mem_cons_self, le_antisymm hp ?_⟩
      rw [List.pairwise_append, List.pairwise_cons, List.pairwise_cons] at hsorted
      rcases List.mem_append.mp hsample with hin | hin
      · exact htime ▸ hsorted.2.2 _ hin p List.mem_cons_self
      · rcases List.mem_cons.mp hin with heq | hin
        · rw [← htime, heq]
        · -- A sample behind the next one is too late.
          have hlate : q.1 ≤ (sample s).1 := by
            rcases List.mem_cons.mp hin with heq | hin
            · rw [heq]
            · exact hsorted.2.1.2.1 _ hin
          rw [htime] at hlate
          exact absurd hlate (not_le.mpr hq)
    · rw [hsplit] at hsample hsorted
      have hfirst : p.1 ≤ (sample s).1 := by
        rcases List.mem_cons.mp hsample with heq | hin
        · rw [heq]
        · exact (List.pairwise_cons.mp hsorted).1 _ hin
      rw [htime] at hfirst
      exact absurd hfirst (not_le.mpr hlt)
    · rw [hsplit] at hsample hsorted ⊢
      refine ⟨List.mem_append_right before List.mem_cons_self, le_antisymm hle ?_⟩
      rcases List.mem_append.mp hsample with hin | hin
      · exact htime ▸ (List.pairwise_append.mp hsorted).2.2 _ hin p List.mem_cons_self
      · rw [← htime, List.mem_singleton.mp hin]
  rcases sample_of_mem points icao samples hpts p hp.1 with ⟨x, hx, hxicao, rfl⟩
  have honly : x ∈ points.filter fun p => p.icao = icao ∧ (sample p).1 = tS :=
    List.mem_filter.mpr ⟨hx, decide_eq_true ⟨hxicao, hp.2⟩⟩
  rw [hs, List.mem_singleton] at honly
  rw [posAt_bracketed points icao samples hpts tS tp _ q hpos hb, hp.2, sub_self, zero_div, honly]
  simp only [blend, zero_mul, add_zero]
  rfl

/-- Latitude and height lie between the samples, and the longitude on the shorter arc
    if and only if the time is that of a sample or the longitudes are no more than
    half a turn apart. At the time of one sample only, that sample is returned. -/
theorem posAt_between_iff
    (hlon : ∀ p ∈ points, -((180 : ℤ) : K) < p.pos.lonDeg ∧ p.pos.lonDeg ≤ ((180 : ℤ) : K)) :
    (∃ samples p q, (TruthIndex.build points).byIcao icao = some samples ∧
      samples.Perm ((points.filter fun p => p.icao = icao).map sample) ∧
      samples.Pairwise (fun x y => x.1 ≤ y.1) ∧ Bracketed samples tS p q) ∧
    ∀ samples p q, (TruthIndex.build points).byIcao icao = some samples →
      Bracketed samples tS p q →
        ((Between p q tS tp ∧
          ∀ s, (points.filter fun p => p.icao = icao ∧ (sample p).1 = tS) = [s] → tp = s.pos) ↔
        (tS ≤ p.1 ∨ |q.2.lonDeg - p.2.lonDeg| ≤ ((180 : ℤ) : K))) := by
  constructor
  · rcases exists_bracketed points icao tS tp hpos with ⟨samples, p, q, hpts, hb⟩
    rcases build_samples points icao samples hpts with ⟨hperm, hsorted⟩
    exact ⟨samples, p, q, hpts, hperm, hsorted, hb⟩
  · intro samples p q hpts hb
    have htp := posAt_bracketed points icao samples hpts tS tp p q hpos hb
    have hmem : p ∈ samples ∧ q ∈ samples := by
      rcases hb with ⟨before, after, hsplit, _⟩ | ⟨rfl, ⟨after, hsplit, _⟩ | ⟨before, hsplit, _⟩⟩
      all_goals
        rw [hsplit]
        constructor <;> simp
    rcases sample_of_mem points icao samples hpts p hmem.1 with ⟨x, hx, _, hxp⟩
    rcases sample_of_mem points icao samples hpts q hmem.2 with ⟨y, hy, _, hyq⟩
    have hplon := hlon x hx
    have hqlon := hlon y hy
    -- The share of the time, which is none at the sample and at the ends.
    have hshare : 0 ≤ (tS - p.1) / (q.1 - p.1) ∧ (tS - p.1) / (q.1 - p.1) < 1 ∧
        ((tS - p.1) / (q.1 - p.1) = 0 ∨ |q.2.lonDeg - p.2.lonDeg| ≤ ((180 : ℤ) : K) ↔
          tS ≤ p.1 ∨ |q.2.lonDeg - p.2.lonDeg| ≤ ((180 : ℤ) : K)) := by
      rcases hb with ⟨before, after, _, hp, hq⟩ | ⟨rfl, _⟩
      · have hlen : 0 < q.1 - p.1 := sub_pos.mpr (hp.trans_lt hq)
        refine ⟨div_nonneg (sub_nonneg.mpr hp) hlen.le, (div_lt_one hlen).mpr (by linarith), ?_⟩
        rw [div_eq_zero_iff, or_iff_left hlen.ne', sub_eq_zero, le_antisymm_iff, and_iff_left hp]
      · rw [sub_self, div_zero, sub_self, abs_zero]
        have hhalf : (0 : K) ≤ ((180 : ℤ) : K) := by norm_num
        exact ⟨le_refl 0, zero_lt_one, iff_of_true (Or.inr hhalf) (Or.inr hhalf)⟩
    have harc := share_on_arc_iff p.2.lonDeg q.2.lonDeg _ (hxp ▸ hplon) (hyq ▸ hqlon) hshare.1
      hshare.2.1
    rw [← hshare.2.2, ← harc]
    constructor
    · rintro ⟨⟨_, _, hlon⟩, _⟩
      rw [htp] at hlon
      exact hlon
    · intro hlon
      refine ⟨⟨?_, ?_, ?_⟩, fun s hs => posAt_sample points icao tS tp hpos s hs⟩
      · rw [htp]
        exact blend_mem _ _ _ hshare.1 hshare.2.1.le
      · rw [htp]
        exact blend_mem _ _ _ hshare.1 hshare.2.1.le
      · rw [htp]
        exact hlon

end Log

end Exact

/-- An aircraft that flies east in one second, from a longitude to another. -/
def eastward (west east : ℚ) : List (TruthPoint ℚ) :=
  [⟨0, ⟨0x3944F1⟩, ⟨10, west, 1000⟩⟩, ⟨1000000000, ⟨0x3944F1⟩, ⟨11, east, 2000⟩⟩]

theorem posAt_between_one :
    Between (0, ⟨10, 1, 1000⟩) (1, ⟨11, 3, 2000⟩) (1 / 2 : ℚ) ⟨21 / 2, 2, 1500⟩ := by
  have hpos : (TruthIndex.build (eastward 1 3)).posAt ⟨0x3944F1⟩ (1 / 2) =
      some ⟨21 / 2, 2, 1500⟩ := by decide +kernel
  have hpts : (TruthIndex.build (eastward 1 3)).byIcao ⟨0x3944F1⟩ =
      some [(0, ⟨10, 1, 1000⟩), (1, ⟨11, 3, 2000⟩)] := by decide +kernel
  have hlon : ∀ p ∈ eastward 1 3, -((180 : ℤ) : ℚ) < p.pos.lonDeg ∧
      p.pos.lonDeg ≤ ((180 : ℤ) : ℚ) := by decide +kernel
  have hb : Bracketed [(0, (⟨10, 1, 1000⟩ : Geodetic ℚ)), (1, ⟨11, 3, 2000⟩)] (1 / 2)
      (0, ⟨10, 1, 1000⟩) (1, ⟨11, 3, 2000⟩) :=
    Or.inl ⟨[], [], rfl, by norm_num, by norm_num⟩
  have h := (posAt_between_iff (eastward 1 3) ⟨0x3944F1⟩ (1 / 2) ⟨21 / 2, 2, 1500⟩ hpos hlon).2
    _ _ _ hpts hb
  exact (h.mpr (Or.inr (by norm_num))).1

/-- Across the antimeridian the truth goes around the other way. -/
theorem antimeridian_around :
    (TruthIndex.build (eastward 179 (-179))).posAt ⟨0x3944F1⟩ (1 / 2) =
        some ⟨21 / 2, 0, 1500⟩ ∧
      (TruthIndex.build (eastward 179 (-179))).byIcao ⟨0x3944F1⟩ =
        some [(0, ⟨10, 179, 1000⟩), (1, ⟨11, -179, 2000⟩)] ∧
      Bracketed [(0, (⟨10, 179, 1000⟩ : Geodetic ℚ)), (1, ⟨11, -179, 2000⟩)] (1 / 2)
        (0, ⟨10, 179, 1000⟩) (1, ⟨11, -179, 2000⟩) ∧
      ¬ Between (0, ⟨10, 179, 1000⟩) (1, ⟨11, -179, 2000⟩) (1 / 2 : ℚ) ⟨21 / 2, 0, 1500⟩ := by
  refine ⟨by decide +kernel, by decide +kernel, Or.inl ⟨[], [], rfl, by norm_num, by norm_num⟩, ?_⟩
  rintro ⟨_, _, d, hd, n, hn⟩
  have harc := (share_on_arc_iff (179 : ℚ) (-179) (1 / 2) (by norm_num) (by norm_num) (by norm_num)
    (by norm_num)).mp ⟨d, hd, n, ?_⟩
  · norm_num at harc
  · norm_num at hn ⊢
    exact hn

end Metrics

end MlatBench
