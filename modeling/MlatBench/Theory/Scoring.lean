import MlatBench.Library.Ext
import MlatBench.Library.Lists
import MlatBench.Theory.Coverage
import MlatBench.Theory.Haversine
import MlatBench.Theory.Truth

/-!
# Scores as a Partition

Every row is counted once, coverage is at most one, and the order of the inputs
does not matter. The percentiles are in order when every error is a number. A row
is a ghost if its error is larger than a bound, so a row whose error is no number
is matched; it is sorted last, and nothing is at most the maximum then.

An error is no number when the truth has a position at the row's time whose
latitude, or whose difference in longitude from the row, is not finite. On the globe
this happens to rows whose time is no number.

## Main definitions

* `outside`: A row at a time the truth does not cover.
* `rank`: The index of a percentile.
* `Fair`: What holds of a score.
* `Placed`: A row with a place in the truth.
* `OnGlobe`, `Untimed`: Samples on the globe, and rows without a time.

## Theorems

* `rows_partition`, `errors_counted`, `tracked_le`: The counts.
* `score_perm`: The score forgets the order of its inputs.
* `rank_mono`, `stats_ordered_iff`: Percentiles are in order.
* `judge_unplaced`, `matched_number`: Which errors are numbers.
* `score_fair_iff`: When a score is fair.
* `placed_iff`: Which rows have a place.
* `matched_without_time`: A result whose time is no number.
-/

namespace MlatBench

open Library F64 F64Fn Proto

namespace Metrics

section Rows

variable {F : Type} [F64Fn F]

/-- A row of a known aircraft, at a time its truth does not cover. -/
def outside (truth : TruthIndex F) (wallT0 : F) (r : CsvRow F) : Bool :=
  match truth.byIcao r.icao with
  | none => false
  | some [] => true
  | some (first :: rest) =>
    decide (r.tWall - wallT0 < first.1 - lit 1 ∨
      (rest.getLastD first).1 + lit 1 < r.tWall - wallT0)

/-- The truth has a position exactly for known aircraft at a time it covers. -/
theorem outside_iff (truth : TruthIndex F) (wallT0 : F) (r : CsvRow F)
    (hknown : truth.known r.icao = true) :
    outside truth wallT0 r = true ↔ truth.posAt r.icao (r.tWall - wallT0) = none := by
  unfold outside TruthIndex.posAt
  unfold TruthIndex.known at hknown
  cases hpts : truth.byIcao r.icao with
  | none =>
      rw [hpts] at hknown
      exact absurd hknown Bool.false_ne_true
  | some pts =>
      cases pts with
      | nil => exact iff_of_true rfl rfl
      | cons first rest =>
          simp only [decide_eq_true_eq, List.getLast_eq_getLastD]
          split_ifs with hout hclose
          · exact iff_of_true hout rfl
          · exact iff_of_false hout id
          · exact iff_of_false hout id

theorem outside_known (truth : TruthIndex F) (wallT0 : F) (r : CsvRow F)
    (hunknown : truth.known r.icao = false) : outside truth wallT0 r = false := by
  unfold TruthIndex.known at hunknown
  unfold outside
  rw [Option.isSome_eq_false_iff, Option.isNone_iff_eq_none] at hunknown
  rw [hunknown]

/-- The rows judged to be outside are those outside the truth. -/
theorem judge_outside (truth : TruthIndex F) (wallT0 : F) (knownUntruthed : Finset Icao)
    (r : CsvRow F) :
    judge truth wallT0 knownUntruthed r = .outside ↔ outside truth wallT0 r = true := by
  unfold judge
  by_cases hknown : truth.known r.icao = false
  · rw [if_pos hknown, outside_known truth wallT0 r hknown]
    refine iff_of_false ?_ Bool.false_ne_true
    split_ifs <;> exact id
  · rw [if_neg hknown, outside_iff truth wallT0 r (Bool.eq_true_of_not_eq_false hknown)]
    cases hpos : truth.posAt r.icao (r.tWall - wallT0) with
    | none => simp only [hpos]
    | some tp =>
        refine iff_of_false ?_ (Option.some_ne_none tp)
        simp only [hpos]
        split_ifs <;> exact id

/-- Every row is counted once. -/
theorem rows_partition (truth : TruthIndex F) (rows : List (CsvRow F)) (wallT0 : F)
    (audibility : List AudibilitySecond) (mlatTargets knownUntruthed : Finset Icao)
    (resources : List (ResourceSample F)) :
    let report := score truth rows wallT0 audibility mlatTargets knownUntruthed resources
    report.resultsTotal = report.resultsMatched + report.unscoredKnownAircraft +
      report.ghostsUnknownIcao + report.ghostsGrossError +
        rows.countP (outside truth wallT0) := by
  simp only [score]
  induction rows with
  | nil => rfl
  | cons r rows ih =>
      have hout := judge_outside truth wallT0 knownUntruthed r
      simp only [List.length_cons, List.map_cons, List.countP_cons, matches_,
        List.filterMap_cons] at ih ⊢
      -- One counter goes up, whichever way the row is judged.
      cases hj : judge truth wallT0 knownUntruthed r with
      | outside =>
          simp only [hout.mp hj, if_true, Bool.false_eq_true, if_false]
          omega
      | unscored | ghostUnknown | ghostGross | matched =>
          have hr : outside truth wallT0 r = false := by
            rw [← Bool.not_eq_true, ← hout, hj]
            intro hne
            cases hne
          simp only [hr, if_true, Bool.false_eq_true, if_false, List.length_cons]
          omega

end Rows

section Order

variable {F : Type} [F64Fn F]

theorem length_sortF (xs : List F) : (sortF xs).length = xs.length :=
  List.length_insertionSort _ xs

theorem mem_sortF (x : F) (xs : List F) : x ∈ sortF xs ↔ x ∈ xs :=
  List.mem_insertionSort _

/-- As many errors as matched rows. -/
theorem errors_counted (truth : TruthIndex F) (rows : List (CsvRow F)) (wallT0 : F)
    (audibility : List AudibilitySecond) (mlatTargets knownUntruthed : Finset Icao)
    (resources : List (ResourceSample F)) :
    let report := score truth rows wallT0 audibility mlatTargets knownUntruthed resources
    report.horizontalErrorM.n = report.resultsMatched := by
  intro report
  have hlen := length_sortF ((matches_ truth wallT0 knownUntruthed rows).map fun m => m.2.2.1)
  rw [List.length_map] at hlen
  change ((stats (sortF ((matches_ truth wallT0 knownUntruthed rows).map
    fun m => m.2.2.1))).getD _).n = (matches_ truth wallT0 knownUntruthed rows).length
  cases hsorted : sortF ((matches_ truth wallT0 knownUntruthed rows).map fun m => m.2.2.1) with
  | nil =>
      rw [hsorted] at hlen
      exact hlen
  | cons x xs =>
      rw [hsorted] at hlen
      exact hlen

/-- What is tracked is part of what is trackable. -/
theorem tracked_le (results : Icao → List (F × F)) (audibility : List AudibilitySecond)
    (mlatTargets : Finset Icao) :
    (coverage results audibility mlatTargets).trackedAircraftSeconds ≤
      (coverage results audibility mlatTargets).trackableAircraftSeconds := by
  refine List.sum_le_sum fun icao _ => ?_
  calc both (results icao) (trackable audibility mlatTargets icao)
    _ ≤ (trackable audibility mlatTargets icao).toFinset.card :=
        Finset.card_le_card Finset.inter_subset_right
    _ ≤ (trackable audibility mlatTargets icao).length := List.toFinset_card_le _

variable (horder : TotalOrder F)
  (hantisymm : ∀ x y : F, totalLe x y = true → totalLe y x = true → x = y)

include horder

/-- Sorted values are in the total order. -/
theorem pairwise_sortF (xs : List F) : (sortF xs).Pairwise fun x y => totalLe x y = true :=
  horder.pairwise_sort id xs

include hantisymm

/-- Sorting forgets the order. -/
theorem sortF_perm (xs ys : List F) (h : xs.Perm ys) : sortF xs = sortF ys := by
  refine List.Perm.eq_of_pairwise (fun x y _ _ => hantisymm x y)
    (pairwise_sortF horder xs) (pairwise_sortF horder ys) ?_
  exact (List.perm_insertionSort _ xs).trans (h.trans (List.perm_insertionSort _ ys).symm)

omit horder hantisymm [F64Fn F] in
theorem min?_perm (xs ys : List Nat) (h : xs.Perm ys) : xs.min? = ys.min? := by
  refine Option.ext fun a => ?_
  rw [List.min?_eq_some_iff, List.min?_eq_some_iff, h.mem_iff]
  refine and_congr_right fun _ => forall_congr' fun b => ?_
  rw [h.mem_iff]

/-- The figures of an aircraft forget the order of results and of seconds. -/
theorem aircraftMetrics_perm (rs rs' : List (F × F)) (secs secs' : List Nat) (hr : rs.Perm rs')
    (hs : secs.Perm secs') : aircraftMetrics rs secs = aircraftMetrics rs' secs' := by
  -- Every figure is of a set, a count, a least element or a sorted list.
  have hair : secs.toFinset = secs'.toFinset := List.toFinset_eq_of_perm secs secs' hs
  have htracked : tracked rs = tracked rs' :=
    List.toFinset_eq_of_perm _ _ ((hr.filter _).map _)
  have hnil : rs = [] ↔ rs' = [] := by
    rw [← List.length_eq_zero_iff, hr.length_eq, List.length_eq_zero_iff]
  simp only [aircraftMetrics, both, minBy, hair, htracked, hnil, hr.length_eq, hs.length_eq,
    min?_perm secs secs' hs, sortF_perm horder hantisymm _ _ (hr.map Prod.fst),
    sortF_perm horder hantisymm _ _ (hr.map Prod.snd)]

omit horder hantisymm in
/-- Entries of different keys make one map. -/
theorem mapOf_eq_of_perm {α : Type} (xs ys : List (String × α)) (h : xs.Perm ys)
    (hne : xs.Pairwise fun x y => x.1 ≠ y.1) : mapOf xs = mapOf ys := by
  have hne' : ys.Pairwise fun x y => x.1 ≠ y.1 := h.pairwise hne fun hxy => hxy.symm
  have : IsTrans (String × α) fun x y => x.1 ≤ y.1 := ⟨fun _ _ _ => String.le_trans⟩
  have : Std.Total fun x y : String × α => x.1 ≤ y.1 := ⟨fun x y => String.le_total x.1 y.1⟩
  have hperm : (xs.insertionSort fun x y => x.1 ≤ y.1).Perm
      (ys.insertionSort fun x y => x.1 ≤ y.1) :=
    (List.perm_insertionSort _ xs).trans (h.trans (List.perm_insertionSort _ ys).symm)
  rw [mapOf, mapOf, List.pwFilter_eq_self.mpr hne, List.pwFilter_eq_self.mpr hne']
  refine List.Perm.eq_of_pairwise (fun x y hx hy hxy hyx => ?_)
    (List.pairwise_insertionSort _ xs) (List.pairwise_insertionSort _ ys) hperm
  -- Two entries of one key are the same entry.
  by_contra hdiff
  have hx' := (List.mem_insertionSort _).mp hx
  have hy' := h.mem_iff.mpr ((List.mem_insertionSort _).mp hy)
  rcases either_of_pairwise hne x y hx' hy' hdiff with hkey | hkey
  · exact hkey (String.le_antisymm hxy hyx)
  · exact hkey (String.le_antisymm hyx hxy)

omit horder hantisymm [F64Fn F] in
theorem qualifying_perm (aud aud' : List AudibilitySecond) (mlatTargets : Finset Icao)
    (h : aud.Perm aud') : (qualifying aud mlatTargets).Perm (qualifying aud' mlatTargets) :=
  h.filter _

omit horder hantisymm [F64Fn F] in
theorem trackable_perm (aud aud' : List AudibilitySecond) (mlatTargets : Finset Icao)
    (h : aud.Perm aud') (icao : Icao) :
    (trackable aud mlatTargets icao).Perm (trackable aud' mlatTargets icao) :=
  ((qualifying_perm aud aud' mlatTargets h).filter _).map _

omit horder hantisymm [F64Fn F] in
theorem trackableIcaos_perm (aud aud' : List AudibilitySecond) (mlatTargets : Finset Icao)
    (h : aud.Perm aud') : (trackableIcaos aud mlatTargets).Perm (trackableIcaos aud' mlatTargets) :=
  ((qualifying_perm aud aud' mlatTargets h).map _).dedup

omit horder hantisymm in
/-- Coverage forgets the order of results and of the audibility list. -/
theorem coverage_perm (results results' : Icao → List (F × F)) (aud aud' : List AudibilitySecond)
    (mlatTargets : Finset Icao) (hr : ∀ icao, (results icao).Perm (results' icao))
    (ha : aud.Perm aud') :
    coverage results aud mlatTargets = coverage results' aud' mlatTargets := by
  have hsecs := trackable_perm aud aud' mlatTargets ha
  have hicaos := trackableIcaos_perm aud aud' mlatTargets ha
  have hboth : ∀ icao, both (results icao) (trackable aud mlatTargets icao) =
      both (results' icao) (trackable aud' mlatTargets icao) := by
    intro icao
    have htracked : tracked (results icao) = tracked (results' icao) :=
      List.toFinset_eq_of_perm _ _ (((hr icao).filter _).map _)
    rw [both, both, htracked, List.toFinset_eq_of_perm _ _ (hsecs icao)]
  have hlen : ((trackableIcaos aud mlatTargets).map fun icao =>
        (trackable aud mlatTargets icao).length).sum =
      ((trackableIcaos aud' mlatTargets).map fun icao =>
        (trackable aud' mlatTargets icao).length).sum := by
    simp only [fun icao => (hsecs icao).length_eq]
    exact (hicaos.map _).sum_eq
  have hsum : ((trackableIcaos aud mlatTargets).map fun icao =>
        both (results icao) (trackable aud mlatTargets icao)).sum =
      ((trackableIcaos aud' mlatTargets).map fun icao =>
        both (results' icao) (trackable aud' mlatTargets icao)).sum := by
    simp only [hboth]
    exact (hicaos.map _).sum_eq
  simp only [coverage, hlen, hsum]

/-- The score forgets the order of rows and of the audibility list. -/
theorem score_perm (truth : TruthIndex F) (rows rows' : List (CsvRow F)) (wallT0 : F)
    (aud aud' : List AudibilitySecond) (mlatTargets knownUntruthed : Finset Icao)
    (resources : List (ResourceSample F)) (h24 : ∀ icao ∈ mlatTargets, icao.val ≤ 0xFFFFFF)
    (hrows : rows'.Perm rows) (haud : aud'.Perm aud) :
    score truth rows' wallT0 aud' mlatTargets knownUntruthed resources =
      score truth rows wallT0 aud mlatTargets knownUntruthed resources := by
  have hms : (matches_ truth wallT0 knownUntruthed rows').Perm
      (matches_ truth wallT0 knownUntruthed rows) := hrows.filterMap _
  have hresults : ∀ icao : Icao,
      (resultsOf (matches_ truth wallT0 knownUntruthed rows') icao.toHex).Perm
        (resultsOf (matches_ truth wallT0 knownUntruthed rows) icao.toHex) :=
    fun icao => (hms.filter _).map _
  have hcount : ∀ p : Judged F → Bool,
      (rows'.map (judge truth wallT0 knownUntruthed)).countP p =
        (rows.map (judge truth wallT0 knownUntruthed)).countP p :=
    fun p => (hrows.map _).countP_eq p
  -- The figures of each aircraft are the same, so the maps have the same entries.
  have hentries : ((trackableIcaos aud' mlatTargets).map fun icao => (icao.toHex,
        aircraftMetrics (resultsOf (matches_ truth wallT0 knownUntruthed rows') icao.toHex)
          (trackable aud' mlatTargets icao))).Perm
      ((trackableIcaos aud mlatTargets).map fun icao => (icao.toHex,
        aircraftMetrics (resultsOf (matches_ truth wallT0 knownUntruthed rows) icao.toHex)
          (trackable aud mlatTargets icao))) := by
    simp only [fun icao => aircraftMetrics_perm horder hantisymm _ _ _ _ (hresults icao)
      (trackable_perm aud' aud mlatTargets haud icao)]
    exact (trackableIcaos_perm aud' aud mlatTargets haud).map _
  have hmap := mapOf_eq_of_perm _ _ hentries (entries_apart aud' mlatTargets h24 _)
  simp only [score, hrows.length_eq, hms.length_eq, hcount, hmap,
    sortF_perm horder hantisymm _ _ (hms.map _), sortF_perm horder hantisymm _ _ (hms.filterMap _),
    coverage_perm _ _ aud' aud mlatTargets hresults haud]

end Order

section Percentiles

/-- The index of a percentile. -/
def rank (F : Type) [F64 F] (n : Nat) (p : ℚ) : Nat :=
  min (toInt 0 (2 ^ 64 - 1) ((lit n : F) * lit p)).toNat (n - 1)

variable {K : Type} [Field K] [LinearOrder K] [IsStrictOrderedRing K] [FloorRing K]

/-- A larger share has a larger index. -/
theorem rank_mono (n : Nat) (p q : ℚ) (hp : 0 < p) (hpq : p ≤ q) (hq : q ≤ 1) :
    rank (Ext K) n p ≤ rank (Ext K) n q := by
  -- With the product in range the index is its floor, otherwise it is the largest.
  have hindex : ∀ s : ℚ, 0 < s → s ≤ 1 →
      toInt 0 (2 ^ 64 - 1) ((lit n : Ext K) * lit s) =
        if |((n : ℚ) : K)| ≤ maxFinite K then clampInt 0 (2 ^ 64 - 1) ⌊((n : ℚ) : K) * (s : K)⌋
        else 2 ^ 64 - 1 := by
    intro s hs hs1
    have hs0 : (0 : K) < (s : K) := by exact_mod_cast hs
    have hsle : (s : K) ≤ 1 := by exact_mod_cast hs1
    have hn0 : (0 : K) ≤ ((n : ℚ) : K) := by exact_mod_cast Nat.zero_le n
    have hsrange : |(s : K)| ≤ maxFinite K := by
      rw [abs_of_pos hs0]
      exact hsle.trans Ext.one_le_maxFinite
    change Ext.toInt 0 (2 ^ 64 - 1) (Ext.mul (Ext.ofExact ((n : ℚ) : K)) (Ext.ofExact (s : K))) = _
    rw [Ext.ofExact_of_le _ hsrange]
    by_cases hn : |((n : ℚ) : K)| ≤ maxFinite K
    · have hprod : |((n : ℚ) : K) * (s : K)| ≤ maxFinite K := by
        rw [abs_mul, abs_of_pos hs0]
        exact (mul_le_of_le_one_right (abs_nonneg _) hsle).trans hn
      rw [if_pos hn, Ext.ofExact_of_le _ hn]
      change Ext.toInt 0 (2 ^ 64 - 1) (Ext.ofExact (((n : ℚ) : K) * (s : K))) = _
      rw [Ext.ofExact_of_le _ hprod]
      change clampInt 0 (2 ^ 64 - 1) (truncate (((n : ℚ) : K) * (s : K))) = _
      rw [truncate, if_neg (not_lt.mpr (mul_nonneg hn0 hs0.le))]
    · rw [if_neg hn, Ext.ofExact, dif_neg hn, decide_eq_false (not_lt.mpr hn0)]
      change Ext.toInt 0 (2 ^ 64 - 1)
        (if (s : K) = 0 then Ext.nan else Ext.inf (false != decide ((s : K) < 0))) = _
      rw [if_neg hs0.ne', decide_eq_false (not_lt.mpr hs0.le)]
      rfl
  have hmono : ⌊((n : ℚ) : K) * (p : K)⌋ ≤ ⌊((n : ℚ) : K) * (q : K)⌋ := by
    refine Int.floor_le_floor (mul_le_mul_of_nonneg_left ?_ ?_)
    · exact_mod_cast hpq
    · exact_mod_cast Nat.zero_le n
  unfold rank
  rw [hindex p hp (hpq.trans hq), hindex q (hp.trans_le hpq) hq]
  refine min_le_min_right _ (Int.toNat_le_toNat ?_)
  split_ifs
  · unfold clampInt
    omega
  · exact le_refl _

theorem rank_le (F : Type) [F64 F] (n : Nat) (p : ℚ) : rank F n p ≤ n - 1 :=
  min_le_right _ _

variable [Fns K]

/-- Percentiles are in order exactly if every value is a number. -/
theorem stats_ordered_iff (xs : List (Ext K)) (s : ErrorStats (Ext K))
    (h : stats (sortF xs) = some s) :
    (s.p50 ≤ s.p90 ∧ s.p90 ≤ s.p99 ∧ s.p99 ≤ s.max) ↔ ∀ x ∈ xs, x ≠ Ext.nan := by
  have horder : TotalOrder (Ext K) := Ext.totalOrder
  have hmem : ∀ x, x ∈ sortF xs ↔ x ∈ xs := fun x => mem_sortF x xs
  have hpairs := pairwise_sortF horder xs
  generalize sortF xs = sorted at h hmem hpairs
  cases sorted with
  | nil => exact absurd h (Option.some_ne_none s).symm
  | cons first rest =>
      cases h
      have hbound : ∀ p, rank (Ext K) (first :: rest).length p < (first :: rest).length :=
        fun p => Nat.lt_of_le_pred (Nat.succ_pos _) (rank_le _ _ p)
      simp only []
      constructor
      · rintro ⟨_, _, hlast⟩ x hx rfl
        -- What is no number is sorted to the end.
        rcases List.mem_iff_getElem.mp ((hmem _).mpr hx) with ⟨i, hi, hget⟩
        have hend : (first :: rest).getLast (List.cons_ne_nil _ _) = Ext.nan := by
          rw [List.getLast_eq_getElem]
          rcases Nat.lt_or_ge i ((first :: rest).length - 1) with hlt | hge
          · have hle := List.pairwise_iff_getElem.mp hpairs i _ hi (by omega) hlt
            rw [hget] at hle
            exact (Ext.totalLe_nan _).mp hle
          · have : i = (first :: rest).length - 1 := by omega
            rw [← hget]
            congr 1
            exact this.symm
        rw [hend] at hlast
        have hfalse : ∀ y : Ext K, ¬ y ≤ Ext.nan := fun y => by cases y <;> exact id
        exact hfalse _ hlast
      · intro hnumbers
        -- Of two places the later one has the larger value.
        have hle : ∀ (i j : Nat) (hi : i < (first :: rest).length)
            (hj : j < (first :: rest).length), i ≤ j →
              (first :: rest)[i] ≤ (first :: rest)[j] := by
          intro i j hi hj hij
          refine Ext.le_of_totalLe _ _ (hnumbers _ ((hmem _).mp (List.getElem_mem hi)))
            (hnumbers _ ((hmem _).mp (List.getElem_mem hj))) ?_
          rcases Nat.lt_or_eq_of_le hij with hlt | rfl
          · exact List.pairwise_iff_getElem.mp hpairs i j hi hj hlt
          · exact (or_self_iff).mp (Ext.totalLe_total _ _)
        have hget : ∀ (i : Nat) (hi : i < (first :: rest).length),
            (first :: rest).getD i first = (first :: rest)[i] :=
          fun i hi => (List.getElem_eq_getD (h := hi) first).symm
        change (first :: rest).getD (rank (Ext K) (first :: rest).length (50 / 100)) first ≤
            (first :: rest).getD (rank (Ext K) (first :: rest).length (90 / 100)) first ∧
          (first :: rest).getD (rank (Ext K) (first :: rest).length (90 / 100)) first ≤
            (first :: rest).getD (rank (Ext K) (first :: rest).length (99 / 100)) first ∧
          (first :: rest).getD (rank (Ext K) (first :: rest).length (99 / 100)) first ≤ _
        rw [hget _ (hbound _), hget _ (hbound _), hget _ (hbound _), List.getLast_eq_getElem]
        refine ⟨hle _ _ _ _ ?_, hle _ _ _ _ ?_, hle _ _ _ _ (rank_le _ _ _)⟩
        · exact rank_mono _ _ _ (by norm_num) (by norm_num) (by norm_num)
        · exact rank_mono _ _ _ (by norm_num) (by norm_num) (by norm_num)

end Percentiles

/-- What holds of a score that counts each row once and orders its figures. -/
structure Fair {F : Type} [F64Fn F] (truth : TruthIndex F) (rows : List (CsvRow F)) (wallT0 : F)
    (audibility : List AudibilitySecond) (mlatTargets knownUntruthed : Finset Icao)
    (resources : List (ResourceSample F)) (report : Report F) : Prop where
  partition : report.resultsTotal = report.resultsMatched + report.unscoredKnownAircraft +
    report.ghostsUnknownIcao + report.ghostsGrossError + rows.countP (outside truth wallT0)
  counted : report.horizontalErrorM.n = report.resultsMatched
  tracked : report.coverage.trackedAircraftSeconds ≤ report.coverage.trackableAircraftSeconds
  ordered : 0 < report.resultsMatched →
    (∀ r ∈ rows, isFinite r.lat = true ∧ isFinite r.lon = true) →
      report.horizontalErrorM.p50 ≤ report.horizontalErrorM.p90 ∧
        report.horizontalErrorM.p90 ≤ report.horizontalErrorM.p99 ∧
          report.horizontalErrorM.p99 ≤ report.horizontalErrorM.max
  permuted : ∀ rows' audibility', rows'.Perm rows → audibility'.Perm audibility →
    score truth rows' wallT0 audibility' mlatTargets knownUntruthed resources = report

/-- Where the truth has a position at a row's time, its latitude and the difference
    of the longitudes are finite. -/
def Placed {F : Type} [F64Fn F] (truth : TruthIndex F) (wallT0 : F) (r : CsvRow F) : Prop :=
  ∀ tp, truth.posAt r.icao (r.tWall - wallT0) = some tp →
    isFinite tp.latDeg = true ∧ isFinite (tp.lonDeg - r.lon) = true

section Real

variable (truth : TruthIndex (Ext ℝ)) (wallT0 : Ext ℝ)

/-- A row without a place in the truth is matched, with an error that is no number. -/
theorem judge_unplaced (knownUntruthed : Finset Icao) (r : CsvRow (Ext ℝ))
    (hlat : isFinite r.lat = true) (tp : Geodetic (Ext ℝ))
    (hpos : truth.posAt r.icao (r.tWall - wallT0) = some tp)
    (hplace : ¬ (isFinite tp.latDeg = true ∧ isFinite (tp.lonDeg - r.lon) = true)) :
    judge truth wallT0 knownUntruthed r = .matched (r.tWall - wallT0) Ext.nan tp := by
  have hknown : truth.known r.icao = true := by
    unfold TruthIndex.posAt at hpos
    unfold TruthIndex.known
    cases hpts : truth.byIcao r.icao with
    | none =>
        rw [hpts] at hpos
        exact absurd hpos.symm (Option.some_ne_none tp)
    | some pts => rfl
  -- An error that is no number is not above the bound either.
  have hnan : Geodetic.haversine ⟨r.lat, r.lon, lit 0⟩ { tp with altM := lit 0 } =
      (Ext.nan : Ext ℝ) := by
    refine haversine_nan _ _ hlat ?_
    rw [not_and_or, Bool.not_eq_true, Bool.not_eq_true] at hplace
    exact hplace
  have hlt : ¬ lit ghostM < (Ext.nan : Ext ℝ) := by
    change ¬ Ext.lt (Ext.ofExact ((ghostM : ℚ) : ℝ)) Ext.nan
    cases Ext.ofExact ((ghostM : ℚ) : ℝ) <;> exact id
  unfold judge
  rw [if_neg (by rw [hknown]; exact Bool.noConfusion)]
  simp only [hpos, hnan]
  rw [if_neg hlt]

/-- The error of a matched row with a place is a number. -/
theorem matched_number (knownUntruthed : Finset Icao) (r : CsvRow (Ext ℝ))
    (hlat : isFinite r.lat = true) (hplace : Placed truth wallT0 r) (t e : Ext ℝ)
    (tp : Geodetic (Ext ℝ)) (hj : judge truth wallT0 knownUntruthed r = .matched t e tp) :
    e ≠ Ext.nan := by
  unfold judge at hj
  by_cases hknown : truth.known r.icao = false
  · rw [if_pos hknown] at hj
    split_ifs at hj
  · rw [if_neg hknown] at hj
    cases hpos : truth.posAt r.icao (r.tWall - wallT0) with
    | none =>
        simp only [hpos] at hj
        cases hj
    | some tp' =>
        simp only [hpos] at hj
        split_ifs at hj
        cases hj
        rcases hplace tp hpos with ⟨htlat, hdlon⟩
        rcases Ext.val_of_isFinite _ hlat with ⟨a, ha⟩
        rcases Ext.val_of_isFinite _ htlat with ⟨b, hb⟩
        rcases Ext.val_of_isFinite _ hdlon with ⟨d, hd⟩
        rcases val_haversine ⟨r.lat, r.lon, lit 0⟩ { tp with altM := lit 0 } a b d ha hb hd with
          ⟨v, hv, heq⟩
        rw [heq]
        intro hne
        cases hne

variable (rows : List (CsvRow (Ext ℝ))) (knownUntruthed : Finset Icao)

/-- The errors are the percentiles' values, if a row is matched. -/
theorem errors_ordered_iff (audibility : List AudibilitySecond) (mlatTargets : Finset Icao)
    (resources : List (ResourceSample (Ext ℝ))) :
    let report := score truth rows wallT0 audibility mlatTargets knownUntruthed resources
    0 < report.resultsMatched →
      ((report.horizontalErrorM.p50 ≤ report.horizontalErrorM.p90 ∧
        report.horizontalErrorM.p90 ≤ report.horizontalErrorM.p99 ∧
          report.horizontalErrorM.p99 ≤ report.horizontalErrorM.max) ↔
      ∀ m ∈ matches_ truth wallT0 knownUntruthed rows, m.2.2.1 ≠ Ext.nan) := by
  intro report hsome
  have hlen := length_sortF ((matches_ truth wallT0 knownUntruthed rows).map fun m => m.2.2.1)
  rw [List.length_map] at hlen
  have hstats : ∃ s, stats (sortF ((matches_ truth wallT0 knownUntruthed rows).map
      fun m => m.2.2.1)) = some s := by
    cases hsorted : sortF ((matches_ truth wallT0 knownUntruthed rows).map fun m => m.2.2.1) with
    | nil =>
        rw [hsorted] at hlen
        exact absurd hlen hsome.ne
    | cons x xs => exact ⟨_, rfl⟩
  rcases hstats with ⟨s, hs⟩
  have hreport : report.horizontalErrorM = s := by
    change (stats (sortF ((matches_ truth wallT0 knownUntruthed rows).map
      fun m => m.2.2.1))).getD _ = s
    rw [hs, Option.getD_some]
  rw [hreport, stats_ordered_iff _ s hs]
  exact List.forall_mem_map

/-- With percentiles in order every row has a place. -/
theorem placed_of_ordered (audibility : List AudibilitySecond) (mlatTargets : Finset Icao)
    (resources : List (ResourceSample (Ext ℝ)))
    (hfair : Fair truth rows wallT0 audibility mlatTargets knownUntruthed resources
      (score truth rows wallT0 audibility mlatTargets knownUntruthed resources))
    (hfinite : ∀ r ∈ rows, isFinite r.lat = true ∧ isFinite r.lon = true) (r : CsvRow (Ext ℝ))
    (hr : r ∈ rows) : Placed truth wallT0 r := by
  intro tp hpos
  by_contra hplace
  have hj := judge_unplaced truth wallT0 knownUntruthed r (hfinite r hr).1 tp hpos hplace
  -- Its error would be among those that were sorted.
  have hm : (r, r.tWall - wallT0, Ext.nan, tp) ∈ matches_ truth wallT0 knownUntruthed rows := by
    refine List.mem_filterMap.mpr ⟨r, hr, ?_⟩
    rw [hj]
  have hsome := List.length_pos_of_mem hm
  have hordered := hfair.ordered hsome hfinite
  exact (errors_ordered_iff truth wallT0 rows knownUntruthed audibility mlatTargets resources
    hsome).mp hordered _ hm rfl

/-- Scoring counts each row once and forgets the order of its inputs. Its
    percentiles are in order if and only if, with finite row positions, every row at
    whose time the truth has a position has a place there. -/
theorem score_fair_iff (audibility : List AudibilitySecond) (mlatTargets : Finset Icao)
    (resources : List (ResourceSample (Ext ℝ))) (h24 : ∀ icao ∈ mlatTargets, icao.val ≤ 0xFFFFFF) :
    Fair truth rows wallT0 audibility mlatTargets knownUntruthed resources
        (score truth rows wallT0 audibility mlatTargets knownUntruthed resources) ↔
      ((∀ r ∈ rows, isFinite r.lat = true ∧ isFinite r.lon = true) →
        ∀ r ∈ rows, Placed truth wallT0 r) := by
  constructor
  · intro hfair hfinite r hr
    exact placed_of_ordered truth wallT0 rows knownUntruthed audibility mlatTargets resources
      hfair hfinite r hr
  · intro hplaced
    have horder : TotalOrder (Ext ℝ) := Ext.totalOrder
    refine ⟨?_, ?_, ?_, ?_, ?_⟩
    · exact rows_partition truth rows wallT0 audibility mlatTargets knownUntruthed resources
    · exact errors_counted truth rows wallT0 audibility mlatTargets knownUntruthed resources
    · exact tracked_le _ audibility mlatTargets
    · intro hsome hfinite
      refine (errors_ordered_iff truth wallT0 rows knownUntruthed audibility mlatTargets resources
        hsome).mpr ?_
      rintro ⟨r, t, e, tp⟩ hm
      rcases List.mem_filterMap.mp hm with ⟨r', hr', hmatch⟩
      cases hj : judge truth wallT0 knownUntruthed r' with
      | matched t' e' tp' =>
          rw [hj] at hmatch
          cases hmatch
          exact matched_number truth wallT0 knownUntruthed r (hfinite r hr').1
            (hplaced hfinite r hr') t e tp hj
      | outside | unscored | ghostUnknown | ghostGross =>
          rw [hj] at hmatch
          cases hmatch
    · intro rows' audibility' hrows haud
      exact score_perm horder Ext.totalLe_antisymm truth rows rows' wallT0 audibility audibility'
        mlatTargets knownUntruthed resources h24 hrows haud

end Real

section Globe

/-- A sample at a time of the scenario and at a place on the globe. -/
def OnGlobe (p : Ext ℝ × Geodetic (Ext ℝ)) : Prop :=
  ∃ t a b : ℝ, Ext.Val p.1 t ∧ |t| ≤ ((2 ^ 62 : ℤ) : ℝ) ∧ Ext.Val p.2.latDeg a ∧ |a| ≤ 90 ∧
    Ext.Val p.2.lonDeg b ∧ |b| ≤ 180

theorem not_lt_nan (x : Ext ℝ) : ¬ x < Ext.nan := by
  cases x <;> exact id

theorem not_nan_lt (x : Ext ℝ) : ¬ Ext.nan < x := by
  cases x <;> exact id

theorem not_le_nan (x : Ext ℝ) : ¬ x ≤ Ext.nan := by
  cases x <;> exact id

theorem ofExact_ne_nan (a : ℝ) : Ext.ofExact a ≠ Ext.nan := by
  unfold Ext.ofExact
  intro h
  split_ifs at h

/-- A share that is a number is cut to one between zero and one. -/
theorem clamp_share (x : Ext ℝ) (hx : x ≠ Ext.nan) :
    ∃ f : ℝ, Ext.Val (clamp (lit 0) (lit 1) x) f ∧ 0 ≤ f ∧ f ≤ 1 := by
  have h0 : Ext.Val (lit 0 : Ext ℝ) 0 := by
    have h := val_small 0 (by norm_num)
    rwa [Rat.cast_zero] at h
  have h1 : Ext.Val (lit 1 : Ext ℝ) 1 := by
    have h := val_small 1 (by norm_num)
    rwa [Rat.cast_one] at h
  rw [clamp]
  by_cases hlow : x < lit 0
  · rw [if_pos hlow]
    exact ⟨0, h0, le_refl 0, zero_le_one⟩
  · rw [if_neg hlow]
    by_cases hhigh : lit 1 < x
    · rw [if_pos hhigh]
      exact ⟨1, h1, zero_le_one, le_refl 1⟩
    · rw [if_neg hhigh]
      cases x with
      | nan => exact absurd rfl hx
      | fin f hf =>
          have hval : Ext.Val (Ext.fin f hf) f := ⟨hf, rfl⟩
          rw [hval.lt_iff h0, not_lt] at hlow
          rw [h1.lt_iff hval, not_lt] at hhigh
          exact ⟨f, hval, hlow, hhigh⟩
      | inf b =>
          rcases h0 with ⟨_, h0⟩
          rcases h1 with ⟨_, h1⟩
          rw [h0] at hlow
          rw [h1] at hhigh
          cases b with
          | true => exact absurd rfl hlow
          | false => exact absurd rfl hhigh

/-- The share of a time that is a number is a number. -/
theorem share_ne_nan (tS t0 d : Ext ℝ) (a b : ℝ) (ht : tS ≠ Ext.nan) (h0 : Ext.Val t0 a)
    (hd : Ext.Val d b) (hb : b ≠ 0) : (tS - t0) / d ≠ Ext.nan := by
  rcases h0 with ⟨h0, rfl⟩
  rcases hd with ⟨hd, rfl⟩
  have hdiv : ∀ x : Ext ℝ, x ≠ Ext.nan → x / Ext.fin b hd ≠ Ext.nan := by
    intro x hx
    cases x with
    | nan => exact absurd rfl hx
    | inf c =>
        intro h
        cases h
    | fin x hx =>
        change Ext.div (Ext.fin x _) (Ext.fin b hd) ≠ Ext.nan
        rw [Ext.div, if_neg hb]
        exact ofExact_ne_nan _
  refine hdiv _ ?_
  change Ext.add tS (Ext.neg (Ext.fin a h0)) ≠ Ext.nan
  rw [Ext.neg_fin]
  cases tS with
  | nan => exact absurd rfl ht
  | inf c =>
      intro h
      cases h
  | fin x hx => exact ofExact_ne_nan _

/-- A place at a share of the way between two on the globe is finite, and so is its
    distance in longitude from a third. -/
theorem blend_finite (p q : Geodetic (Ext ℝ)) (x c : Ext ℝ) (a a' b b' f l : ℝ)
    (ha : Ext.Val p.latDeg a ∧ |a| ≤ 90) (ha' : Ext.Val q.latDeg a' ∧ |a'| ≤ 90)
    (hb : Ext.Val p.lonDeg b ∧ |b| ≤ 180) (hb' : Ext.Val q.lonDeg b' ∧ |b'| ≤ 180)
    (hf : Ext.Val x f ∧ 0 ≤ f ∧ f ≤ 1) (hl : Ext.Val c l ∧ |l| ≤ 180) :
    isFinite (blend p q x).latDeg = true ∧ isFinite ((blend p q x).lonDeg - c) = true := by
  have hway : ∀ u v : ℝ, |u| ≤ 180 → |v| ≤ 180 →
      |v - u| ≤ 360 ∧ |f * (v - u)| ≤ 360 ∧ |u + f * (v - u)| ≤ 540 := by
    intro u v hu hv
    have hdiff : |v - u| ≤ 360 := by
      have := abs_sub v u
      linarith
    have hshare : |f * (v - u)| ≤ 360 := by
      rw [abs_mul, abs_of_nonneg hf.2.1]
      exact (mul_le_of_le_one_left (abs_nonneg _) hf.2.2).trans hdiff
    have hsum := abs_add_le u (f * (v - u))
    exact ⟨hdiff, hshare, by linarith⟩
  have hval : ∀ (y z : Ext ℝ) (u v : ℝ), Ext.Val y u → Ext.Val z v → |u| ≤ 180 → |v| ≤ 180 →
      Ext.Val (y + x * (z - y)) (u + f * (v - u)) := by
    intro y z u v hy hz hu hv
    rcases hway u v hu hv with ⟨hdiff, hshare, hsum⟩
    refine Ext.Val.add hy (Ext.Val.mul hf.1 (Ext.Val.sub hz hy ?_) ?_) ?_
    all_goals
      refine le_maxFinite _ ?_
      linarith
  have hlat := hval _ _ a a' ha.1 ha'.1 (by linarith [ha.2]) (by linarith [ha'.2])
  have hlon := hval _ _ b b' hb.1 hb'.1 hb.2 hb'.2
  refine ⟨hlat.isFinite, (Ext.Val.sub hlon hl.1 (le_maxFinite _ ?_)).isFinite⟩
  have hsub := abs_sub (b + f * (b' - b)) l
  linarith [(hway b b' hb.2 hb'.2).2.2, hl.2]

/-- A row whose time is no number, of an aircraft whose first samples are apart. -/
def Untimed (truth : TruthIndex (Ext ℝ)) (wallT0 : Ext ℝ) (r : CsvRow (Ext ℝ)) : Prop :=
  r.tWall - wallT0 = Ext.nan ∧ ∃ first second rest,
    truth.byIcao r.icao = some (first :: second :: rest) ∧
      ¬ F64.abs (second.1 - first.1) < lit (1 / 1000000000)

/-- The truth has a position for such a row, which is none. -/
theorem posAt_untimed (truth : TruthIndex (Ext ℝ)) (wallT0 : Ext ℝ) (r : CsvRow (Ext ℝ))
    (h : Untimed truth wallT0 r) :
    ∃ tp, truth.posAt r.icao (r.tWall - wallT0) = some tp ∧ tp.latDeg = Ext.nan := by
  rcases h with ⟨htime, first, second, rest, hpts, hapart⟩
  rw [htime, posAt_eq truth r.icao Ext.nan first (second :: rest) hpts,
    if_neg (not_or.mpr ⟨not_nan_lt _, not_lt_nan _⟩),
    bracket_before first (second :: rest) Ext.nan (not_le_nan _)]
  refine ⟨_, rfl, ?_⟩
  have hshare : (Ext.nan - first.1) / (second.1 - first.1) = (Ext.nan : Ext ℝ) := by
    have hsub : (Ext.nan : Ext ℝ) - first.1 = Ext.nan := nan_add _
    rw [hsub]
    cases second.1 - first.1 <;> rfl
  have hclamp : clamp (lit 0) (lit 1) (Ext.nan : Ext ℝ) = Ext.nan := by
    rw [clamp, if_neg (not_nan_lt _), if_neg (not_lt_nan _)]
  change (interpolate first second Ext.nan).latDeg = Ext.nan
  rw [interpolate, if_neg hapart, hshare, hclamp]
  change first.2.latDeg + Ext.nan * (second.2.latDeg - first.2.latDeg) = Ext.nan
  rw [nan_mul, add_nan]

/-- The search finds samples of the aircraft. -/
theorem bracket_mem (first : Ext ℝ × Geodetic (Ext ℝ)) (rest : List (Ext ℝ × Geodetic (Ext ℝ)))
    (tS : Ext ℝ) : (bracket first rest tS).1 ∈ first :: rest ∧
      (bracket first rest tS).2 ∈ first :: rest := by
  by_cases hle : first.1 ≤ tS
  · rcases split_at first rest tS hle with ⟨before, p, after, hsplit, hbefore, hp, hafter⟩
    rw [bracket_append first rest before after p tS hsplit hbefore hp hafter, hsplit]
    cases after with
    | nil => exact ⟨by simp, by simp⟩
    | cons q after => exact ⟨by simp, by simp⟩
  · rw [bracket_before first rest tS hle]
    cases rest with
    | nil => exact ⟨List.mem_cons_self, List.mem_cons_self⟩
    | cons q rest => exact ⟨List.mem_cons_self, List.mem_cons_of_mem _ List.mem_cons_self⟩

/-- On the globe a row has a place in the truth if and only if its time is a number,
    or the truth returns its first sample. -/
theorem placed_iff (truth : TruthIndex (Ext ℝ)) (wallT0 : Ext ℝ) (r : CsvRow (Ext ℝ))
    (hglobe : ∀ pts, truth.byIcao r.icao = some pts → ∀ p ∈ pts, OnGlobe p) (l : ℝ)
    (hrow : Ext.Val r.lon l ∧ |l| ≤ 180) : Placed truth wallT0 r ↔ ¬ Untimed truth wallT0 r := by
  constructor
  · intro hplaced huntimed
    rcases posAt_untimed truth wallT0 r huntimed with ⟨tp, hpos, hnan⟩
    have hfin := (hplaced tp hpos).1
    rw [hnan] at hfin
    exact Bool.false_ne_true hfin
  · intro htimed tp hpos
    rcases posAt_some truth r.icao _ tp hpos with ⟨first, rest, hpts, _, _, rfl⟩
    have hmem := bracket_mem first rest (r.tWall - wallT0)
    have hnan : r.tWall - wallT0 = Ext.nan → rest ≠ [] →
        F64.abs ((bracket first rest (r.tWall - wallT0)).2.1 -
          (bracket first rest (r.tWall - wallT0)).1.1) < lit (1 / 1000000000) := by
      intro htime hrest
      cases rest with
      | nil => exact absurd rfl hrest
      | cons second rest =>
          by_contra hapart
          rw [htime, bracket_before first (second :: rest) Ext.nan (not_le_nan _)] at hapart
          exact htimed ⟨htime, first, second, rest, hpts, hapart⟩
    generalize hp : (bracket first rest (r.tWall - wallT0)).1 = p at hmem hnan ⊢
    generalize hq : (bracket first rest (r.tWall - wallT0)).2 = q at hmem hnan ⊢
    rcases hglobe _ hpts p hmem.1 with ⟨t, a, b, ht, htb, ha, hab, hb, hbb⟩
    rcases hglobe _ hpts q hmem.2 with ⟨t', a', b', ht', htb', ha', hab', hb', hbb'⟩
    unfold interpolate
    split_ifs with hclose
    · have hsub := abs_sub b l
      refine ⟨ha.isFinite, (Ext.Val.sub hb hrow.1 (le_maxFinite _ ?_)).isFinite⟩
      linarith [hrow.2]
    · -- The samples are at different times, so the share is a number.
      have hdiff : Ext.Val (q.1 - p.1) (t' - t) := by
        refine Ext.Val.sub ht' ht (le_maxFinite _ ?_)
        have hsub := abs_sub t' t
        push_cast at htb htb'
        linarith
      have hne : t' - t ≠ 0 := by
        intro hzero
        rw [hzero] at hdiff
        rcases hdiff with ⟨hz, hdiff⟩
        refine hclose ?_
        rw [hdiff]
        have hsmall := val_small (1 / 1000000000) (by norm_num)
        have habs : Ext.Val (F64.abs (Ext.fin (0 : ℝ) hz)) |0| := Ext.val_ofExact _ (by
          rw [abs_zero, abs_zero]
          exact Ext.maxFinite_nonneg)
        rw [habs.lt_iff hsmall, abs_zero]
        norm_num
      have htime : r.tWall - wallT0 ≠ Ext.nan := by
        intro htime
        refine hclose (hnan htime ?_)
        rintro rfl
        rw [htime, bracket_before first [] Ext.nan (not_le_nan _)] at hp hq
        have hsame : q = p := hq.symm.trans hp
        rw [hsame] at ht'
        exact hne (sub_eq_zero.mpr (Ext.Val.inj ht' ht))
      rcases clamp_share _ (share_ne_nan _ _ _ t (t' - t) htime ht hdiff hne) with ⟨f, hf⟩
      exact blend_finite p.2 q.2 _ r.lon a a' b b' f l ⟨ha, hab⟩ ⟨ha', hab'⟩ ⟨hb, hbb⟩
        ⟨hb', hbb'⟩ hf hrow

end Globe

/-- An aircraft at one place for two seconds. -/
noncomputable def twoSeconds : List (TruthPoint (Ext ℝ)) :=
  [⟨0, ⟨0x3944F1⟩, ⟨lit 0, lit 0, lit 0⟩⟩, ⟨1000000000, ⟨0x3944F1⟩, ⟨lit 0, lit 0, lit 0⟩⟩]

/-- A result for it, at a time. -/
noncomputable def resultAt (t : Ext ℝ) : CsvRow (Ext ℝ) :=
  ⟨t, ⟨0x3944F1⟩, lit 0, lit 0, none, none⟩

theorem twoSeconds_samples : ∃ p q,
    (TruthIndex.build twoSeconds).byIcao ⟨0x3944F1⟩ = some [p, q] ∧ Ext.Val p.1 0 ∧
      Ext.Val q.1 1 ∧ p.2 = ⟨lit 0, lit 0, lit 0⟩ ∧ q.2 = ⟨lit 0, lit 0, lit 0⟩ := by
  have hsec := val_small 1000000000 (by norm_num)
  have hfirst : Ext.Val (lit (0 : Nat) / lit 1000000000 : Ext ℝ) 0 := by
    have h := Ext.Val.div (val_small (0 : Nat) (by norm_num)) hsec (by norm_num)
      (le_maxFinite _ (by norm_num))
    rwa [Nat.cast_zero, Rat.cast_zero, zero_div] at h
  have hsecond : Ext.Val (lit (1000000000 : Nat) / lit 1000000000 : Ext ℝ) 1 := by
    have h := Ext.Val.div (val_small (1000000000 : Nat) (by norm_num)) hsec (by norm_num)
      (le_maxFinite _ (by norm_num))
    norm_num at h
    exact_mod_cast h
  have horder : totalLe (lit (0 : Nat) / lit 1000000000 : Ext ℝ)
      (lit (1000000000 : Nat) / lit 1000000000) = true := by
    rcases hfirst with ⟨_, hfirst⟩
    rcases hsecond with ⟨_, hsecond⟩
    rw [hfirst, hsecond]
    exact decide_eq_true zero_le_one
  refine ⟨(lit (0 : Nat) / lit 1000000000, ⟨lit 0, lit 0, lit 0⟩),
    (lit (1000000000 : Nat) / lit 1000000000, ⟨lit 0, lit 0, lit 0⟩), ?_, hfirst, hsecond, rfl, rfl⟩
  refine congrArg some ?_
  exact List.orderedInsert_cons_of_le (fun a b => totalLe a.1 b.1 = true)
    (a := (lit (0 : Nat) / lit 1000000000, (⟨lit 0, lit 0, lit 0⟩ : Geodetic (Ext ℝ))))
    (b := (lit (1000000000 : Nat) / lit 1000000000, ⟨lit 0, lit 0, lit 0⟩)) [] horder

/-- The samples are on the globe, at different times. -/
theorem twoSeconds_globe (p q : Ext ℝ × Geodetic (Ext ℝ)) (hp : Ext.Val p.1 0)
    (hq : Ext.Val q.1 1) (hpp : p.2 = ⟨lit 0, lit 0, lit 0⟩) (hqp : q.2 = ⟨lit 0, lit 0, lit 0⟩) :
    (∀ x ∈ [p, q], OnGlobe x) ∧ ¬ F64.abs (q.1 - p.1) < lit (1 / 1000000000) := by
  have hzero : Ext.Val (lit 0 : Ext ℝ) 0 := by
    have h := val_small 0 (by norm_num)
    rwa [Rat.cast_zero] at h
  have hglobe : ∀ (x : Ext ℝ × Geodetic (Ext ℝ)) (t : ℝ), Ext.Val x.1 t →
      |t| ≤ ((2 ^ 62 : ℤ) : ℝ) →
      x.2 = ⟨lit 0, lit 0, lit 0⟩ → OnGlobe x := by
    intro x t hx ht hpos
    refine ⟨t, 0, 0, hx, ht, ?_⟩
    rw [hpos]
    exact ⟨hzero, by norm_num, hzero, by norm_num⟩
  constructor
  · intro x hx
    rcases List.mem_cons.mp hx with rfl | hx
    · exact hglobe x 0 hp (by norm_num) hpp
    · rw [List.mem_singleton.mp hx]
      exact hglobe q 1 hq (by norm_num) hqp
  · rcases Ext.Val.sub hq hp (le_maxFinite _ (by norm_num)) with ⟨hd, hdiff⟩
    have habs : Ext.Val (F64.abs (q.1 - p.1)) |1 - 0| := by
      rw [hdiff]
      exact Ext.val_ofExact _ (le_maxFinite _ (by norm_num))
    rw [habs.lt_iff (val_small (1 / 1000000000) (by norm_num))]
    norm_num

theorem score_fair_second :
    Fair (TruthIndex.build twoSeconds) [resultAt (lit 1)] (lit 0) [⟨1, ⟨0x3944F1⟩, 4⟩]
      {⟨0x3944F1⟩} ∅ []
      (score (TruthIndex.build twoSeconds) [resultAt (lit 1)] (lit 0) [⟨1, ⟨0x3944F1⟩, 4⟩]
        {⟨0x3944F1⟩} ∅ []) := by
  have hzero : Ext.Val (lit 0 : Ext ℝ) 0 := by
    have h := val_small 0 (by norm_num)
    rwa [Rat.cast_zero] at h
  rcases twoSeconds_samples with ⟨p, q, hpts, hp, hq, hpp, hqp⟩
  refine (score_fair_iff _ _ _ _ _ _ _ (by decide)).mpr fun _ r hr => ?_
  rw [List.mem_singleton] at hr
  subst hr
  refine (placed_iff _ _ _ (fun pts h => ?_) 0 ⟨hzero, by norm_num⟩).mpr ?_
  · rw [← Option.some.inj (hpts.symm.trans h)]
    exact (twoSeconds_globe p q hp hq hpp hqp).1
  · rintro ⟨htime, _⟩
    have hval := Ext.Val.sub (val_small 1 (by norm_num)) hzero (le_maxFinite _ (by norm_num))
    have hfin := hval.isFinite
    have htime' : (lit 1 - lit 0 : Ext ℝ) = Ext.nan := htime
    rw [htime'] at hfin
    exact Bool.false_ne_true hfin

/-- A result whose time is no number is matched, and its error is no number. -/
theorem matched_without_time :
    (∀ r ∈ [resultAt Ext.nan], isFinite r.lat = true ∧ isFinite r.lon = true) ∧
      ¬ Fair (TruthIndex.build twoSeconds) [resultAt Ext.nan] (lit 0) [⟨1, ⟨0x3944F1⟩, 4⟩]
        {⟨0x3944F1⟩} ∅ []
        (score (TruthIndex.build twoSeconds) [resultAt Ext.nan] (lit 0) [⟨1, ⟨0x3944F1⟩, 4⟩]
          {⟨0x3944F1⟩} ∅ []) := by
  have hfinite : ∀ r ∈ [resultAt Ext.nan], isFinite r.lat = true ∧ isFinite r.lon = true := by
    intro r hr
    rw [List.mem_singleton] at hr
    subst hr
    have hzero := (val_small 0 (by norm_num)).isFinite
    exact ⟨hzero, hzero⟩
  refine ⟨hfinite, fun hfair => ?_⟩
  rcases twoSeconds_samples with ⟨p, q, hpts, hp, hq, hpp, hqp⟩
  have huntimed : Untimed (TruthIndex.build twoSeconds) (lit 0) (resultAt Ext.nan) :=
    ⟨nan_add _, p, q, [], hpts, (twoSeconds_globe p q hp hq hpp hqp).2⟩
  rcases posAt_untimed _ _ _ huntimed with ⟨tp, hpos, hnan⟩
  have hplaced := placed_of_ordered _ _ _ _ _ _ _ hfair hfinite _ (List.mem_singleton_self _)
  have hfin := (hplaced tp hpos).1
  rw [hnan] at hfin
  exact Bool.false_ne_true hfin

end Metrics

end MlatBench
