import Mathlib.Algebra.BigOperators.Group.List.Lemmas
import Mathlib.Algebra.BigOperators.Ring.Finset
import Mathlib.Data.Rat.Cast.Order
import Mathlib.Data.UInt
import MlatBench.Core.Metrics
import MlatBench.Library.Tally

/-!
# Coverage

Coverage should count aircraft-seconds: pairs of an aircraft and a second in which
it could be tracked. The scorer counts rows of the audibility list for the total
and sets of seconds for what was tracked, so a list with two rows for one
aircraft-second has a total that is too large and a ratio that is too small.

## Main definitions

* `second`: The aircraft-second of a row.
* `secondsOf`: How many an aircraft has.
* `weighted`: The average of the aircraft's ratios, weighted by their seconds.

## Theorems

* `toHex_inj`: Addresses of 24 bits are told apart by their text.
* `trackable_total`: The total counts rows.
* `seconds_total`: The seconds of the aircraft add up to all aircraft-seconds.
* `weighted_eq`: The average, as a quotient of two counts.
* `coverage_counts_seconds_iff`: When coverage counts aircraft-seconds.
* `transmissions_counted_twice`: Two rows for one second.
-/

namespace MlatBench

open Library F64 F64Fn Proto

namespace Metrics

variable {F : Type} [F64Fn F]

/-- The aircraft-second of a row. -/
def second (a : AudibilitySecond) : Icao × Nat :=
  (a.icao, a.tS)

/-- The distinct trackable seconds of the aircraft with a text. -/
def secondsOf (audibility : List AudibilitySecond) (mlatTargets : Finset Icao) (hex : String) :
    Nat :=
  (((qualifying audibility mlatTargets).filter fun a => a.icao.toHex = hex).map second).toFinset.card

/-- The average of the aircraft's ratios, weighted by their distinct seconds. -/
def weighted (perAircraft : List (String × AircraftMetrics F)) (audibility : List AudibilitySecond)
    (mlatTargets : Finset Icao) : Option ℚ :=
  let weight := secondsOf audibility mlatTargets
  let total := (perAircraft.map fun e => weight e.1).sum
  if total = 0 then none
  else some ((perAircraft.map fun e => e.2.coverageRatio.getD 0 * (weight e.1 : ℚ)).sum / total)

/-- Addresses of 24 bits are told apart by their text. -/
theorem toHex_inj (i j : Icao) (hi : i.val ≤ 0xFFFFFF) (hj : j.val ≤ 0xFFFFFF)
    (h : i.toHex = j.toHex) : i = j := by
  have hmask : ∀ v : UInt32, v ≤ 0xFFFFFF → v &&& 0xFFFFFF = v := by
    intro v hv
    rw [UInt32.le_iff_toNat_le] at hv
    rw [← UInt32.toNat_inj, UInt32.toNat_and]
    have hones : (0xFFFFFF : UInt32).toNat = 2 ^ 24 - 1 := rfl
    rw [hones] at hv ⊢
    rw [Nat.and_two_pow_sub_one_eq_mod, Nat.mod_eq_of_lt (by omega)]
  have hval := hex06_injective h
  rw [hmask i.val hi, hmask j.val hj] at hval
  cases i
  cases j
  exact congrArg Icao.mk hval

section

variable (audibility : List AudibilitySecond) (mlatTargets : Finset Icao)

/-- The total counts rows. -/
theorem trackable_total :
    ((trackableIcaos audibility mlatTargets).map fun icao =>
        (trackable audibility mlatTargets icao).length).sum =
      (qualifying audibility mlatTargets).length := by
  simp only [trackableIcaos, trackable, List.length_map]
  exact sum_length_byKey _ AudibilitySecond.icao

/-- The seconds of the aircraft add up to all aircraft-seconds. -/
theorem seconds_total :
    ((trackableIcaos audibility mlatTargets).map fun icao =>
        (trackable audibility mlatTargets icao).toFinset.card).sum =
      ((qualifying audibility mlatTargets).map second).toFinset.card :=
  sum_card_byKey _ AudibilitySecond.icao AudibilitySecond.tS

theorem qualifying_target (a : AudibilitySecond) (ha : a ∈ qualifying audibility mlatTargets) :
    a.icao ∈ mlatTargets := by
  rw [qualifying, List.mem_filter, decide_eq_true_eq] at ha
  exact ha.2.2

theorem mem_trackableIcaos (icao : Icao) :
    icao ∈ trackableIcaos audibility mlatTargets ↔
      ∃ a ∈ qualifying audibility mlatTargets, a.icao = icao := by
  rw [trackableIcaos, List.mem_dedup, List.mem_map]

variable (h24 : ∀ icao ∈ mlatTargets, icao.val ≤ 0xFFFFFF)

include h24

/-- The seconds by text are the seconds by address. -/
theorem secondsOf_toHex (icao : Icao) (hicao : icao ∈ trackableIcaos audibility mlatTargets) :
    secondsOf audibility mlatTargets icao.toHex =
      (trackable audibility mlatTargets icao).toFinset.card := by
  rcases (mem_trackableIcaos audibility mlatTargets icao).mp hicao with ⟨b, hb, rfl⟩
  have hsame : ∀ a ∈ qualifying audibility mlatTargets,
      (decide (a.icao.toHex = b.icao.toHex) = decide (a.icao = b.icao)) := by
    intro a ha
    rw [decide_eq_decide]
    refine ⟨toHex_inj a.icao b.icao ?_ ?_, fun heq => by rw [heq]⟩
    · exact h24 _ (qualifying_target audibility mlatTargets a ha)
    · exact h24 _ (qualifying_target audibility mlatTargets b hb)
  -- With the address fixed, an aircraft-second is its second.
  have himage : (((qualifying audibility mlatTargets).filter fun a => a.icao = b.icao).map
      second).toFinset = (trackable audibility mlatTargets b.icao).toFinset.image
        fun t => (b.icao, t) := by
    ext ⟨i, t⟩
    simp only [trackable, List.mem_toFinset, List.mem_map, List.mem_filter, decide_eq_true_eq,
      Finset.mem_image, second, Prod.mk.injEq]
    constructor
    · rintro ⟨a, ⟨ha, hai⟩, hi, ht⟩
      exact ⟨t, ⟨a, ⟨ha, hai⟩, ht⟩, hai.symm.trans hi, rfl⟩
    · rintro ⟨u, ⟨a, ⟨ha, hai⟩, hu⟩, hi, ht⟩
      exact ⟨a, ⟨ha, hai⟩, hai.trans hi, hu.trans ht⟩
  rw [secondsOf, List.filter_congr hsame, himage,
    Finset.card_image_of_injective _ fun t u heq => (Prod.mk.inj heq).2]

/-- The entries of the aircraft have different keys. -/
theorem entries_apart {α : Type} (f : Icao → α) :
    ((trackableIcaos audibility mlatTargets).map fun icao =>
      (icao.toHex, f icao)).Pairwise fun x y => x.1 ≠ y.1 := by
  rw [List.pairwise_map]
  refine List.Pairwise.imp_of_mem ?_ (List.nodup_dedup _)
  intro i j hi hj hne heq
  rcases (mem_trackableIcaos audibility mlatTargets i).mp hi with ⟨a, ha, rfl⟩
  rcases (mem_trackableIcaos audibility mlatTargets j).mp hj with ⟨b, hb, rfl⟩
  refine hne (toHex_inj _ _ ?_ ?_ heq)
  · exact h24 _ (qualifying_target audibility mlatTargets a ha)
  · exact h24 _ (qualifying_target audibility mlatTargets b hb)

/-- The map has one entry for each aircraft. -/
theorem mapOf_perm {α : Type} (f : Icao → α) :
    (mapOf ((trackableIcaos audibility mlatTargets).map fun icao => (icao.toHex, f icao))).Perm
      ((trackableIcaos audibility mlatTargets).map fun icao => (icao.toHex, f icao)) := by
  rw [mapOf, List.pwFilter_eq_self.mpr (entries_apart audibility mlatTargets h24 f)]
  exact List.perm_insertionSort _ _

/-- A sum over the map is a sum over the aircraft. -/
theorem sum_mapOf {α M : Type} [AddCommMonoid M] (f : Icao → α) (g : String × α → M) :
    ((mapOf ((trackableIcaos audibility mlatTargets).map fun icao =>
        (icao.toHex, f icao))).map g).sum =
      ((trackableIcaos audibility mlatTargets).map fun icao => g (icao.toHex, f icao)).sum := by
  rw [((mapOf_perm audibility mlatTargets h24 f).map g).sum_eq, List.map_map]
  rfl

end

/-- An aircraft's ratio times its seconds is what was tracked. -/
theorem ratio_mul_seconds (results : List (F × F)) (secs : List Nat) :
    (aircraftMetrics results secs).coverageRatio.getD 0 * (secs.toFinset.card : ℚ) =
      both results secs := by
  simp only [aircraftMetrics]
  by_cases hnone : secs.toFinset = ∅
  · rw [if_pos hnone, both, hnone, Finset.inter_empty, Finset.card_empty, Nat.cast_zero, mul_zero]
  · rw [if_neg hnone]
    refine div_mul_cancel₀ _ ?_
    rw [Nat.cast_ne_zero]
    exact Finset.card_ne_zero.mpr (Finset.nonempty_iff_ne_empty.mpr hnone)

section

variable (results : Icao → List (F × F)) (audibility : List AudibilitySecond)
  (mlatTargets : Finset Icao) (h24 : ∀ icao ∈ mlatTargets, icao.val ≤ 0xFFFFFF)

include h24

/-- The average is what was tracked over the distinct aircraft-seconds. -/
theorem weighted_eq :
    weighted (mapOf ((trackableIcaos audibility mlatTargets).map fun icao =>
        (icao.toHex, aircraftMetrics (results icao) (trackable audibility mlatTargets icao))))
        audibility mlatTargets =
      let distinct := ((qualifying audibility mlatTargets).map second).toFinset.card
      if distinct = 0 then none
      else some (((coverage results audibility mlatTargets).trackedAircraftSeconds : ℚ) /
        distinct) := by
  have hseconds : ∀ icao ∈ trackableIcaos audibility mlatTargets,
      secondsOf audibility mlatTargets icao.toHex =
        (trackable audibility mlatTargets icao).toFinset.card := fun icao hicao =>
    secondsOf_toHex audibility mlatTargets h24 icao hicao
  have htotal : ((mapOf ((trackableIcaos audibility mlatTargets).map fun icao => (icao.toHex,
      aircraftMetrics (results icao) (trackable audibility mlatTargets icao)))).map fun e =>
        secondsOf audibility mlatTargets e.1).sum =
      ((qualifying audibility mlatTargets).map second).toFinset.card := by
    rw [sum_mapOf audibility mlatTargets h24, List.map_congr_left hseconds]
    exact seconds_total audibility mlatTargets
  have htracked : ((mapOf ((trackableIcaos audibility mlatTargets).map fun icao => (icao.toHex,
      aircraftMetrics (results icao) (trackable audibility mlatTargets icao)))).map fun e =>
        e.2.coverageRatio.getD 0 * (secondsOf audibility mlatTargets e.1 : ℚ)).sum =
      (coverage results audibility mlatTargets).trackedAircraftSeconds := by
    rw [sum_mapOf audibility mlatTargets h24]
    have hterm : ∀ icao ∈ trackableIcaos audibility mlatTargets,
        (aircraftMetrics (results icao)
          (trackable audibility mlatTargets icao)).coverageRatio.getD 0 *
            (secondsOf audibility mlatTargets icao.toHex : ℚ) =
          ((both (results icao) (trackable audibility mlatTargets icao) : Nat) : ℚ) := by
      intro icao hicao
      rw [hseconds icao hicao]
      exact ratio_mul_seconds _ _
    rw [List.map_congr_left hterm, coverage, Nat.cast_list_sum, List.map_map]
    rfl
  simp only [weighted, htotal, htracked]

end

/-- Coverage counts aircraft-seconds if and only if no aircraft-second has two
    rows that count. -/
theorem coverage_counts_seconds_iff (truth : TruthIndex F) (rows : List (CsvRow F)) (wallT0 : F)
    (audibility : List AudibilitySecond) (mlatTargets knownUntruthed : Finset Icao)
    (resources : List (ResourceSample F)) (h24 : ∀ icao ∈ mlatTargets, icao.val ≤ 0xFFFFFF) :
    let report := score truth rows wallT0 audibility mlatTargets knownUntruthed resources
    (report.coverage.trackableAircraftSeconds =
        ((qualifying audibility mlatTargets).map second).toFinset.card ∧
      report.coverage.ratio = weighted report.perAircraft audibility mlatTargets) ↔
      ((qualifying audibility mlatTargets).map second).Nodup := by
  intro report
  have htotal : report.coverage.trackableAircraftSeconds =
      (qualifying audibility mlatTargets).length := trackable_total audibility mlatTargets
  have hweighted := weighted_eq (fun icao : Icao =>
    resultsOf (matches_ truth wallT0 knownUntruthed rows) icao.toHex) audibility mlatTargets h24
  constructor
  · rintro ⟨hcount, _⟩
    rw [htotal, ← List.length_map second] at hcount
    exact Multiset.toFinset_card_eq_card_iff_nodup.mp hcount.symm
  · intro hnodup
    have hcard : ((qualifying audibility mlatTargets).map second).toFinset.card =
        (qualifying audibility mlatTargets).length := by
      rw [List.toFinset_card_of_nodup hnodup, List.length_map]
    refine ⟨by rw [htotal, hcard], ?_⟩
    refine Eq.trans ?_ hweighted.symm
    have hratio : report.coverage.ratio =
        if 0 < report.coverage.trackableAircraftSeconds then
          some ((report.coverage.trackedAircraftSeconds : ℚ) /
            report.coverage.trackableAircraftSeconds) else none := rfl
    rw [hratio, htotal, hcard]
    by_cases hzero : (qualifying audibility mlatTargets).length = 0
    · rw [if_neg (by omega), if_pos hzero]
    · rw [if_pos (by omega), if_neg hzero]
      rfl

/-- An aircraft heard by four receivers, one row a second. -/
def oncePerSecond : List AudibilitySecond :=
  [⟨7, ⟨0x3944F1⟩, 4⟩, ⟨8, ⟨0x3944F1⟩, 5⟩]

theorem coverage_counts_seconds_once :
    let report := score (TruthIndex.build []) ([] : List (CsvRow ℚ)) 0 oncePerSecond
      {⟨0x3944F1⟩} ∅ []
    report.coverage.trackableAircraftSeconds = 2 ∧
      report.coverage.ratio = weighted report.perAircraft oncePerSecond {⟨0x3944F1⟩} := by
  have h := (coverage_counts_seconds_iff (TruthIndex.build []) ([] : List (CsvRow ℚ)) 0
    oncePerSecond {⟨0x3944F1⟩} ∅ [] (by decide)).mpr (by decide)
  exact ⟨h.1, h.2⟩

/-- Two transmissions of one aircraft in one second, as an import has them. -/
def twicePerSecond : List AudibilitySecond :=
  [⟨7, ⟨0x3944F1⟩, 4⟩, ⟨7, ⟨0x3944F1⟩, 4⟩]

/-- The second counts twice. The aircraft has a result in it, so its own ratio is
    one, and the overall ratio is one half. -/
theorem transmissions_counted_twice :
    let report := score (TruthIndex.build [⟨7000000000, ⟨0x3944F1⟩, ⟨0, 0, 0⟩⟩])
      [⟨1007, ⟨0x3944F1⟩, 0, 0, none, none⟩] (1000 : ℚ) twicePerSecond {⟨0x3944F1⟩} ∅ []
    report.coverage = ⟨2, 1, some (1 / 2)⟩ ∧
      weighted report.perAircraft twicePerSecond {⟨0x3944F1⟩} = some 1 ∧
      ¬ (report.coverage.trackableAircraftSeconds =
          ((qualifying twicePerSecond {⟨0x3944F1⟩}).map second).toFinset.card ∧
        report.coverage.ratio = weighted report.perAircraft twicePerSecond {⟨0x3944F1⟩}) := by
  decide +kernel

end Metrics

end MlatBench
