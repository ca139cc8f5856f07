import Mathlib.Tactic.Linarith
import Mathlib.Tactic.NormNum
import MlatBench.Library.Runs
import MlatBench.Theory.Stamps

/-!
# Counters Move Forward

The readings of a clock that wraps, in exact arithmetic: the counts should stay
below the wrap and each should be ahead of the last by less than half the range.

A count is held above the last one, except when the last one was in the last
second before the wrap, where a smaller count is taken for the counter having
wrapped. Jitter makes it smaller too. So in that second the counter can step
back, at its last count the one put above leaves the range, and a reading that
jitter throws back over the wrap is shown as it is. Apart from these three
every step moves forward.

## Main definitions

* `ClockModel.counts`: What a clock shows for some readings.
* `Forward`: A count is ahead of the last one by less than half the range.
* `ClockModel.Steady`: The phase moves on by less than a quarter of the range,
  and jitter is shorter than a second.
* `Follows`: None of the three happens.

## Theorems

* `ClockModel.rawCount_reading`: The count before it is held is the phase,
  rounded and reduced.
* `ClockModel.hold_forward_iff`: When one count moves forward.
* `ClockModel.counts_forward_iff`: When all counts do.
-/

namespace MlatBench

namespace Sim

open Library F64 F64Fn F64Ln

variable {K R : Type} [Field K] [LinearOrder K] [IsStrictOrderedRing K] [FloorRing K] [FnsLn K]

/-- Arithmetic is exact. -/
local instance (priority := low) exactForward : F64Ln K := F64.exactLn K

/-- The counter of a clock does not jump. -/
def NoJumps : ClockSpec K → Prop
  | .dump1090 _ _ _ _ _ jumpProbPerMin => jumpProbPerMin ≤ 0
  | .radarcapeGps _ => True

/-- A count is ahead of the last one by less than half the range. -/
def Forward (prev count : Nat) : Prop :=
  0 < ((count : Int) - prev) % 2 ^ 48 ∧ ((count : Int) - prev) % 2 ^ 48 < 2 ^ 47

/-- A count before it is held, and the last count shown: the counter does not
    stand at its last count, it does not fall back in the last second before the
    wrap, and it is not thrown back over the wrap. -/
def Follows (prev : Nat) (m : Int) : Prop :=
  ¬ (prev = 2 ^ 48 - 1 ∧ m = prev) ∧
    ¬ (2 ^ 48 - 12000000 < prev ∧ m < prev ∧ prev ≤ m + 2 ^ 47) ∧
    ¬ (2 ^ 48 - 24000000 ≤ m ∧ prev + 2 ^ 47 ≤ m)

namespace ClockModel

/-- The clock of a receiver, with a stream for its walk or without. -/
def armed (spec : ClockSpec K) (hostile : Option R) : ClockModel K R :=
  { (ClockModel.new spec : ClockModel K R) with hostileRng := hostile }

/-- The clock after a reading, at a time and with a stream for the jitter. -/
def read (rand : Rand K R) (c : ClockModel K R) (x : K × R) : ClockModel K R :=
  (c.countAt rand x.1 x.2).1

/-- What a clock shows for some readings. -/
def counts (rand : Rand K R) : ClockModel K R → List (K × R) → List Nat
  | _, [] => []
  | c, x :: xs => (c.countAt rand x.1 x.2).2.2 :: counts rand (c.read rand x) xs

/-- The clock when a time is read. -/
def brought (rand : Rand K R) (c : ClockModel K R) (t : K) : ClockModel K R :=
  ({ c with lastT := t }.disturb rand (Max.max (t - c.lastT) ((0 : ℚ) : K))).1

/-- The phase of a clock in counts, not rounded and without jitter. -/
def ticks (c : ClockModel K R) (t : K) : K :=
  c.startCount + (t * (1 + c.offset) + ((1 / 2 : ℚ) : K) * c.driftPerS * t ^ 2 + c.wanderPhaseS) *
    ((12000000 : ℚ) : K)

/-- The count of a time and some jitter, not reduced. -/
def reading (c : ClockModel K R) (t jitter : K) : Int :=
  clampInt (-2 ^ 127) (2 ^ 127 - 1) (roundAway (c.ticks t + jitter * ((12000000 : ℚ) : K)))

/-- The jitter of a reading, in seconds. -/
def jitter (rand : Rand K R) (c : ClockModel K R) (rng : R) : K :=
  (gaussian rand rng).1 * c.jitterS

/-- The phase does not go back and moves on by less than a quarter of the range,
    and jitter is shorter than a second. -/
def Steady (rand : Rand K R) (c : ClockModel K R) (x : K × R) : Prop :=
  |c.jitter rand x.2| < 1 ∧ (c.lastCount ≠ none → c.lastT ≤ x.1 ∧
    c.ticks c.lastT ≤ (c.brought rand x.1).ticks x.1 ∧
    (c.brought rand x.1).ticks x.1 < c.ticks c.lastT + ((2 ^ 46 : ℤ) : K))

/-- The count of a reading, not yet held, follows the last count shown. -/
def Followed (rand : Rand K R) (c : ClockModel K R) (x : K × R) : Prop :=
  ∀ prev ∈ c.lastCount,
    Follows prev ((c.brought rand x.1).reading x.1 (c.jitter rand x.2) % 2 ^ 48)

instance (prev : Nat) (m : Int) : Decidable (Follows prev m) :=
  inferInstanceAs (Decidable (_ ∧ _ ∧ _))

instance (rand : Rand K R) (c : ClockModel K R) (x : K × R) : Decidable (c.Steady rand x) :=
  inferInstanceAs (Decidable (_ ∧ (_ → _ ∧ _ ∧ _)))

instance (rand : Rand K R) (c : ClockModel K R) (x : K × R) : Decidable (c.Followed rand x) :=
  inferInstanceAs (Decidable (∀ prev ∈ c.lastCount, Follows prev _))

/-- The counter wraps and does not jump. -/
structure Wrapping (c : ClockModel K R) : Prop where
  freq : c.freqHz = ((12000000 : ℚ) : K)
  wraps : c.wraps = true
  jumps : ¬ ((0 : ℚ) : K) < c.jumpProbPerS

/-- The last count shown is in range and not below the reading it was shown for. -/
def Behind (c : ClockModel K R) : Prop :=
  ∀ prev ∈ c.lastCount, prev < 2 ^ 48 ∧ ∃ j : K, |j| < 1 ∧
    c.reading c.lastT j % 2 ^ 48 ≤ prev

/-- What an armed clock without jumps keeps when a time is read. -/
structure Kept (c c' : ClockModel K R) (t : K) : Prop where
  freq : c'.freqHz = c.freqHz
  wraps : c'.wraps = c.wraps
  jumps : c'.jumpProbPerS = c.jumpProbPerS
  jitterS : c'.jitterS = c.jitterS
  lastCount : c'.lastCount = c.lastCount
  lastT : c'.lastT = t

omit [IsStrictOrderedRing K] in
/-- The walk changes the walk only. -/
theorem wander_eq (rand : Rand K R) (c : ClockModel K R) (dt : K) (h : R) :
    ∃ a p h', c.wander rand dt h = ({ c with wanderAccum := a, wanderPhaseS := p }, h') := by
  unfold wander
  split_ifs
  · exact ⟨_, _, _, rfl⟩
  · exact ⟨c.wanderAccum, c.wanderPhaseS, h, rfl⟩

omit [IsStrictOrderedRing K] in
theorem brought_kept (rand : Rand K R) (c : ClockModel K R) (t : K)
    (hjumps : ¬ ((0 : ℚ) : K) < c.jumpProbPerS) : Kept c (c.brought rand t) t := by
  unfold brought disturb
  cases c.hostileRng with
  | none => exact ⟨rfl, rfl, rfl, rfl, rfl, rfl⟩
  | some h =>
      rcases wander_eq rand { c with lastT := t, hostileRng := some h }
        (Max.max (t - c.lastT) ((0 : ℚ) : K)) h with ⟨a, p, h', hwander⟩
      -- The walk is drawn, a jump is not.
      have hstill : ∀ (d : ClockModel K R) dt h, d.jumpProbPerS = c.jumpProbPerS →
          d.jump rand dt h = (d, h, false) := fun d dt h hd => if_neg (hd ▸ hjumps)
      simp only [hwander]
      rw [hstill { c with lastT := t, hostileRng := some h, wanderAccum := a, wanderPhaseS := p }
        (Max.max (t - c.lastT) ((0 : ℚ) : K)) h' rfl]
      exact ⟨rfl, rfl, rfl, rfl, rfl, rfl⟩

theorem rawCount_reading (c : ClockModel K R) (t j : K) (hc : Wrapping c) :
    ((c.rawCount t j : Nat) : Int) = c.reading t j % 2 ^ 48 := by
  have hphase : ((c.startCount : ℚ) : K) + (t * (((1 : ℚ) : K) + c.offset) +
      ((1 / 2 : ℚ) : K) * c.driftPerS * t * t + c.wanderPhaseS + j) * c.freqHz =
      c.ticks t + j * ((12000000 : ℚ) : K) := by
    rw [hc.freq]
    unfold ticks
    push_cast
    ring
  have hraw : c.rawCount t j = ((F64.exact K).toInt (-2 ^ 127) (2 ^ 127 - 1)
      ((roundAway (c.ticks t + j * ((12000000 : ℚ) : K)) : Int) : K) % (wrap48 : Nat)).toNat := by
    rw [← hphase]
    exact if_pos hc.wraps
  rw [hraw, toInt_exact]
  unfold reading wrap48
  omega

theorem clamps_iff (c : ClockModel K R) (prev m : Nat) (hc : Wrapping c)
    (hlast : c.lastCount = some prev) :
    c.clamps m = true ↔ ¬ (2 ^ 48 - 12000000 < prev ∧ m < prev) ∧ m ≤ prev := by
  have hfreq : ((F64.exact K).toInt 0 (2 ^ 64 - 1) c.freqHz).toNat = 12000000 := by
    have hcast : c.freqHz = ((12000000 : ℤ) : K) := by rw [hc.freq]; norm_num
    rw [hcast, toInt_exact]
    rfl
  unfold clamps
  rw [hlast]
  refine Iff.trans decide_eq_true_iff (and_congr (not_congr ?_) Iff.rfl)
  rw [and_iff_right hc.wraps]
  refine and_congr ?_ Iff.rfl
  change wrap48 - ((F64.exact K).toInt 0 (2 ^ 64 - 1) c.freqHz).toNat < prev ↔ _
  rw [hfreq]
  rfl

/-- A count held above the last one moves forward if it follows it, and only
    then. -/
theorem hold_forward_iff (c : ClockModel K R) (prev m : Nat) (hc : Wrapping c)
    (hlast : c.lastCount = some prev) (hprev : prev < 2 ^ 48) (hm : m < 2 ^ 48)
    (hover : prev + 2 ^ 47 ≤ m → 2 ^ 48 - 24000000 ≤ m) :
    (c.hold m < 2 ^ 48 ∧ Forward prev (c.hold m) ↔ Follows prev m) ∧ m ≤ c.hold m := by
  have hiff := clamps_iff c prev m hc hlast
  unfold hold Forward Follows
  rw [hlast]
  by_cases hclamps : c.clamps m = true
  · rw [if_pos hclamps, Option.getD_some]
    rw [hiff] at hclamps
    omega
  · rw [if_neg hclamps]
    rw [hiff] at hclamps
    omega

/-- Steady readings differ by less than two seconds more than their phases. -/
theorem reading_steady (c c' : ClockModel K R) (t t' j j' : K) (hj : |j| < 1) (hj' : |j'| < 1)
    (hle : c.ticks t ≤ c'.ticks t') (hlt : c'.ticks t' < c.ticks t + ((2 ^ 46 : ℤ) : K)) :
    c.reading t j - 24000000 ≤ c'.reading t' j' ∧
      c'.reading t' j' ≤ c.reading t j + 2 ^ 46 + 24000000 := by
  have hfreq : ((12000000 : ℚ) : K) = 12000000 := by norm_num
  push_cast at hlt
  have hround := abs_le.mp (roundAway_near (c.ticks t + j * 12000000))
  have hround' := abs_le.mp (roundAway_near (c'.ticks t' + j' * 12000000))
  rw [abs_lt] at hj hj'
  -- Jitter is less than a second each way, and rounding less than a count.
  have hlow : ((roundAway (c.ticks t + j * 12000000) : Int) : K) <
      ((roundAway (c'.ticks t' + j' * 12000000) + 24000001 : Int) : K) := by
    push_cast
    linarith [hround.2, hround'.1]
  have hhigh : ((roundAway (c'.ticks t' + j' * 12000000) : Int) : K) <
      ((roundAway (c.ticks t + j * 12000000) + 2 ^ 46 + 24000001 : Int) : K) := by
    push_cast
    linarith [hround.1, hround'.2]
  have hlow' := Int.cast_lt.mp hlow
  have hhigh' := Int.cast_lt.mp hhigh
  unfold reading clampInt
  rw [hfreq]
  omega

/-- A reading half the range above the last count was thrown back over the wrap. -/
theorem thrown_over (prev : Nat) (r r' : Int) (hlow : r - 24000000 ≤ r')
    (hhigh : r' ≤ r + 2 ^ 46 + 24000000) (hbehind : r % 2 ^ 48 ≤ prev)
    (hover : (prev : Int) + 2 ^ 47 ≤ r' % 2 ^ 48) : 2 ^ 48 - 24000000 ≤ r' % 2 ^ 48 := by
  omega

/-- One steady reading: the count moves forward just when it follows the last
    one, and the clock goes on as it should. -/
theorem countAt_forward_iff (rand : Rand K R) (c : ClockModel K R) (x : K × R)
    (hc : Wrapping c) (hbehind : Behind c) (hsteady : Steady rand c x) :
    ((c.countAt rand x.1 x.2).2.2 < 2 ^ 48 ∧
        (∀ prev ∈ c.lastCount, Forward prev (c.countAt rand x.1 x.2).2.2) ↔
      Followed rand c x) ∧ Wrapping (c.read rand x) ∧
    ((c.countAt rand x.1 x.2).2.2 < 2 ^ 48 → Behind (c.read rand x)) ∧
    (c.read rand x).lastCount = some (c.countAt rand x.1 x.2).2.2 := by
  have hkept := brought_kept rand c x.1 hc.jumps
  have hb : Wrapping (c.brought rand x.1) :=
    ⟨hkept.freq.trans hc.freq, hkept.wraps.trans hc.wraps, hkept.jumps ▸ hc.jumps⟩
  have hraw := rawCount_reading (c.brought rand x.1) x.1 (c.jitter rand x.2) hb
  -- The count shown is the count of the reading, held.
  have hshown : (c.countAt rand x.1 x.2).2.2 =
      (c.brought rand x.1).hold ((c.brought rand x.1).rawCount x.1 (c.jitter rand x.2)) := by
    unfold jitter
    rw [← hkept.jitterS]
    rfl
  have hread : c.read rand x =
      { c.brought rand x.1 with lastCount := some (c.countAt rand x.1 x.2).2.2 } := rfl
  rw [hread]
  generalize (c.brought rand x.1).rawCount x.1 (c.jitter rand x.2) = m at hraw hshown
  generalize (c.countAt rand x.1 x.2).2.2 = n at hshown
  have hm : m < 2 ^ 48 := by omega
  unfold Followed
  rw [← hraw]
  have hstep : (n < 2 ^ 48 ∧ (∀ prev ∈ c.lastCount, Forward prev n) ↔
      ∀ prev ∈ c.lastCount, Follows prev m) ∧ m ≤ n := by
    cases hlast : c.lastCount with
    | none =>
        -- The first reading is shown as it is.
        have hfree : n = m := by
          rw [hshown]
          unfold hold clamps
          rw [hkept.lastCount, hlast]
          rfl
        rw [hfree]
        have hno : ∀ {P : Nat → Prop}, ∀ prev ∈ (none : Option Nat), P prev :=
          fun prev h => absurd h (Option.some_ne_none prev).symm
        exact ⟨⟨fun _ => hno, fun _ => ⟨hm, hno⟩⟩, le_rfl⟩
    | some prev =>
        -- The last count is not below the reading before, and readings are close.
        rcases hbehind prev hlast with ⟨hprev, j, hj, hle⟩
        rcases hsteady.2 (by rw [hlast]; exact Option.some_ne_none prev) with ⟨_, hphase, hgap⟩
        rcases reading_steady c (c.brought rand x.1) c.lastT x.1 j (c.jitter rand x.2) hj
          hsteady.1 hphase hgap with ⟨hlow, hhigh⟩
        have hover : prev + 2 ^ 47 ≤ m → 2 ^ 48 - 24000000 ≤ m := by
          intro h
          have hthrown := thrown_over prev _ _ hlow hhigh hle (by rw [← hraw]; omega)
          rw [← hraw] at hthrown
          omega
        have hheld := hold_forward_iff (c.brought rand x.1) prev m hb (hkept.lastCount.trans hlast)
          hprev hm hover
        rw [← hshown] at hheld
        simp only [Option.mem_some_iff, forall_eq']
        exact hheld
  refine ⟨hstep.1, ⟨hb.freq, hb.wraps, hb.jumps⟩, fun hn prev h => ?_, rfl⟩
  cases h
  refine ⟨hn, c.jitter rand x.2, hsteady.1, ?_⟩
  have hsame : ({ c.brought rand x.1 with lastCount := some n } : ClockModel K R).reading
      (c.brought rand x.1).lastT (c.jitter rand x.2) =
      (c.brought rand x.1).reading x.1 (c.jitter rand x.2) := by
    rw [hkept.lastT]
    rfl
  rw [hsame, ← hraw]
  exact_mod_cast hstep.2

/-- Steady readings of a counter that wraps, from any state it can be in. -/
theorem counts_forward_from (rand : Rand K R) (xs : List (K × R)) (c : ClockModel K R)
    (hc : Wrapping c) (hbehind : Behind c) (hsteady : Along (read rand) (Steady rand) c xs) :
    (∀ n ∈ counts rand c xs, n < 2 ^ 48) ∧
        List.IsChain Forward (c.lastCount.toList ++ counts rand c xs) ↔
      Along (read rand) (Followed rand) c xs := by
  induction xs generalizing c with
  | nil =>
      refine ⟨fun _ => trivial, fun _ => ⟨fun n h => absurd h List.not_mem_nil, ?_⟩⟩
      cases c.lastCount with
      | none => exact List.IsChain.nil
      | some prev => exact List.IsChain.singleton prev
  | cons x xs ih =>
      rcases countAt_forward_iff rand c x hc hbehind hsteady.1 with ⟨hiff, hc', hbehind', hlast'⟩
      -- The first link is from the last count to this one, the others start from this one.
      have hsplit : List.IsChain Forward (c.lastCount.toList ++ counts rand c (x :: xs)) ↔
          (∀ prev ∈ c.lastCount, Forward prev (c.countAt rand x.1 x.2).2.2) ∧
            List.IsChain Forward ((c.read rand x).lastCount.toList ++
              counts rand (c.read rand x) xs) := by
        rw [hlast']
        cases c.lastCount with
        | none => exact (and_iff_right fun prev h => absurd h (Option.some_ne_none prev).symm).symm
        | some prev =>
            simp only [Option.mem_some_iff, forall_eq']
            exact List.isChain_cons_cons
      rw [hsplit]
      simp only [counts, List.forall_mem_cons, Along]
      constructor
      · rintro ⟨⟨hn, hns⟩, hfirst, hrest⟩
        exact ⟨hiff.mp ⟨hn, hfirst⟩, (ih _ hc' (hbehind' hn) hsteady.2).mp ⟨hns, hrest⟩⟩
      · rintro ⟨hfirst, hrest⟩
        rcases hiff.mpr hfirst with ⟨hn, hforward⟩
        rcases (ih _ hc' (hbehind' hn) hsteady.2).mpr hrest with ⟨hns, hchain⟩
        exact ⟨⟨hn, hns⟩, hforward, hchain⟩

theorem wrapping_armed (spec : ClockSpec K) (hostile : Option R) (hwraps : spec.wraps = true)
    (hjumps : NoJumps spec) : Wrapping (armed spec hostile : ClockModel K R) := by
  cases spec with
  | dump1090 off drift jit start wander jump =>
      refine ⟨rfl, rfl, not_lt.mpr ?_⟩
      change jump / ((60 : ℚ) : K) ≤ ((0 : ℚ) : K)
      rw [Rat.cast_zero]
      exact div_nonpos_of_nonpos_of_nonneg hjumps (by norm_num)
  | radarcapeGps jit => exact absurd hwraps Bool.false_ne_true

/-- The counts of steady readings stay below the wrap and move forward just when
    every reading follows the last count. -/
theorem counts_forward_iff (rand : Rand K R) (spec : ClockSpec K) (hostile : Option R)
    (xs : List (K × R)) (hwraps : spec.wraps = true) (hjumps : NoJumps spec)
    (hsteady : Along (read rand) (Steady rand) (armed spec hostile) xs) :
    (∀ n ∈ counts rand (armed spec hostile) xs, n < 2 ^ 48) ∧
        List.IsChain Forward (counts rand (armed spec hostile) xs) ↔
      Along (read rand) (Followed rand) (armed spec hostile) xs := by
  have hlast : (armed spec hostile : ClockModel K R).lastCount = none := by cases spec <;> rfl
  have hiff := counts_forward_from rand xs (armed spec hostile)
    (wrapping_armed spec hostile hwraps hjumps)
    (fun prev h => absurd (hlast ▸ h) (Option.some_ne_none prev).symm) hsteady
  rw [hlast] at hiff
  exact hiff

/-- A counter half a second before the wrap. -/
def nearWrap (jitterNs : ℚ) : ClockSpec ℚ := .dump1090 0 0 jitterNs (2 ^ 48 - 6000000) 0 0

/-- Without jitter the counter wraps and moves forward. -/
theorem counts_forward_wrap :
    (∀ n ∈ counts seeded (armed (nearWrap 0) none) [(1 / 4, []), (1, [])], n < 2 ^ 48) ∧
      List.IsChain Forward (counts seeded (armed (nearWrap 0) none) [(1 / 4, []), (1, [])]) :=
  (counts_forward_iff seeded (nearWrap 0) none [(1 / 4, []), (1, [])] rfl le_rfl
    (by decide +kernel)).mpr (by decide +kernel)

/-- With jitter of half a microsecond the counter steps back before the wrap:
    the first reading is a little late, the second is not. -/
theorem counter_steps_back :
    Along (read seeded) (Steady seeded) (armed (nearWrap 500) none)
        [(1 / 4, [2 ^ 48, 0]), (1 / 4 + 1 / 2000000, [2 ^ 51, 2 ^ 50])] ∧
      ¬ ((∀ n ∈ counts seeded (armed (nearWrap 500) none)
          [(1 / 4, [2 ^ 48, 0]), (1 / 4 + 1 / 2000000, [2 ^ 51, 2 ^ 50])], n < 2 ^ 48) ∧
        List.IsChain Forward (counts seeded (armed (nearWrap 500) none)
          [(1 / 4, [2 ^ 48, 0]), (1 / 4 + 1 / 2000000, [2 ^ 51, 2 ^ 50])])) := by
  have hcounts : counts seeded (armed (nearWrap 500) none)
      [(1 / 4, [2 ^ 48, 0]), (1 / 4 + 1 / 2000000, [2 ^ 51, 2 ^ 50])] =
      [281474973710669, 281474973710662] := by decide +kernel
  refine ⟨by decide +kernel, fun h => ?_⟩
  rw [hcounts] at h
  have hforward := (List.isChain_cons_cons.mp h.2).1
  unfold Forward at hforward
  omega

end ClockModel

end Sim

end MlatBench
