import MlatBench.Theory.Frames
import Mathlib.Order.Bounds.Basic

/-!
# Altitude Fields Round Down

An altitude inside the range is encoded as the step below it. The division cuts
towards zero, so the step below the lowest one is encoded, too, and as the lowest
one; and the sum before it leaves 32 bits at their upper end.

## Main definitions

* `RoundsDown`: What a field does with an altitude.

## Theorems

* `altStep_floor`, `altStep_isSome`: The steps of all altitudes.
* `roundsDown_iff`: Where both fields round down.
* `below_lowest`: The altitudes where they do not.
-/

namespace MlatBench

namespace Modes

/-- An altitude is encoded without overflow, exactly inside the range, and as the
    greatest multiple of 25 ft that is not above it. -/
def RoundsDown (encode : Int → Option UInt16) (decode : UInt16 → Option Int) (altFt : Int) : Prop :=
  wrap32 (altFt + 1000) = altFt + 1000 ∧
    ((encode altFt).isSome = true ↔ -1000 ≤ altFt ∧ altFt < 50200) ∧
    ∀ field, encode altFt = some field →
      ∃ m, decode field = some m ∧ IsGreatest {m : Int | 25 ∣ m ∧ m ≤ altFt} m

theorem wrap32_of_mem (n : Int) (hlo : -2 ^ 31 ≤ n) (hhi : n < 2 ^ 31) : wrap32 n = n := by
  unfold wrap32
  exact Int.bmod_eq_of_le (by omega) (by omega)

/-- Only the last thousand feet of 32 bits overflow. -/
theorem wrap32_add (altFt : Int) (hlo : -2 ^ 31 ≤ altFt) (hhi : altFt < 2 ^ 31) :
    wrap32 (altFt + 1000) = altFt + 1000 ↔ altFt + 1000 < 2 ^ 31 := by
  constructor
  · intro h
    have hlt : wrap32 (altFt + 1000) < 2 ^ 31 := by
      unfold wrap32
      exact Int.bmod_lt (by decide)
    rwa [h] at hlt
  · exact fun h => wrap32_of_mem _ (by omega) h

/-- Inside the range an altitude has the step of the multiple below it. -/
theorem altStep_floor (altFt : Int) (hlo : -1000 ≤ altFt) (hhi : altFt < 50200) :
    altStep altFt = altStep (altFt - altFt % 25) := by
  unfold altStep
  rw [wrap32_of_mem _ (by omega) (by omega), wrap32_of_mem _ (by omega) (by omega),
    Int.tdiv_eq_ediv_of_nonneg (by omega), Int.tdiv_eq_ediv_of_nonneg (by omega)]
  have hstep : (altFt + 1000) / 25 = (altFt - altFt % 25 + 1000) / 25 := by omega
  rw [hstep]

/-- Less than a step below the lowest one, the sum over 25 is zero still. -/
theorem altStep_isSome (altFt : Int) (hlo : -2 ^ 31 ≤ altFt) (hhi : altFt < 2 ^ 31) :
    (altStep altFt).isSome = true ↔ -1024 ≤ altFt ∧ altFt < 50200 := by
  have hrange : (altStep altFt).isSome = true ↔
      0 ≤ (wrap32 (altFt + 1000)).tdiv 25 ∧ (wrap32 (altFt + 1000)).tdiv 25 ≤ 2047 := by
    unfold altStep
    simp only []
    split_ifs with h
    · exact ⟨fun _ => h, fun _ => rfl⟩
    · exact ⟨fun hsome => absurd hsome Bool.false_ne_true, fun h' => absurd h' h⟩
  rw [hrange]
  by_cases hsum : altFt + 1000 < 2 ^ 31
  · rw [wrap32_of_mem _ (by omega) hsum]
    rcases Int.le_total 0 (altFt + 1000) with hpos | hneg
    · rw [Int.tdiv_eq_ediv_of_nonneg hpos]
      omega
    · -- Cut towards zero, it is the opposite of the opposite's quotient.
      have hopp : (altFt + 1000).tdiv 25 = -((-(altFt + 1000)) / 25) := by
        rw [← Int.tdiv_eq_ediv_of_nonneg (by omega), Int.neg_tdiv, Int.neg_neg]
      rw [hopp]
      omega
  · -- An overflow makes the sum negative by far, so nothing is encoded.
    have hwrap : wrap32 (altFt + 1000) = altFt + 1000 - 2 ^ 32 := by
      unfold wrap32
      rw [← Int.sub_bmod_right]
      exact Int.bmod_eq_of_le (by omega) (by omega)
    have hopp : (altFt + 1000 - 2 ^ 32).tdiv 25 = -((-(altFt + 1000 - 2 ^ 32)) / 25) := by
      rw [← Int.tdiv_eq_ediv_of_nonneg (by omega), Int.neg_tdiv, Int.neg_neg]
    rw [hwrap, hopp]
    omega

/-- A field that writes the step and is read back rounds down wherever the sum does
    not overflow and is not below zero by less than a step. -/
theorem roundsDown_of_step (encode : Int → Option UInt16) (decode : UInt16 → Option Int)
    (write : UInt16 → UInt16) (hencode : ∀ altFt, encode altFt = (altStep altFt).map write)
    (hdecode : ∀ altFt, Encodable altFt → ∃ field, encode altFt = some field ∧
      decode field = some altFt)
    (altFt : Int) (hlo : -2 ^ 31 ≤ altFt) (hhi : altFt < 2 ^ 31) :
    RoundsDown encode decode altFt ↔
      ¬ (-1024 ≤ altFt ∧ altFt ≤ -1001) ∧ altFt + 1000 < 2 ^ 31 := by
  have hsome : (encode altFt).isSome = true ↔ -1024 ≤ altFt ∧ altFt < 50200 := by
    rw [hencode, Option.isSome_map, altStep_isSome altFt hlo hhi]
  unfold RoundsDown
  rw [wrap32_add altFt hlo hhi, hsome]
  constructor
  · rintro ⟨hsum, hrange, _⟩
    exact ⟨by omega, hsum⟩
  · rintro ⟨hband, hsum⟩
    -- Outside the band the two ranges are the same.
    refine ⟨hsum, by omega, fun field hfield => ?_⟩
    have hmem : -1024 ≤ altFt ∧ altFt < 50200 := hsome.mp (by rw [hfield]; rfl)
    -- The multiple below is encoded the same way, and comes back.
    rcases hdecode (altFt - altFt % 25) ⟨by omega, by omega, by omega⟩ with ⟨field', hfield', hread⟩
    rw [hencode, ← altStep_floor altFt (by omega) hmem.2, ← hencode, hfield, Option.some.injEq]
      at hfield'
    refine ⟨altFt - altFt % 25, by rw [hfield', hread], ⟨by omega, by omega⟩, ?_⟩
    rintro m ⟨⟨q, rfl⟩, hle⟩
    omega

/-- Both fields round down at an altitude if and only if it is not less than a step
    below the lowest one and a thousand feet more are in range. -/
theorem roundsDown_iff (altFt : Int) (hlo : -2 ^ 31 ≤ altFt) (hhi : altFt < 2 ^ 31) :
    RoundsDown ac12 ac12Decode altFt ∧ RoundsDown ac13 ac13Decode altFt ↔
      ¬ (-1024 ≤ altFt ∧ altFt ≤ -1001) ∧ altFt + 1000 < 2 ^ 31 := by
  have h12 := roundsDown_of_step ac12 ac12Decode _ (fun _ => rfl) (fun altFt h => by
    rcases ac12Decode_ac12 altFt h with ⟨field, hfield, _, hread⟩
    exact ⟨field, hfield, hread⟩) altFt hlo hhi
  have h13 := roundsDown_of_step ac13 ac13Decode _ (fun _ => rfl) (fun altFt h => by
    rcases ac13Decode_ac13 altFt h with ⟨field, hfield, _, hread⟩
    exact ⟨field, hfield, hread⟩) altFt hlo hhi
  rw [h12, h13, and_self]

/-- Both fields round down at 38012 ft, to 38000 ft. -/
theorem roundsDown_cruise :
    RoundsDown ac12 ac12Decode 38012 ∧ RoundsDown ac13 ac13Decode 38012 :=
  (roundsDown_iff 38012 (by decide) (by decide)).mpr ⟨by decide, by decide⟩

/-- One foot below the lowest step is encoded as that step, and the highest altitude
    overflows. -/
theorem below_lowest :
    (ac12 (-1001) = some 0x010 ∧ ¬ RoundsDown ac12 ac12Decode (-1001)) ∧
      (ac13 (-1001) = some 0x010 ∧ ¬ RoundsDown ac13 ac13Decode (-1001)) ∧
      ¬ RoundsDown ac12 ac12Decode (2 ^ 31 - 1) ∧ ¬ RoundsDown ac13 ac13Decode (2 ^ 31 - 1) := by
  have h12 : ac12 (-1001) = some 0x010 := by decide
  have h13 : ac13 (-1001) = some 0x010 := by decide
  refine ⟨⟨h12, ?_⟩, ⟨h13, ?_⟩, ?_, ?_⟩
  · rintro ⟨_, hrange, _⟩
    rw [h12] at hrange
    exact absurd (hrange.mp rfl) (by decide)
  · rintro ⟨_, hrange, _⟩
    rw [h13] at hrange
    exact absurd (hrange.mp rfl) (by decide)
  · rintro ⟨hsum, _⟩
    exact absurd hsum (by decide)
  · rintro ⟨hsum, _⟩
    exact absurd hsum (by decide)

end Modes

end MlatBench
