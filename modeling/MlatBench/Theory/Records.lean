import Mathlib.Algebra.Order.Archimedean.Basic
import Mathlib.Tactic.Linarith
import MlatBench.Core.Records
import MlatBench.Library.Ext
import MlatBench.Theory.Reception
import MlatBench.Theory.Stamps

/-!
# Framing Keeps Every Line

The records that `frame_lines` makes of lines in order of time, in exact
arithmetic. No line is lost, repeated or moved. A record is sent for a time that
none of its lines is after, and the latency and the jitter, which never takes
more than nine tenths of the latency away, put it later. Batches are of whole
seconds, each after the one before it.

The windows of a batch run up to the time of the next line, so the loop ends
after as many turns as there are seconds in between.

## Main definitions

* `sendTime`, `nanos`: When a record is sent, and that in nanoseconds.
* `BatchedAt`: A record of a second.
* `SentFor`: A record is sent for a time.
* `DecodesBack`: A decoder is inverse to the encoder.

## Theorems

* `sendTime_ge`: Records are sent after the time they are for.
* `closeWindows_spec`: Windows that close.
* `recordBatches_spec`: Batches.
* `frameLines_ends`: Framing ends.
* `frame_lines_keep`: What the records are.
-/

namespace MlatBench

namespace Sim

open Library F64 F64Fn F64Ln Server Framing

variable {K R : Type} [Field K] [LinearOrder K] [IsStrictOrderedRing K] [FloorRing K] [FnsLn K]

/-- Arithmetic is exact. -/
local instance (priority := low) exactRecords : F64Ln K := F64.exactLn K

/-- When a record for a time is sent: after the latency and some jitter. -/
def sendTime (rand : Rand K R) (latencyS jitterS t : K) (rng : R) : K × R :=
  if 0 < jitterS then
    (t + latencyS + Max.max ((gaussian rand rng).1 * jitterS) (-latencyS * ((9 / 10 : ℚ) : K)),
      (gaussian rand rng).2)
  else (t + latencyS, rng)

/-- A time in nanoseconds. -/
def nanos (x : K) : Nat :=
  (clampInt 0 (2 ^ 64 - 1) (Max.max (roundAway (x * ((10 ^ 9 : ℚ) : K))) 0)).toNat

/-- A record is sent for a time that none of its lines is after. -/
def SentFor (rand : Rand K R) (latencyS jitterS : K) (r : SendRecord K) (b : K) : Prop :=
  (∀ l ∈ r.lines, l.t ≤ b) ∧ ∃ rng, r.t = nanos (sendTime rand latencyS jitterS b rng).1

/-- A record holds lines of a second and is sent for its end. -/
def BatchedAt (rand : Rand K R) (latencyS jitterS : K) (r : SendRecord K) (k : Int) : Prop :=
  (∀ l ∈ r.lines, (k : K) - 1 ≤ l.t ∧ l.t < k) ∧
    ∃ rng, r.t = nanos (sendTime rand latencyS jitterS k rng).1

/-- A decoder is inverse to the encoder: it gives back what was encoded. -/
def DecodesBack {σ τ : Type} (z : Calls UInt8 UInt8 τ) (fuelZ : Nat) (y : Calls UInt8 UInt8 σ)
    (fuelY : Nat) : Prop :=
  ∀ chunks frames, encodeFrames z fuelZ z.start chunks = some frames →
    decodeFrames y fuelY y.start frames = chunks.map some

theorem toNanos_exact (rand : Rand K R) (latencyS jitterS t : K) (rng : R) :
    toNanos rand latencyS jitterS t rng =
      (nanos (sendTime rand latencyS jitterS t rng).1,
        (sendTime rand latencyS jitterS t rng).2) := by
  have hnanos : ∀ x : K, ((F64.exact K).toInt 0 (2 ^ 64 - 1)
      (Max.max ((roundAway (x * ((10 ^ 9 : ℚ) : K)) : Int) : K) ((0 : ℚ) : K))).toNat =
        nanos x := by
    intro x
    have hmax : Max.max ((roundAway (x * ((10 ^ 9 : ℚ) : K)) : Int) : K) ((0 : ℚ) : K) =
        ((Max.max (roundAway (x * ((10 ^ 9 : ℚ) : K))) 0 : Int) : K) := by
      rw [Rat.cast_zero, Int.cast_max, Int.cast_zero]
    rw [hmax, toInt_exact]
    rfl
  have hzero : (F64.lit 0 : K) = 0 := Rat.cast_zero
  unfold toNanos sendTime
  by_cases hj : 0 < jitterS
  · have hj' : (F64.lit 0 : K) < jitterS := hzero ▸ hj
    simp only [if_pos hj, if_pos hj']
    exact congrArg (·, (gaussian rand rng).2) (hnanos (t + latencyS +
      Max.max ((gaussian rand rng).1 * jitterS) (-latencyS * F64.lit (9 / 10))))
  · simp only [if_neg hj, hzero, add_zero]
    exact congrArg (·, rng) (hzero ▸ hnanos (t + latencyS))

theorem sendTime_ge (rand : Rand K R) (latencyS jitterS t : K) (rng : R) (hlat : 0 ≤ latencyS) :
    t ≤ (sendTime rand latencyS jitterS t rng).1 := by
  unfold sendTime
  split_ifs
  · have hmax := le_max_right ((gaussian rand rng).1 * jitterS) (-latencyS * ((9 / 10 : ℚ) : K))
    push_cast at hmax ⊢
    linarith
  · linarith

omit [IsStrictOrderedRing K] in
theorem sendTime_zero (rand : Rand K R) (latencyS t : K) (rng : R) :
    sendTime rand latencyS 0 t rng = (t + latencyS, rng) :=
  if_neg (lt_irrefl 0)

theorem nanos_mono (x y : K) (h : x ≤ y) : nanos x ≤ nanos y := by
  have hscale : x * ((10 ^ 9 : ℚ) : K) ≤ y * ((10 ^ 9 : ℚ) : K) := by
    push_cast
    linarith
  have hround := roundAway_mono _ _ hscale
  unfold nanos clampInt
  omega

omit [IsStrictOrderedRing K] in
theorem add_lit_one (k : Int) : (k : K) + F64.lit 1 = ((k + 1 : Int) : K) := by
  change (k : K) + ((1 : ℚ) : K) = _
  push_cast
  rfl

/-- The windows up to a time close. The batch goes out at the end of its own. -/
theorem closeWindows_spec (rand : Rand K R) (latencyS jitterS t : K) (fuel : Nat) (k : Int)
    (batch : List (Line K)) (rng : R) (rs : List (SendRecord K)) (w' : K) (left : List (Line K))
    (rng' : R)
    (h : closeWindows rand latencyS jitterS t fuel (k : K) batch rng = some (rs, w', left, rng')) :
    ∃ k' : Int, w' = k' ∧ t < k' ∧ k ≤ k' ∧
      (t < k → rs = [] ∧ k' = k ∧ left = batch) ∧
      ((k : K) ≤ t → (k' : K) - 1 ≤ t ∧ k < k' ∧ left = [] ∧
        ∃ rng, rs = if batch = [] then [] else
          [{ t := nanos (sendTime rand latencyS jitterS k rng).1, lines := batch }]) := by
  induction fuel generalizing k batch rng rs with
  | zero =>
      unfold closeWindows at h
      split_ifs at h with hk
      cases h
      have hlt := not_le.mp hk
      exact ⟨k, rfl, hlt, le_rfl, fun _ => ⟨rfl, rfl, rfl⟩, fun hle => absurd hle hk⟩
  | succ fuel ih =>
      unfold closeWindows at h
      rw [add_lit_one] at h
      split_ifs at h with hk hbatch
      · -- Nothing is in the window.
        rcases ih (k + 1) batch rng rs h with ⟨k', hw, hlt, hle, hopen, hclosed⟩
        refine ⟨k', hw, hlt, by omega, fun hlt' => absurd hk (not_le.mpr hlt'), fun _ => ?_⟩
        rcases lt_or_ge t ((k + 1 : Int) : K) with hnear | hfar
        · rcases hopen hnear with ⟨rfl, rfl, rfl⟩
          refine ⟨?_, by omega, hbatch, rng, (if_pos hbatch).symm⟩
          push_cast
          linarith
        · rcases hclosed hfar with ⟨hback, _, hleft, rng₁, hrs⟩
          rw [if_pos hbatch] at hrs
          exact ⟨hback, by omega, hleft, rng, hrs.trans (if_pos hbatch).symm⟩
      · -- The batch goes out, and later windows are empty.
        rw [toNanos_exact] at h
        rcases Option.map_eq_some_iff.mp h with ⟨⟨rs', w'', left', rng''⟩, hrest, heq⟩
        cases heq
        rcases ih (k + 1) [] _ rs' hrest with ⟨k', hw, hlt, hle, hopen, hclosed⟩
        refine ⟨k', hw, hlt, by omega, fun hlt' => absurd hk (not_le.mpr hlt'), fun _ => ?_⟩
        rcases lt_or_ge t ((k + 1 : Int) : K) with hnear | hfar
        · rcases hopen hnear with ⟨rfl, rfl, rfl⟩
          refine ⟨?_, by omega, rfl, rng, (if_neg hbatch).symm⟩
          push_cast
          linarith
        · rcases hclosed hfar with ⟨hback, _, hleft, rng₁, hrs⟩
          rw [if_pos rfl] at hrs
          rw [hrs]
          exact ⟨hback, by omega, hleft, rng, (if_neg hbatch).symm⟩
      · cases h
        have hlt := not_le.mp hk
        exact ⟨k, rfl, hlt, le_rfl, fun _ => ⟨rfl, rfl, rfl⟩, fun hle => absurd hle hk⟩

/-- Batches hold the lines of a second each, and are sent for its end, one after
    the other. -/
theorem recordBatches_spec (rand : Rand K R) (fuel : Nat) (latencyS jitterS : K)
    (ls : List (Line K)) (k : Int) (batch : List (Line K)) (rng : R) (rs : List (SendRecord K))
    (h : recordBatches rand fuel latencyS jitterS ls (k : K) batch rng = some rs)
    (hbatch : ∀ l ∈ batch, (k : K) - 1 ≤ l.t ∧ l.t < k) (hls : ∀ l ∈ ls, (k : K) - 1 ≤ l.t)
    (hsorted : ls.Pairwise fun a b => a.t ≤ b.t) :
    ∃ ks : List Int, List.Forall₂ (BatchedAt rand latencyS jitterS) rs ks ∧
      ks.Pairwise (· < ·) ∧ ∀ k' ∈ ks, k ≤ k' := by
  induction ls generalizing k batch rng rs with
  | nil =>
      unfold recordBatches at h
      split_ifs at h
      · cases h
        exact ⟨[], List.Forall₂.nil, List.Pairwise.nil, fun k' hk' => absurd hk' List.not_mem_nil⟩
      · cases h
        refine ⟨[k], List.Forall₂.cons ⟨hbatch, rng, ?_⟩ List.Forall₂.nil,
          List.pairwise_singleton _ k, fun k' hk' => (List.mem_singleton.mp hk').ge⟩
        exact congrArg Prod.fst (toNanos_exact rand latencyS jitterS (k : K) rng)
  | cons l ls ih =>
      rw [List.pairwise_cons] at hsorted
      unfold recordBatches at h
      split at h
      · exact absurd h (Option.some_ne_none rs).symm
      · next rs₁ w' left rng' hclose =>
          rcases Option.map_eq_some_iff.mp h with ⟨rs₂, hrest, rfl⟩
          rcases closeWindows_spec rand latencyS jitterS l.t fuel k batch rng rs₁ w' left rng'
            hclose with ⟨k', rfl, hlt, hle, hopen, hclosed⟩
          rcases lt_or_ge l.t (k : K) with hin | hout
          · -- The line is of the window that is open.
            rcases hopen hin with ⟨rfl, rfl, rfl⟩
            refine ih k' _ _ rs₂ hrest (fun m hm => ?_) (fun m hm => ?_) hsorted.2
            · rcases List.mem_append.mp hm with hm | hm
              · exact hbatch m hm
              · rw [List.mem_singleton.mp hm]
                exact ⟨hls l List.mem_cons_self, hin⟩
            · exact hls m (List.mem_cons_of_mem l hm)
          · -- The batch is sent for its own window, and a later one opens.
            rcases hclosed hout with ⟨hback, hlater, rfl, rng₁, rfl⟩
            rcases ih k' [l] _ rs₂ hrest
              (fun m hm => by rw [List.mem_singleton.mp hm]; exact ⟨hback, hlt⟩)
              (fun m hm => hback.trans (hsorted.1 m hm)) hsorted.2 with ⟨ks, hall, hinc, hge⟩
            split_ifs with hnil
            · exact ⟨ks, hall, hinc, fun k₁ hk₁ => hle.trans (hge k₁ hk₁)⟩
            · refine ⟨k :: ks, List.Forall₂.cons ⟨hbatch, rng₁, rfl⟩ hall, ?_, ?_⟩
              · rw [List.pairwise_cons]
                exact ⟨fun k₁ hk₁ => lt_of_lt_of_le hlater (hge k₁ hk₁), hinc⟩
              · intro k₁ hk₁
                rcases List.mem_cons.mp hk₁ with rfl | hk₁
                · exact le_rfl
                · exact hle.trans (hge k₁ hk₁)

/-- The windows up to a time close in as many turns as there are seconds. -/
theorem closeWindows_ends (rand : Rand K R) (latencyS jitterS t : K) (fuel : Nat) (k : Int)
    (batch : List (Line K)) (rng : R) (h : t < (k : K) + fuel) :
    (closeWindows rand latencyS jitterS t fuel (k : K) batch rng).isSome = true := by
  induction fuel generalizing k batch rng with
  | zero =>
      unfold closeWindows
      rw [Nat.cast_zero, add_zero] at h
      rw [if_neg (not_le.mpr h)]
      rfl
  | succ fuel ih =>
      have hnext : t < ((k + 1 : Int) : K) + fuel := by
        push_cast at h ⊢
        linarith
      unfold closeWindows
      rw [add_lit_one]
      split_ifs
      · exact ih (k + 1) batch rng hnext
      · rw [Option.isSome_map]
        exact ih (k + 1) [] _ hnext
      · rfl

theorem recordBatches_ends (rand : Rand K R) (fuel : Nat) (latencyS jitterS : K)
    (ls : List (Line K)) (k : Int) (batch : List (Line K)) (rng : R)
    (h : ∀ l ∈ ls, l.t < (k : K) + fuel) :
    (recordBatches rand fuel latencyS jitterS ls (k : K) batch rng).isSome = true := by
  induction ls generalizing k batch rng with
  | nil =>
      unfold recordBatches
      split_ifs <;> rfl
  | cons l ls ih =>
      unfold recordBatches
      have hend := closeWindows_ends rand latencyS jitterS l.t fuel k batch rng
        (h l List.mem_cons_self)
      rcases Option.isSome_iff_exists.mp hend with ⟨⟨rs, w', left, rng'⟩, hclose⟩
      rcases closeWindows_spec rand latencyS jitterS l.t fuel k batch rng rs w' left rng' hclose
        with ⟨k', rfl, _, hle, _⟩
      rw [hclose]
      simp only [Option.isSome_map]
      refine ih k' _ _ fun m hm => ?_
      have hcast : (k : K) ≤ (k' : K) := Int.cast_le.mpr hle
      have hm' := h m (List.mem_cons_of_mem l hm)
      linarith

omit [IsStrictOrderedRing K] in
/-- Batches are made from the window of the first line on. -/
theorem frameLines_batches (rand : Rand K R) (fuel : Nat) (latencyS jitterS : K) (l : Line K)
    (ls : List (Line K)) (rng : R) :
    frameLines rand fuel "zlib2" latencyS jitterS (l :: ls) rng =
      recordBatches rand fuel latencyS jitterS (l :: ls) ((⌊l.t⌋ + 1 : Int) : K) [] rng := by
  rw [← add_lit_one]
  rfl

/-- Framing ends. -/
theorem frameLines_ends (rand : Rand K R) (compress : String) (latencyS jitterS : K)
    (ls : List (Line K)) (rng : R) :
    ∃ n, ∀ fuel, n ≤ fuel →
      (frameLines rand fuel compress latencyS jitterS ls rng).isSome = true := by
  by_cases hmode : compress = "zlib2"
  · cases ls with
    | nil =>
        refine ⟨0, fun fuel _ => ?_⟩
        rw [hmode]
        rfl
    | cons l ls =>
        -- So many turns reach past the last line.
        have hbound : ∀ ms : List (Line K), ∃ n : Nat, ∀ m ∈ ms,
            m.t < ((⌊l.t⌋ + 1 : Int) : K) + n := by
          intro ms
          induction ms with
          | nil => exact ⟨0, fun m hm => absurd hm List.not_mem_nil⟩
          | cons m ms ih =>
              rcases ih with ⟨n, hn⟩
              rcases exists_nat_gt (m.t - ((⌊l.t⌋ + 1 : Int) : K)) with ⟨n', hn'⟩
              refine ⟨Max.max n n', fun a ha => ?_⟩
              have hleft : (n : K) ≤ (Max.max n n' : Nat) := Nat.cast_le.mpr (le_max_left n n')
              have hright : (n' : K) ≤ (Max.max n n' : Nat) := Nat.cast_le.mpr (le_max_right n n')
              rcases List.mem_cons.mp ha with rfl | ha
              · linarith
              · linarith [hn a ha]
        rcases hbound (l :: ls) with ⟨n, hn⟩
        refine ⟨n, fun fuel hfuel => ?_⟩
        rw [hmode, frameLines_batches]
        refine recordBatches_ends rand fuel latencyS jitterS (l :: ls) _ [] rng fun m hm => ?_
        have hcast : (n : K) ≤ fuel := Nat.cast_le.mpr hfuel
        linarith [hn m hm]
  · refine ⟨0, fun fuel _ => ?_⟩
    unfold frameLines
    rw [if_neg hmode]
    rfl

/-- One record for each line is sent for its time. -/
theorem recordEach_spec (rand : Rand K R) (latencyS jitterS : K) (ls : List (Line K)) (rng : R) :
    List.Forall₂ (SentFor rand latencyS jitterS) (recordEach rand latencyS jitterS ls rng)
      (ls.map Line.t) := by
  induction ls generalizing rng with
  | nil => exact List.Forall₂.nil
  | cons l ls ih =>
      refine List.Forall₂.cons ⟨fun m hm => ?_, rng, ?_⟩ (ih _)
      · rw [List.mem_singleton.mp hm]
      · exact congrArg Prod.fst (toNanos_exact rand latencyS jitterS l.t rng)

/-- Records are sent for times in order that none of their lines is after, batches
    for the ends of seconds that they hold lines of. -/
theorem frameLines_spec (rand : Rand K R) (fuel : Nat) (compress : String) (latencyS jitterS : K)
    (ls : List (Line K)) (rng : R) (rs : List (SendRecord K))
    (hsorted : ls.Pairwise fun a b => a.t ≤ b.t)
    (h : frameLines rand fuel compress latencyS jitterS ls rng = some rs) :
    (∃ bs : List K, List.Forall₂ (SentFor rand latencyS jitterS) rs bs ∧ bs.Pairwise (· ≤ ·)) ∧
      (compress = "zlib2" → ∀ r ∈ rs, ∃ k : Int, ∀ l ∈ r.lines, (k : K) ≤ l.t ∧ l.t < k + 1) := by
  by_cases hmode : compress = "zlib2"
  · rw [hmode] at h
    cases ls with
    | nil =>
        cases h
        exact ⟨⟨[], List.Forall₂.nil, List.Pairwise.nil⟩, fun _ r hr => absurd hr List.not_mem_nil⟩
    | cons l ls =>
        rw [frameLines_batches] at h
        -- The first window is that of the first line, and no line is before it.
        have hfirst : ((⌊l.t⌋ + 1 : Int) : K) - 1 ≤ l.t := by
          push_cast
          linarith [Int.floor_le l.t]
        have hall : ∀ m ∈ l :: ls, ((⌊l.t⌋ + 1 : Int) : K) - 1 ≤ m.t := by
          intro m hm
          rcases List.mem_cons.mp hm with rfl | hm
          · exact hfirst
          · exact hfirst.trans ((List.pairwise_cons.mp hsorted).1 m hm)
        rcases recordBatches_spec rand fuel latencyS jitterS (l :: ls) _ [] rng rs h
          (fun m hm => absurd hm List.not_mem_nil) hall hsorted with ⟨ks, hbatches, hinc, _⟩
        refine ⟨⟨ks.map fun k : Int => (k : K), ?_, ?_⟩, fun _ r hr => ?_⟩
        · rw [List.forall₂_map_right_iff]
          exact hbatches.imp fun r k hbatch => ⟨fun m hm => (hbatch.1 m hm).2.le, hbatch.2⟩
        · rw [List.pairwise_map]
          exact hinc.imp fun hlt => Int.cast_le.mpr (Int.le_of_lt hlt)
        · rcases exists_of_forall₂_right hbatches.flip r hr with ⟨k, _, hbatch⟩
          refine ⟨k - 1, fun m hm => ?_⟩
          push_cast
          exact ⟨(hbatch.1 m hm).1, by linarith [(hbatch.1 m hm).2]⟩
  · unfold frameLines at h
    rw [if_neg hmode] at h
    cases h
    refine ⟨⟨ls.map Line.t, recordEach_spec rand latencyS jitterS ls rng, ?_⟩,
      fun hzlib2 => absurd hzlib2 hmode⟩
    rw [List.pairwise_map]
    exact hsorted

/-- Without jitter records are sent in order. -/
theorem sent_in_order (rand : Rand K R) (latencyS : K) (rs : List (SendRecord K)) (bs : List K)
    (h : List.Forall₂ (SentFor rand latencyS 0) rs bs) (hbs : bs.Pairwise (· ≤ ·)) :
    (rs.map SendRecord.t).Pairwise (· ≤ ·) := by
  -- Without jitter a record is late by the latency only.
  have htime : ∀ r b, SentFor rand latencyS 0 r b → r.t = nanos (b + latencyS) := by
    rintro r b ⟨_, rng, ht⟩
    rw [ht, sendTime_zero]
  have hall : rs.map SendRecord.t = bs.map fun b => nanos (b + latencyS) := by
    induction h with
    | nil => rfl
    | cons hone _ ih =>
        rw [List.map_cons, List.map_cons, htime _ _ hone, ih (List.pairwise_cons.mp hbs).2]
  rw [hall, List.pairwise_map]
  exact hbs.imp fun hle => nanos_mono _ _ (by linarith)

omit [Field K] [LinearOrder K] [IsStrictOrderedRing K] [FloorRing K] [FnsLn K] in
theorem encodeFrames_length {τ : Type} (z : Calls UInt8 UInt8 τ) (fuelZ : Nat) (s : τ)
    (chunks frames : List (List UInt8)) (h : encodeFrames z fuelZ s chunks = some frames) :
    frames.length = chunks.length := by
  induction chunks generalizing s frames with
  | nil =>
      cases h
      rfl
  | cons chunk chunks ih =>
      unfold encodeFrames at h
      split at h
      · rcases Option.map_eq_some_iff.mp h with ⟨rest, hrest, rfl⟩
        rw [List.length_cons, List.length_cons, ih _ rest hrest]
      · exact absurd h (Option.some_ne_none frames).symm

omit [IsStrictOrderedRing K] in
/-- What is read of the records is their lines. -/
theorem frameBytes_spec {σ τ : Type} (rand : Rand K R) (text : Line K → List UInt8)
    (z : Calls UInt8 UInt8 τ) (fuelZ : Nat) (y : Calls UInt8 UInt8 σ) (fuelY fuel : Nat)
    (compress : String) (latencyS jitterS : K) (lines : List (Line K)) (rng : R)
    (ws : List WireRecord) (hback : compress ≠ "none" → DecodesBack z fuelZ y fuelY)
    (h : frameBytes text z fuelZ rand fuel compress latencyS jitterS lines rng = some ws) :
    ∃ rs, frameLines rand fuel compress latencyS jitterS lines rng = some rs ∧
      ws.map WireRecord.t = rs.map SendRecord.t ∧
      decodedBytes y fuelY compress ws = rs.map fun r => some (r.bytes text) := by
  unfold frameBytes at h
  cases hframe : frameLines rand fuel compress latencyS jitterS lines rng with
  | none =>
      rw [hframe] at h
      exact absurd h (Option.some_ne_none ws).symm
  | some rs =>
      rw [hframe] at h
      rcases Option.map_eq_some_iff.mp h with ⟨frames, hframes, rfl⟩
      -- There is a frame for each record.
      have hlength : frames.length = rs.length := by
        split_ifs at hframes
        · cases hframes
          exact List.length_map _
        · exact (encodeFrames_length z fuelZ _ _ frames hframes).trans (List.length_map _)
      have hbytes : ((rs.zip frames).map fun p : SendRecord K × List UInt8 =>
          ({ t := p.1.t, bytes := p.2 } : WireRecord)).map WireRecord.bytes = frames :=
        List.map_map.trans (List.map_snd_zip hlength.le)
      refine ⟨rs, rfl, ?_, ?_⟩
      · have hfst := congrArg (List.map SendRecord.t) (List.map_fst_zip hlength.ge)
        rw [List.map_map] at hfst ⊢
        exact hfst
      · unfold decodedBytes
        rw [hbytes]
        split_ifs at hframes ⊢ with hnone
        · cases hframes
          have hsome := congrArg (List.map some) hbytes
          rw [List.map_map, List.map_map (g := some) (l := rs)] at hsome
          exact hsome
        · rw [hback hnone _ frames hframes, List.map_map]
          rfl

/-- Framing ends, and keeps every line in its place. Without compression or with
    one that is read back, what is read of the records are their lines. No record
    is sent before a line in it; in batches it holds lines of one second; and
    without jitter records are in order. -/
theorem frame_lines_keep {σ τ : Type} (rand : Rand K R) (text : Line K → List UInt8)
    (z : Calls UInt8 UInt8 τ) (fuelZ : Nat) (y : Calls UInt8 UInt8 σ) (fuelY : Nat)
    (compress : String) (latencyS jitterS : K) (lines : List (Line K)) (rng : R)
    (hlat : 0 ≤ latencyS) (hsorted : lines.Pairwise fun a b => a.t ≤ b.t)
    (hback : compress ≠ "none" → DecodesBack z fuelZ y fuelY) :
    (∃ n, ∀ fuel, n ≤ fuel →
      (frameLines rand fuel compress latencyS jitterS lines rng).isSome = true) ∧
    ∀ fuel ws, frameBytes text z fuelZ rand fuel compress latencyS jitterS lines rng = some ws →
      (decodedBytes y fuelY compress ws).flatMap (fun chunk => chunk.getD []) =
        lines.flatMap (Line.bytes text) ∧
      (jitterS = 0 → (ws.map WireRecord.t).Pairwise (· ≤ ·)) ∧
      ∃ rs : List (SendRecord K), rs.flatMap SendRecord.lines = lines ∧
        ws.map WireRecord.t = rs.map SendRecord.t ∧
        decodedBytes y fuelY compress ws = rs.map (fun r => some (r.bytes text)) ∧
        (∀ r ∈ rs, ∃ b rng', r.t = nanos (sendTime rand latencyS jitterS b rng').1 ∧
          ∀ l ∈ r.lines, l.t ≤ (sendTime rand latencyS jitterS b rng').1) ∧
        (compress = "zlib2" → ∀ r ∈ rs, ∃ k : Int, ∀ l ∈ r.lines,
          (k : K) ≤ l.t ∧ l.t < k + 1) := by
  refine ⟨frameLines_ends rand compress latencyS jitterS lines rng, fun fuel ws h => ?_⟩
  rcases frameBytes_spec rand text z fuelZ y fuelY fuel compress latencyS jitterS lines rng ws
    hback h with ⟨rs, hframe, htimes, hdecoded⟩
  have hlines := frameLines_lines rand fuel compress latencyS jitterS lines rng rs hframe
  rcases frameLines_spec rand fuel compress latencyS jitterS lines rng rs hsorted hframe with
    ⟨⟨bs, hsent, hbs⟩, hwindows⟩
  refine ⟨?_, fun hzero => ?_, rs, hlines, htimes, hdecoded, fun r hr => ?_, hwindows⟩
  · rw [hdecoded, List.flatMap_map, ← hlines, List.flatMap_assoc]
    rfl
  · rw [htimes]
    exact sent_in_order rand latencyS rs bs (hzero ▸ hsent) hbs
  · rcases exists_of_forall₂_right hsent.flip r hr with ⟨b, _, hbefore, rng', ht⟩
    refine ⟨b, rng', ht, fun l hl => (hbefore l hl).trans ?_⟩
    exact sendTime_ge rand latencyS jitterS b rng' hlat

section Example

/-- What `zlib` makes of a line A, at the beginning of a stream or behind others. -/
def linePayload (started : Bool) : List UInt8 :=
  (if started then [] else [0x78, 0x9c]) ++ [0x72, 0xe4, 0x02, 0x00]

def lineFrame (started : Bool) : List UInt8 :=
  beBytes 2 (linePayload started).length ++ linePayload started

/-- A compressor of this one line. -/
def deflateLine : Calls UInt8 UInt8 Bool where
  start := false
  call started xs _ :=
    if xs = [65, 10] then some (2, linePayload started ++ syncTrailer, false, true) else none

/-- Its decompressor. -/
def inflateLine : Calls UInt8 UInt8 Bool where
  start := false
  call started xs _ :=
    if xs = linePayload started ++ syncTrailer then some (xs.length, [65, 10], false, true) else none

/-- What the compressor has encoded is read back. -/
theorem decodesBack_line : DecodesBack deflateLine 1 inflateLine 1 := by
  -- From any place in the stream.
  suffices hstate : ∀ (started : Bool) (chunks frames : List (List UInt8)),
      encodeFrames deflateLine 1 started chunks = some frames →
        decodeFrames inflateLine 1 started frames = chunks.map some from hstate false
  intro started chunks
  induction chunks generalizing started with
  | nil =>
      rintro frames ⟨⟩
      rfl
  | cons chunk chunks ih =>
      intro frames h
      unfold encodeFrames at h
      by_cases hchunk : chunk = [65, 10]
      · have hencode : encodeFrame deflateLine 1 started [65, 10] =
            .ok (lineFrame started) true := by
          cases started <;> rfl
        have hdecode : decodeFrame inflateLine 1 started (lineFrame started) =
            .ok [65, 10] true := by
          cases started <;> rfl
        rw [hchunk, hencode] at h
        rcases Option.map_eq_some_iff.mp h with ⟨rest, hrest, rfl⟩
        rw [decodeFrames, hdecode, hchunk]
        exact congrArg (some [65, 10] :: ·) (ih true rest hrest)
      · have herror : encodeFrame deflateLine 1 started chunk = .error .zlib := by
          unfold encodeFrame deflateLoop deflateLine
          simp only [if_neg hchunk]
        rw [herror] at h
        exact absurd h (Option.some_ne_none frames).symm

/-- A line A at a time. -/
def lineAt (t : ℚ) : Line ℚ := { t := t, msg := .heartbeat, about := none }

end Example

/-- Two lines with an empty second between theirs, in two frames of one stream. -/
theorem frame_lines_keep_two : ∃ ws,
    frameBytes (fun _ => [65]) deflateLine 1 seeded 9 "zlib2" (1 / 100) 0
      [lineAt (1 / 2), lineAt (5 / 2)] [] = some ws ∧
    ws.map WireRecord.t = [1010000000, 3010000000] ∧
    (decodedBytes inflateLine 1 "zlib2" ws).flatMap (fun chunk => chunk.getD []) =
      [65, 10, 65, 10] := by
  have hrun : ∃ ws, frameBytes (fun _ => [65]) deflateLine 1 seeded 9 "zlib2" (1 / 100) 0
      [lineAt (1 / 2), lineAt (5 / 2)] [] = some ws := Option.isSome_iff_exists.mp (by decide +kernel)
  rcases hrun with ⟨ws, hws⟩
  have htimes : ∀ ws ∈ frameBytes (fun _ => [65]) deflateLine 1 seeded 9 "zlib2" (1 / 100) 0
      [lineAt (1 / 2), lineAt (5 / 2)] [], ws.map WireRecord.t = [1010000000, 3010000000] := by
    decide +kernel
  have hkeep := (frame_lines_keep seeded (fun _ => [65]) deflateLine 1 inflateLine 1 "zlib2" (1 / 100)
    0 [lineAt (1 / 2), lineAt (5 / 2)] [] (by decide +kernel) (by decide +kernel)
    fun _ => decodesBack_line).2 9 ws hws
  exact ⟨ws, hws, htimes ws hws, hkeep.1⟩

end Sim

end MlatBench
