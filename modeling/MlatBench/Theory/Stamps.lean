import Mathlib.Tactic.Ring
import MlatBench.Library.Ext
import MlatBench.Library.Held
import MlatBench.Theory.Reception

/-!
# Stamps Against the Clock

Stamps in exact arithmetic, of a clock without jitter, wander and jumps. The
count of a time is then a formula, and a stamp should be the count of its
arrival, one or more above it only to be told from receptions that round to the
same count.

Receptions are stamped in order of emission, and the clock is held above its
last count whichever reception that was. One that was sent first but from
further away arrives after one sent later from near by, and lifts its stamp by
the whole difference. What is needed is that the counts of arrivals do not go
back from one stamp to the next, except over the wrap.

## Main definitions

* `Quiet`: A clock without jitter, wander and jumps.
* `modelCount`: The count of a time.
* `Explained`: The stamps are the counts of their arrivals, as told above.
* `Loop.Fits`: The counts of a step fit their types.
* `Loop.Orderly`: The count does not go back.

## Theorems

* `rawCount_exact`: The count before it is held is the formula.
* `Loop.explained_turn_iff`, `Loop.explained_run_iff`: Stamps are as they should
  be just when no count goes back.
* `stamps_are_clock`: What clients send.
-/

namespace MlatBench

namespace Sim

open Library F64 F64Fn F64Ln Modes Proto

variable {K R : Type} [Field K] [LinearOrder K] [IsStrictOrderedRing K] [FloorRing K] [FnsLn K]

/-- Arithmetic is exact. -/
local instance (priority := low) exactF64Ln : F64Ln K := F64.exactLn K

/-- A clock without jitter, wander and jumps. -/
def Quiet : ClockSpec K → Prop
  | .dump1090 _ _ jitterNs _ wanderPpmSqrtHr jumpProbPerMin =>
    jitterNs = 0 ∧ wanderPpmSqrtHr = 0 ∧ jumpProbPerMin = 0
  | .radarcapeGps jitterNs => jitterNs = 0

/-- Counts since the start, not rounded. -/
def phase : ClockSpec K → K → K
  | .dump1090 offsetPpm driftPpmPerHr _ startCount _ _, t =>
    startCount + 12000000 *
      (t * (1 + offsetPpm / 10 ^ 6) + driftPpmPerHr / 10 ^ 6 / 7200 * t ^ 2)
  | .radarcapeGps _, t => 10 ^ 9 * t

def ClockSpec.wraps : ClockSpec K → Bool
  | .dump1090 .. => true
  | .radarcapeGps _ => false

/-- The count of a time. -/
def modelCount (spec : ClockSpec K) (t : K) : Int :=
  if spec.wraps then roundAway (phase spec t) % 2 ^ 48 else roundAway (phase spec t)

/-- The count of a time fits the type it is cast to. -/
def InRange (spec : ClockSpec K) (t : K) : Prop :=
  if spec.wraps then -2 ^ 127 ≤ roundAway (phase spec t) ∧ roundAway (phase spec t) < 2 ^ 127
  else 0 ≤ roundAway (phase spec t) ∧ roundAway (phase spec t) < 2 ^ 64

instance (spec : ClockSpec K) (t : K) : Decidable (InRange spec t) :=
  inferInstanceAs (Decidable (if spec.wraps = true then _ else _))

/-- Stamps are the counts of their arrivals, above them only to be told from
    receptions that round to the same count. -/
def Explained (spec : ClockSpec K) (stamps : List (Stamp K)) : Prop :=
  AllSeparated (fun st => modelCount spec st.t) (fun st => (st.count : Int)) stamps

/-- A count is held against the last one: it does not exceed it, and the counter
    is not about to wrap. -/
def Holds (spec : ClockSpec K) (prev m : Nat) : Prop :=
  ¬ (spec.wraps = true ∧ 2 ^ 48 - 12000000 < prev ∧ m < prev) ∧ m ≤ prev

namespace ClockModel

omit [IsStrictOrderedRing K] in
theorem isHostile_of_quiet (spec : ClockSpec K) (h : Quiet spec) :
    (ClockModel.new spec : ClockModel K R).isHostile = false := by
  have hzero : ¬ (((0 : ℚ) : K) < 0) := by rw [Rat.cast_zero]; exact lt_irrefl 0
  cases spec with
  | dump1090 off drift jit start wander jump =>
      rcases h with ⟨rfl, rfl, rfl⟩
      have hwander : (0 : K) * ((1 / 10 ^ 6 : ℚ) : K) / ((60 : ℚ) : K) = 0 := by
        rw [zero_mul, zero_div]
      have hjump : (0 : K) / ((60 : ℚ) : K) = 0 := zero_div _
      refine decide_eq_false (not_or.mpr ⟨?_, ?_⟩)
      · change ¬ ((0 : ℚ) : K) < 0 * ((1 / 10 ^ 6 : ℚ) : K) / ((60 : ℚ) : K)
        rw [hwander]
        exact hzero
      · change ¬ ((0 : ℚ) : K) < 0 / ((60 : ℚ) : K)
        rw [hjump]
        exact hzero
  | radarcapeGps jit =>
      exact decide_eq_false (not_or.mpr ⟨lt_irrefl ((0 : ℚ) : K), lt_irrefl ((0 : ℚ) : K)⟩)

omit [FnsLn K] in
/-- The counter that wraps: a rounded phase is reduced. -/
theorem wrapped_count (n : Int) (hlow : -2 ^ 127 ≤ n) (hhigh : n < 2 ^ 127) :
    (((F64.exact K).toInt (-2 ^ 127) (2 ^ 127 - 1) (n : K) % (wrap48 : Nat)).toNat : Int) =
      n % 2 ^ 48 := by
  rw [toInt_exact, clampInt_of_mem _ _ n hlow (by omega)]
  unfold wrap48
  omega

omit [FnsLn K] in
/-- The counter that does not wrap: a rounded phase is cast as it is. -/
theorem plain_count (n : Int) (hlow : 0 ≤ n) (hhigh : n < 2 ^ 64) :
    (((F64.exact K).toInt 0 (2 ^ 64 - 1) (Max.max (n : K) ((0 : ℚ) : K))).toNat : Int) = n := by
  have hmax : Max.max (n : K) ((0 : ℚ) : K) = (n : K) := by
    rw [Rat.cast_zero]
    exact max_eq_left (by exact_mod_cast hlow)
  rw [hmax, toInt_exact, clampInt_of_mem _ _ n hlow (by omega)]
  omega

/-- Before it is held the count of a quiet clock is the formula. -/
theorem rawCount_exact (spec : ClockSpec K) (lastT : K) (last : Option Nat) (t g : K)
    (hquiet : Quiet spec) (hrange : InRange spec t) :
    (((after spec lastT last : ClockModel K R).rawCount t
      (g * (after spec lastT last : ClockModel K R).jitterS) : Nat) : Int) =
      modelCount spec t := by
  cases spec with
  | dump1090 off drift jit start wander jump =>
      rcases hquiet with ⟨rfl, rfl, rfl⟩
      have hphase : ((start : ℚ) : K) + (t * (((1 : ℚ) : K) + off * ((1 / 10 ^ 6 : ℚ) : K)) +
          ((1 / 2 : ℚ) : K) * (drift * ((1 / 10 ^ 6 : ℚ) : K) / ((3600 : ℚ) : K)) * t * t +
          ((0 : ℚ) : K) + g * (0 * ((1 / 10 ^ 9 : ℚ) : K))) * ((12000000 : ℚ) : K) =
          phase (.dump1090 off drift 0 start 0 0) t := by
        push_cast
        unfold phase
        ring
      have h := wrapped_count (K := K) (roundAway (phase (.dump1090 off drift 0 start 0 0) t))
        hrange.1 hrange.2
      rw [← hphase] at h
      refine h.trans ?_
      rw [hphase]
      rfl
  | radarcapeGps jit =>
      have hjit : jit = 0 := hquiet
      have hphase : (((0 : Nat) : ℚ) : K) + (t * (((1 : ℚ) : K) + ((0 : ℚ) : K)) +
          ((1 / 2 : ℚ) : K) * ((0 : ℚ) : K) * t * t + ((0 : ℚ) : K) +
          g * (jit * ((1 / 10 ^ 9 : ℚ) : K))) * ((10 ^ 9 : ℚ) : K) =
          phase (.radarcapeGps jit) t := by
        rw [hjit]
        push_cast
        unfold phase
        ring
      have h := plain_count (K := K) (roundAway (phase (.radarcapeGps jit) t)) hrange.1 hrange.2
      rw [← hphase] at h
      refine h.trans ?_
      rw [hphase]
      rfl

theorem hold_some (spec : ClockSpec K) (lastT : K) (prev m : Nat) :
    (Holds spec prev m → (after spec lastT (some prev) : ClockModel K R).hold m =
      (prev + 1) % 2 ^ 64) ∧
    (¬ Holds spec prev m → (after spec lastT (some prev) : ClockModel K R).hold m = m) := by
  have hclamps : (after spec lastT (some prev) : ClockModel K R).clamps m = true ↔
      Holds spec prev m := by
    unfold Holds
    cases spec with
    | dump1090 off drift jit start wander jump =>
        have hfreq : ((F64.exact K).toInt 0 (2 ^ 64 - 1) ((12000000 : ℚ) : K)).toNat =
            12000000 := by
          have hcast : ((12000000 : ℚ) : K) = ((12000000 : ℤ) : K) := by norm_num
          rw [hcast, toInt_exact]
          rfl
        refine Iff.trans decide_eq_true_iff (and_congr (not_congr ?_) Iff.rfl)
        refine and_congr Iff.rfl (and_congr ?_ Iff.rfl)
        change wrap48 - ((F64.exact K).toInt 0 (2 ^ 64 - 1) ((12000000 : ℚ) : K)).toNat < prev ↔ _
        rw [hfreq]
        rfl
    | radarcapeGps jit =>
        refine Iff.trans decide_eq_true_iff (and_congr (not_congr ?_) Iff.rfl)
        exact ⟨fun h => absurd h.1 Bool.false_ne_true, fun h => absurd h.1 Bool.false_ne_true⟩
  refine ⟨fun h => if_pos (hclamps.mpr h), fun h => if_neg fun hc => h (hclamps.mp hc)⟩

end ClockModel

namespace Loop

/-- The clock is the receiver's, and its last count that of the last stamp. -/
def Running (rx : ReceiverSpec K) (s : Loop K R) : Prop :=
  s.clock = ClockModel.after rx.clock s.clock.lastT (s.stamps.getLast?.map Stamp.count)

/-- If a transmission is heard, its count fits its types and so does one above
    the last count. -/
def Fits (rand : Rand K R) (seed : Nat) (rx : ReceiverSpec K) (s : Loop K R) (b : Broadcast K) :
    Prop :=
  s.hears rand seed rx b = true → InRange rx.clock (s.arrive rand rx b).1 ∧
    ∀ prev ∈ s.stamps.getLast?, prev.count + 1 < 2 ^ 64

/-- If a transmission is heard, its count is not before that of the arrival last
    stamped, or the counter is about to wrap. -/
def Orderly (rand : Rand K R) (seed : Nat) (rx : ReceiverSpec K) (s : Loop K R)
    (b : Broadcast K) : Prop :=
  s.hears rand seed rx b = true → ∀ prev ∈ s.stamps.getLast?,
    modelCount rx.clock prev.t ≤ modelCount rx.clock (s.arrive rand rx b).1 ∨
      rx.clock.wraps = true ∧ 2 ^ 48 - 12000000 < prev.count ∧
        modelCount rx.clock (s.arrive rand rx b).1 < prev.count

instance (rand : Rand K R) (seed : Nat) (rx : ReceiverSpec K) (s : Loop K R) (b : Broadcast K) :
    Decidable (s.Fits rand seed rx b) :=
  inferInstanceAs (Decidable (_ → _ ∧ ∀ prev ∈ s.stamps.getLast?, _))

instance (rand : Rand K R) (seed : Nat) (rx : ReceiverSpec K) (s : Loop K R) (b : Broadcast K) :
    Decidable (s.Orderly rand seed rx b) :=
  inferInstanceAs (Decidable (_ → ∀ prev ∈ s.stamps.getLast?, _ ∨ _ ∧ _ ∧ _))

omit [IsStrictOrderedRing K] in
theorem running_init (rand : Rand K R) (seed : Nat) (rx : ReceiverSpec K)
    (hquiet : Quiet rx.clock) : Running rx (init rand seed rx) := by
  have hclock : (init rand seed rx).clock = ClockModel.new rx.clock :=
    if_neg (by rw [ClockModel.isHostile_of_quiet rx.clock hquiet]; exact Bool.false_ne_true)
  unfold Running
  rw [hclock]
  cases rx.clock <;> rfl

/-- A transmission that is heard is stamped with the count of its arrival, held
    against the last stamp. -/
theorem stamp_heard (rand : Rand K R) (fuel seed : Nat) (rx : ReceiverSpec K) (s : Loop K R)
    (b : Broadcast K) (hquiet : Quiet rx.clock) (hrun : Running rx s)
    (hears : s.hears rand seed rx b = true) (hrange : InRange rx.clock (s.arrive rand rx b).1) :
    ∃ m : Nat, (m : Int) = modelCount rx.clock (s.arrive rand rx b).1 ∧
      ∃ count, count = (ClockModel.after rx.clock (s.arrive rand rx b).1
          (s.stamps.getLast?.map Stamp.count) : ClockModel K R).hold m ∧
        (s.turn rand fuel seed rx b).stamps =
          s.stamps ++ [{ b := b, t := (s.arrive rand rx b).1, count := count }] ∧
        Running rx (s.turn rand fuel seed rx b) := by
  have hread := ClockModel.countAtHostile_after rand rx.clock s.clock.lastT
    (s.stamps.getLast?.map Stamp.count) (s.arrive rand rx b).1
    (s.jitterRng rand seed rx b.icao) _ _ rfl rfl
  have hreading : (s.draw rand seed rx b).reading rand seed rx b = _ :=
    (congrArg (fun c : ClockModel K R => c.countAtHostile rand (s.arrive rand rx b).1
      (s.jitterRng rand seed rx b.icao)) hrun).trans hread
  have hheard := turn_heard rand fuel seed rx s b hears
  have hstamps := hheard.stamps
  have hclock := hheard.clock
  rw [hreading] at hstamps hclock
  refine ⟨_, ClockModel.rawCount_exact rx.clock _ _ _ _ hquiet hrange, _, rfl, hstamps, ?_⟩
  unfold Running
  rw [hclock, hstamps, List.getLast?_append, List.getLast?_singleton]
  rfl

omit [IsStrictOrderedRing K] in
/-- A transmission that is not heard changes no stamp. -/
theorem stamp_unheard (rand : Rand K R) (fuel seed : Nat) (rx : ReceiverSpec K) (s : Loop K R)
    (b : Broadcast K) (hears : s.hears rand seed rx b = false) (hrun : Running rx s) :
    (s.turn rand fuel seed rx b).stamps = s.stamps ∧ Running rx (s.turn rand fuel seed rx b) := by
  rw [turn_unheard rand fuel seed rx s b hears]
  split_ifs
  · exact ⟨rfl, hrun⟩
  · exact ⟨rfl, hrun⟩

/-- One more stamp, held against the last one, is as it should be just when its
    count has not gone back. -/
theorem explained_held_iff (spec : ClockSpec K) (stamps : List (Stamp K)) (b : Broadcast K)
    (t : K) (m : Nat) (hm : (m : Int) = modelCount spec t) (hex : Explained spec stamps)
    (hfits : ∀ prev ∈ stamps.getLast?, prev.count + 1 < 2 ^ 64) :
    Explained spec (stamps ++ [{ b := b, t := t, count :=
        (ClockModel.after spec t (stamps.getLast?.map Stamp.count) : ClockModel K R).hold m }]) ↔
      ∀ prev ∈ stamps.getLast?, modelCount spec prev.t ≤ modelCount spec t ∨
        spec.wraps = true ∧ 2 ^ 48 - 12000000 < prev.count ∧ modelCount spec t < prev.count := by
  have hiff := fun x : Stamp K => allSeparated_append_singleton
    (fun st => modelCount spec st.t) (fun st => (st.count : Int)) stamps x
  unfold Explained at hex ⊢
  rw [hiff, and_iff_right hex]
  cases hlast : stamps.getLast? with
  | none =>
      refine ⟨fun _ prev hprev => absurd hprev (Option.some_ne_none prev).symm, fun _ => ?_⟩
      exact separated_of_eq _ _ hm
  | some prev =>
      rcases List.getLast?_eq_some_iff.mp hlast with ⟨before, rfl⟩
      have hprev := ((allSeparated_append_singleton _ _ before prev).mp hex).2
      have hle : modelCount spec prev.t ≤ prev.count := hprev.le
      have hsmall := hfits prev hlast
      have hhold := ClockModel.hold_some (R := R) spec t prev.count m
      constructor
      · intro hsep prev' hprev'
        cases hprev'
        by_contra hback
        rw [not_or, not_le] at hback
        -- The count goes back, so it is held above that of a later arrival.
        have hholds : Holds spec prev.count m := by
          refine ⟨fun h => hback.2 ⟨h.1, h.2.1, ?_⟩, ?_⟩ <;> omega
        refine absurd hsep (not_separated_succ hle hback.1 ?_)
        change (((ClockModel.after spec t (some prev.count) : ClockModel K R).hold m : Nat) : Int) =
          prev.count + 1
        rw [hhold.1 hholds, Nat.mod_eq_of_lt hsmall]
        rfl
      · intro horder
        by_cases hholds : Holds spec prev.count m
        · have hstep := horder prev rfl
          have hforward : modelCount spec prev.t ≤ modelCount spec t := by
            rcases hstep with h | ⟨hwraps, hnear, hlt⟩
            · exact h
            · exact absurd ⟨hwraps, hnear, by omega⟩ hholds.1
          refine hprev.succ hforward ?_ ?_
          · have := hholds.2
            change modelCount spec t ≤ prev.count
            omega
          · change (((ClockModel.after spec t (some prev.count) : ClockModel K R).hold m : Nat) :
              Int) = prev.count + 1
            rw [hhold.1 hholds, Nat.mod_eq_of_lt hsmall]
            rfl
        · refine separated_of_eq _ _ ?_
          change (((ClockModel.after spec t (some prev.count) : ClockModel K R).hold m : Nat) :
            Int) = modelCount spec t
          rw [hhold.2 hholds, hm]

/-- What a turn keeps of a running loop, and when its stamps stay as they should
    be. -/
theorem explained_turn_iff (rand : Rand K R) (fuel seed : Nat) (rx : ReceiverSpec K)
    (s : Loop K R) (b : Broadcast K) (hquiet : Quiet rx.clock) (hrun : Running rx s)
    (hfits : s.Fits rand seed rx b) :
    Running rx (s.turn rand fuel seed rx b) ∧
      (Explained rx.clock (s.turn rand fuel seed rx b).stamps ↔
        Explained rx.clock s.stamps ∧ s.Orderly rand seed rx b) := by
  cases hears : s.hears rand seed rx b with
  | false =>
      rcases stamp_unheard rand fuel seed rx s b hears hrun with ⟨hstamps, hrun'⟩
      refine ⟨hrun', ?_⟩
      rw [hstamps]
      refine (and_iff_left fun h => ?_).symm
      rw [hears] at h
      exact absurd h Bool.false_ne_true
  | true =>
      rcases hfits hears with ⟨hrange, hsmall⟩
      rcases stamp_heard rand fuel seed rx s b hquiet hrun hears hrange with
        ⟨m, hm, count, rfl, hstamps, hrun'⟩
      refine ⟨hrun', ?_⟩
      rw [hstamps]
      constructor
      · intro h
        have hex : Explained rx.clock s.stamps :=
          ((allSeparated_append_singleton _ _ s.stamps _).mp h).1
        exact ⟨hex, fun _ => (explained_held_iff rx.clock s.stamps b _ m hm hex hsmall).mp h⟩
      · rintro ⟨hex, horder⟩
        exact (explained_held_iff rx.clock s.stamps b _ m hm hex hsmall).mpr (horder hears)

/-- Along a run whose counts fit, the stamps are as they should be just when no
    count goes back. -/
theorem explained_exec_iff (rand : Rand K R) (fuel seed : Nat) (rx : ReceiverSpec K)
    (hquiet : Quiet rx.clock) (bs : List (Broadcast K)) (s : Loop K R) (hrun : Running rx s)
    (hfits : Along (turn rand fuel seed rx) (Fits rand seed rx) s bs) :
    Explained rx.clock (exec (turn rand fuel seed rx) s bs).stamps ↔
      Explained rx.clock s.stamps ∧
        Along (turn rand fuel seed rx) (Orderly rand seed rx) s bs := by
  induction bs generalizing s with
  | nil => exact (and_iff_left trivial).symm
  | cons b bs ih =>
      rcases explained_turn_iff rand fuel seed rx s b hquiet hrun hfits.1 with ⟨hrun', hturn⟩
      rw [exec_cons, ih _ hrun' hfits.2, hturn]
      exact and_assoc

theorem explained_run_iff (rand : Rand K R) (fuel seed : Nat) (rx : ReceiverSpec K)
    (hquiet : Quiet rx.clock) (bs : List (Broadcast K))
    (hfits : Along (turn rand fuel seed rx) (Fits rand seed rx) (init rand seed rx) bs) :
    Explained rx.clock (run rand fuel seed rx bs).stamps ↔
      Along (turn rand fuel seed rx) (Orderly rand seed rx) (init rand seed rx) bs := by
  refine (explained_exec_iff rand fuel seed rx hquiet bs _ (running_init rand seed rx hquiet)
    hfits).trans (and_iff_right ?_)
  exact allSeparated_nil _ _

end Loop

/-- What a client sends are stamps: every count is that of a reception of the
    frame beside it, and it is the count of that arrival, as told above. -/
def Clocked (rand : Rand K R) (rx : ReceiverSpec K) (bs : List (Broadcast K))
    (stamps : List (Stamp K)) (c : ClientStream K) : Prop :=
  ∀ l ∈ c.records.flatMap SendRecord.lines, ∀ p ∈ counts l.msg,
    ∃ before st after, stamps = before ++ st :: after ∧ st.count = p.1 ∧
      hexEncode st.b.bytes = p.2 ∧ st.b ∈ bs ∧ Arrival rand rx st.b st.t ∧
      Separated (fun st => modelCount rx.clock st.t) (fun st => (st.count : Int)) before st

/-- If the counts of a quiet clock fit and do not go back from one stamp to the
    next, what the client sends is the clock at the arrivals. The stamps are so
    only then. -/
theorem stamps_are_clock (rand : Rand K R) (fuel : Nat) (sc : Scenario K)
    (cap : GeneratedCapture K) (bs : List (Broadcast K))
    (hgen : generate rand fuel sc = some (.ok cap)) (hbs : broadcasts rand fuel sc = some bs) :
    List.Forall₂ (fun rx c => Quiet rx.clock →
      Along (Loop.turn rand fuel sc.seed rx) (Loop.Fits rand sc.seed rx)
        (Loop.init rand sc.seed rx) bs →
      (Along (Loop.turn rand fuel sc.seed rx) (Loop.Orderly rand sc.seed rx)
          (Loop.init rand sc.seed rx) bs →
        Clocked rand rx bs (Loop.run rand fuel sc.seed rx bs).stamps c) ∧
      (Explained rx.clock (Loop.run rand fuel sc.seed rx bs).stamps ↔
        Along (Loop.turn rand fuel sc.seed rx) (Loop.Orderly rand sc.seed rx)
          (Loop.init rand sc.seed rx) bs)) sc.receivers cap.clients := by
  rcases generate_clients rand fuel sc cap hgen with ⟨bs', hbs', hclients⟩
  rw [hbs] at hbs'
  cases hbs'
  refine hclients.imp fun rx c hbuild hquiet hfits => ?_
  have hiff := Loop.explained_run_iff rand fuel sc.seed rx hquiet bs hfits
  refine ⟨fun horder l hl p hp => ?_, hiff⟩
  rw [(buildClient_lines rand fuel sc rx bs c hbuild).2] at hl
  have hl' := (List.mem_insertionSort _).mp hl
  rcases (Loop.faithful_run rand fuel sc.seed rx bs).lines l hl' p hp with ⟨st, hst, hcount, hframe⟩
  rcases List.append_of_mem hst with ⟨before, after, hsplit⟩
  have harrive := Loop.stamps_arrive rand fuel sc.seed rx bs st hst
  exact ⟨before, st, after, hsplit, hcount, hframe, harrive.1, harrive.2,
    hiff.mpr horder before st after hsplit⟩

section Example

/-- Draws of 52 bits, as the streams of seed 189 give them; the other streams are
    not looked at here. -/
def draws : String → List Nat
  | "emit/3C6444" => [1285939740276379, 1186889243207536, 1598041730204553]
  | "emit/ABCDEF" => [1208431126839822, 1367985970773338, 2537950459596426]
  | _ => []

def uniform (lo hi : ℚ) (rng : List Nat) : ℚ × List Nat :=
  ((rng.headD 0 : ℚ) / 2 ^ 52 * (hi - lo) + lo, rng.tail)

def seeded : Rand ℚ (List Nat) where
  rngFor seed name := if seed = 189 then draws name else []
  genRange := uniform
  genRangeInclusive := uniform

/-- A receiver at sea level with a counter that is right. -/
def station : ReceiverSpec ℚ :=
  { id := "rx-000", lat := 0, lon := 0, altM := 0, clock := .dump1090 0 0 0 0 0 0, lossProb := 0
    maxRangeKm := none, reportedPosErrorM := 0, multipathProb := 0, compress := "none" }

/-- An aircraft that stands on the equator and reports its position twice a
    second. -/
def standing (icao : String) (lon altFt : ℚ) : AircraftSpec ℚ :=
  { icao := icao, kind := .adsb, traj := .orbit ⟨0, lon, altFt⟩ 0 0 false, posRateHz := 2
    df11RateHz := 1, df4RateHz := 4, navErrorM := 0 }

/-- Overhead. -/
def near : AircraftSpec ℚ := standing "3C6444" 0 30000

/-- Three degrees away, a millisecond. -/
def far : AircraftSpec ℚ := standing "ABCDEF" 3 35000

/-- One second of a scenario. -/
def second (aircraft : List (AircraftSpec ℚ)) : Scenario ℚ :=
  { seed := 189, durationS := 1, network := ⟨5, 40, 0⟩, receivers := [station]
    aircraft := aircraft }

end Example

/-- The near aircraft alone is stamped with the clock. -/
theorem stamps_are_clock_near : ∃ cap bs, generate seeded 10 (second [near]) = some (.ok cap) ∧
    broadcasts seeded 10 (second [near]) = some bs ∧ List.Forall₂ (fun rx c =>
      Clocked seeded rx bs (Loop.run seeded 10 189 rx bs).stamps c)
      (second [near]).receivers cap.clients := by
  rcases generate_single seeded 10 (second [near]) station rfl (by decide +kernel) with
    ⟨cap, bs, c, hcap, hbs, hc, _⟩
  refine ⟨cap, bs, hcap, hbs, ?_⟩
  have halong : ∀ bs ∈ broadcasts seeded 10 (second [near]),
      Along (Loop.turn seeded 10 189 station) (Loop.Fits seeded 189 station)
        (Loop.init seeded 189 station) bs ∧
      Along (Loop.turn seeded 10 189 station) (Loop.Orderly seeded 189 station)
        (Loop.init seeded 189 station) bs := by decide +kernel
  have hall := stamps_are_clock seeded 10 (second [near]) cap bs hcap hbs
  rw [hc] at hall ⊢
  rcases halong bs hbs with ⟨hfits, horder⟩
  rcases List.forall₂_cons.mp hall with ⟨hone, _⟩
  exact List.Forall₂.cons ((hone ⟨rfl, rfl, rfl⟩ hfits).1 horder) List.Forall₂.nil

/-- With the far aircraft besides, a report of the near one is lifted above the
    stamp of one that was sent before it and arrives after it. -/
theorem late_arrival_lifts : ∃ cap bs,
    generate seeded 10 (second [near, far]) = some (.ok cap) ∧
    broadcasts seeded 10 (second [near, far]) = some bs ∧
    ¬ List.Forall₂ (fun rx c => Quiet rx.clock →
      Clocked seeded rx bs (Loop.run seeded 10 189 rx bs).stamps c)
      (second [near, far]).receivers cap.clients := by
  rcases generate_single seeded 10 (second [near, far]) station rfl (by decide +kernel) with
    ⟨cap, bs, c, hcap, hbs, hc, _, hsent⟩
  refine ⟨cap, bs, hcap, hbs, fun hall => ?_⟩
  have hfacts : ∀ bs ∈ broadcasts seeded 10 (second [near, far]),
      (∃ l ∈ (Loop.run seeded 10 189 station bs).lines, ∃ p ∈ counts l.msg, p.1 = 7653837) ∧
      ∀ st ∈ (Loop.run seeded 10 189 station bs).stamps, st.count = 7653837 →
        modelCount station.clock st.t + (Loop.run seeded 10 189 station bs).stamps.length <
          st.count := by decide +kernel
  rcases hfacts bs hbs with ⟨⟨l, hl, p, hp, hcount⟩, hlifted⟩
  rw [hc] at hall
  rcases List.forall₂_cons.mp hall with ⟨hclocked, _⟩
  have hl' := (List.mem_insertionSort fun a b : Line ℚ => totalLe a.t b.t).mpr hl
  rcases hclocked ⟨rfl, rfl, rfl⟩ l (hsent ▸ hl') p hp with
    ⟨before, st, after, hsplit, heq, _, _, _, hsep⟩
  have hmem : st ∈ (Loop.run seeded 10 189 station bs).stamps := by
    rw [hsplit]
    exact List.mem_append_right _ List.mem_cons_self
  have hlt := hlifted st hmem (heq.trans hcount)
  have hle := hsep.le_length
  rw [hsplit, List.length_append] at hlt
  push_cast at hlt
  omega

end Sim

end MlatBench
