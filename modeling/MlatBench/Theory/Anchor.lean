import Mathlib.Tactic.LinearCombination
import MlatBench.Core.Anchor
import MlatBench.Library.Ext

/-!
# What the Anchor Says

A server stamps its results on a clock of its own, which runs at the speed of the
replay. Whatever the order in which the clients read its heartbeats, the anchor is
one with the least delay, and with the start of the scenario made from it a stamp
comes to the time of the scenario at which it was made, up to that delay.

## Main definitions

* `StampClock`: The clock of the server.
* `Arrival`: What a client reads, with the delay of the heartbeats.
* `Best`: A heartbeat with the least delay among some lines.

## Theorems

* `readLine_best`, `feed_best`: The anchor is the best of what was read.
* `lag_le_iff`: The heartbeats compare by their delay.
* `replay_recorded`: What a complete run has recorded.
* `anchor_maps_stamps`: Stamps become times of the scenario.
-/

namespace MlatBench

open Library F64 Metrics

namespace Anchor

section

variable {K : Type} [Field K] [LinearOrder K]

/-- A clock that runs at a speed, with its reading at some real time. -/
structure StampClock (K : Type) where
  h0 : K
  r0 : K
  speed : K

/-- The reading of the clock at a real time. -/
def StampClock.at (c : StampClock K) (r : K) : K :=
  c.h0 + c.speed * (r - c.r0)

/-- What a client reads: a heartbeat sent at a real time and read later by a delay,
    or another line. -/
inductive Arrival (K : Type) where
  | heartbeat (sent lag : K)
  | line (now : K) (msg : ServerMsg K)

def Arrival.read (c : StampClock K) : Arrival K → K × ServerMsg K
  | .heartbeat sent lag => (sent + lag, .heartbeat (some (c.at sent)))
  | .line now msg => (now, msg)

/-- No other line is a heartbeat with a time. -/
def Arrival.Proper : Arrival K → Prop
  | .heartbeat _ _ => True
  | .line _ msg => ∀ st, msg ≠ .heartbeat (some st)

/-- An anchor is a heartbeat of some lines with the least delay, if there is one. -/
def Best (speed : K) (lines : List (K × ServerMsg K)) : Option (K × K) → Prop
  | none => ∀ now st, (now, ServerMsg.heartbeat (some st)) ∉ lines
  | some (now, st) => (now, ServerMsg.heartbeat (some st)) ∈ lines ∧
      ∀ now' st', (now', ServerMsg.heartbeat (some st')) ∈ lines →
        st' - speed * now' ≤ st - speed * now

/-- A line that is no heartbeat with a time leaves the anchor as it is. -/
theorem best_plain (speed : K) (lines : List (K × ServerMsg K)) (a : Option (K × K))
    (line : K × ServerMsg K) (hplain : ∀ st, line.2 ≠ .heartbeat (some st))
    (h : Best speed lines a) : Best speed (lines ++ [line]) a := by
  have hmem : ∀ now st, (now, ServerMsg.heartbeat (some st)) ∈ lines ++ [line] ↔
      (now, ServerMsg.heartbeat (some st)) ∈ lines := by
    intro now st
    rw [List.mem_append, List.mem_singleton, or_iff_left]
    intro heq
    exact hplain st (congrArg Prod.snd heq).symm
  cases a with
  | none => exact fun now st hin => h now st ((hmem now st).mp hin)
  | some p => exact ⟨(hmem _ _).mpr h.1, fun now st hin => h.2 now st ((hmem now st).mp hin)⟩

omit [LinearOrder K] in
/-- The start of the scenario made from a heartbeat with a delay. -/
theorem start_of_anchor (c : StampClock K) (wallT0 sent lag r : K) :
    c.at r - (c.at sent - (sent + lag - wallT0) * c.speed) = (r - wallT0 + lag) * c.speed := by
  unfold StampClock.at
  ring

omit [LinearOrder K] in
/-- The heartbeats with a time among the lines read are those that arrived. -/
theorem mem_read_iff (c : StampClock K) (streams : List (List (Arrival K)))
    (hproper : ∀ a ∈ streams.flatten, a.Proper) (now st : K) :
    (now, ServerMsg.heartbeat (some st)) ∈ (streams.map (List.map (Arrival.read c))).flatten ↔
      ∃ sent lag, Arrival.heartbeat sent lag ∈ streams.flatten ∧ now = sent + lag ∧
        st = c.at sent := by
  rw [← List.map_flatten, List.mem_map]
  constructor
  · rintro ⟨a, ha, hread⟩
    cases a with
    | heartbeat sent lag =>
        cases hread
        exact ⟨sent, lag, ha, rfl, rfl⟩
    | line now' msg =>
        cases hread
        exact absurd rfl (hproper _ ha st)
  · rintro ⟨sent, lag, ha, rfl, rfl⟩
    exact ⟨_, ha, rfl⟩

variable [IsStrictOrderedRing K] [FloorRing K] [Fns K]

local instance (priority := low) exactAnchor : F64Fn K := F64.exactFn K

omit [IsStrictOrderedRing K] in
/-- Reading a line keeps the best. -/
theorem readLine_best (speed : K) (lines : List (K × ServerMsg K)) (s : Shared K)
    (line : K × ServerMsg K) (h : Best speed lines s.hbAnchor) :
    Best speed (lines ++ [line]) (s.readLine speed line).hbAnchor := by
  rcases line with ⟨now, msg⟩
  cases msg with
  | result => exact best_plain speed lines _ _ (fun st heq => by cases heq) h
  | other => exact best_plain speed lines _ _ (fun st heq => by cases heq) h
  | heartbeat serverTime =>
      cases serverTime with
      | none => exact best_plain speed lines _ _ (fun st heq => by cases heq) h
      | some st =>
          -- Any heartbeat is an old one or the new one.
          have hmem : ∀ now' st', (now', ServerMsg.heartbeat (some st')) ∈
              lines ++ [(now, ServerMsg.heartbeat (some st))] ↔
                (now', ServerMsg.heartbeat (some st')) ∈ lines ∨ (now' = now ∧ st' = st) := by
            intro now' st'
            rw [List.mem_append, List.mem_singleton, Prod.mk.injEq, ServerMsg.heartbeat.injEq,
              Option.some.injEq]
          simp only [Shared.readLine]
          cases ha : s.hbAnchor with
          | none =>
              rw [ha] at h
              rw [if_pos (show better speed none now st = true from rfl)]
              refine ⟨(hmem now st).mpr (Or.inr ⟨rfl, rfl⟩), fun now' st' hin => ?_⟩
              rcases (hmem now' st').mp hin with hold | ⟨rfl, rfl⟩
              · exact absurd hold (h now' st')
              · exact le_refl _
          | some p =>
              rcases p with ⟨pa, ph⟩
              rw [ha] at h
              rcases h with ⟨hp, hbest⟩
              -- The new one takes the place of the old one only if it is better.
              by_cases hbetter : ph - speed * pa < st - speed * now
              · rw [if_pos (show better speed (some (pa, ph)) now st = true from
                  decide_eq_true hbetter)]
                refine ⟨(hmem now st).mpr (Or.inr ⟨rfl, rfl⟩), fun now' st' hin => ?_⟩
                rcases (hmem now' st').mp hin with hold | ⟨rfl, rfl⟩
                · exact (hbest now' st' hold).trans hbetter.le
                · exact le_refl _
              · rw [if_neg (show ¬ better speed (some (pa, ph)) now st = true from fun hb =>
                  hbetter (of_decide_eq_true hb)), ha]
                refine ⟨(hmem pa ph).mpr (Or.inl hp), fun now' st' hin => ?_⟩
                rcases (hmem now' st').mp hin with hold | ⟨rfl, rfl⟩
                · exact hbest now' st' hold
                · exact not_lt.mp hbetter

omit [IsStrictOrderedRing K] in
/-- What was read in any order has left the best as the anchor. -/
theorem exec_best (speed : K) (lines : List (K × ServerMsg K)) :
    Best speed lines (exec (Shared.readLine speed) ⟨0, none⟩ lines).hbAnchor := by
  induction lines using List.reverseRecOn with
  | nil => exact fun now st => List.not_mem_nil
  | append_singleton lines line ih =>
      rw [exec_append]
      exact readLine_best speed lines _ line ih

omit [IsStrictOrderedRing K] in
/-- When every client has read its lines, the anchor is the best of them. -/
theorem feed_best (speed : K) (streams : List (List (K × ServerMsg K))) (turns : List Nat)
    (hdone : ∀ rest ∈ (feed speed streams turns).2, rest = []) :
    Best speed streams.flatten (feed speed streams turns).1.hbAnchor := by
  rcases exec_turn (Shared.readLine speed) ⟨0, none⟩ streams turns with ⟨done, hrun, hperm⟩
  -- What has been read, in whatever order, is what the streams hold.
  have hnil : (feed speed streams turns).2.flatten = [] := List.flatten_eq_nil_iff.mpr hdone
  change (feed speed streams turns).1 = _ at hrun
  change (done ++ (feed speed streams turns).2.flatten).Perm _ at hperm
  rw [hnil, List.append_nil] at hperm
  have hbest := exec_best speed done
  rw [hrun]
  cases ha : (exec (Shared.readLine speed) ⟨0, none⟩ done).hbAnchor with
  | none =>
      rw [ha] at hbest
      exact fun now st hin => hbest now st (hperm.mem_iff.mpr hin)
  | some p =>
      rw [ha] at hbest
      exact ⟨hperm.mem_iff.mp hbest.1, fun now st hin => hbest.2 now st (hperm.mem_iff.mpr hin)⟩

/-- Of two heartbeats the better one has the smaller delay. -/
theorem lag_le_iff (c : StampClock K) (hspeed : 0 < c.speed) (sent lag sent' lag' : K) :
    c.at sent' - c.speed * (sent' + lag') ≤ c.at sent - c.speed * (sent + lag) ↔ lag ≤ lag' := by
  have hdiff : c.at sent - c.speed * (sent + lag) - (c.at sent' - c.speed * (sent' + lag')) =
      c.speed * (lag' - lag) := by
    unfold StampClock.at
    ring
  rw [← sub_nonneg, hdiff, mul_nonneg_iff_of_pos_left hspeed, sub_nonneg]

omit [IsStrictOrderedRing K] in
/-- The scorer sees a row at its stamp minus the start. -/
theorem judge_shift (truth : TruthIndex K) (w t : K) (knownUntruthed : Finset Icao)
    (row : CsvRow K) (ht : row.tWall - w = t) :
    judge truth w knownUntruthed row = judge truth 0 knownUntruthed { row with tWall := t } := by
  unfold judge
  simp only [ht, sub_zero]

/-- What a complete run has recorded: the start and the speed, and the heartbeat with
    the least delay, if there was one. -/
theorem replay_recorded (c : StampClock K) (wallT0 : K) (streams : List (List (Arrival K)))
    (hproper : ∀ a ∈ streams.flatten, a.Proper) (turns : List Nat) (run : RunJson K)
    (hrun : replay c.speed wallT0 (streams.map (List.map (Arrival.read c))) turns = .ok run)
    (hdone : ∀ rest ∈ (feed c.speed (streams.map (List.map (Arrival.read c))) turns).2,
      rest = []) :
    0 < c.speed ∧ run.wallT0 = some wallT0 ∧ run.speed = some c.speed ∧
      ((run.hbAnchor = none ∧ ∀ sent lag, Arrival.heartbeat sent lag ∉ streams.flatten) ∨
        ∃ sent lag, Arrival.heartbeat sent lag ∈ streams.flatten ∧
          (∀ sent' lag', Arrival.heartbeat sent' lag' ∈ streams.flatten → lag ≤ lag') ∧
          run.hbAnchor = some (sent + lag, c.at sent)) := by
  have hone : (lit 1 : K) = 1 := Rat.cast_one
  unfold replay at hrun
  split_ifs at hrun with hspeed
  cases hrun
  rw [hone] at hspeed
  have hpos : 0 < c.speed := zero_lt_one.trans_le hspeed.1
  refine ⟨hpos, rfl, rfl, ?_⟩
  have hbest := feed_best c.speed (streams.map (List.map (Arrival.read c))) turns hdone
  -- The heartbeats read are those that arrived, and the best has the least delay.
  have hmem := mem_read_iff c streams hproper
  cases ha : (feed c.speed (streams.map (List.map (Arrival.read c))) turns).1.hbAnchor with
  | none =>
      rw [ha] at hbest
      exact Or.inl ⟨rfl, fun sent lag hin => hbest _ _ ((hmem _ _).mpr ⟨sent, lag, hin, rfl, rfl⟩)⟩
  | some p =>
      rw [ha] at hbest
      rcases p with ⟨now, st⟩
      rcases (hmem now st).mp hbest.1 with ⟨sent, lag, hin, rfl, rfl⟩
      refine Or.inr ⟨sent, lag, hin, fun sent' lag' hin' => ?_, rfl⟩
      exact (lag_le_iff c hpos sent lag sent' lag').mp
        (hbest.2 _ _ ((hmem _ _).mpr ⟨sent', lag', hin', rfl, rfl⟩))

/-- However many clients read in whatever order, the anchor is a heartbeat with the
    least delay, and a row stamped at a real time is scored at the time of the
    scenario it was made at, later by that delay. The start is the same for every
    order. -/
theorem anchor_maps_stamps (c : StampClock K) (wallT0 : K) (streams : List (List (Arrival K)))
    (hproper : ∀ a ∈ streams.flatten, a.Proper) (turns : List Nat) (run : RunJson K)
    (hrun : replay c.speed wallT0 (streams.map (List.map (Arrival.read c))) turns = .ok run)
    (hdone : ∀ rest ∈ (feed c.speed (streams.map (List.map (Arrival.read c))) turns).2,
      rest = []) :
    ((run.hbAnchor = none ∧ ∀ sent lag, Arrival.heartbeat sent lag ∉ streams.flatten) ∨
      ∃ sent lag, Arrival.heartbeat sent lag ∈ streams.flatten ∧
        (∀ sent' lag', Arrival.heartbeat sent' lag' ∈ streams.flatten → lag ≤ lag') ∧
        run.hbAnchor = some (sent + lag, c.at sent) ∧
        ∃ w, effectiveWallT0 run = .ok w ∧ ∀ (r : K) (truth : TruthIndex K)
          (knownUntruthed : Finset Icao) (row : CsvRow K), row.tWall = c.at r →
            row.tWall - w = (r - wallT0 + lag) * c.speed ∧
            judge truth w knownUntruthed row = judge truth 0 knownUntruthed
              { row with tWall := (r - wallT0 + lag) * c.speed }) ∧
    ∀ turns' run',
      replay c.speed wallT0 (streams.map (List.map (Arrival.read c))) turns' = .ok run' →
      (∀ rest ∈ (feed c.speed (streams.map (List.map (Arrival.read c))) turns').2, rest = []) →
        effectiveWallT0 run' = effectiveWallT0 run := by
  rcases replay_recorded c wallT0 streams hproper turns run hrun hdone with ⟨hpos, hwall, hspeed, hanchor⟩
  refine ⟨?_, fun turns' run' hrun' hdone' => ?_⟩
  · rcases hanchor with hnone | ⟨sent, lag, hin, hleast, ha⟩
    · exact Or.inl hnone
    · refine Or.inr ⟨sent, lag, hin, hleast, ha, c.at sent - (sent + lag - wallT0) * c.speed,
        ?_, ?_⟩
      · simp only [effectiveWallT0, hwall, hspeed, ha, Option.getD_some]
      · intro r truth knownUntruthed row hrow
        have htime := start_of_anchor c wallT0 sent lag r
        rw [← hrow] at htime
        exact ⟨htime, judge_shift truth _ _ knownUntruthed row htime⟩
  · -- Two anchors with the least delay give one start.
    rcases replay_recorded c wallT0 streams hproper turns' run' hrun' hdone' with
      ⟨_, hwall', hspeed', hanchor'⟩
    rcases hanchor with ⟨hnone, hempty⟩ | ⟨sent, lag, hin, hleast, ha⟩
    · rcases hanchor' with ⟨hnone', _⟩ | ⟨sent', lag', hin', _, _⟩
      · simp only [effectiveWallT0, hwall, hwall', hspeed, hspeed', hnone, hnone']
      · exact absurd hin' (hempty sent' lag')
    · rcases hanchor' with ⟨_, hempty'⟩ | ⟨sent', lag', hin', hleast', ha'⟩
      · exact absurd hin (hempty' sent lag)
      · -- They have the same delay, and the start depends on nothing else.
        have hlag : lag' = lag := le_antisymm (hleast' _ _ hin) (hleast _ _ hin')
        have hstart := start_of_anchor c wallT0 sent lag 0
        have hstart' := start_of_anchor c wallT0 sent' lag' 0
        rw [hlag] at hstart'
        have heq : c.at sent' - (sent' + lag - wallT0) * c.speed =
            c.at sent - (sent + lag - wallT0) * c.speed := by
          linear_combination hstart - hstart'
        simp only [effectiveWallT0, hwall, hwall', hspeed, hspeed', ha, ha', hlag,
          Option.getD_some, heq]

end

/-- Two clients. The heartbeat of the second was read with more delay. -/
def twoReaders : List (List (Arrival ℚ)) :=
  [[.line 1 .other, .heartbeat 2 (1 / 10), .line 3 .result], [.heartbeat 1 (1 / 2)]]

theorem anchor_maps_stamps_two :
    ∃ w, effectiveWallT0 ⟨some 0, some 2, some (21 / 10, 1004)⟩ = .ok w ∧
      (1010 : ℚ) - w = (5 - 0 + 1 / 10) * 2 := by
  have hproper : ∀ a ∈ twoReaders.flatten, a.Proper := by
    intro a ha
    simp only [twoReaders, List.flatten_cons, List.flatten_nil, List.append_nil, List.cons_append,
      List.nil_append, List.mem_cons, List.not_mem_nil, or_false] at ha
    rcases ha with rfl | rfl | rfl | rfl
    · exact fun st h => by cases h
    · trivial
    · exact fun st h => by cases h
    · trivial
  have h := (anchor_maps_stamps ⟨1000, 0, 2⟩ (0 : ℚ) twoReaders
    hproper [1, 0, 0, 0] ⟨some 0, some 2, some (21 / 10, 1004)⟩ (by decide +kernel)
    (by decide +kernel)).1
  rcases h with ⟨hnone, _⟩ | ⟨sent, lag, _, _, ha, w, hw, hrow⟩
  · exact absurd hnone (Option.some_ne_none _)
  · have hsent : sent + lag = 21 / 10 ∧ (⟨1000, 0, 2⟩ : StampClock ℚ).at sent = 1004 := by
      rw [Option.some.injEq, Prod.mk.injEq] at ha
      exact ⟨ha.1.symm, ha.2.symm⟩
    simp only [StampClock.at] at hsent
    have hlag : lag = 1 / 10 := by linarith [hsent.1, hsent.2]
    have htime := (hrow 5 (TruthIndex.build []) ∅ ⟨1010, ⟨0⟩, 0, 0, none, none⟩
      (by norm_num [StampClock.at])).1
    rw [hlag] at htime
    exact ⟨w, hw, htime⟩

end Anchor

end MlatBench
