import Mathlib.Data.List.Infix
import MlatBench.Theory.Reception
import MlatBench.Theory.Stamps

/-!
# One Aircraft More

What an aircraft added to a scenario changes for the others. Its transmissions
are put between those of the others, whose own streams stay as they are. At a
receiver all share a clock, its hostile stream and the multipath stream: a
reception of the added aircraft moves them for those after it.

The two runs are followed side by side. Until the added aircraft has been heard
nothing differs. From then on the lines about the others stay the same if there
is no multipath and the clock neither wanders nor jumps, and if a stamp is not
held against a last count that the added aircraft has left.

## Main definitions

* `Scenario.adding`: An aircraft more.
* `Twin`, `Twin.turn`: The loop without it and the loop with it.
* `Twin.Apart`: What is shared makes no difference to a step.
* `Twin.Same`: What is about the others agrees.

## Theorems

* `broadcasts_adding`: What is transmitted besides.
* `Twin.same_turn`, `Twin.same_exec`: The others' lines and stamps stay.
* `lines_apart`: The others' lines in two captures.
-/

namespace MlatBench

namespace Sim

open Library F64 F64Fn F64Ln Modes Proto

variable {F R : Type} [F64Ln F]

def AircraftSpec.address {F : Type} (ac : AircraftSpec F) : Icao :=
  (Icao.fromHex ac.icao).getD ⟨0⟩

/-- An aircraft more, at some place of the list. -/
def Scenario.adding {F : Type} (sc : Scenario F) (n : Nat) (ac : AircraftSpec F) : Scenario F :=
  { sc with aircraft := sc.aircraft.take n ++ ac :: sc.aircraft.drop n }

section Broadcasts

/-- An aircraft transmits its own address. -/
theorem emissions_icao (rand : Rand F R) (fuel seed : Nat) (durS : F) (ac : AircraftSpec F)
    (bs : List (Broadcast F)) (h : emissions rand fuel seed durS ac = some bs) :
    ∀ b ∈ bs, b.icao = ac.address :=
  fun b hb => (emissions_framed rand fuel seed durS ac bs h b hb).1

/-- Without the added aircraft everything else is transmitted as it is. -/
theorem broadcasts_adding (horder : F64.TotalOrder F) (rand : Rand F R) (fuel : Nat)
    (sc : Scenario F) (n : Nat) (ac : AircraftSpec F)
    (hnew : ∀ a ∈ sc.aircraft, a.address ≠ ac.address) (bs : List (Broadcast F))
    (h : broadcasts rand fuel (sc.adding n ac) = some bs) :
    broadcasts rand fuel sc = some (bs.filter fun b => decide (b.icao ≠ ac.address)) := by
  rcases Option.map_eq_some_iff.mp h with ⟨all, hall, rfl⟩
  rcases mapM_insert _ _ _ _ all hall with ⟨as, e, cs, rfl, he, hrest⟩
  rw [List.take_append_drop] at hrest
  -- All of the others' is kept, and none of the added one's.
  have hkeep : ∀ b ∈ (as ++ cs).flatten, decide (b.icao ≠ ac.address) = true := by
    intro b hb
    rcases List.mem_flatten.mp hb with ⟨part, hpart, hb⟩
    rcases exists_of_forall₂_right (forall₂_of_mapM _ _ _ hrest) part hpart with ⟨a, ha, hemit⟩
    rw [emissions_icao rand fuel _ _ a part hemit b hb]
    exact decide_eq_true (hnew a ha)
  have hdrop : e.filter (fun b => decide (b.icao ≠ ac.address)) = [] := by
    refine List.filter_eq_nil_iff.mpr fun b hb => ?_
    rw [emissions_icao rand fuel _ _ ac e he b hb, decide_eq_true_eq]
    exact not_not.mpr rfl
  rw [List.flatten_append, List.forall_mem_append] at hkeep
  have hfilter : (as ++ e :: cs).flatten.filter (fun b => decide (b.icao ≠ ac.address)) =
      (as ++ cs).flatten := by
    rw [List.flatten_append, List.flatten_cons, List.filter_append, List.filter_append, hdrop,
      List.filter_eq_self.mpr hkeep.1, List.filter_eq_self.mpr hkeep.2, List.nil_append,
      List.flatten_append]
  have := horder.trans_key fun b : Broadcast F => b.tS
  have := horder.total_key fun b : Broadcast F => b.tS
  have hrest' : sc.aircraft.mapM (emissions rand fuel sc.seed (lit sc.durationS)) =
      some (as ++ cs) := hrest
  rw [filter_insertionSort, hfilter, broadcasts, hrest']
  rfl

end Broadcasts

/-- The loop without the added aircraft and the loop with it. The last field is
    history: the added aircraft has been heard. -/
structure Twin (F R : Type) where
  alone : Loop F R
  full : Loop F R
  mixed : Bool

namespace Loop

/-- The count of a transmission before it is held against the last one. -/
def rawReading (rand : Rand F R) (seed : Nat) (rx : ReceiverSpec F) (s : Loop F R)
    (b : Broadcast F) : Nat :=
  s.clock.rawCount (s.arrive rand rx b).1
    ((gaussian rand (s.jitterRng rand seed rx b.icao)).1 * s.clock.jitterS)

/-- A clock without wander and jumps, after some readings. -/
def Steady (rx : ReceiverSpec F) (s : Loop F R) : Prop :=
  ∃ lastT last, s.clock = ClockModel.after rx.clock lastT last

end Loop

namespace Twin

def init (rand : Rand F R) (seed : Nat) (rx : ReceiverSpec F) : Twin F R :=
  { alone := Loop.init rand seed rx, full := Loop.init rand seed rx, mixed := false }

/-- A transmission of the added aircraft is in one loop only. -/
def turn (rand : Rand F R) (fuel seed : Nat) (rx : ReceiverSpec F) (new : Icao) (w : Twin F R)
    (b : Broadcast F) : Twin F R :=
  if b.icao = new then
    { w with
      full := w.full.turn rand fuel seed rx b
      mixed := w.mixed || w.full.hears rand seed rx b }
  else
    { w with
      alone := w.alone.turn rand fuel seed rx b
      full := w.full.turn rand fuel seed rx b }

/-- Neither clock holds the count against its last one, or the last ones are the
    same. -/
def Agrees (rand : Rand F R) (seed : Nat) (rx : ReceiverSpec F) (w : Twin F R)
    (b : Broadcast F) : Prop :=
  w.alone.clock.clamps (w.full.rawReading rand seed rx b) = false ∧
    w.full.clock.clamps (w.full.rawReading rand seed rx b) = false ∨
  w.alone.clock.lastCount = w.full.clock.lastCount

/-- When another aircraft is heard after the added one, there is no multipath, the
    clock neither wanders nor jumps, and the last count makes no difference. -/
def Apart (rand : Rand F R) (seed : Nat) (rx : ReceiverSpec F) (new : Icao) (w : Twin F R)
    (b : Broadcast F) : Prop :=
  b.icao ≠ new → w.mixed = true → w.full.hears rand seed rx b = true →
    ¬ lit 0 < rx.multipathProb ∧ (ClockModel.new rx.clock : ClockModel F R).isHostile = false ∧
      w.Agrees rand seed rx b

instance (rand : Rand F R) (seed : Nat) (rx : ReceiverSpec F) (new : Icao) (w : Twin F R)
    (b : Broadcast F) : Decidable (w.Apart rand seed rx new b) :=
  inferInstanceAs (Decidable (_ → _ → _ → _ ∧ _ ∧ (_ ∧ _ ∨ _)))

/-- A line about an aircraft other than the added one. -/
def other (new : Icao) (l : Line F) : Bool :=
  decide (l.about ≠ none ∧ l.about ≠ some new)

/-- What is about the others agrees. -/
structure Same (rx : ReceiverSpec F) (new : Icao) (w : Twin F R) : Prop where
  loss : ∀ icao, icao ≠ new → w.alone.lossRngs icao = w.full.lossRngs icao
  jitter : ∀ icao, icao ≠ new → w.alone.jitterRngs icao = w.full.jitterRngs icao
  pending : ∀ icao, icao ≠ new → w.alone.pending icao = w.full.pending icao
  lines : w.alone.lines.filter (other new) = w.full.lines.filter (other new)
  stamps : w.alone.stamps = w.full.stamps.filter fun st => decide (st.b.icao ≠ new)
  before : w.mixed = false → w.alone.clock = w.full.clock ∧ w.alone.mpRng = w.full.mpRng
  steady : (ClockModel.new rx.clock : ClockModel F R).isHostile = false →
    w.alone.Steady rx ∧ w.full.Steady rx

end Twin

/-- What a reception becomes is about its aircraft. -/
theorem outcome_about (waiting : Option (PendingHalf F)) (b : Broadcast F) (t : F) (count : Nat) :
    ∀ l ∈ (outcome waiting b t count).2, l.about = some b.icao := by
  have hone : ∀ (msg : ClientMsg) (l : Line F),
      l ∈ [({ t := t, msg := msg, about := some b.icao } : Line F)] → l.about = some b.icao := by
    intro msg l hl
    rw [List.mem_singleton.mp hl]
  unfold outcome
  cases b.kind with
  | df17 odd =>
      cases waiting with
      | none => exact fun _ hl => absurd hl List.not_mem_nil
      | some p =>
          simp only []
          split_ifs
          · exact hone _
          · exact hone _
          · exact fun _ hl => absurd hl List.not_mem_nil
  | df11 => exact hone _
  | df4 => exact hone _

namespace Loop

/-- The lines about others than the added aircraft after a reception. -/
theorem Heard.lines_other {rand : Rand F R} {seed : Nat} {rx : ReceiverSpec F} {s : Loop F R}
    {b : Broadcast F} {s' : Loop F R} (h : Heard rand seed rx s b s') (new : Icao) :
    s'.lines.filter (Twin.other new) = s.lines.filter (Twin.other new) ++
      if b.icao = new then []
      else (outcome (s.pending b.icao) b (s.arrive rand rx b).1
        (s.reading rand seed rx b).2.2.1).2 := by
  rcases h.lines with ⟨asides, hasides, hlines⟩
  have haside : asides.filter (Twin.other new) = [] := by
    refine List.filter_eq_nil_iff.mpr fun l hl => ?_
    rw [Twin.other, decide_eq_true_eq]
    exact fun h => h.1 (hasides l hl).1
  have habout := outcome_about (s.pending b.icao) b (s.arrive rand rx b).1
    (s.reading rand seed rx b).2.2.1
  rw [hlines, List.filter_append, List.filter_append, haside, List.append_nil]
  congr 1
  by_cases hb : b.icao = new
  · rw [if_pos hb]
    refine List.filter_eq_nil_iff.mpr fun l hl => ?_
    rw [Twin.other, decide_eq_true_eq, habout l hl, hb]
    exact fun h => h.2 rfl
  · rw [if_neg hb]
    refine List.filter_eq_self.mpr fun l hl => ?_
    rw [Twin.other, decide_eq_true_eq, habout l hl]
    exact ⟨Option.some_ne_none _, fun h => hb (Option.some.inj h)⟩

/-- One reading of a steady clock. -/
theorem reading_steady (rand : Rand F R) (seed : Nat) (rx : ReceiverSpec F) (s : Loop F R)
    (b : Broadcast F) (h : s.Steady rx) :
    s.reading rand seed rx b =
      (ClockModel.after rx.clock (s.arrive rand rx b).1
        (some (s.clock.hold (s.rawReading rand seed rx b))),
      (gaussian rand (s.jitterRng rand seed rx b.icao)).2,
      s.clock.hold (s.rawReading rand seed rx b), false) := by
  rcases h with ⟨lastT, last, hclock⟩
  unfold reading rawReading
  rw [hclock]
  exact ClockModel.countAtHostile_after rand rx.clock lastT last _ _ _ _ rfl rfl

theorem steady_init (rand : Rand F R) (seed : Nat) (rx : ReceiverSpec F)
    (h : (ClockModel.new rx.clock : ClockModel F R).isHostile = false) :
    (init rand seed rx).Steady rx := by
  have hclock : (init rand seed rx).clock = ClockModel.new rx.clock :=
    if_neg (by rw [h]; exact Bool.false_ne_true)
  refine ⟨lit 0, none, ?_⟩
  rw [hclock]
  cases rx.clock <;> rfl

theorem steady_turn (rand : Rand F R) (fuel seed : Nat) (rx : ReceiverSpec F) (s : Loop F R)
    (b : Broadcast F) (h : s.Steady rx) : (s.turn rand fuel seed rx b).Steady rx := by
  rcases s.turn_cases rand fuel seed rx b with heq | heq | hheard
  · rw [heq]
    exact h
  · rw [heq]
    exact h
  · have hclock := hheard.clock
    rw [reading_steady rand seed rx (s.draw rand seed rx b) b h] at hclock
    exact ⟨_, _, hclock⟩

/-- A transmission leaves the other aircraft's streams and halves alone. -/
theorem turn_frame (rand : Rand F R) (fuel seed : Nat) (rx : ReceiverSpec F) (s : Loop F R)
    (b : Broadcast F) (icao : Icao) (h : icao ≠ b.icao) :
    (s.turn rand fuel seed rx b).lossRngs icao = s.lossRngs icao ∧
      (s.turn rand fuel seed rx b).jitterRngs icao = s.jitterRngs icao ∧
      (s.turn rand fuel seed rx b).pending icao = s.pending icao := by
  have hdraw : (s.draw rand seed rx b).lossRngs icao = s.lossRngs icao :=
    Function.update_of_ne h _ _
  rcases s.turn_cases rand fuel seed rx b with heq | heq | hheard
  · rw [heq]
    exact ⟨rfl, rfl, rfl⟩
  · rw [heq]
    exact ⟨hdraw, rfl, rfl⟩
  · refine ⟨?_, ?_, ?_⟩
    · rw [hheard.lossRngs]
      exact hdraw
    · rw [hheard.jitterRngs, Function.update_of_ne h]
      rfl
    · rw [hheard.pending, Function.update_of_ne h]
      rfl

/-- A transmission of the added aircraft adds nothing about the others. -/
theorem turn_added (rand : Rand F R) (fuel seed : Nat) (rx : ReceiverSpec F) (s : Loop F R)
    (b : Broadcast F) :
    (s.turn rand fuel seed rx b).lines.filter (Twin.other b.icao) =
      s.lines.filter (Twin.other b.icao) ∧
    (s.turn rand fuel seed rx b).stamps.filter (fun st => decide (st.b.icao ≠ b.icao)) =
      s.stamps.filter fun st => decide (st.b.icao ≠ b.icao) := by
  rcases s.turn_cases rand fuel seed rx b with heq | heq | hheard
  · rw [heq]
    exact ⟨rfl, rfl⟩
  · rw [heq]
    exact ⟨rfl, rfl⟩
  · rw [hheard.lines_other b.icao, if_pos rfl, List.append_nil, hheard.stamps, List.filter_append,
      List.filter_singleton]
    refine ⟨rfl, ?_⟩
    rw [decide_eq_false (not_not.mpr rfl)]
    exact List.append_nil _

end Loop

namespace Twin

theorem same_init (rand : Rand F R) (seed : Nat) (rx : ReceiverSpec F) (new : Icao) :
    Same rx new (init rand seed rx) :=
  ⟨fun _ _ => rfl, fun _ _ => rfl, fun _ _ => rfl, rfl, rfl, fun _ => ⟨rfl, rfl⟩,
    fun h => ⟨Loop.steady_init rand seed rx h, Loop.steady_init rand seed rx h⟩⟩

/-- The added aircraft transmits. -/
theorem same_added (rand : Rand F R) (fuel seed : Nat) (rx : ReceiverSpec F) (w : Twin F R)
    (b : Broadcast F) (hs : Same rx b.icao w) :
    Same rx b.icao (w.turn rand fuel seed rx b.icao b) := by
  unfold turn
  rw [if_pos rfl]
  have hframe := fun icao => w.full.turn_frame rand fuel seed rx b icao
  rcases w.full.turn_added rand fuel seed rx b with ⟨hlines, hstamps⟩
  refine ⟨fun icao h => ?_, fun icao h => ?_, fun icao h => ?_, ?_, ?_, fun hmixed => ?_,
    fun hpolite => ?_⟩
  · exact (hs.loss icao h).trans (hframe icao h).1.symm
  · exact (hs.jitter icao h).trans (hframe icao h).2.1.symm
  · exact (hs.pending icao h).trans (hframe icao h).2.2.symm
  · exact hs.lines.trans hlines.symm
  · exact hs.stamps.trans hstamps.symm
  · -- It has not been heard before, nor now.
    rcases Bool.or_eq_false_iff.mp hmixed with ⟨hbefore, hnow⟩
    rw [Loop.turn_unheard rand fuel seed rx w.full b hnow]
    split_ifs
    · exact hs.before hbefore
    · exact hs.before hbefore
  · exact ⟨(hs.steady hpolite).1, Loop.steady_turn rand fuel seed rx w.full b (hs.steady hpolite).2⟩

section Other

variable {rand : Rand F R} {fuel seed : Nat} {rx : ReceiverSpec F} {new : Icao} {w : Twin F R}
  {b : Broadcast F}

theorem Same.drawLoss (hs : Same rx new w) (hb : b.icao ≠ new) :
    w.alone.drawLoss rand seed rx b = w.full.drawLoss rand seed rx b := by
  unfold Loop.drawLoss
  rw [hs.loss b.icao hb]

theorem Same.hears (hs : Same rx new w) (hb : b.icao ≠ new) :
    w.alone.hears rand seed rx b = w.full.hears rand seed rx b := by
  unfold Loop.hears
  rw [hs.drawLoss hb]

theorem Same.jitterRng (hs : Same rx new w) (hb : b.icao ≠ new) :
    w.alone.jitterRng rand seed rx b.icao = w.full.jitterRng rand seed rx b.icao := by
  unfold Loop.jitterRng
  rw [hs.jitter b.icao hb]

/-- Without multipath the arrival is the way through the air. -/
theorem arrive_direct (h : ¬ lit 0 < rx.multipathProb) :
    (w.alone.arrive rand rx b).1 = (w.full.arrive rand rx b).1 := by
  unfold Loop.arrive
  rw [if_neg h, if_neg h]

/-- Counts before they are held are the same. -/
theorem Same.rawReading (hs : Same rx new w) (hb : b.icao ≠ new)
    (hmp : ¬ lit 0 < rx.multipathProb)
    (hpolite : (ClockModel.new rx.clock : ClockModel F R).isHostile = false) :
    w.alone.rawReading rand seed rx b = w.full.rawReading rand seed rx b := by
  rcases hs.steady hpolite with ⟨⟨t₁, last₁, halone⟩, t₂, last₂, hfull⟩
  unfold Loop.rawReading
  rw [arrive_direct hmp, hs.jitterRng hb, halone, hfull]
  rfl

/-- If the last counts make no difference, the same count comes out. -/
theorem hold_eq_of_agrees (spec : ClockSpec F) (t₁ t₂ : F) (last₁ last₂ : Option Nat) (m : Nat)
    (h : (ClockModel.after spec t₁ last₁ : ClockModel F R).clamps m = false ∧
        (ClockModel.after spec t₂ last₂ : ClockModel F R).clamps m = false ∨ last₁ = last₂) :
    (ClockModel.after spec t₁ last₁ : ClockModel F R).hold m =
      (ClockModel.after spec t₂ last₂ : ClockModel F R).hold m := by
  rcases h with ⟨h₁, h₂⟩ | rfl
  · unfold ClockModel.hold
    rw [h₁, h₂]
    rfl
  · rfl

/-- Before the added aircraft has been heard everything goes alike. -/
theorem Same.unmixed (hs : Same rx new w) (hb : b.icao ≠ new) (hmixed : w.mixed = false) :
    w.alone.arrive rand rx b = w.full.arrive rand rx b ∧
      w.alone.reading rand seed rx b = w.full.reading rand seed rx b := by
  rcases hs.before hmixed with ⟨hclock, hmp⟩
  have harrive : w.alone.arrive rand rx b = w.full.arrive rand rx b := by
    unfold Loop.arrive
    rw [hmp]
  refine ⟨harrive, ?_⟩
  unfold Loop.reading
  rw [hclock, harrive, hs.jitterRng hb]

/-- A transmission of another aircraft is stamped alike in both loops. -/
theorem Same.readings (hs : Same rx new w) (hb : b.icao ≠ new)
    (happ : w.Apart rand seed rx new b) (hhears : w.full.hears rand seed rx b = true) :
    (w.alone.arrive rand rx b).1 = (w.full.arrive rand rx b).1 ∧
      (w.alone.reading rand seed rx b).2.1 = (w.full.reading rand seed rx b).2.1 ∧
      (w.alone.reading rand seed rx b).2.2.1 = (w.full.reading rand seed rx b).2.2.1 := by
  cases hmixed : w.mixed with
  | false =>
      rcases hs.unmixed hb hmixed with ⟨harrive, hreading⟩
      rw [harrive, hreading]
      exact ⟨rfl, rfl, rfl⟩
  | true =>
      rcases happ hb hmixed hhears with ⟨hmp, hpolite, hagrees⟩
      rcases hs.steady hpolite with ⟨halone, hfull⟩
      have hraw : w.alone.rawReading rand seed rx b = w.full.rawReading rand seed rx b :=
        hs.rawReading hb hmp hpolite
      rw [Loop.reading_steady rand seed rx w.alone b halone,
        Loop.reading_steady rand seed rx w.full b hfull, hraw, hs.jitterRng hb]
      refine ⟨arrive_direct hmp, rfl, ?_⟩
      rcases halone with ⟨t₁, last₁, halone⟩
      rcases hfull with ⟨t₂, last₂, hfull⟩
      unfold Agrees at hagrees
      rw [halone, hfull] at hagrees ⊢
      exact hold_eq_of_agrees rx.clock t₁ t₂ last₁ last₂ _ hagrees

theorem Same.draw (hs : Same rx new w) (hb : b.icao ≠ new) (icao : Icao) (h : icao ≠ new) :
    (w.alone.draw rand seed rx b).lossRngs icao = (w.full.draw rand seed rx b).lossRngs icao := by
  change Function.update w.alone.lossRngs b.icao (some (w.alone.drawLoss rand seed rx b).2) icao =
    Function.update w.full.lossRngs b.icao (some (w.full.drawLoss rand seed rx b).2) icao
  by_cases hicao : icao = b.icao
  · rw [hicao, Function.update_self, Function.update_self, hs.drawLoss hb]
  · rw [Function.update_of_ne hicao, Function.update_of_ne hicao]
    exact hs.loss icao h

/-- Another aircraft is heard. -/
theorem same_heard (hs : Same rx new w) (hb : b.icao ≠ new) (happ : w.Apart rand seed rx new b)
    (hhears : w.full.hears rand seed rx b = true) :
    Same rx new { w with alone := w.alone.turn rand fuel seed rx b,
                         full := w.full.turn rand fuel seed rx b } := by
  have halone := Loop.turn_heard rand fuel seed rx w.alone b ((hs.hears hb).trans hhears)
  have hfull := Loop.turn_heard rand fuel seed rx w.full b hhears
  rcases hs.readings hb happ hhears with ⟨harrive, hjit, hcount⟩
  have hout : outcome (w.alone.pending b.icao) b (w.alone.arrive rand rx b).1
      (w.alone.reading rand seed rx b).2.2.1 = outcome (w.full.pending b.icao) b
      (w.full.arrive rand rx b).1 (w.full.reading rand seed rx b).2.2.1 := by
    rw [hs.pending b.icao hb, harrive, hcount]
  refine ⟨fun icao h => ?_, fun icao h => ?_, fun icao h => ?_, ?_, ?_, fun hmixed => ?_,
    fun hpolite => ?_⟩
  · change (w.alone.turn rand fuel seed rx b).lossRngs icao =
      (w.full.turn rand fuel seed rx b).lossRngs icao
    rw [halone.lossRngs, hfull.lossRngs]
    exact hs.draw hb icao h
  · change (w.alone.turn rand fuel seed rx b).jitterRngs icao =
      (w.full.turn rand fuel seed rx b).jitterRngs icao
    rw [halone.jitterRngs, hfull.jitterRngs]
    by_cases hicao : icao = b.icao
    · rw [hicao, Function.update_self, Function.update_self]
      exact congrArg some hjit
    · rw [Function.update_of_ne hicao, Function.update_of_ne hicao]
      exact hs.jitter icao h
  · change (w.alone.turn rand fuel seed rx b).pending icao =
      (w.full.turn rand fuel seed rx b).pending icao
    rw [halone.pending, hfull.pending]
    by_cases hicao : icao = b.icao
    · rw [hicao, Function.update_self, Function.update_self]
      exact congrArg Prod.fst hout
    · rw [Function.update_of_ne hicao, Function.update_of_ne hicao]
      exact hs.pending icao h
  · change (w.alone.turn rand fuel seed rx b).lines.filter (other new) =
      (w.full.turn rand fuel seed rx b).lines.filter (other new)
    rw [halone.lines_other new, hfull.lines_other new, if_neg hb, if_neg hb]
    exact congrArg₂ (· ++ ·) hs.lines (congrArg Prod.snd hout)
  · change (w.alone.turn rand fuel seed rx b).stamps =
      (w.full.turn rand fuel seed rx b).stamps.filter fun st => decide (st.b.icao ≠ new)
    rw [halone.stamps, hfull.stamps, List.filter_append, List.filter_singleton,
      decide_eq_true hb]
    have hstamp : ({ b := b, t := (w.alone.arrive rand rx b).1
                     count := (w.alone.reading rand seed rx b).2.2.1 } : Stamp F) =
        { b := b, t := (w.full.arrive rand rx b).1
          count := (w.full.reading rand seed rx b).2.2.1 } := by rw [harrive, hcount]
    exact congrArg₂ (· ++ ·) hs.stamps (congrArg (fun st => [st]) hstamp)
  · change (w.alone.turn rand fuel seed rx b).clock = (w.full.turn rand fuel seed rx b).clock ∧
      (w.alone.turn rand fuel seed rx b).mpRng = (w.full.turn rand fuel seed rx b).mpRng
    have hunmixed : w.alone.arrive rand rx b = w.full.arrive rand rx b ∧
        w.alone.reading rand seed rx b = w.full.reading rand seed rx b := hs.unmixed hb hmixed
    rw [halone.clock, hfull.clock, halone.mpRng, hfull.mpRng]
    exact ⟨congrArg Prod.fst hunmixed.2, congrArg Prod.snd hunmixed.1⟩
  · exact ⟨Loop.steady_turn rand fuel seed rx w.alone b (hs.steady hpolite).1,
      Loop.steady_turn rand fuel seed rx w.full b (hs.steady hpolite).2⟩

/-- Another aircraft transmits. -/
theorem same_other (hs : Same rx new w) (hb : b.icao ≠ new) (happ : w.Apart rand seed rx new b) :
    Same rx new (w.turn rand fuel seed rx new b) := by
  unfold turn
  rw [if_neg hb]
  cases hhears : w.full.hears rand seed rx b with
  | true => exact same_heard hs hb happ hhears
  | false =>
      rw [Loop.turn_unheard rand fuel seed rx w.full b hhears,
        Loop.turn_unheard rand fuel seed rx w.alone b ((hs.hears hb).trans hhears)]
      split_ifs
      · exact ⟨fun icao h => hs.draw hb icao h, hs.jitter, hs.pending, hs.lines, hs.stamps,
          hs.before, hs.steady⟩
      · exact hs

end Other

/-- A step keeps what is about the others the same. -/
theorem same_turn (rand : Rand F R) (fuel seed : Nat) (rx : ReceiverSpec F) (new : Icao)
    (w : Twin F R) (b : Broadcast F) (hs : Same rx new w) (happ : w.Apart rand seed rx new b) :
    Same rx new (w.turn rand fuel seed rx new b) := by
  by_cases hb : b.icao = new
  · subst hb
    exact same_added rand fuel seed rx w b hs
  · exact same_other hs hb happ

theorem same_exec (rand : Rand F R) (fuel seed : Nat) (rx : ReceiverSpec F) (new : Icao)
    (bs : List (Broadcast F))
    (h : Along (turn rand fuel seed rx new) (Apart rand seed rx new) (init rand seed rx) bs) :
    Same rx new (exec (turn rand fuel seed rx new) (init rand seed rx) bs) :=
  Along.invariant _ _ (Same rx new)
    (fun w b hs happ => same_turn rand fuel seed rx new w b hs happ) _ bs
    (same_init rand seed rx new) h

/-- The two loops of a twin run are the loops over all transmissions and over
    those of the others. -/
theorem exec_loops (rand : Rand F R) (fuel seed : Nat) (rx : ReceiverSpec F) (new : Icao)
    (bs : List (Broadcast F)) (w : Twin F R) :
    (exec (turn rand fuel seed rx new) w bs).alone =
      (bs.filter fun b => decide (b.icao ≠ new)).foldl (Loop.turn rand fuel seed rx) w.alone ∧
    (exec (turn rand fuel seed rx new) w bs).full =
      bs.foldl (Loop.turn rand fuel seed rx) w.full := by
  induction bs generalizing w with
  | nil => exact ⟨rfl, rfl⟩
  | cons b bs ih =>
      rcases ih (w.turn rand fuel seed rx new b) with ⟨halone, hfull⟩
      rw [exec_cons, halone, hfull, List.filter_cons, List.foldl_cons]
      unfold turn
      by_cases hb : b.icao = new
      · rw [if_pos hb, if_neg (by rw [decide_eq_true_eq]; exact not_not.mpr hb)]
        exact ⟨rfl, rfl⟩
      · rw [if_neg hb, if_pos (decide_eq_true hb), List.foldl_cons]
        exact ⟨rfl, rfl⟩

/-- One above the last counts can still be counted. -/
def Small (w : Twin F R) (_ : Broadcast F) : Prop :=
  (∀ prev ∈ w.alone.clock.lastCount, prev + 1 < 2 ^ 64) ∧
    ∀ prev ∈ w.full.clock.lastCount, prev + 1 < 2 ^ 64

theorem hold_cases (c : ClockModel F R) (m : Nat) :
    c.clamps m = false ∧ c.hold m = m ∨
      ∃ prev, c.lastCount = some prev ∧ m ≤ prev ∧ c.hold m = (prev + 1) % 2 ^ 64 := by
  cases hclamps : c.clamps m with
  | false => exact Or.inl ⟨rfl, if_neg (by rw [hclamps]; exact Bool.false_ne_true)⟩
  | true =>
      right
      unfold ClockModel.hold
      rw [if_pos hclamps]
      unfold ClockModel.clamps at hclamps
      cases hlast : c.lastCount with
      | none =>
          rw [hlast] at hclamps
          exact absurd hclamps Bool.false_ne_true
      | some prev =>
          rw [hlast] at hclamps
          exact ⟨prev, rfl, (of_decide_eq_true hclamps).2, rfl⟩

/-- If the same count comes out, the last counts made no difference. -/
theorem agrees_of_hold_eq (c d : ClockModel F R) (m : Nat)
    (hc : ∀ prev ∈ c.lastCount, prev + 1 < 2 ^ 64) (hd : ∀ prev ∈ d.lastCount, prev + 1 < 2 ^ 64)
    (h : c.hold m = d.hold m) :
    c.clamps m = false ∧ d.clamps m = false ∨ c.lastCount = d.lastCount := by
  rcases hold_cases c m with ⟨hc', hhold⟩ | ⟨prev, hprev, hle, hhold⟩
  · rcases hold_cases d m with ⟨hd', _⟩ | ⟨prev', hprev', hle', hhold'⟩
    · exact Or.inl ⟨hc', hd'⟩
    · -- One count is the reading, the other above it.
      rw [hhold, hhold', Nat.mod_eq_of_lt (hd prev' hprev')] at h
      omega
  · rw [hhold, Nat.mod_eq_of_lt (hc prev hprev)] at h
    rcases hold_cases d m with ⟨_, hhold'⟩ | ⟨prev', hprev', _, hhold'⟩
    · rw [hhold'] at h
      omega
    · rw [hhold', Nat.mod_eq_of_lt (hd prev' hprev')] at h
      rw [hprev, hprev', Nat.succ_injective h]
      exact Or.inr rfl

theorem stamps_isPrefix (rand : Rand F R) (fuel seed : Nat) (rx : ReceiverSpec F)
    (bs : List (Broadcast F)) (s : Loop F R) :
    s.stamps <+: (bs.foldl (Loop.turn rand fuel seed rx) s).stamps := by
  induction bs generalizing s with
  | nil => exact List.prefix_refl _
  | cons b bs ih =>
      refine List.IsPrefix.trans ?_ (ih (s.turn rand fuel seed rx b))
      rcases s.turn_cases rand fuel seed rx b with heq | heq | hheard
      · rw [heq]
      · rw [heq]
        exact List.prefix_refl _
      · rw [hheard.stamps]
        exact List.prefix_append _ _

/-- Two lists that begin differently do not become equal by going on. -/
theorem last_eq_of_isPrefix {α : Type} {xs zs : List α} {x y : α} (hx : xs ++ [x] <+: zs)
    (hy : xs ++ [y] <+: zs) : x = y := by
  have hlen : (xs ++ [x]).length = (xs ++ [y]).length := by
    rw [List.length_append, List.length_append, List.length_singleton, List.length_singleton]
  have heq := (List.prefix_of_prefix_length_le hx hy hlen.le).eq_of_length hlen
  exact List.singleton_inj.mp (List.append_cancel_left heq)

/-- A receiver without multipath whose clock neither wanders nor jumps: if all
    stamps of the others come out the same, the next step was kept apart. -/
theorem apart_of_stamps (rand : Rand F R) (fuel seed : Nat) (rx : ReceiverSpec F) (new : Icao)
    (hmp : ¬ lit 0 < rx.multipathProb)
    (hpolite : (ClockModel.new rx.clock : ClockModel F R).isHostile = false)
    (w : Twin F R) (b : Broadcast F) (bs : List (Broadcast F)) (hs : Same rx new w)
    (hsmall : w.Small b)
    (hfinal : (exec (turn rand fuel seed rx new) w (b :: bs)).alone.stamps =
      (exec (turn rand fuel seed rx new) w (b :: bs)).full.stamps.filter
        fun st => decide (st.b.icao ≠ new)) :
    w.Apart rand seed rx new b := by
  intro hb _ hhears
  refine ⟨hmp, hpolite, ?_⟩
  rcases exec_loops rand fuel seed rx new bs (w.turn rand fuel seed rx new b) with ⟨hal, hfu⟩
  rw [exec_cons, hal, hfu] at hfinal
  have halone := Loop.turn_heard rand fuel seed rx w.alone b ((hs.hears hb).trans hhears)
  have hfull := Loop.turn_heard rand fuel seed rx w.full b hhears
  have hturn : w.turn rand fuel seed rx new b =
      { w with alone := w.alone.turn rand fuel seed rx b,
               full := w.full.turn rand fuel seed rx b } := if_neg hb
  rw [hturn] at hfinal
  -- Both runs go on from one more stamp each.
  have hpre := stamps_isPrefix rand fuel seed rx (bs.filter fun b => decide (b.icao ≠ new))
    (w.alone.turn rand fuel seed rx b)
  have hpre' := (stamps_isPrefix rand fuel seed rx bs (w.full.turn rand fuel seed rx b)).filter
    fun st => decide (st.b.icao ≠ new)
  rw [halone.stamps] at hpre
  rw [hfull.stamps, List.filter_append, List.filter_singleton, decide_eq_true hb] at hpre'
  have hst := hs.stamps
  change w.alone.stamps ++ [_] <+: _ at hpre
  change (w.full.stamps.filter fun st => decide (st.b.icao ≠ new)) ++ [_] <+: _ at hpre'
  rw [← hst] at hpre'
  have hcount : (w.alone.reading rand seed rx b).2.2.1 = (w.full.reading rand seed rx b).2.2.1 :=
    congrArg Stamp.count (last_eq_of_isPrefix (hfinal ▸ hpre) hpre')
  rcases hs.steady hpolite with ⟨hsteady, hsteady'⟩
  rw [Loop.reading_steady rand seed rx w.alone b hsteady,
    Loop.reading_steady rand seed rx w.full b hsteady', hs.rawReading hb hmp hpolite] at hcount
  exact agrees_of_hold_eq w.alone.clock w.full.clock _ hsmall.1 hsmall.2 hcount

/-- Without multipath, wander and jumps the stamps of the others stay just when
    every step is kept apart. -/
theorem stamps_iff_apart (rand : Rand F R) (fuel seed : Nat) (rx : ReceiverSpec F) (new : Icao)
    (hmp : ¬ lit 0 < rx.multipathProb)
    (hpolite : (ClockModel.new rx.clock : ClockModel F R).isHostile = false)
    (bs : List (Broadcast F)) (w : Twin F R) (hs : Same rx new w)
    (hsmall : Along (turn rand fuel seed rx new) Small w bs) :
    (exec (turn rand fuel seed rx new) w bs).alone.stamps =
        ((exec (turn rand fuel seed rx new) w bs).full.stamps.filter
          fun st => decide (st.b.icao ≠ new)) ↔
      Along (turn rand fuel seed rx new) (Apart rand seed rx new) w bs := by
  induction bs generalizing w with
  | nil => exact iff_of_true hs.stamps trivial
  | cons b bs ih =>
      constructor
      · intro hfinal
        have happ := apart_of_stamps rand fuel seed rx new hmp hpolite w b bs hs hsmall.1 hfinal
        have hs' := same_turn rand fuel seed rx new w b hs happ
        exact ⟨happ, (ih _ hs' hsmall.2).mp hfinal⟩
      · intro h
        exact (ih _ (same_turn rand fuel seed rx new w b hs h.1) hsmall.2).mpr h.2

end Twin

/-- What a client sends about an aircraft. -/
def ClientStream.about (c : ClientStream F) (icao : Icao) : List ClientMsg :=
  ((c.records.flatMap SendRecord.lines).filter fun l => decide (l.about = some icao)).map Line.msg

/-- Lines about another aircraft that agree still do when sorted. -/
theorem sorted_about (horder : F64.TotalOrder F) (s s' : Loop F R) (new icao : Icao)
    (hicao : icao ≠ new) (h : s.lines.filter (Twin.other new) = s'.lines.filter (Twin.other new)) :
    s.sorted.filter (fun l => decide (l.about = some icao)) =
      s'.sorted.filter fun l => decide (l.about = some icao) := by
  have := horder.trans_key fun l : Line F => l.t
  have := horder.total_key fun l : Line F => l.t
  have hother : ∀ ls : List (Line F), ls.filter (fun l => decide (l.about = some icao)) =
      (ls.filter (Twin.other new)).filter fun l => decide (l.about = some icao) := by
    intro ls
    rw [List.filter_filter]
    refine List.filter_congr fun l _ => ?_
    by_cases hl : l.about = some icao
    · have hother : Twin.other new l = true := by
        refine decide_eq_true ⟨?_, ?_⟩
        · rw [hl]
          exact Option.some_ne_none icao
        · rw [hl]
          exact fun h => hicao (Option.some.inj h)
      rw [hother, Bool.and_true]
    · rw [decide_eq_false hl, Bool.false_and]
  unfold Loop.sorted
  rw [filter_insertionSort, filter_insertionSort, hother, hother s'.lines, h]

/-- If the added aircraft is kept apart at every step, a client sends the same
    about every other aircraft. At a receiver without multipath whose clock
    neither wanders nor jumps, all receptions of the others are stamped the same
    only then. -/
theorem lines_apart (horder : F64.TotalOrder F) (rand : Rand F R) (fuel : Nat) (sc : Scenario F)
    (n : Nat) (ac : AircraftSpec F) (hnew : ∀ a ∈ sc.aircraft, a.address ≠ ac.address)
    (cap cap' : GeneratedCapture F) (bs : List (Broadcast F))
    (hgen : generate rand fuel sc = some (.ok cap))
    (hgen' : generate rand fuel (sc.adding n ac) = some (.ok cap'))
    (hbs : broadcasts rand fuel (sc.adding n ac) = some bs) (i : Nat) (rx : ReceiverSpec F)
    (c c' : ClientStream F) (hrx : sc.receivers[i]? = some rx) (hc : cap.clients[i]? = some c)
    (hc' : cap'.clients[i]? = some c') :
    (Along (Twin.turn rand fuel sc.seed rx ac.address) (Twin.Apart rand sc.seed rx ac.address)
        (Twin.init rand sc.seed rx) bs →
      ∀ a ∈ sc.aircraft, c.about a.address = c'.about a.address) ∧
    (¬ lit 0 < rx.multipathProb →
      (ClockModel.new rx.clock : ClockModel F R).isHostile = false →
      Along (Twin.turn rand fuel sc.seed rx ac.address) Twin.Small (Twin.init rand sc.seed rx) bs →
      ((Loop.run rand fuel sc.seed rx (bs.filter fun b => decide (b.icao ≠ ac.address))).stamps =
          ((Loop.run rand fuel sc.seed rx bs).stamps.filter
            fun st => decide (st.b.icao ≠ ac.address)) ↔
        Along (Twin.turn rand fuel sc.seed rx ac.address) (Twin.Apart rand sc.seed rx ac.address)
          (Twin.init rand sc.seed rx) bs)) := by
  rcases generate_clients rand fuel sc cap hgen with ⟨bs₁, hbs₁, hclients⟩
  rcases generate_clients rand fuel (sc.adding n ac) cap' hgen' with ⟨bs₂, hbs₂, hclients'⟩
  rw [broadcasts_adding horder rand fuel sc n ac hnew bs hbs] at hbs₁
  rw [hbs] at hbs₂
  cases hbs₁
  cases hbs₂
  have hsent := (buildClient_lines rand fuel sc rx _ c (forall₂_getElem? hclients i rx c hrx hc)).2
  have hsent' := (buildClient_lines rand fuel (sc.adding n ac) rx _ c'
    (forall₂_getElem? hclients' i rx c' hrx hc')).2
  rcases Twin.exec_loops rand fuel sc.seed rx ac.address bs (Twin.init rand sc.seed rx) with
    ⟨halone, hfull⟩
  constructor
  · intro happ a ha
    have hlines := (Twin.same_exec rand fuel sc.seed rx ac.address bs happ).lines
    rw [halone, hfull] at hlines
    unfold ClientStream.about
    rw [hsent, hsent']
    exact congrArg (List.map Line.msg)
      (sorted_about horder _ _ ac.address a.address (hnew a ha) hlines)
  · intro hmp hpolite hsmall
    have hiff := Twin.stamps_iff_apart rand fuel sc.seed rx ac.address hmp hpolite bs _
      (Twin.same_init rand sc.seed rx ac.address) hsmall
    rw [halone, hfull] at hiff
    exact hiff

/-- The far aircraft alone and with the near one: its lines are the same. -/
theorem lines_apart_far : ∃ cap cap' c c',
    generate seeded 10 (second [far]) = some (.ok cap) ∧
    generate seeded 10 ((second [far]).adding 0 near) = some (.ok cap') ∧
    cap.clients = [c] ∧ cap'.clients = [c'] ∧ c.about far.address = c'.about far.address := by
  rcases generate_single seeded 10 (second [far]) station rfl (by decide +kernel) with
    ⟨cap, _, c, hcap, _, hc, _⟩
  rcases generate_single seeded 10 ((second [far]).adding 0 near) station rfl (by decide +kernel)
    with ⟨cap', bs, c', hcap', hbs, hc', _⟩
  have happ : ∀ bs ∈ broadcasts seeded 10 ((second [far]).adding 0 near),
      Along (Twin.turn seeded 10 189 station near.address)
        (Twin.Apart seeded 189 station near.address) (Twin.init seeded 189 station) bs := by
    decide +kernel
  have hboth := lines_apart (F64.totalOrder_exact ℚ) seeded 10 (second [far]) 0 near
    (by decide +kernel) cap cap' bs hcap hcap' hbs 0 station c c' rfl (by rw [hc]; rfl)
    (by rw [hc']; rfl)
  exact ⟨cap, cap', c, c', hcap, hcap', hc, hc', hboth.1 (happ bs hbs) far List.mem_cons_self⟩

/-- The near aircraft alone and with the far one: a report is stamped otherwise. -/
theorem added_aircraft_shows : ∃ cap cap' c c',
    generate seeded 10 (second [near]) = some (.ok cap) ∧
    generate seeded 10 ((second [near]).adding 1 far) = some (.ok cap') ∧
    far.address ≠ near.address ∧ station.compress = "none" ∧
    cap.clients = [c] ∧ cap'.clients = [c'] ∧ c.about near.address ≠ c'.about near.address := by
  rcases generate_single seeded 10 (second [near]) station rfl (by decide +kernel) with
    ⟨cap, bs, c, hcap, hbs, hc, _, hsent⟩
  rcases generate_single seeded 10 ((second [near]).adding 1 far) station rfl (by decide +kernel)
    with ⟨cap', bs', c', hcap', hbs', hc', _, hsent'⟩
  have hfacts : ∀ bs ∈ broadcasts seeded 10 (second [near]),
      ∀ bs' ∈ broadcasts seeded 10 ((second [near]).adding 1 far),
        ((Loop.run seeded 10 189 station bs).sorted.filter
          fun l => decide (l.about = some near.address)).map Line.msg ≠
        ((Loop.run seeded 10 189 station bs').sorted.filter
          fun l => decide (l.about = some near.address)).map Line.msg := by decide +kernel
  refine ⟨cap, cap', c, c', hcap, hcap', by decide +kernel, rfl, hc, hc', ?_⟩
  unfold ClientStream.about
  rw [hsent, hsent']
  exact hfacts bs hbs bs' hbs'

end Sim

end MlatBench
