import MlatBench.Library.Runs
import MlatBench.Theory.Slots

/-!
# Isolation of Generations and Clocks

Every message names the generation of its slot, but what waits for a sweep names
the slot alone. So what a receiver reported before it left may meet the one that
took its slot, and what it reported before a clock reset may meet its new clock.

Both are excluded in every run whose steps find nothing pending where it would do
harm: no report of the slot when it is taken again, and no report of the receiver
and no stamp offset when its clock is reset.

## Main definitions

* `State.SlotClear`, `State.ClockClear`: Nothing pending where it would do harm.
* `State.Attributed`, `State.Fresh`: What such runs keep.

## Theorems

* `attributed_step`, `fresh_step`: One step.
* `generation_isolation`: Reports count for the receiver that made them.
* `reset_isolation`: No reading from before a reset is used after it.
-/

namespace MlatBench

namespace Server

open Library F64 F64Fn Modes

variable {F : Type} [F64Fn F]

namespace State

/-- A slot that is taken again has no pending report. -/
def SlotClear (s : State F) : Event F → Prop
  | .add info => ∀ o, ¬ s.Reports (s.slotFor info) o
  | _ => True

/-- Pending reports of a slot that is alive were made under its live reference. -/
structure Attributed (s : State F) : Prop where
  sized : s.Sized
  reports : ∀ i o, s.Reports i o → o.ref.idx = i ∧ (s.isAlive i = true → s.live o.ref = true)
  uses : ∀ u ∈ s.uses, u.kind = .push ∨ u.kind = .observe → u.live = true

section

omit [F64Fn F]

theorem not_reports (s : State F) (hs : ∀ k, s.syncpoints k = none) (hg : ∀ k, s.groups k = none)
    (i : Nat) (o : Origin) : ¬ s.Reports i o := by
  rintro (⟨k, sp, rep, hk, _⟩ | ⟨k, g, e, hk, _⟩)
  · exact absurd ((hs k).symm.trans hk) (Option.some_ne_none sp).symm
  · exact absurd ((hg k).symm.trans hk) (Option.some_ne_none g).symm

theorem attributed_new (shardId : Nat) (mlatAdsb emitFiltered : Bool) :
    Attributed (State.new shardId mlatAdsb emitFiltered : State F) where
  sized := sized_new shardId mlatAdsb emitFiltered
  reports i o hr := absurd hr (not_reports _ (fun _ => rfl) (fun _ => rfl) i o)
  uses _ hu := absurd hu List.not_mem_nil

/-- What is seen of a slot that is alive was reported under its live reference. -/
theorem Attributed.seen (s : State F) (h : Attributed s) (i : Nat) (o : Origin)
    (hs : s.Seen i o) : o.ref.idx = i ∧ (s.isAlive i = true → s.live o.ref = true) := by
  rcases hs with hs | ⟨r, hr, hi, rfl⟩
  · exact h.reports i o hs
  · exact ⟨hi, fun _ => hr⟩

theorem use_live (s : State F) (kind : UseKind) (i : Nat) (o : Origin) (hi : o.ref.idx = i)
    (hlive : s.live o.ref = true) : (s.use kind i o).live = true := by
  simp only [State.use, hlive, hi, beq_self_eq_true, Bool.and_self]

theorem Attributed.grows (s s' : State F) (h : Attributed s) (hg : Grows s s') :
    Attributed s' where
  sized := Sized.grows s s' h.sized hg
  reports i o hr := by
    rw [hg.isAlive, hg.live]
    exact Attributed.seen s h i o (hg.reports i o hr)
  uses u hu hkind := by
    rcases hg.uses u hu with hu | hu
    · exact h.uses u hu hkind
    · cases hu with
      | push i o hs halive =>
          rcases Attributed.seen s h i o hs with ⟨hi, hlive⟩
          exact use_live s _ i o hi (hlive halive)
      | observe i o hs halive =>
          rcases Attributed.seen s h i o hs with ⟨hi, hlive⟩
          exact use_live s _ i o hi (hlive halive)
      | train k o _ => simp [State.use] at hkind
      | convert i o _ => simp [State.use] at hkind
      | stamp i o _ => simp [State.use] at hkind

end

theorem Attributed.removeReceiver (s : State F) (h : Attributed s) (r : RxRef) :
    Attributed (s.removeReceiver r) := by
  have hsheds := sheds_removeReceiver s r
  refine ⟨Sized.removeReceiver s h.sized r, ?_, ?_⟩
  · intro i o hr
    rw [reports_congr s _ hsheds.syncpoints hsheds.groups] at hr
    rcases h.reports i o hr with ⟨hi, hlive⟩
    refine ⟨hi, fun halive => ?_⟩
    rcases s.isAlive_removeReceiver r i halive with ⟨hbefore, _, hsame⟩
    rw [hsame o.ref hi]
    exact hlive hbefore
  · rw [hsheds.uses]
    exact h.uses

theorem Attributed.takeSlot (s : State F) (h : Attributed s) (info : ReceiverInfo F)
    (hclear : ∀ o, ¬ s.Reports (s.takeSlot info).2 o) : Attributed (s.takeSlot info).1 := by
  have hsheds := sheds_takeSlot s info
  refine ⟨Sized.takeSlot s h.sized info, ?_, ?_⟩
  · intro i o hr
    rw [reports_congr s _ hsheds.syncpoints hsheds.groups] at hr
    rcases h.reports i o hr with ⟨hi, hlive⟩
    have hne : (s.takeSlot info).2 ≠ i := fun heq => hclear o (heq ▸ hr)
    rcases s.takeSlot_other h.sized info i hne with ⟨halive, hsame⟩
    rw [halive, hsame o.ref hi]
    exact ⟨hi, hlive⟩
  · rw [hsheds.uses]
    exact h.uses

theorem Attributed.addReceiver (s : State F) (h : Attributed s) (info : ReceiverInfo F)
    (hclear : ∀ o, ¬ s.Reports (s.slotFor info) o) : Attributed (s.addReceiver info).1 := by
  rcases s.addReceiver_eq info with ⟨t, ht, href, users, reference, heq⟩
  have hinv : Attributed t ∧ ∀ i o, t.Reports i o ↔ s.Reports i o := by
    rcases ht with rfl | ⟨old, _, rfl⟩
    · exact ⟨h, fun _ _ => Iff.rfl⟩
    · have hsheds := sheds_removeReceiver s ⟨old, s.genOf old⟩
      exact ⟨Attributed.removeReceiver s h _, reports_congr s _ hsheds.syncpoints hsheds.groups⟩
  have htake := Attributed.takeSlot t hinv.1 info (by
    intro o hr
    refine hclear o ?_
    rw [← addReceiver_idx, href, ← hinv.2]
    exact hr)
  rw [heq]
  exact ⟨⟨htake.1.1, htake.1.2⟩, htake.2, htake.3⟩

omit [F64Fn F] in
theorem Attributed.clockReset (s : State F) (h : Attributed s) (r : RxRef) :
    Attributed (s.clockReset r) := by
  unfold State.clockReset
  split_ifs
  · exact h
  · exact ⟨⟨h.1.1, h.1.2⟩, h.2, h.3⟩

theorem attributed_step (solver : Solver F) (s : State F) (e : Event F) (h : Attributed s)
    (hclear : s.SlotClear e) : Attributed (s.step solver e) := by
  rcases s.step_cases solver e with ⟨info, rfl, heq⟩ | ⟨r, _, heq⟩ | ⟨r, _, heq⟩ | hg
  · rw [heq]
    exact Attributed.addReceiver s h info hclear
  · rw [heq]
    exact Attributed.removeReceiver s h r
  · rw [heq]
    exact Attributed.clockReset s h r
  · exact Attributed.grows s _ h hg

/-- In every run that takes no slot again while a report of it is pending, the
    timestamps pushed into pair models and the observations solved were reported
    under the reference live in their slot at that moment. -/
theorem generation_isolation (solver : Solver F) (shardId : Nat) (mlatAdsb emitFiltered : Bool)
    (es : List (Event F))
    (h : Along (step solver) SlotClear (State.new shardId mlatAdsb emitFiltered) es) :
    ∀ u ∈ (exec (step solver) (State.new shardId mlatAdsb emitFiltered) es).uses,
      u.kind = .push ∨ u.kind = .observe → u.live = true := by
  have hinv := Along.invariant (step solver) SlotClear Attributed
    (attributed_step solver) _ es (attributed_new shardId mlatAdsb emitFiltered) h
  exact hinv.uses

/-- A receiver on the equator. -/
def exampleRx (user : String) : ReceiverInfo ℚ :=
  { user := user, geo := ⟨0, 0, 0⟩, ecef := ⟨6378137, 0, 0⟩, freqHz := 12000000, gps := false
    jitterS := 1 / 2000000 }

/-- A sync message about an aircraft overhead. -/
def exampleSync (r : RxRef) : Event ℚ :=
  .sync 0 r 12000000 18000000 "8d3c644458b500000000008c4ccb" "8d3c644458b504000000008067f3" 0

/-- Two receivers report the same pair and train their models. -/
theorem generation_isolation_pair :
    (exec (step Solve.solveRobust) (State.new 0 false false) [.add (exampleRx "a"),
        .add (exampleRx "b"), exampleSync ⟨0, 0⟩, exampleSync ⟨1, 0⟩]).uses ≠ [] ∧
      ∀ u ∈ (exec (step Solve.solveRobust) (State.new 0 false false) [.add (exampleRx "a"),
        .add (exampleRx "b"), exampleSync ⟨0, 0⟩, exampleSync ⟨1, 0⟩]).uses,
        u.kind = .push ∨ u.kind = .observe → u.live = true := by
  refine ⟨?_, generation_isolation Solve.solveRobust 0 false false _ ?_⟩
  · rw [← List.length_pos_iff]
    decide +kernel
  · refine ⟨fun o => ?_, fun o => ?_, trivial, trivial, trivial⟩
    · exact not_reports _ (fun _ => rfl) (fun _ => rfl) _ o
    · exact not_reports _ (fun _ => rfl) (fun _ => rfl) _ o

/-- A receiver reports a pair and leaves, another takes its slot, and a third
    reports the same pair: the report of the first is pushed into the models of
    the second. -/
theorem slot_reuse_takes_report :
    ∃ u ∈ (exec (step Solve.solveRobust) (State.new 0 true false) [.add (exampleRx "a"),
      .add (exampleRx "b"), exampleSync ⟨0, 0⟩, .remove ⟨0, 0⟩, .add (exampleRx "c"),
      exampleSync ⟨1, 0⟩]).uses, u.kind = .push ∧ u.live = false := by
  decide +kernel

/-- A clock that is reset has no pending report and no stamp offset. -/
def ClockClear (s : State F) : Event F → Prop
  | .reset r => s.live r = true →
      (∀ i o, s.Reports i o → o.ref ≠ r) ∧ s.stampOffset r.idx = none
  | _ => True

/-- An origin is of the clock that runs now. -/
def Runs (s : State F) (o : Origin) : Prop := o.epoch = s.resets o.ref

/-- All that may be taken in is of the clocks that run now. -/
structure Fresh (s : State F) : Prop where
  reports : ∀ i o, s.Reports i o → o.ref.idx = i ∧ s.Runs o
  trained : ∀ k, ∀ o ∈ s.trained k, (o.ref.idx = k.1 ∨ o.ref.idx = k.2) ∧ s.Runs o
  offsets : ∀ i o, s.offsetOrigin i = some o → o.ref.idx = i ∧ s.Runs o
  kept : ∀ i, s.stampOffset i = none → s.offsetOrigin i = none
  uses : ∀ u ∈ s.uses, u.fresh = true

omit [F64Fn F] in
theorem fresh_new (shardId : Nat) (mlatAdsb emitFiltered : Bool) :
    Fresh (State.new shardId mlatAdsb emitFiltered : State F) where
  reports i o hr := absurd hr (not_reports _ (fun _ => rfl) (fun _ => rfl) i o)
  trained _ _ ho := absurd ho List.not_mem_nil
  offsets _ o ho := absurd ho (Option.some_ne_none o).symm
  kept _ _ := rfl
  uses _ hu := absurd hu List.not_mem_nil

section Taken

variable {s : State F} (h : Fresh s)

include h

section

omit [F64Fn F]

theorem Fresh.seen (i : Nat) (o : Origin) (hs : s.Seen i o) : o.ref.idx = i ∧ s.Runs o := by
  rcases hs with hs | ⟨r, _, hi, rfl⟩
  · exact h.reports i o hs
  · exact ⟨hi, rfl⟩

theorem Fresh.trains (k : Nat × Nat) (o : Origin) (ht : s.Trains k o) :
    (o.ref.idx = k.1 ∨ o.ref.idx = k.2) ∧ s.Runs o := by
  rcases ht with ht | ⟨i, hi, hs⟩
  · exact h.trained k o ht
  · rw [(h.seen i o hs).1]
    exact ⟨hi, (h.seen i o hs).2⟩

theorem Fresh.offers (i : Nat) (o : Origin) (ho : s.Offers i o) : o.ref.idx = i ∧ s.Runs o := by
  rcases ho with ho | rfl
  · exact h.offsets i o ho
  · exact ⟨rfl, rfl⟩

theorem Fresh.newUse (u : Use) (hu : s.NewUse u) : u.fresh = true := by
  have hruns : ∀ kind i o, s.Runs o → (s.use kind i o).fresh = true := by
    intro kind i o ho
    simp only [State.use, ho.symm, beq_self_eq_true]
  cases hu with
  | train k o ht => exact hruns _ _ o (h.trains k o ht).2
  | push i o hs _ => exact hruns _ _ o (h.seen i o hs).2
  | convert i o hs => exact hruns _ _ o (h.seen i o hs).2
  | observe i o hs _ => exact hruns _ _ o (h.seen i o hs).2
  | stamp i o ho => exact hruns _ _ o (h.offers i o ho).2

end

end Taken

section

omit [F64Fn F]

theorem Fresh.grows (s s' : State F) (h : Fresh s) (hg : Grows s s') : Fresh s' := by
  have hruns : ∀ o, s'.Runs o ↔ s.Runs o := by
    intro o
    rw [Runs, Runs, hg.resets]
  constructor
  · intro i o hr
    rw [hruns]
    exact h.seen i o (hg.reports i o hr)
  · intro k o ho
    rw [hruns]
    exact h.trains k o (hg.trained k o ho)
  · intro i o ho
    rw [hruns]
    exact h.offers i o (hg.offsets i o ho)
  · intro i hi
    rw [(hg.kept i hi).2]
    exact h.kept i (hg.kept i hi).1
  · intro u hu
    rcases hg.uses u hu with hu | hu
    · exact h.uses u hu
    · exact h.newUse u hu

theorem Fresh.sheds (s s' : State F) (h : Fresh s) (hs : Sheds s s') : Fresh s' := by
  have hruns : ∀ o, s'.Runs o ↔ s.Runs o := by
    intro o
    rw [Runs, Runs, hs.resets]
  constructor
  · intro i o hr
    rw [hruns]
    exact h.reports i o ((reports_congr s s' hs.syncpoints hs.groups i o).mp hr)
  · intro k o ho
    rw [hruns]
    exact h.trained k o (hs.trained k o ho)
  · intro i o ho
    rw [hruns]
    exact h.offsets i o (hs.offsets i o ho)
  · intro i hi
    rcases hs.kept i hi with hi | hi
    · cases ho : s'.offsetOrigin i with
      | none => rfl
      | some o =>
          have hnone := (h.kept i hi).symm.trans (hs.offsets i o ho)
          exact absurd hnone (Option.some_ne_none o).symm
    · exact hi
  · rw [hs.uses]
    exact h.uses

theorem Fresh.clockReset (s : State F) (h : Fresh s) (r : RxRef)
    (hclear : s.live r = true → (∀ i o, s.Reports i o → o.ref ≠ r) ∧ s.stampOffset r.idx = none) :
    Fresh (s.clockReset r) := by
  unfold State.clockReset
  by_cases hlive : s.live r = false
  · rw [if_pos hlive]
    exact h
  · rw [if_neg hlive]
    rw [Bool.not_eq_false] at hlive
    rcases hclear hlive with ⟨hreports, hoffset⟩
    -- The reset is felt by origins of the reference alone.
    have hruns : ∀ o, o.ref ≠ r → s.Runs o →
        Function.update s.resets r (s.resets r + 1) o.ref = o.epoch := by
      intro o ho hr
      rw [Function.update_of_ne ho]
      exact hr.symm
    have hidx : ∀ o : Origin, o.ref.idx ≠ r.idx → o.ref ≠ r := fun o hne heq => hne (heq ▸ rfl)
    constructor
    · intro i o hr
      have hr : s.Reports i o := hr
      exact ⟨(h.reports i o hr).1, (hruns o (hreports i o hr) (h.reports i o hr).2).symm⟩
    · intro k o ho
      rcases s.dropPairs_trained r.idx k o ho with ⟨hk, ho⟩
      rcases h.trained k o ho with ⟨hends, hr⟩
      refine ⟨hends, (hruns o (hidx o ?_) hr).symm⟩
      rcases hends with he | he
      · rw [he]
        exact hk.1
      · rw [he]
        exact hk.2
    · intro i o ho
      have ho : s.offsetOrigin i = some o := ho
      rcases h.offsets i o ho with ⟨hi, hr⟩
      refine ⟨hi, (hruns o (hidx o ?_) hr).symm⟩
      rw [hi]
      rintro rfl
      exact absurd ((h.kept r.idx hoffset).symm.trans ho) (Option.some_ne_none o).symm
    · exact h.kept
    · exact h.uses

end

theorem fresh_step (solver : Solver F) (s : State F) (e : Event F) (h : Fresh s)
    (hclear : s.ClockClear e) : Fresh (s.step solver e) := by
  rcases s.step_cases solver e with ⟨info, _, heq⟩ | ⟨r, _, heq⟩ | ⟨r, rfl, heq⟩ | hg
  · rw [heq]
    exact Fresh.sheds s _ h (sheds_addReceiver s info)
  · rw [heq]
    exact Fresh.sheds s _ h (sheds_removeReceiver s r)
  · rw [heq]
    exact Fresh.clockReset s h r hclear
  · exact Fresh.grows s _ h hg

/-- In every run that resets no clock while a report of its receiver or a stamp
    offset of its slot is there, nothing from before a reset is used after it:
    not in a pair model, not in a conversion, not in a stamp. -/
theorem reset_isolation (solver : Solver F) (shardId : Nat) (mlatAdsb emitFiltered : Bool)
    (es : List (Event F))
    (h : Along (step solver) ClockClear (State.new shardId mlatAdsb emitFiltered) es) :
    ∀ u ∈ (exec (step solver) (State.new shardId mlatAdsb emitFiltered) es).uses,
      u.fresh = true := by
  have hinv := Along.invariant (step solver) ClockClear Fresh
    (fresh_step solver) _ es (fresh_new shardId mlatAdsb emitFiltered) h
  exact hinv.uses

/-- A clock is reset before anything is pending. -/
theorem reset_isolation_early :
    (exec (step Solve.solveRobust) (State.new 0 false false) [.add (exampleRx "a"),
        .add (exampleRx "b"), .reset ⟨0, 0⟩, exampleSync ⟨0, 0⟩, exampleSync ⟨1, 0⟩]).uses ≠ [] ∧
      ∀ u ∈ (exec (step Solve.solveRobust) (State.new 0 false false) [.add (exampleRx "a"),
        .add (exampleRx "b"), .reset ⟨0, 0⟩, exampleSync ⟨0, 0⟩, exampleSync ⟨1, 0⟩]).uses,
        u.fresh = true := by
  refine ⟨?_, reset_isolation Solve.solveRobust 0 false false _ ?_⟩
  · rw [← List.length_pos_iff]
    decide +kernel
  · refine ⟨trivial, trivial, fun _ => ⟨?_, rfl⟩, trivial, trivial, trivial⟩
    exact fun i o hr => absurd hr (not_reports _ (fun _ => rfl) (fun _ => rfl) i o)

/-- A receiver reports a pair and resets its clock, and another reports the same
    pair: the reading from before the reset is pushed into the fresh models. -/
theorem reset_keeps_report :
    ∃ u ∈ (exec (step Solve.solveRobust) (State.new 0 true false) [.add (exampleRx "a"),
      .add (exampleRx "b"), exampleSync ⟨0, 0⟩, .reset ⟨0, 0⟩, exampleSync ⟨1, 0⟩]).uses,
      u.kind = .push ∧ u.fresh = false := by
  decide +kernel

end State

end Server

end MlatBench
