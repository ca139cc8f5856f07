import Mathlib.Data.List.GetD
import MlatBench.Theory.State

/-!
# The Slots of a Shard

Which references are live after a receiver connects or leaves.

The vectors over slots have one length; with that, taking a slot touches no other
slot, the reference handed out is the only one that becomes live, and a removal
leaves its reference dead.

## Main definitions

* `State.slotFor`: The slot a connection takes.
* `State.Sized`: The vectors have one length.

## Theorems

* `addReceiver_idx`: A connection takes that slot.
* `takeSlot_other`: Taking a slot touches no other.
* `live_addReceiver`, `live_removeReceiver`, `live_step`: What is live afterwards.
* `sized_step`: Every call keeps the lengths.
* `liveReceivers_eq_zero`: A shard without live references has no receivers.
-/

namespace MlatBench

namespace Server

open Library F64 F64Fn Modes

variable {F : Type} [F64Fn F]

namespace State

/-- The slot a connection takes: the one its user has, the last one freed, or
    one more. -/
def slotFor (s : State F) (info : ReceiverInfo F) : Nat :=
  let next := s.freeSlots.headD s.receivers.length
  match s.byUser info.user with
  | some old => if s.live ⟨old, s.genOf old⟩ then old else next
  | none => next

theorem takeSlot_idx (s : State F) (info : ReceiverInfo F) :
    (s.takeSlot info).2 = s.freeSlots.headD s.receivers.length := by
  unfold takeSlot
  cases s.freeSlots with
  | nil => rfl
  | cons i free => rfl

theorem addReceiver_idx (s : State F) (info : ReceiverInfo F) :
    (s.addReceiver info).2.idx = s.slotFor info := by
  unfold addReceiver slotFor
  cases s.byUser info.user with
  | none => exact takeSlot_idx s info
  | some old =>
      simp only [takeSlot_idx]
      unfold removeReceiver
      cases hlive : s.live ⟨old, s.genOf old⟩ with
      | false => rfl
      | true => rfl

/-- The vectors over slots have one length. -/
structure Sized (s : State F) : Prop where
  gens : s.gens.length = s.receivers.length
  alive : s.alive.length = s.receivers.length

omit [F64Fn F] in
theorem sized_new (shardId : Nat) (mlatAdsb emitFiltered : Bool) :
    Sized (State.new shardId mlatAdsb emitFiltered : State F) :=
  ⟨rfl, rfl⟩

omit [F64Fn F] in
theorem Sized.grows (s s' : State F) (h : Sized s) (hg : Grows s s') : Sized s' :=
  ⟨by rw [hg.gens, hg.receivers, h.gens], by rw [hg.alive, hg.receivers, h.alive]⟩

theorem removeReceiver_gens (s : State F) (r : RxRef) : (s.removeReceiver r).gens = s.gens := by
  unfold removeReceiver
  split_ifs <;> rfl

theorem removeReceiver_receivers (s : State F) (r : RxRef) :
    (s.removeReceiver r).receivers = s.receivers := by
  unfold removeReceiver
  split_ifs <;> rfl

theorem Sized.removeReceiver (s : State F) (h : Sized s) (r : RxRef) :
    Sized (s.removeReceiver r) := by
  unfold State.removeReceiver
  split_ifs
  · exact h
  · exact ⟨h.gens, List.length_set.trans h.alive⟩

theorem Sized.takeSlot (s : State F) (h : Sized s) (info : ReceiverInfo F) :
    Sized (s.takeSlot info).1 := by
  unfold State.takeSlot
  cases s.freeSlots with
  | nil => constructor <;> simp only [List.length_append, List.length_singleton, h.gens, h.alive]
  | cons i free => constructor <;> simp only [List.length_set, h.gens, h.alive]

/-- A removed slot is dead and the others stay. -/
theorem isAlive_removeReceiver (s : State F) (r : RxRef) (i : Nat)
    (h : (s.removeReceiver r).isAlive i = true) : s.isAlive i = true ∧
      (s.live r = true → r.idx ≠ i) ∧
        ∀ q : RxRef, q.idx = i → (s.removeReceiver r).live q = s.live q := by
  unfold removeReceiver at h ⊢
  by_cases hlive : s.live r = false
  · rw [if_pos hlive] at h
    refine ⟨h, fun htrue => ?_, fun q _ => by rw [if_pos hlive]⟩
    rw [hlive] at htrue
    exact absurd htrue Bool.false_ne_true
  · rw [if_neg hlive] at h
    have hi : r.idx ≠ i := by
      rintro rfl
      simp only [isAlive, dropPairs, List.getD_eq_getElem?_getD, List.getElem?_set_self'] at h
      cases hget : s.alive[r.idx]? with
      | none => simp [hget] at h
      | some b => simp [hget] at h
    have hother : ∀ b : Bool, (s.alive.set r.idx b).getD i false = s.alive.getD i false := by
      intro b
      rw [List.getD_eq_getElem?_getD, List.getElem?_set_ne hi, List.getD_eq_getElem?_getD]
    refine ⟨(hother false).symm.trans h, fun _ => hi, ?_⟩
    intro q hq
    rw [if_neg hlive]
    simp only [live, isAlive, genOf, dropPairs, hq, hother]

theorem getD_append_ne {α : Type*} (xs : List α) (x d : α) (i : Nat) (h : xs.length ≠ i) :
    (xs ++ [x]).getD i d = xs.getD i d := by
  rcases Nat.lt_or_ge i xs.length with hlt | hge
  · rw [List.getD_append _ _ _ _ hlt]
  · rw [List.getD_eq_default _ _ hge, List.getD_eq_default]
    rw [List.length_append, List.length_singleton]
    omega

/-- A slot taken leaves the other slots alone. -/
theorem takeSlot_other (s : State F) (h : Sized s) (info : ReceiverInfo F) (i : Nat)
    (hi : (s.takeSlot info).2 ≠ i) : (s.takeSlot info).1.isAlive i = s.isAlive i ∧
      ∀ q : RxRef, q.idx = i → (s.takeSlot info).1.live q = s.live q := by
  unfold takeSlot at hi ⊢
  cases hfree : s.freeSlots with
  | cons j free =>
      rw [hfree] at hi
      have halive : (s.alive.set j true).getD i false = s.alive.getD i false := by
        rw [List.getD_eq_getElem?_getD, List.getElem?_set_ne hi, List.getD_eq_getElem?_getD]
      have hgen : ∀ g, (s.gens.set j g).getD i 0 = s.gens.getD i 0 := by
        intro g
        rw [List.getD_eq_getElem?_getD, List.getElem?_set_ne hi, List.getD_eq_getElem?_getD]
      refine ⟨halive, ?_⟩
      intro q hq
      simp only [live, isAlive, genOf, hq, halive, hgen, List.length_set]
  | nil =>
      rw [hfree] at hi
      have hlen : s.receivers.length ≠ i := hi
      have halive := getD_append_ne s.alive true false i (by rwa [h.alive])
      have hgen := getD_append_ne s.gens 0 0 i (by rwa [h.gens])
      refine ⟨halive, ?_⟩
      intro q hq
      have hbound : i < s.receivers.length + 1 ↔ i < s.receivers.length := by omega
      simp only [live, isAlive, genOf, hq, halive, hgen, List.length_append, List.length_singleton,
        hbound]

theorem Sized.addReceiver (s : State F) (h : Sized s) (info : ReceiverInfo F) :
    Sized (s.addReceiver info).1 := by
  rcases s.addReceiver_eq info with ⟨t, ht, _, users, reference, heq⟩
  have hst : Sized t := by
    rcases ht with rfl | ⟨old, _, rfl⟩
    · exact h
    · exact Sized.removeReceiver s h _
  have htake := Sized.takeSlot t hst info
  rw [heq]
  exact ⟨htake.1, htake.2⟩

omit [F64Fn F] in
theorem Sized.clockReset (s : State F) (h : Sized s) (r : RxRef) : Sized (s.clockReset r) := by
  unfold State.clockReset
  split_ifs
  · exact h
  · exact ⟨h.1, h.2⟩

theorem sized_step (solver : Solver F) (s : State F) (e : Event F) (h : Sized s) :
    Sized (s.step solver e) := by
  rcases s.step_cases solver e with ⟨info, _, heq⟩ | ⟨r, _, heq⟩ | ⟨r, _, heq⟩ | hg
  · rw [heq]
    exact Sized.addReceiver s h info
  · rw [heq]
    exact Sized.removeReceiver s h r
  · rw [heq]
    exact Sized.clockReset s h r
  · exact Sized.grows s _ h hg

/-- A removal leaves its reference dead and makes none live. -/
theorem live_removeReceiver (s : State F) (r q : RxRef)
    (h : (s.removeReceiver r).live q = true) : s.live q = true ∧ q ≠ r := by
  rcases s.isAlive_removeReceiver r q.idx (live_alive _ q h) with ⟨_, hne, hsame⟩
  have hlive : s.live q = true := by rwa [hsame q rfl] at h
  refine ⟨hlive, ?_⟩
  rintro rfl
  exact hne hlive rfl

/-- Only the reference handed out becomes live. -/
theorem live_addReceiver (s : State F) (h : Sized s) (info : ReceiverInfo F) (q : RxRef)
    (hq : (s.addReceiver info).1.live q = true) :
    s.live q = true ∨ q = (s.addReceiver info).2 := by
  rcases s.addReceiver_eq info with ⟨t, ht, href, users, reference, heq⟩
  rw [heq] at hq
  have hq : (t.takeSlot info).1.live q = true := hq
  have hst : Sized t ∧ (t.live q = true → s.live q = true) := by
    rcases ht with rfl | ⟨old, _, rfl⟩
    · exact ⟨h, fun hlive => hlive⟩
    · exact ⟨Sized.removeReceiver s h _, fun hlive => (s.live_removeReceiver _ q hlive).1⟩
  by_cases hidx : (t.takeSlot info).2 = q.idx
  · right
    have hgen : (t.takeSlot info).1.genOf q.idx = q.gen := by
      rw [live, decide_eq_true_eq] at hq
      exact hq.2.2
    rw [href, hidx, hgen]
  · left
    rw [(t.takeSlot_other hst.1 info q.idx hidx).2 q rfl] at hq
    exact hst.2 hq

omit [F64Fn F] in
theorem live_clockReset (s : State F) (r q : RxRef) : (s.clockReset r).live q = s.live q := by
  unfold clockReset
  split_ifs <;> rfl

/-- What is live after a call was live before, and is not what was removed, or it
    is what was handed out. -/
theorem live_step (solver : Solver F) (s : State F) (h : Sized s) (e : Event F) (q : RxRef)
    (hq : (s.step solver e).live q = true) :
    (s.live q = true ∧ (s.hung = false → e ≠ .remove q)) ∨
      ∃ info, e = .add info ∧ q = (s.addReceiver info).2 := by
  rcases s.step_cases solver e with ⟨info, rfl, heq⟩ | ⟨r, rfl, heq⟩ | ⟨r, rfl, heq⟩ | hg
  · rw [heq] at hq
    rcases s.live_addReceiver h info q hq with hlive | hnew
    · exact Or.inl ⟨hlive, fun _ heq => by injection heq⟩
    · exact Or.inr ⟨info, rfl, hnew⟩
  · rw [heq] at hq
    rcases s.live_removeReceiver r q hq with ⟨hlive, hne⟩
    refine Or.inl ⟨hlive, fun _ heq => hne ?_⟩
    injection heq with heq
    exact heq.symm
  · rw [heq, live_clockReset] at hq
    exact Or.inl ⟨hq, fun _ heq => by injection heq⟩
  · refine Or.inl ⟨by rwa [hg.live] at hq, ?_⟩
    rintro hhung rfl
    -- A shard that is not caught does remove.
    have hrem : s.step solver (.remove q) = s.removeReceiver q := by
      unfold step
      rw [if_neg (by rw [hhung]; exact Bool.false_ne_true)]
    rw [hrem] at hq
    exact (s.live_removeReceiver q q hq).2 rfl

omit [F64Fn F] in
/-- A shard without live references has no slot alive. -/
theorem not_alive (s : State F) (h : Sized s) (hlive : ∀ q, s.live q = false) (i : Nat) :
    s.isAlive i = false := by
  rw [← Bool.not_eq_true]
  intro halive
  have hlt : i < s.receivers.length := by
    rw [← h.alive]
    by_contra hge
    rw [isAlive, List.getD_eq_default _ _ (Nat.le_of_not_lt hge)] at halive
    exact Bool.false_ne_true halive
  have hq : s.live ⟨i, s.genOf i⟩ = true := by
    rw [live, decide_eq_true_eq]
    exact ⟨hlt, halive, rfl⟩
  rw [hlive] at hq
  exact Bool.false_ne_true hq

omit [F64Fn F] in
theorem liveReceivers_eq_zero (s : State F) (h : Sized s) (hlive : ∀ q, s.live q = false) :
    s.liveReceivers = 0 := by
  rw [liveReceivers, List.countP_eq_zero]
  intro b hb hb'
  rcases List.mem_iff_getElem?.mp hb with ⟨i, hi⟩
  have hdead := s.not_alive h hlive i
  rw [isAlive, List.getD_eq_getElem?_getD, hi, Option.getD_some] at hdead
  rw [id, hdead] at hb'
  exact Bool.false_ne_true hb'

end State

end Server

end MlatBench
