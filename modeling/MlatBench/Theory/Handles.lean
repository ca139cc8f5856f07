import Mathlib.Data.List.Induction
import Mathlib.Data.List.Nodup
import MlatBench.Theory.Isolation
import MlatBench.Theory.Representation

/-!
# Handles

A handle is a slot and the generation it was handed out with. Along a run the
handles of one slot are numbered `0, 1, 2, …` modulo the width of the counter
(`Counted`), so as long as no slot is reused often enough to wrap the counter
around no handle is handed out twice. A handle that is not live becomes live only
by being handed out, so one that was removed stays dead.

A call with a dead handle does nothing.

## Main definitions

* `State.issued`: The handles a run hands out.
* `State.Counted`: They are numbered.
* `State.Removes`: A call that removes a handle.

## Theorems

* `addReceiver_gen`: The generation of the handle handed out.
* `counted_run`: The handles of a run are numbered.
* `live_issued`: What is live was handed out.
* `removes_dead`, `dead_stays`: A removed handle stays dead.
* `handles`: Stale handles are dead for good.
-/

namespace MlatBench

namespace Server

open Library F64 F64Fn Modes

variable {F : Type} [F64Fn F]

namespace State

/-- The handle a call hands out. -/
def issues (s : State F) : Event F → List RxRef
  | .add info => if s.hung then [] else [(s.addReceiver info).2]
  | _ => []

/-- The handles a run hands out, in order. -/
def issued (solver : Solver F) : State F → List (Event F) → List RxRef
  | _, [] => []
  | s, e :: es => s.issues e ++ issued solver (s.step solver e) es

theorem issued_append (solver : Solver F) (s : State F) (es ds : List (Event F)) :
    issued solver s (es ++ ds) =
      issued solver s es ++ issued solver (exec (step solver) s es) ds := by
  induction es generalizing s with
  | nil => rfl
  | cons e es ih => rw [List.cons_append, issued, issued, ih, exec_cons, List.append_assoc]

/-- How often a slot was handed out. -/
def usesOf (L : List RxRef) (i : Nat) : Nat :=
  L.countP fun r => r.idx = i

/-- The handles of a slot are numbered, and the slot has the last number. -/
structure Counted (s : State F) (L : List RxRef) : Prop where
  numbered : ∀ i, L.filter (fun r => r.idx = i) =
    (List.range (usesOf L i)).map fun k => ⟨i, k % 2 ^ 32⟩
  current : ∀ i, i < s.receivers.length → ∃ k, usesOf L i = k + 1 ∧ s.genOf i = k % 2 ^ 32
  unused : ∀ i, s.receivers.length ≤ i → usesOf L i = 0

theorem takeSlot_next (s : State F) (h : WellFormed s) (info : ReceiverInfo F) :
    let j := (s.takeSlot info).2
    ((j < s.receivers.length ∧ (s.takeSlot info).1.receivers.length = s.receivers.length ∧
        (s.takeSlot info).1.genOf j = (s.genOf j + 1) % 2 ^ 32) ∨
      (j = s.receivers.length ∧
        (s.takeSlot info).1.receivers.length = s.receivers.length + 1 ∧
        (s.takeSlot info).1.genOf j = 0)) ∧
    ∀ i, i ≠ j → (s.takeSlot info).1.genOf i = s.genOf i := by
  unfold takeSlot
  cases hslots : s.freeSlots with
  | cons j free =>
      have hj := ((h.free j).mp (by rw [hslots]; exact List.mem_cons_self)).1
      refine ⟨Or.inl ⟨hj, List.length_set, ?_⟩, fun i hi => getD_set_ne _ _ _ _ _ (Ne.symm hi)⟩
      exact getD_set_self _ _ _ _ (by rw [h.gens]; exact hj)
  | nil =>
      refine ⟨Or.inr ⟨rfl, List.length_append, ?_⟩,
        fun i hi => getD_append_ne _ _ _ _ (by rw [h.gens]; exact Ne.symm hi)⟩
      simp only [genOf]
      rw [← h.gens, List.getD_append_right _ _ _ _ (Nat.le_refl _), Nat.sub_self]
      rfl

/-- The handle handed out has the next generation of its slot; the others keep
    theirs. -/
theorem addReceiver_gen (s : State F) (h : WellFormed s) (info : ReceiverInfo F) :
    let r := (s.addReceiver info).2
    ((r.idx < s.receivers.length ∧
        (s.addReceiver info).1.receivers.length = s.receivers.length ∧
        r.gen = (s.genOf r.idx + 1) % 2 ^ 32) ∨
      (r.idx = s.receivers.length ∧
        (s.addReceiver info).1.receivers.length = s.receivers.length + 1 ∧ r.gen = 0)) ∧
    (s.addReceiver info).1.genOf r.idx = r.gen ∧
    ∀ i, i ≠ r.idx → (s.addReceiver info).1.genOf i = s.genOf i := by
  rcases s.addReceiver_fresh h info with ⟨t, ht, _, hold, href, reference, heq⟩
  have hsame : t.gens = s.gens ∧ t.receivers = s.receivers := by
    rcases hold with rfl | ⟨old, _, rfl⟩
    · exact ⟨rfl, rfl⟩
    · exact ⟨s.removeReceiver_gens _, s.removeReceiver_receivers _⟩
  have hgen : ∀ i, t.genOf i = s.genOf i := fun i => by rw [genOf, genOf, hsame.1]
  rcases t.takeSlot_next ht info with ⟨hj, hother⟩
  rw [heq, href]
  simp only [hgen, hsame.2] at hj hother
  exact ⟨hj, rfl, hother⟩

theorem usesOf_append (L M : List RxRef) (i : Nat) :
    usesOf (L ++ M) i = usesOf L i + usesOf M i :=
  List.countP_append

/-- A handle handed out gets the next number of its slot. -/
theorem Counted.add (s : State F) (L : List RxRef) (h : WellFormed s) (hL : Counted s L)
    (info : ReceiverInfo F) :
    Counted (s.addReceiver info).1 (L ++ [(s.addReceiver info).2]) := by
  rcases s.addReceiver_gen h info with ⟨hslot, hself, hother⟩
  generalize (s.addReceiver info).2 = r at hslot hself hother ⊢
  generalize (s.addReceiver info).1 = s' at hslot hself hother ⊢
  have hone : usesOf (L ++ [r]) r.idx = usesOf L r.idx + 1 := by
    rw [usesOf_append]
    simp only [usesOf, List.countP_singleton, decide_true, if_true]
  have hnone : ∀ i, i ≠ r.idx → usesOf (L ++ [r]) i = usesOf L i := by
    intro i hi
    rw [usesOf_append]
    simp only [usesOf, List.countP_singleton, decide_eq_true_eq, if_neg (Ne.symm hi), Nat.add_zero]
  -- The number of the handle is how often its slot was handed out before.
  have hnumber : r.gen = usesOf L r.idx % 2 ^ 32 := by
    rcases hslot with ⟨hlt, _, hgen⟩ | ⟨heq, _, hgen⟩
    · rcases hL.current r.idx hlt with ⟨k, hk, hcur⟩
      rw [hgen, hcur, hk]
      omega
    · rw [hgen, heq, hL.unused _ (Nat.le_refl _), Nat.zero_mod]
  constructor
  · intro i
    by_cases hi : i = r.idx
    · have hin : [r].filter (fun q => decide (q.idx = r.idx)) = [r] := by simp
      rw [hi, hone, List.range_succ, List.map_append, List.filter_append, hL.numbered, hin,
        List.map_singleton, ← hnumber]
    · have hout : [r].filter (fun q => decide (q.idx = i)) = [] := by simp [Ne.symm hi]
      rw [hnone i hi, List.filter_append, hL.numbered, hout, List.append_nil]
  · intro i hi
    by_cases heq : i = r.idx
    · exact ⟨usesOf L r.idx, by rw [heq, hone], by rw [heq, hself, hnumber]⟩
    · rw [hnone i heq, hother i heq]
      refine hL.current i ?_
      rcases hslot with ⟨_, hlen, _⟩ | ⟨hidx, hlen, _⟩
      · omega
      · omega
  · intro i hi
    have hne : i ≠ r.idx := by
      rcases hslot with ⟨hlt, hlen, _⟩ | ⟨hidx, hlen, _⟩
      · omega
      · omega
    rw [hnone i hne]
    refine hL.unused i ?_
    rcases hslot with ⟨_, hlen, _⟩ | ⟨_, hlen, _⟩
    · omega
    · omega

omit [F64Fn F] in
/-- Other calls hand out nothing and keep the generations. -/
theorem Counted.congr (s s' : State F) (L : List RxRef) (hL : Counted s L)
    (hgens : s'.gens = s.gens) (hreceivers : s'.receivers = s.receivers) : Counted s' L := by
  have hgen : ∀ i, s'.genOf i = s.genOf i := fun i => by rw [genOf, genOf, hgens]
  constructor
  · exact hL.numbered
  · intro i hi
    rw [hgen]
    exact hL.current i (by rwa [hreceivers] at hi)
  · intro i hi
    exact hL.unused i (by rwa [hreceivers] at hi)

theorem counted_step (solver : Solver F) (s : State F) (L : List RxRef) (h : WellFormed s)
    (hL : Counted s L) (e : Event F) : Counted (s.step solver e) (L ++ s.issues e) := by
  by_cases hhung : s.hung = true
  · have hstep : s.step solver e = s := by
      unfold step
      rw [if_pos hhung]
    have hissues : s.issues e = [] := by
      cases e with
      | add info => simp only [issues, hhung, if_true]
      | _ => rfl
    rw [hstep, hissues, List.append_nil]
    exact hL
  · have hadd : ∀ info, s.issues (.add info) = [(s.addReceiver info).2] := fun info =>
      if_neg hhung
    rcases s.step_cases solver e with ⟨info, rfl, heq⟩ | ⟨r, rfl, heq⟩ | ⟨r, rfl, heq⟩ | hg
    · rw [heq, hadd]
      exact hL.add s L h info
    · rw [heq]
      simp only [issues, List.append_nil]
      exact hL.congr s _ L (s.removeReceiver_gens r) (s.removeReceiver_receivers r)
    · rw [heq]
      simp only [issues, List.append_nil]
      unfold clockReset
      split_ifs
      · exact hL
      · exact hL.congr s _ L rfl rfl
    · cases e with
      | add info =>
          have hstep : s.step solver (.add info) = (s.addReceiver info).1 := by
            unfold step
            rw [if_neg hhung]
          rw [hstep, hadd]
          exact hL.add s L h info
      | _ =>
          simp only [issues, List.append_nil]
          exact hL.congr s _ L hg.gens hg.receivers

omit [F64Fn F] in
theorem counted_new (shardId : Nat) (mlatAdsb emitFiltered : Bool) :
    Counted (State.new shardId mlatAdsb emitFiltered : State F) [] where
  numbered _ := rfl
  current i hi := absurd hi (Nat.not_lt_zero i)
  unused _ _ := rfl

/-- The containers agree and the handles are numbered after every run. -/
theorem counted_run (solver : Solver F) (shardId : Nat) (mlatAdsb emitFiltered : Bool)
    (es : List (Event F)) :
    WellFormed (exec (step solver) (State.new shardId mlatAdsb emitFiltered) es) ∧
      Counted (exec (step solver) (State.new shardId mlatAdsb emitFiltered) es)
        (issued solver (State.new shardId mlatAdsb emitFiltered) es) := by
  induction es using List.reverseRecOn with
  | nil => exact ⟨wellFormed_new _ _ _, counted_new _ _ _⟩
  | append_singleton es e ih =>
      rw [exec_append, exec_cons, exec_nil, issued_append, issued, issued, List.append_nil]
      exact ⟨wellFormed_step solver _ e ih.1, counted_step solver _ _ ih.1 ih.2 e⟩

omit [F64Fn F] in
/-- Handles that are numbered without a wrap are distinct. -/
theorem Counted.nodup (s : State F) (L : List RxRef) (hL : Counted s L)
    (hreuse : ∀ i, usesOf L i ≤ 2 ^ 32) : L.Nodup := by
  rw [List.nodup_iff_count_le_one]
  intro r
  have hfilter : L.count r = (L.filter fun q => q.idx = r.idx).count r := by
    rw [List.count_filter]
    exact decide_eq_true rfl
  rw [hfilter]
  refine List.nodup_iff_count_le_one.mp ?_ r
  rw [hL.numbered]
  refine List.Nodup.map_on ?_ List.nodup_range
  intro j hj k hk heq
  rw [List.mem_range] at hj hk
  have hbound := hreuse r.idx
  have hgen : j % 2 ^ 32 = k % 2 ^ 32 := (RxRef.mk.inj heq).2
  rw [Nat.mod_eq_of_lt (by omega), Nat.mod_eq_of_lt (by omega)] at hgen
  exact hgen

/-- What a call makes live it hands out. -/
theorem live_issues (solver : Solver F) (s : State F) (h : WellFormed s) (e : Event F)
    (r : RxRef) (hlive : (s.step solver e).live r = true) :
    s.live r = true ∨ r ∈ s.issues e := by
  by_cases hhung : s.hung = true
  · unfold step at hlive
    rw [if_pos hhung] at hlive
    exact Or.inl hlive
  · rcases live_step solver s ⟨h.gens, h.alive⟩ e r hlive with ⟨hold, _⟩ | ⟨info, rfl, hr⟩
    · exact Or.inl hold
    · refine Or.inr ?_
      rw [issues, if_neg hhung, hr]
      exact List.mem_singleton_self _

/-- What is live was handed out. -/
theorem live_issued (solver : Solver F) (shardId : Nat) (mlatAdsb emitFiltered : Bool)
    (es : List (Event F)) (r : RxRef)
    (h : (exec (step solver) (State.new shardId mlatAdsb emitFiltered) es).live r = true) :
    r ∈ issued solver (State.new shardId mlatAdsb emitFiltered) es := by
  induction es using List.reverseRecOn with
  | nil => exact absurd h Bool.false_ne_true
  | append_singleton es e ih =>
      have hwf := (counted_run solver shardId mlatAdsb emitFiltered es).1
      rw [exec_append, exec_cons, exec_nil] at h
      rw [issued_append, issued, issued, List.append_nil, List.mem_append]
      rcases live_issues solver _ hwf e r h with hlive | hr
      · exact Or.inl (ih hlive)
      · exact Or.inr hr

/-- A call that is made and removes a live handle: by name, or by a connection
    of the same user. -/
def Removes (s : State F) (e : Event F) (r : RxRef) : Prop :=
  s.hung = false ∧ s.live r = true ∧
    (e = .remove r ∨ ∃ info, e = .add info ∧ info.user = (s.receiver r.idx).user)

/-- A removed handle is dead. -/
theorem removes_dead (solver : Solver F) (s : State F) (h : WellFormed s) (e : Event F)
    (r : RxRef) (hr : Removes s e r) : (s.step solver e).live r = false := by
  rcases hr with ⟨hhung, hlive, hcall⟩
  have hmade : ¬ s.hung = true := by rw [hhung]; exact Bool.false_ne_true
  rw [← Bool.not_eq_true]
  intro hafter
  rcases hcall with rfl | ⟨info, rfl, huser⟩
  · have hstep : s.step solver (.remove r) = s.removeReceiver r := by
      unfold step
      rw [if_neg hmade]
    rw [hstep] at hafter
    exact (s.live_removeReceiver r r hafter).2 rfl
  · have hstep : s.step solver (.add info) = (s.addReceiver info).1 := by
      unfold step
      rw [if_neg hmade]
    rw [hstep] at hafter
    have hgen : s.genOf r.idx = r.gen := by
      rw [live, decide_eq_true_eq] at hlive
      exact hlive.2.2
    -- The connection takes the slot over with another generation.
    have hidx : (s.addReceiver info).2.idx = r.idx := by
      rw [addReceiver_idx, slotFor, huser, h.byUser_live s r hlive]
      simp only [hgen, hlive, if_true]
    rcases s.addReceiver_gen h info with ⟨hslot, hself, _⟩
    rw [hidx] at hslot hself
    have hnew : (s.addReceiver info).1.genOf r.idx = r.gen := by
      rw [live, decide_eq_true_eq] at hafter
      exact hafter.2.2
    have hlt := h.lt s r.idx (live_alive s r hlive)
    rcases hslot with ⟨_, _, hnext⟩ | ⟨heq, _, _⟩
    · rw [hgen] at hnext
      omega
    · omega

/-- A dead handle that was handed out stays dead. -/
theorem dead_stays (solver : Solver F) (shardId : Nat) (mlatAdsb emitFiltered : Bool)
    (es ds : List (Event F)) (r : RxRef)
    (hreuse : ∀ i, usesOf (issued solver (State.new shardId mlatAdsb emitFiltered) (es ++ ds)) i ≤
      2 ^ 32)
    (hissued : r ∈ issued solver (State.new shardId mlatAdsb emitFiltered) es)
    (hdead : (exec (step solver) (State.new shardId mlatAdsb emitFiltered) es).live r = false) :
    (exec (step solver) (State.new shardId mlatAdsb emitFiltered) (es ++ ds)).live r = false := by
  induction ds using List.reverseRecOn with
  | nil =>
      rw [List.append_nil]
      exact hdead
  | append_singleton ds e ih =>
      rw [← List.append_assoc] at hreuse ⊢
      have hruns := counted_run solver shardId mlatAdsb emitFiltered (es ++ ds ++ [e])
      have hnodup := hruns.2.nodup _ _ hreuse
      rw [issued_append] at hnodup hreuse
      have hbefore := ih fun i => by
        have hi := hreuse i
        rw [usesOf_append] at hi
        omega
      rw [exec_append, exec_cons, exec_nil]
      rw [← Bool.not_eq_true]
      intro hafter
      have hwf := (counted_run solver shardId mlatAdsb emitFiltered (es ++ ds)).1
      rcases live_issues solver _ hwf e r hafter with hlive | hr
      · rw [hbefore] at hlive
        exact Bool.false_ne_true hlive
      · -- It would have been handed out twice.
        rw [issued, issued, List.append_nil] at hnodup
        refine (List.nodup_append.mp hnodup).2.2 r ?_ r hr rfl
        rw [issued_append]
        exact List.mem_append_left _ hissued

/-- A call that names a dead handle does nothing. -/
theorem dead_call (s : State F) (r : RxRef) (h : s.live r = false) :
    (∀ now et ot emHex omHex atScaled, s.onSync now r et ot emHex omHex atScaled = s) ∧
      (∀ now tCounts mHex atScaled, s.onMlat now r tCounts mHex atScaled = s) ∧
      s.clockReset r = s ∧ s.removeReceiver r = s ∧ (s.receiverStats r).1 = s := by
  refine ⟨fun _ _ _ _ _ _ => ?_, fun _ _ _ _ => ?_, ?_, ?_, ?_⟩
  · rw [onSync, if_pos h]
  · rw [onMlat, if_pos h]
  · rw [clockReset, if_pos h]
  · rw [removeReceiver, if_pos h]
  · rw [receiverStats, if_pos h]

/-- In a run that hands no slot out more than `2 ^ 32` times the handles are
    distinct, what was removed is never live again, and calls with a dead handle
    do nothing. -/
theorem handles (solver : Solver F) (shardId : Nat) (mlatAdsb emitFiltered : Bool)
    (es : List (Event F))
    (hreuse : ∀ i, usesOf (issued solver (State.new shardId mlatAdsb emitFiltered) es) i ≤
      2 ^ 32) :
    (issued solver (State.new shardId mlatAdsb emitFiltered) es).Nodup ∧
      (∀ es₁ e es₂, es = es₁ ++ e :: es₂ → ∀ r,
        Removes (exec (step solver) (State.new shardId mlatAdsb emitFiltered) es₁) e r →
        (exec (step solver) (State.new shardId mlatAdsb emitFiltered) es).live r = false) ∧
      ∀ s r, s = exec (step solver) (State.new shardId mlatAdsb emitFiltered) es →
        s.live r = false →
        (∀ now et ot emHex omHex atScaled, s.onSync now r et ot emHex omHex atScaled = s) ∧
          (∀ now tCounts mHex atScaled, s.onMlat now r tCounts mHex atScaled = s) ∧
          s.clockReset r = s ∧ s.removeReceiver r = s ∧ (s.receiverStats r).1 = s := by
  refine ⟨?_, ?_, fun s r _ hdead => s.dead_call r hdead⟩
  · exact (counted_run solver shardId mlatAdsb emitFiltered es).2.nodup _ _ hreuse
  · intro es₁ e es₂ heq r hr
    have hsplit : es = (es₁ ++ [e]) ++ es₂ := by rw [heq, List.append_assoc, List.singleton_append]
    rw [hsplit] at hreuse ⊢
    refine dead_stays solver shardId mlatAdsb emitFiltered _ es₂ r hreuse ?_ ?_
    · rw [issued_append]
      exact List.mem_append_left _
        (live_issued solver shardId mlatAdsb emitFiltered es₁ r hr.2.1)
    · rw [exec_append, exec_cons, exec_nil]
      exact removes_dead solver _ (counted_run solver shardId mlatAdsb emitFiltered es₁).1 e r hr

/-- A user connects three times: each connection removes the one before. -/
theorem handles_reconnect :
    (issued Solve.solveRobust (State.new 0 false false) [.add (exampleRx "a"),
        .add (exampleRx "a"), .add (exampleRx "a")] = [⟨0, 0⟩, ⟨0, 1⟩, ⟨0, 2⟩]) ∧
      (exec (step Solve.solveRobust) (State.new 0 false false) [.add (exampleRx "a"),
        .add (exampleRx "a"), .add (exampleRx "a")]).live ⟨0, 0⟩ = false := by
  have hissued : issued Solve.solveRobust (State.new 0 false false) [.add (exampleRx "a"),
      .add (exampleRx "a"), .add (exampleRx "a")] = [⟨0, 0⟩, ⟨0, 1⟩, ⟨0, 2⟩] := by decide +kernel
  refine ⟨hissued, ?_⟩
  refine (handles Solve.solveRobust 0 false false _ ?_).2.1 [.add (exampleRx "a")]
    (.add (exampleRx "a")) [.add (exampleRx "a")] rfl ⟨0, 0⟩ ?_
  · intro i
    rw [List.singleton_append, hissued]
    refine Nat.le_trans List.countP_le_length ?_
    simp only [List.length_cons, List.length_nil]
    omega
  · exact ⟨rfl, by decide +kernel, Or.inr ⟨exampleRx "a", rfl, by decide +kernel⟩⟩

end State

end Server

end MlatBench
