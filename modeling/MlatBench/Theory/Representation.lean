import MlatBench.Library.Runs
import MlatBench.Theory.Slots

/-!
# The Containers of a Shard Agree

The shard keeps what it knows of its receivers in seven containers. `WellFormed`
says how they belong together: the vectors have one length, the free list is the
set of dead slots, the map by user is the map of live slots, pair models join two
different live slots in both directions, and stamp offsets are of live slots.

Every call keeps it. The last part rests on the one before: a group elects its
reference among slots that may be dead, but then no other slot has a model that
leads to it, so no observation comes out and no offset is set
(`converted_alive`).

## Main definitions

* `State.WellFormed`: The agreement.

## Theorems

* `WellFormed.removeReceiver`, `WellFormed.addReceiver`: Slots.
* `WellFormed.onSync`, `WellFormed.onMlat`: Reports.
* `converted_alive`, `WellFormed.solveGroup`, `WellFormed.sweep`: The solve.
* `wellFormed_step`, `representation`: A call, a run.
-/

namespace MlatBench

namespace Server

open Library F64 F64Fn Modes

variable {F : Type} [F64Fn F]

namespace State

/-- The containers agree. -/
structure WellFormed (s : State F) : Prop where
  gens : s.gens.length = s.receivers.length
  alive : s.alive.length = s.receivers.length
  biases : s.rxBias.length = s.receivers.length
  syncs : s.rxSync.length = s.receivers.length
  freeOnce : s.freeSlots.Nodup
  free : ∀ i, i ∈ s.freeSlots ↔ i < s.receivers.length ∧ s.isAlive i = false
  users : ∀ u i, s.byUser u = some i ↔ s.isAlive i = true ∧ (s.receiver i).user = u
  pairs : ∀ a b, (s.pairs (a, b)).isSome = true →
    a ≠ b ∧ s.isAlive a = true ∧ s.isAlive b = true ∧ (s.pairs (b, a)).isSome = true
  offsets : ∀ i, (s.stampOffset i).isSome = true → s.isAlive i = true

theorem wellFormed_new (shardId : Nat) (mlatAdsb emitFiltered : Bool) :
    WellFormed (State.new shardId mlatAdsb emitFiltered : State F) where
  gens := rfl
  alive := rfl
  biases := rfl
  syncs := rfl
  freeOnce := List.nodup_nil
  free i := by simp [State.new]
  users u i := by simp [State.new, isAlive]
  pairs a b h := absurd h Bool.false_ne_true
  offsets i h := absurd h Bool.false_ne_true

/-- A slot alive is in range. -/
theorem WellFormed.lt (s : State F) (h : WellFormed s) (i : Nat) (hi : s.isAlive i = true) :
    i < s.receivers.length := by
  rw [← h.alive]
  by_contra hge
  rw [isAlive, List.getD_eq_default _ _ (Nat.le_of_not_lt hge)] at hi
  exact Bool.false_ne_true hi

/-- What leaves the slots alone only has to answer for pairs and offsets. -/
theorem WellFormed.frame (s s' : State F) (h : WellFormed s)
    (hreceivers : s'.receivers = s.receivers) (hgens : s'.gens = s.gens)
    (halive : s'.alive = s.alive) (hfree : s'.freeSlots = s.freeSlots)
    (husers : s'.byUser = s.byUser) (hbiases : s'.rxBias.length = s.rxBias.length)
    (hsyncs : s'.rxSync.length = s.rxSync.length)
    (hpairs : ∀ a b, (s'.pairs (a, b)).isSome = true →
      a ≠ b ∧ s.isAlive a = true ∧ s.isAlive b = true ∧ (s'.pairs (b, a)).isSome = true)
    (hoffsets : ∀ i, (s'.stampOffset i).isSome = true → s.isAlive i = true) : WellFormed s' := by
  have hisAlive : ∀ i, s'.isAlive i = s.isAlive i := fun i => by rw [isAlive, isAlive, halive]
  have hreceiver : ∀ i, s'.receiver i = s.receiver i := fun i => by
    rw [receiver, receiver, hreceivers]
  constructor
  · rw [hgens, hreceivers, h.gens]
  · rw [halive, hreceivers, h.alive]
  · rw [hbiases, hreceivers, h.biases]
  · rw [hsyncs, hreceivers, h.syncs]
  · rw [hfree]
    exact h.freeOnce
  · intro i
    rw [hfree, hreceivers, hisAlive, h.free]
  · intro u i
    rw [husers, hisAlive, hreceiver, h.users]
  · intro a b hab
    rw [hisAlive, hisAlive]
    exact hpairs a b hab
  · intro i hi
    rw [hisAlive]
    exact hoffsets i hi

theorem WellFormed.quiet (s s' : State F) (h : WellFormed s) (hq : Quiet s s') : WellFormed s' :=
  WellFormed.frame s s' h hq.receivers hq.gens hq.alive hq.freeSlots hq.byUser hq.biases hq.syncs
    (fun a b hab => by rw [hq.pairs] at hab ⊢; exact h.pairs a b hab)
    (fun i hi => h.offsets i (by rwa [hq.stampOffset] at hi))

omit [F64Fn F] in
/-- Dropping the models of a slot leaves those of the others, in both
    directions. -/
theorem dropPairs_isSome (s : State F) (rx a b : Nat)
    (h : ((s.dropPairs rx).pairs (a, b)).isSome = true) :
    a ≠ rx ∧ b ≠ rx ∧ (s.pairs (a, b)).isSome = true := by
  simp only [dropPairs] at h
  by_cases hk : a ≠ rx ∧ b ≠ rx
  · rw [if_pos hk] at h
    exact ⟨hk.1, hk.2, h⟩
  · rw [if_neg hk] at h
    exact absurd h Bool.false_ne_true

omit [F64Fn F] in
theorem dropPairs_of_ne (s : State F) (rx a b : Nat) (ha : a ≠ rx) (hb : b ≠ rx) :
    (s.dropPairs rx).pairs (a, b) = s.pairs (a, b) := by
  simp only [dropPairs]
  rw [if_pos ⟨ha, hb⟩]

theorem WellFormed.dropPairs (s : State F) (h : WellFormed s) (rx a b : Nat)
    (hab : ((s.dropPairs rx).pairs (a, b)).isSome = true) :
    (a ≠ rx ∧ b ≠ rx) ∧ a ≠ b ∧ s.isAlive a = true ∧ s.isAlive b = true ∧
      ((s.dropPairs rx).pairs (b, a)).isSome = true := by
  rcases s.dropPairs_isSome rx a b hab with ⟨ha, hb, hold⟩
  rcases h.pairs a b hold with ⟨hne, haliveA, haliveB, hback⟩
  refine ⟨⟨ha, hb⟩, hne, haliveA, haliveB, ?_⟩
  rw [s.dropPairs_of_ne rx b a hb ha]
  exact hback

theorem WellFormed.clockReset (s : State F) (h : WellFormed s) (r : RxRef) :
    WellFormed (s.clockReset r) := by
  unfold State.clockReset
  split_ifs
  · exact h
  · exact WellFormed.frame s _ h rfl rfl rfl rfl rfl rfl rfl
      (fun a b hab => (h.dropPairs s r.idx a b hab).2) h.offsets

theorem getD_set_self {α : Type*} (xs : List α) (i : Nat) (x d : α) (h : i < xs.length) :
    (xs.set i x).getD i d = x := by
  rw [List.getD_eq_getElem?_getD, List.getElem?_set_self h, Option.getD_some]

theorem getD_set_ne {α : Type*} (xs : List α) (i j : Nat) (x d : α) (h : i ≠ j) :
    (xs.set i x).getD j d = xs.getD j d := by
  rw [List.getD_eq_getElem?_getD, List.getElem?_set_ne h, List.getD_eq_getElem?_getD]

/-- A live slot is entered under its user. -/
theorem WellFormed.byUser_live (s : State F) (h : WellFormed s) (r : RxRef)
    (hlive : s.live r = true) : s.byUser (s.receiver r.idx).user = some r.idx :=
  (h.users _ _).mpr ⟨live_alive s r hlive, rfl⟩

/-- What a removal that takes place does. -/
theorem removeReceiver_eq (s : State F) (h : WellFormed s) (r : RxRef) (hlive : s.live r = true) :
    s.removeReceiver r = { s.dropPairs r.idx with
      alive := s.alive.set r.idx false
      stampOffset := Function.update s.stampOffset r.idx none
      offsetOrigin := Function.update s.offsetOrigin r.idx none
      byUser := Function.update s.byUser (s.receiver r.idx).user none
      freeSlots := r.idx :: s.freeSlots } := by
  have huser := h.byUser_live s r hlive
  unfold removeReceiver
  rw [if_neg (by rw [hlive]; exact Bool.noConfusion)]
  simp only [State.dropPairs, huser, if_true]

theorem WellFormed.removeReceiver (s : State F) (h : WellFormed s) (r : RxRef) :
    WellFormed (s.removeReceiver r) := by
  by_cases hdead : s.live r = false
  · unfold State.removeReceiver
    rw [if_pos hdead]
    exact h
  · have hlive : s.live r = true := by rwa [Bool.not_eq_false] at hdead
    have halive := live_alive s r hlive
    have hlt := h.lt s r.idx halive
    rw [s.removeReceiver_eq h r hlive]
    -- The slot is dead afterwards, the others are as they were.
    have hself : (s.alive.set r.idx false).getD r.idx false = false :=
      getD_set_self _ _ _ _ (by rw [h.alive]; exact hlt)
    have hother : ∀ i, i ≠ r.idx → (s.alive.set r.idx false).getD i false = s.isAlive i :=
      fun i hi => getD_set_ne _ _ _ _ _ (Ne.symm hi)
    constructor
    · exact h.gens
    · exact List.length_set.trans h.alive
    · exact h.biases
    · exact h.syncs
    · refine List.nodup_cons.mpr ⟨?_, h.freeOnce⟩
      intro hmem
      have hfree := ((h.free r.idx).mp hmem).2
      rw [halive] at hfree
      exact Bool.false_ne_true hfree.symm
    · intro i
      by_cases hi : i = r.idx
      · rw [hi]
        exact ⟨fun _ => ⟨hlt, hself⟩, fun _ => List.mem_cons_self⟩
      · simp only [isAlive, List.mem_cons, hi, false_or]
        rw [hother i hi]
        exact h.free i
    · intro u i
      by_cases hu : u = (s.receiver r.idx).user
      · -- The user of the slot has no entry, and no other live slot has that user.
        rw [hu]
        simp only [Function.update_self, reduceCtorEq, false_iff, not_and]
        intro hi huser
        by_cases heq : i = r.idx
        · rw [heq] at hi
          exact Bool.false_ne_true (hself.symm.trans hi)
        · have hold : s.isAlive i = true := (hother i heq).symm.trans hi
          have hentry := (h.users (s.receiver r.idx).user i).mpr ⟨hold, huser⟩
          rw [h.byUser_live s r hlive, Option.some.injEq] at hentry
          exact heq hentry.symm
      · simp only [Function.update_of_ne hu]
        by_cases heq : i = r.idx
        · rw [heq]
          constructor
          · intro hentry
            exact absurd ((h.users u r.idx).mp hentry).2.symm hu
          · rintro ⟨hi, _⟩
            exact absurd (hself.symm.trans hi) Bool.false_ne_true
        · rw [h.users u i]
          simp only [isAlive]
          rw [hother i heq]
          rfl
    · intro a b hab
      rcases h.dropPairs s r.idx a b hab with ⟨⟨ha, hb⟩, hne, haliveA, haliveB, hback⟩
      exact ⟨hne, (hother a ha).trans haliveA, (hother b hb).trans haliveB, hback⟩
    · intro i hi
      by_cases heq : i = r.idx
      · simp only [heq, Function.update_self, Option.isSome_none, Bool.false_eq_true] at hi
      · simp only [Function.update_of_ne heq] at hi
        exact (hother i heq).trans (h.offsets i hi)

/-- A dead slot comes alive for a user that had none, the others stay. -/
theorem WellFormed.taken (s s' : State F) (h : WellFormed s) (info : ReceiverInfo F) (j : Nat)
    (hnone : s.byUser info.user = none) (hdead : s.isAlive j = false)
    (hself : s'.isAlive j = true) (hother : ∀ i, i ≠ j → s'.isAlive i = s.isAlive i)
    (hinfo : s'.receiver j = info) (hreceiver : ∀ i, i ≠ j → s'.receiver i = s.receiver i)
    (hgens : s'.gens.length = s'.receivers.length) (halive : s'.alive.length = s'.receivers.length)
    (hbiases : s'.rxBias.length = s'.receivers.length)
    (hsyncs : s'.rxSync.length = s'.receivers.length) (hfreeOnce : s'.freeSlots.Nodup)
    (hfree : ∀ i, i ∈ s'.freeSlots ↔ i < s'.receivers.length ∧ s'.isAlive i = false)
    (husers : s'.byUser = Function.update s.byUser info.user (some j))
    (hpairs : s'.pairs = s.pairs) (hoffsets : s'.stampOffset = s.stampOffset) :
    WellFormed s' := by
  have hstays : ∀ i, s.isAlive i = true → s'.isAlive i = true := by
    intro i hi
    by_cases heq : i = j
    · rw [heq]
      exact hself
    · rw [hother i heq]
      exact hi
  constructor
  · exact hgens
  · exact halive
  · exact hbiases
  · exact hsyncs
  · exact hfreeOnce
  · exact hfree
  · intro u i
    rw [husers]
    by_cases hi : i = j
    · rw [hi, hself, hinfo]
      by_cases hu : u = info.user
      · rw [hu, Function.update_self]
        exact ⟨fun _ => ⟨rfl, rfl⟩, fun _ => rfl⟩
      · rw [Function.update_of_ne hu, h.users u j, hdead]
        exact ⟨fun hd => absurd hd.1 Bool.false_ne_true, fun hd => absurd hd.2.symm hu⟩
    · rw [hother i hi, hreceiver i hi, ← h.users u i]
      by_cases hu : u = info.user
      · rw [hu, Function.update_self, hnone, Option.some.injEq]
        exact ⟨fun heq => absurd heq.symm hi, fun heq => absurd heq (Option.some_ne_none i).symm⟩
      · rw [Function.update_of_ne hu]
  · intro a b hab
    rw [hpairs] at hab ⊢
    rcases h.pairs a b hab with ⟨hne, ha, hb, hback⟩
    exact ⟨hne, hstays a ha, hstays b hb, hback⟩
  · intro i hi
    rw [hoffsets] at hi
    exact hstays i (h.offsets i hi)

/-- A slot is taken for a user that has none. -/
theorem WellFormed.takeSlot (s : State F) (h : WellFormed s) (info : ReceiverInfo F)
    (hnone : s.byUser info.user = none) (reference : Option Nat) :
    WellFormed { (s.takeSlot info).1 with
      byUser := Function.update (s.takeSlot info).1.byUser info.user (some (s.takeSlot info).2)
      reference := reference } := by
  unfold State.takeSlot
  cases hslots : s.freeSlots with
  | cons j free =>
      -- The slot freed last.
      have hj : j < s.receivers.length ∧ s.isAlive j = false :=
        (h.free j).mp (by rw [hslots]; exact List.mem_cons_self)
      have hnodup : j ∉ free ∧ free.Nodup := List.nodup_cons.mp (hslots ▸ h.freeOnce)
      have hself : (s.alive.set j true).getD j false = true :=
        getD_set_self _ _ _ _ (by rw [h.alive]; exact hj.1)
      have hother : ∀ i, i ≠ j → (s.alive.set j true).getD i false = s.isAlive i :=
        fun i hi => getD_set_ne _ _ _ _ _ (Ne.symm hi)
      refine WellFormed.taken s _ h info j hnone hj.2 hself hother
        (getD_set_self _ _ _ _ hj.1) (fun i hi => getD_set_ne _ _ _ _ _ (Ne.symm hi))
        (List.length_set.trans (h.gens.trans List.length_set.symm))
        (List.length_set.trans (h.alive.trans List.length_set.symm))
        (List.length_set.trans (h.biases.trans List.length_set.symm))
        (List.length_set.trans (h.syncs.trans List.length_set.symm)) hnodup.2 ?_ rfl rfl rfl
      intro i
      simp only [isAlive, List.length_set]
      by_cases hi : i = j
      · rw [hi, hself]
        exact ⟨fun hmem => absurd hmem hnodup.1, fun hd => absurd hd.2.symm Bool.false_ne_true⟩
      · rw [hother i hi, ← h.free i, hslots, List.mem_cons]
        exact ⟨Or.inr, fun hmem => hmem.resolve_left hi⟩
  | nil =>
      -- One more slot.
      have hself : (s.alive ++ [true]).getD s.receivers.length false = true := by
        rw [← h.alive, List.getD_append_right _ _ _ _ (Nat.le_refl _), Nat.sub_self]
        rfl
      have hother : ∀ i, i ≠ s.receivers.length →
          (s.alive ++ [true]).getD i false = s.isAlive i :=
        fun i hi => getD_append_ne _ _ _ _ (by rw [h.alive]; exact Ne.symm hi)
      have hout : s.isAlive s.receivers.length = false := by
        rw [isAlive, List.getD_eq_default _ _ (by rw [h.alive])]
      have hinfo : ∀ d, (s.receivers ++ [info]).getD s.receivers.length d = info := by
        intro d
        rw [List.getD_append_right _ _ _ _ (Nat.le_refl _), Nat.sub_self]
        rfl
      refine WellFormed.taken s _ h info s.receivers.length hnone hout hself hother (hinfo _)
        (fun i hi => getD_append_ne _ _ _ _ (Ne.symm hi)) ?_ ?_ ?_ ?_ List.nodup_nil ?_ rfl rfl rfl
      · simp only [List.length_append, List.length_singleton, h.gens]
      · simp only [List.length_append, List.length_singleton, h.alive]
      · simp only [List.length_append, List.length_singleton, h.biases]
      · simp only [List.length_append, List.length_singleton, h.syncs]
      · intro i
        simp only [isAlive, List.length_append, List.length_singleton, List.not_mem_nil, false_iff]
        rintro ⟨hlt, hd⟩
        by_cases hi : i = s.receivers.length
        · rw [hi, hself] at hd
          exact Bool.false_ne_true hd.symm
        · -- No slot in range was dead.
          rw [hother i hi] at hd
          have hmem := (h.free i).mpr ⟨by omega, hd⟩
          rw [hslots] at hmem
          exact absurd hmem List.not_mem_nil

/-- A connection: the slot of the same user is freed first. -/
theorem addReceiver_fresh (s : State F) (h : WellFormed s) (info : ReceiverInfo F) :
    ∃ t, WellFormed t ∧ t.byUser info.user = none ∧
      (t = s ∨ ∃ old, s.byUser info.user = some old ∧
        t = s.removeReceiver ⟨old, s.genOf old⟩) ∧
      (s.addReceiver info).2 =
        ⟨(t.takeSlot info).2, (t.takeSlot info).1.genOf (t.takeSlot info).2⟩ ∧
      ∃ reference, (s.addReceiver info).1 = { (t.takeSlot info).1 with
        byUser := Function.update (t.takeSlot info).1.byUser info.user (some (t.takeSlot info).2)
        reference := reference } := by
  unfold addReceiver
  cases hold : s.byUser info.user with
  | none => exact ⟨s, h, hold, Or.inl rfl, rfl, _, rfl⟩
  | some old =>
      rcases (h.users info.user old).mp hold with ⟨halive, huser⟩
      have hlive : s.live ⟨old, s.genOf old⟩ = true := by
        rw [live, decide_eq_true_eq]
        exact ⟨h.lt s old halive, halive, rfl⟩
      refine ⟨s.removeReceiver ⟨old, s.genOf old⟩, h.removeReceiver s _, ?_,
        Or.inr ⟨old, rfl, rfl⟩, rfl, _, rfl⟩
      rw [s.removeReceiver_eq h _ hlive, ← huser]
      exact Function.update_self _ _ _

theorem WellFormed.addReceiver (s : State F) (h : WellFormed s) (info : ReceiverInfo F) :
    WellFormed (s.addReceiver info).1 := by
  rcases s.addReceiver_fresh h info with ⟨t, ht, hnone, _, _, reference, heq⟩
  rw [heq]
  exact ht.takeSlot t info hnone reference

/-- Training has models in both directions. -/
theorem trainPair_pairs (s : State F) (a b : Nat) (ta tb : F) (k : Nat × Nat) :
    ((s.trainPair a b ta tb).pairs k).isSome = true ↔
      k = (a, b) ∨ k = (b, a) ∨ (s.pairs k).isSome = true := by
  simp only [trainPair]
  by_cases hba : k = (b, a)
  · simp only [hba, Function.update_self, Option.isSome_some, true_or, or_true]
  · rw [Function.update_of_ne hba]
    by_cases hab : k = (a, b)
    · simp only [hab, Function.update_self, Option.isSome_some, true_or]
    · rw [Function.update_of_ne hab]
      simp only [hab, hba, false_or]

theorem WellFormed.trainPair (s : State F) (h : WellFormed s) (a b : Nat) (ta tb : F)
    (hne : a ≠ b) (ha : s.isAlive a = true) (hb : s.isAlive b = true) :
    WellFormed (s.trainPair a b ta tb) := by
  refine WellFormed.frame s _ h rfl rfl rfl rfl rfl rfl List.length_set ?_ h.offsets
  intro c d hcd
  rw [trainPair_pairs] at hcd ⊢
  simp only [Prod.mk.injEq] at hcd ⊢
  rcases hcd with ⟨hca, hdb⟩ | ⟨hcb, hda⟩ | hold
  · rw [hca, hdb]
    exact ⟨hne, ha, hb, Or.inr (Or.inl ⟨rfl, rfl⟩)⟩
  · rw [hcb, hda]
    exact ⟨Ne.symm hne, hb, ha, Or.inl ⟨rfl, rfl⟩⟩
  · rcases h.pairs c d hold with ⟨hcd, hc, hd, hback⟩
    exact ⟨hcd, hc, hd, Or.inr (Or.inr hback)⟩

theorem WellFormed.trainWith (s : State F) (h : WellFormed s) (me other : Reporter F)
    (hme : s.isAlive me.rx = true) : WellFormed (s.trainWith me other) := by
  unfold State.trainWith
  by_cases hskip : other.rx = me.rx ∨ s.isAlive other.rx = false
  · rw [if_pos hskip]
    exact h
  · rw [if_neg hskip]
    rw [not_or, Bool.not_eq_false] at hskip
    have hne : me.rx ≠ other.rx := Ne.symm hskip.1
    have hone := h.trainPair s me.rx other.rx me.te other.te hne hme hskip.2
    have htwo := hone.trainPair _ me.rx other.rx me.tO other.tO hne hme hskip.2
    exact ⟨htwo.1, htwo.2, htwo.3, htwo.4, htwo.5, htwo.6, htwo.7, htwo.8, htwo.9⟩

theorem trainWith_alive (s : State F) (me other : Reporter F) (i : Nat) :
    (s.trainWith me other).isAlive i = s.isAlive i := by
  unfold trainWith
  split_ifs <;> rfl

/-- One earlier reporter after another; the slot stays alive. -/
theorem WellFormed.trainAll (s : State F) (h : WellFormed s) (me : Reporter F)
    (others : List (Reporter F)) (hme : s.isAlive me.rx = true) :
    WellFormed (others.foldl (fun s other => s.trainWith me other) s) := by
  induction others generalizing s with
  | nil => exact h
  | cons other others ih =>
      refine ih _ (h.trainWith s me other hme) ?_
      rw [trainWith_alive]
      exact hme

theorem WellFormed.joinSync (s : State F) (h : WellFormed s) (now : Nat) (r : RxRef) (te tO : F)
    (key : String × String) (hlive : s.live r = true) :
    WellFormed (s.joinSync now r te tO key) := by
  have halive := live_alive s r hlive
  have hpoint : ∀ sps, WellFormed { s with syncpoints := sps } := fun sps =>
    WellFormed.frame s _ h rfl rfl rfl rfl rfl rfl rfl h.pairs h.offsets
  unfold State.joinSync
  simp only []
  split_ifs
  · exact hpoint _
  · exact WellFormed.trainAll _ (hpoint _) _ _ halive

theorem WellFormed.onMlat (s : State F) (h : WellFormed s) (now : Nat) (r : RxRef) (tCounts : F)
    (mHex : String) (atScaled : F) : WellFormed (s.onMlat now r tCounts mHex atScaled) := by
  rcases s.onMlat_cases now r tCounts mHex atScaled with heq | ⟨_, alts, g, _, heq⟩
  · rw [heq]
    exact h
  · rw [heq]
    exact WellFormed.frame s _ h rfl rfl rfl rfl rfl rfl rfl h.pairs h.offsets

theorem WellFormed.onSync (s : State F) (h : WellFormed s) (now : Nat) (r : RxRef) (et ot : F)
    (emHex omHex : String) (atScaled : F) :
    WellFormed (s.onSync now r et ot emHex omHex atScaled) := by
  unfold State.onSync
  by_cases hlive : s.live r = false
  · rw [if_pos hlive]
    exact h
  · rw [if_neg hlive]
    rw [Bool.not_eq_false] at hlive
    cases syncEvent (F := F) emHex omHex with
    | none => exact h
    | some d =>
        rcases d with ⟨de, pe, po⟩
        simp only []
        generalize (⟨pe.1, pe.2, _⟩ : Geodetic F) = geo
        have hnote : WellFormed (s.noteAdsb de geo atScaled) :=
          WellFormed.frame s _ h rfl rfl rfl rfl rfl rfl rfl h.pairs h.offsets
        have hlive' : (s.noteAdsb de geo atScaled).live r = true := hlive
        generalize s.noteAdsb de geo atScaled = noted at hnote hlive' ⊢
        split_ifs
        · refine WellFormed.joinSync _ (hnote.onMlat noted now r et emHex atScaled) now r _ _ _ ?_
          rw [(grows_onMlat noted now r et emHex atScaled).live]
          exact hlive'
        · exact hnote.joinSync noted now r _ _ _ hlive'

/-- A carried-over time was read at the reference, or a model leads there. -/
theorem toRef_source (s : State F) (members : List Nat) (ref rx : Nat) (t : F) (p : F × F)
    (h : s.toRef members ref rx t = some p) :
    rx = ref ∨ ∃ a, (s.pairs (a, ref)).isSome = true := by
  have hhop : ∀ a t' q, s.hop a ref t' = some q → (s.pairs (a, ref)).isSome = true := by
    intro a t' q hq
    rcases Option.bind_eq_some_iff.mp hq with ⟨m, hm, _⟩
    rw [hm]
    rfl
  unfold toRef at h
  by_cases hrx : rx = ref
  · exact Or.inl hrx
  · rw [if_neg hrx] at h
    right
    cases hdirect : s.hop rx ref t with
    | some direct => exact ⟨rx, hhop rx t direct hdirect⟩
    | none =>
        rw [hdirect] at h
        -- The best detour ends in a model to the reference.
        refine List.foldlRecOn (motive := fun best : Option (F × F) => best = some p →
          ∃ a, (s.pairs (a, ref)).isSome = true) _ _ ?_ ?_ h
        · exact fun hnone => absurd hnone (Option.some_ne_none p).symm
        · intro best hbest a _ heq
          cases hone : s.hop rx a t with
          | none =>
              simp only [hone] at heq
              exact hbest heq
          | some q =>
              cases htwo : s.hop a ref q.1 with
              | none =>
                  simp only [hone, htwo] at heq
                  exact hbest heq
              | some q' => exact ⟨a, hhop a q.1 q' htwo⟩

/-- An observation in the clock of a reference means that the reference is
    alive. -/
theorem converted_alive (s s' : State F) (h : WellFormed s) (halive : s'.alive = s.alive)
    (members : List Nat) (ref : Nat) (es : List (Entry F)) (cluster : List (Conv F))
    (hcluster : ∀ c ∈ cluster, c ∈ s.converted members ref es)
    (hobs : s'.observe cluster ≠ []) : s.isAlive ref = true := by
  rcases List.exists_mem_of_ne_nil _ hobs with ⟨o, ho⟩
  rcases s'.observe_spec cluster o ho with ⟨c, hc, _, _, hcalive, _⟩
  have hconv := hcluster c hc
  rw [converted, List.mem_insertionSort] at hconv
  rcases List.mem_filterMap.mp hconv with ⟨e, _, hce⟩
  rcases Option.map_eq_some_iff.mp hce with ⟨p, hp, heq⟩
  have hrx : c.rx = e.rx := by rw [← heq]
  rcases s.toRef_source members ref e.rx e.tS p hp with hsame | ⟨a, ha⟩
  · rw [hrx, hsame] at hcalive
    rw [isAlive, ← halive]
    exact hcalive
  · exact (h.pairs a ref ha).2.2.1

theorem WellFormed.solveCluster (solver : Solver F) (s : State F) (h : WellFormed s)
    (nowScaled : F) (icao : Icao) (df17 : Bool) (ref : Nat) (cluster : List (Conv F))
    (href : s.observe cluster ≠ [] → s.isAlive ref = true) :
    WellFormed (s.solveCluster solver nowScaled icao df17 ref cluster) := by
  have hobserved : WellFormed (s.withObserved cluster) :=
    WellFormed.frame s _ h rfl rfl rfl rfl rfl rfl rfl h.pairs h.offsets
  rcases s.solveCluster_cases solver nowScaled icao df17 ref cluster with heq | ⟨hobs, off, hq⟩
  · rw [heq]
    exact hobserved
  · refine WellFormed.quiet _ _ ?_ hq
    refine WellFormed.frame _ _ hobserved rfl rfl rfl rfl rfl rfl rfl hobserved.pairs ?_
    intro i hi
    by_cases heq : i = ref
    · rw [heq]
      exact href hobs
    · have hother : ((s.withObserved cluster).withOffset ref off).stampOffset i = s.stampOffset i :=
        Function.update_of_ne heq _ _
      rw [hother] at hi
      exact h.offsets i hi

theorem WellFormed.solveGroup (solver : Solver F) (s : State F) (h : WellFormed s)
    (clock : Nat → F) (g : Group F) : WellFormed (s.solveGroup solver clock g) := by
  unfold State.solveGroup
  simp only []
  cases s.localRef g.members with
  | none => exact h
  | some ref =>
      simp only []
      have hconv : WellFormed (s.withConverted g.members ref g.entries) :=
        WellFormed.frame s _ h rfl rfl rfl rfl rfl rfl rfl h.pairs h.offsets
      generalize s.withConverted g.members ref g.entries = t at hconv ⊢
      have hfold : WellFormed (t.solveClusters solver clock g.icao g.df17 ref
          (clusters (t.converted g.members ref g.entries).length
            (t.converted g.members ref g.entries)).1.zipIdx) := by
        refine (List.foldlRecOn _ _ (motive := fun s' : State F =>
          WellFormed s' ∧ s'.alive = t.alive) ⟨hconv, rfl⟩ ?_).1
        rintro s' ⟨hs', halive⟩ ⟨cluster, i⟩ hp
        have hcluster := clusters_mem _ _ cluster (List.fst_mem_of_mem_zipIdx hp)
        constructor
        · refine hs'.solveCluster solver s' _ _ _ _ _ fun hobs => ?_
          rw [isAlive, halive]
          exact converted_alive t s' hconv halive _ _ _ cluster hcluster hobs
        · rcases s'.solveCluster_cases solver (clock i) g.icao g.df17 ref cluster with
            heq | ⟨_, off, hq⟩
          · simp only [heq]
            exact halive
          · exact hq.alive.trans halive
      split_ifs
      · exact h
      · exact hconv
      · exact hfold
      · exact WellFormed.frame _ _ hfold rfl rfl rfl rfl rfl rfl rfl hfold.pairs hfold.offsets

theorem WellFormed.sweep (solver : Solver F) (s : State F) (h : WellFormed s) (now window : Nat)
    (order : List String) (clock : String → Nat → F) :
    WellFormed (s.sweep solver now window order clock) := by
  unfold State.sweep
  simp only []
  refine List.foldlRecOn _ _ (motive := fun s' : State F => WellFormed s') ?_ ?_
  · exact WellFormed.frame s _ h rfl rfl rfl rfl rfl rfl rfl h.pairs h.offsets
  · intro s' hs' key _
    cases s'.groups key with
    | none => exact hs'
    | some g =>
        simp only []
        split_ifs
        · exact hs'
        · refine WellFormed.solveGroup solver _ ?_ _ g
          exact WellFormed.frame s' _ hs' rfl rfl rfl rfl rfl rfl rfl hs'.pairs hs'.offsets

theorem wellFormed_step (solver : Solver F) (s : State F) (e : Event F) (h : WellFormed s) :
    WellFormed (s.step solver e) := by
  unfold step
  split_ifs
  · exact h
  · cases e with
    | add info => exact h.addReceiver s info
    | remove r => exact h.removeReceiver s r
    | reset r => exact h.clockReset s r
    | sync now r et ot emHex omHex atScaled => exact h.onSync s now r et ot emHex omHex atScaled
    | mlat now r tCounts mHex atScaled => exact h.onMlat s now r tCounts mHex atScaled
    | stats r => exact h.quiet s _ (quiet_receiverStats s r)
    | sweep now window order clock => exact h.sweep solver s now window order clock

/-- The containers agree after every run. -/
theorem representation (solver : Solver F) (shardId : Nat) (mlatAdsb emitFiltered : Bool)
    (es : List (Event F)) :
    WellFormed (exec (step solver) (State.new shardId mlatAdsb emitFiltered) es) := by
  refine List.foldlRecOn es _ (motive := fun s : State F => WellFormed s)
    (wellFormed_new shardId mlatAdsb emitFiltered) ?_
  intro s h e _
  exact wellFormed_step solver s e h

end State

end Server

end MlatBench
