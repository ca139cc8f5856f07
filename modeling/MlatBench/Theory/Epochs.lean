import MlatBench.Core.Link
import MlatBench.Theory.Isolation
import MlatBench.Theory.Representation

/-!
# Clock Epochs

A receiver's counter starts anew when its input reconnects. The readings before
and after belong to different clocks, so between them the shard should drop the
pair models of the receiver. The client's engine announces a reconnect with
`input_connected`, which the server ignores, and forgets the last counter, so that
the jump goes unnoticed by its own test too: unless the new counter jumps backward
once more, no clock reset is sent.

Readings of one clock that do not cross a reconnect stay together on their way
through the channel into the pair models, as long as no reading from before a
reset is still pending when another receiver joins its sync point.

## Main definitions

* `State.Joins`: The reports a call trains the models of a pair with.
* `State.Known`: The models are trained with reports of their own slots.
* `State.Current`: The models of a receiver are trained under its running clock.
* `Ordered`: Between the readings of two input connections comes a reset.
* `Link.OneConnection`: Epochs and models are of one input connection.
* `Link.Faithful`: No reading crosses a reconnect, and no stale report is joined.

## Theorems

* `step_trained`: What models are trained with.
* `known_run`: Models and slots agree.
* `current_step`: The models follow the clock.
* `kept_step`: What a turn keeps.
* `epochs_reach_server`: Faithful runs keep the connections apart.
* `reconnect_unnoticed`: A reconnect goes unnoticed.
-/

namespace MlatBench

namespace Server

open Library F64 F64Fn Modes

variable {F : Type} [F64Fn F]

namespace State

/-- The reports a call trains the models of a pair with: the one it brings and
    those of the sync point it joins. -/
def Joins (s : State F) (k : Nat × Nat) (o : Origin) : Event F → Prop
  | .sync _ q _ _ emHex omHex _ =>
    (o = s.originOf q ∧ (q.idx = k.1 ∨ q.idx = k.2)) ∨
      ∃ sp rep, s.syncpoints (emHex, omHex) = some sp ∧ rep ∈ sp.reporters ∧ rep.origin = o ∧
        (rep.rx = k.1 ∨ rep.rx = k.2)
  | _ => False

/-- Models are trained with one pair of reports at a time. -/
theorem trainWith_trained (s : State F) (me other : Reporter F) (k : Nat × Nat) (o : Origin)
    (ho : o ∈ (s.trainWith me other).trained k) :
    o ∈ s.trained k ∨ (me.rx = k.1 ∨ me.rx = k.2) ∧ (other.rx = k.1 ∨ other.rx = k.2) ∧
      (o = me.origin ∨ o = other.origin) := by
  unfold trainWith at ho
  by_cases hskip : other.rx = me.rx ∨ s.isAlive other.rx = false
  · rw [if_pos hskip] at ho
    exact Or.inl ho
  · rw [if_neg hskip] at ho
    simp only [] at ho
    by_cases hk : k ∈ [(me.rx, other.rx), (other.rx, me.rx)]
    · rw [if_pos hk] at ho
      rcases List.mem_append.mp ho with hold | hnew
      · exact Or.inl hold
      · rw [List.mem_cons, List.mem_singleton] at hk hnew
        refine Or.inr ?_
        rcases hk with rfl | rfl
        · exact ⟨Or.inl rfl, Or.inr rfl, hnew⟩
        · exact ⟨Or.inr rfl, Or.inl rfl, hnew⟩
    · rw [if_neg hk] at ho
      exact Or.inl ho

theorem trainAll_trained (s : State F) (me : Reporter F) (others : List (Reporter F))
    (k : Nat × Nat) (o : Origin)
    (ho : o ∈ (others.foldl (fun s other => s.trainWith me other) s).trained k) :
    o ∈ s.trained k ∨ (me.rx = k.1 ∨ me.rx = k.2) ∧ ∃ other ∈ others,
      (other.rx = k.1 ∨ other.rx = k.2) ∧ (o = me.origin ∨ o = other.origin) := by
  induction others generalizing s with
  | nil => exact Or.inl ho
  | cons other others ih =>
      rcases ih _ ho with hold | ⟨hme, rep, hrep, hnew⟩
      · rcases s.trainWith_trained me other k o hold with hold | ⟨hme, hends, hnew⟩
        · exact Or.inl hold
        · exact Or.inr ⟨hme, other, List.mem_cons_self, hends, hnew⟩
      · exact Or.inr ⟨hme, rep, List.mem_cons_of_mem _ hrep, hnew⟩

theorem joinSync_trained (s : State F) (now : Nat) (r : RxRef) (te tO : F)
    (key : String × String) (k : Nat × Nat) (o : Origin)
    (ho : o ∈ (s.joinSync now r te tO key).trained k) :
    o ∈ s.trained k ∨ (o = s.originOf r ∧ (r.idx = k.1 ∨ r.idx = k.2)) ∨
      ∃ sp rep, s.syncpoints key = some sp ∧ rep ∈ sp.reporters ∧ rep.origin = o ∧
        (rep.rx = k.1 ∨ rep.rx = k.2) := by
  unfold joinSync at ho
  simp only [] at ho
  split_ifs at ho
  · exact Or.inl ho
  · rcases trainAll_trained _ _ _ k o ho with hold | ⟨hme, rep, hrep, hends, hnew⟩
    · exact Or.inl hold
    · rcases hnew with rfl | rfl
      · exact Or.inr (Or.inl ⟨rfl, hme⟩)
      · cases hsp : s.syncpoints key with
        | none =>
            rw [hsp] at hrep
            exact absurd hrep List.not_mem_nil
        | some sp =>
            rw [hsp] at hrep
            exact Or.inr (Or.inr ⟨sp, rep, rfl, hrep, rfl, hends⟩)

/-- A message for a group leaves the models and sync points alone. -/
theorem onMlat_trained (s : State F) (now : Nat) (r : RxRef) (tCounts : F) (mHex : String)
    (atScaled : F) :
    (s.onMlat now r tCounts mHex atScaled).trained = s.trained ∧
      (s.onMlat now r tCounts mHex atScaled).pairs = s.pairs ∧
      (s.onMlat now r tCounts mHex atScaled).syncpoints = s.syncpoints ∧
      (s.onMlat now r tCounts mHex atScaled).resets = s.resets := by
  rcases s.onMlat_cases now r tCounts mHex atScaled with heq | ⟨_, alts, g, _, heq⟩
  · rw [heq]
    exact ⟨rfl, rfl, rfl, rfl⟩
  · rw [heq]
    exact ⟨rfl, rfl, rfl, rfl⟩

/-- A sync message trains nothing, or its report joins the sync point of its
    texts. -/
theorem onSync_cases (s : State F) (now : Nat) (r : RxRef) (et ot : F) (emHex omHex : String)
    (atScaled : F) : s.onSync now r et ot emHex omHex atScaled = s ∨
      ∃ (t : State F) (te tO : F), t.trained = s.trained ∧ t.pairs = s.pairs ∧
        t.syncpoints = s.syncpoints ∧ t.resets = s.resets ∧
        s.onSync now r et ot emHex omHex atScaled = t.joinSync now r te tO (emHex, omHex) := by
  unfold onSync
  split_ifs
  · exact Or.inl rfl
  · cases syncEvent (F := F) emHex omHex with
    | none => exact Or.inl rfl
    | some d =>
        rcases d with ⟨de, pe, po⟩
        refine Or.inr ⟨_, _, _, ?_, ?_, ?_, ?_, rfl⟩
        · split_ifs
          · exact (onMlat_trained _ now r et emHex atScaled).1
          · rfl
        · split_ifs
          · exact (onMlat_trained _ now r et emHex atScaled).2.1
          · rfl
        · split_ifs
          · exact (onMlat_trained _ now r et emHex atScaled).2.2.1
          · rfl
        · split_ifs
          · exact (onMlat_trained _ now r et emHex atScaled).2.2.2
          · rfl

theorem onSync_trained (s : State F) (now : Nat) (r : RxRef) (et ot : F) (emHex omHex : String)
    (atScaled : F) (k : Nat × Nat) (o : Origin)
    (ho : o ∈ (s.onSync now r et ot emHex omHex atScaled).trained k) :
    o ∈ s.trained k ∨ s.Joins k o (.sync now r et ot emHex omHex atScaled) := by
  rcases s.onSync_cases now r et ot emHex omHex atScaled with
    heq | ⟨t, te, tO, htrained, _, hpoints, hresets, heq⟩
  · rw [heq] at ho
    exact Or.inl ho
  · rw [heq] at ho
    have hjoin := t.joinSync_trained now r te tO (emHex, omHex) k o ho
    rwa [htrained, hpoints, originOf, hresets] at hjoin

/-- A sweep trains nothing. -/
theorem sweep_trained (solver : Solver F) (s : State F) (now window : Nat) (order : List String)
    (clock : String → Nat → F) :
    (s.sweep solver now window order clock).trained = s.trained ∧
      (s.sweep solver now window order clock).pairs = s.pairs := by
  unfold sweep
  simp only []
  refine List.foldlRecOn _ _
    (motive := fun s' : State F => s'.trained = s.trained ∧ s'.pairs = s.pairs) ⟨rfl, rfl⟩ ?_
  intro s' h key _
  cases s'.groups key with
  | none => exact h
  | some g =>
      simp only []
      split_ifs
      · exact h
      · have hframe := (solveGroup_solved solver
          { s' with groups := Function.update s'.groups key none } (clock key) g).frame
        exact ⟨hframe.trained.trans h.1, hframe.pairs.trans h.2⟩

/-- Models are trained by sync messages only. -/
theorem step_trained (solver : Solver F) (s : State F) (e : Event F) (k : Nat × Nat) (o : Origin)
    (ho : o ∈ (s.step solver e).trained k) : o ∈ s.trained k ∨ s.Joins k o e := by
  unfold step at ho
  split_ifs at ho
  · exact Or.inl ho
  · cases e with
    | add info => exact Or.inl ((sheds_addReceiver s info).trained k o ho)
    | remove r => exact Or.inl ((sheds_removeReceiver s r).trained k o ho)
    | reset r =>
        refine Or.inl ?_
        simp only [clockReset] at ho
        split_ifs at ho
        · exact ho
        · exact (s.dropPairs_trained r.idx k o ho).2
    | sync now r et ot emHex omHex atScaled =>
        exact s.onSync_trained now r et ot emHex omHex atScaled k o ho
    | mlat now r tCounts mHex atScaled =>
        simp only [(s.onMlat_trained now r tCounts mHex atScaled).1] at ho
        exact Or.inl ho
    | stats r =>
        simp only [(quiet_receiverStats s r).trained] at ho
        exact Or.inl ho
    | sweep now window order clock =>
        simp only [(sweep_trained solver s now window order clock).1] at ho
        exact Or.inl ho

/-- Models are trained with reports of their own slots, and only models that are
    kept were trained. -/
structure Known (s : State F) : Prop where
  reports : ∀ i o, s.Reports i o → o.ref.idx = i
  ends : ∀ k, ∀ o ∈ s.trained k, o.ref.idx = k.1 ∨ o.ref.idx = k.2
  kept : ∀ k, s.trained k ≠ [] → (s.pairs k).isSome = true

section

omit [F64Fn F]

theorem known_new (shardId : Nat) (mlatAdsb emitFiltered : Bool) :
    Known (State.new shardId mlatAdsb emitFiltered : State F) where
  reports i o hr := absurd hr (not_reports _ (fun _ => rfl) (fun _ => rfl) i o)
  ends _ _ ho := absurd ho List.not_mem_nil
  kept _ hk := absurd rfl hk

theorem Known.seen (s : State F) (h : Known s) (i : Nat) (o : Origin) (hs : s.Seen i o) :
    o.ref.idx = i := by
  rcases hs with hs | ⟨r, _, hi, rfl⟩
  · exact h.reports i o hs
  · exact hi

/-- What is joined is of the slots of the pair. -/
theorem Known.joins (s : State F) (h : Known s) (e : Event F) (k : Nat × Nat) (o : Origin)
    (hj : s.Joins k o e) : o.ref.idx = k.1 ∨ o.ref.idx = k.2 := by
  cases e with
  | sync now q et ot emHex omHex atScaled =>
      rcases hj with ⟨rfl, hq⟩ | ⟨sp, rep, hsp, hrep, rfl, hends⟩
      · exact hq
      · rw [h.reports rep.rx rep.origin (Or.inl ⟨_, sp, rep, hsp, hrep, rfl, rfl⟩)]
        exact hends
  | _ => exact hj.elim

end

/-- Training keeps the models it trains. -/
theorem trainWith_kept (s : State F) (h : ∀ k, s.trained k ≠ [] → (s.pairs k).isSome = true)
    (me other : Reporter F) (k : Nat × Nat) (hk : (s.trainWith me other).trained k ≠ []) :
    ((s.trainWith me other).pairs k).isSome = true := by
  unfold trainWith at hk ⊢
  by_cases hskip : other.rx = me.rx ∨ s.isAlive other.rx = false
  · rw [if_pos hskip] at hk ⊢
    exact h k hk
  · rw [if_neg hskip] at hk ⊢
    simp only [] at hk ⊢
    rw [trainPair_pairs, trainPair_pairs]
    by_cases hmem : k ∈ [(me.rx, other.rx), (other.rx, me.rx)]
    · rw [List.mem_cons, List.mem_singleton] at hmem
      rcases hmem with hmem | hmem
      · exact Or.inl hmem
      · exact Or.inr (Or.inl hmem)
    · rw [if_neg hmem] at hk
      exact Or.inr (Or.inr (Or.inr (Or.inr (h k hk))))

theorem trainAll_kept (s : State F) (h : ∀ k, s.trained k ≠ [] → (s.pairs k).isSome = true)
    (me : Reporter F) (others : List (Reporter F)) (k : Nat × Nat)
    (hk : (others.foldl (fun s other => s.trainWith me other) s).trained k ≠ []) :
    ((others.foldl (fun s other => s.trainWith me other) s).pairs k).isSome = true := by
  induction others generalizing s with
  | nil => exact h k hk
  | cons other others ih => exact ih _ (s.trainWith_kept h me other) hk

theorem joinSync_kept (s : State F) (h : ∀ k, s.trained k ≠ [] → (s.pairs k).isSome = true)
    (now : Nat) (r : RxRef) (te tO : F) (key : String × String) (k : Nat × Nat)
    (hk : (s.joinSync now r te tO key).trained k ≠ []) :
    ((s.joinSync now r te tO key).pairs k).isSome = true := by
  unfold joinSync at hk ⊢
  simp only [] at hk ⊢
  split_ifs at hk ⊢
  · exact h k hk
  · refine trainAll_kept _ ?_ _ _ k hk
    exact h

omit [F64Fn F] in
/-- Models and what they were trained with are dropped together. -/
theorem dropPairs_kept (s : State F) (h : ∀ k, s.trained k ≠ [] → (s.pairs k).isSome = true)
    (rx : Nat) (k : Nat × Nat) (hk : (s.dropPairs rx).trained k ≠ []) :
    ((s.dropPairs rx).pairs k).isSome = true := by
  simp only [dropPairs] at hk ⊢
  by_cases hends : k.1 ≠ rx ∧ k.2 ≠ rx
  · rw [if_pos hends] at hk ⊢
    exact h k hk
  · rw [if_neg hends] at hk
    exact absurd rfl hk

theorem removeReceiver_kept (s : State F)
    (h : ∀ k, s.trained k ≠ [] → (s.pairs k).isSome = true) (r : RxRef) (k : Nat × Nat)
    (hk : (s.removeReceiver r).trained k ≠ []) :
    ((s.removeReceiver r).pairs k).isSome = true := by
  unfold removeReceiver at hk ⊢
  split_ifs at hk ⊢
  · exact h k hk
  · exact s.dropPairs_kept h r.idx k hk

theorem takeSlot_models (s : State F) (info : ReceiverInfo F) :
    (s.takeSlot info).1.trained = s.trained ∧ (s.takeSlot info).1.pairs = s.pairs := by
  unfold takeSlot
  cases s.freeSlots with
  | nil => exact ⟨rfl, rfl⟩
  | cons i free => exact ⟨rfl, rfl⟩

/-- A connection has the models that were left after the removal of one of the
    same user. -/
theorem addReceiver_kept (s : State F)
    (h : ∀ k, s.trained k ≠ [] → (s.pairs k).isSome = true) (info : ReceiverInfo F)
    (k : Nat × Nat) (hk : (s.addReceiver info).1.trained k ≠ []) :
    ((s.addReceiver info).1.pairs k).isSome = true := by
  rcases s.addReceiver_eq info with ⟨t, ht, _, users, reference, heq⟩
  rw [heq] at hk ⊢
  simp only [(t.takeSlot_models info).1, (t.takeSlot_models info).2] at hk ⊢
  rcases ht with rfl | ⟨old, _, rfl⟩
  · exact h k hk
  · exact s.removeReceiver_kept h _ k hk

theorem step_kept (solver : Solver F) (s : State F) (e : Event F)
    (h : ∀ k, s.trained k ≠ [] → (s.pairs k).isSome = true) (k : Nat × Nat)
    (hk : (s.step solver e).trained k ≠ []) : ((s.step solver e).pairs k).isSome = true := by
  unfold step at hk ⊢
  split_ifs at hk ⊢
  · exact h k hk
  · cases e with
    | add info => exact s.addReceiver_kept h info k hk
    | remove r => exact s.removeReceiver_kept h r k hk
    | reset r =>
        simp only [clockReset] at hk ⊢
        split_ifs at hk ⊢
        · exact h k hk
        · exact s.dropPairs_kept h r.idx k hk
    | sync now r et ot emHex omHex atScaled =>
        rcases s.onSync_cases now r et ot emHex omHex atScaled with
          heq | ⟨t, te, tO, htrained, hpairs, _, _, heq⟩
        · simp only [heq] at hk ⊢
          exact h k hk
        · simp only [heq] at hk ⊢
          exact t.joinSync_kept (by rwa [htrained, hpairs]) now r te tO _ k hk
    | mlat now r tCounts mHex atScaled =>
        have hsame := s.onMlat_trained now r tCounts mHex atScaled
        simp only [hsame.1, hsame.2.1] at hk ⊢
        exact h k hk
    | stats r =>
        have hsame := quiet_receiverStats s r
        simp only [hsame.trained, hsame.pairs] at hk ⊢
        exact h k hk
    | sweep now window order clock =>
        have hsame := sweep_trained solver s now window order clock
        simp only [hsame.1, hsame.2] at hk ⊢
        exact h k hk

/-- Pending reports are those before a call and the one it brings. -/
theorem Known.step_reports (solver : Solver F) (s : State F) (h : Known s) (e : Event F) (i : Nat)
    (o : Origin) (hr : (s.step solver e).Reports i o) : o.ref.idx = i := by
  rcases s.step_cases solver e with ⟨info, _, heq⟩ | ⟨r, _, heq⟩ | ⟨r, _, heq⟩ | hg
  · rw [heq] at hr
    have hs := sheds_addReceiver s info
    exact h.reports i o ((reports_congr s _ hs.syncpoints hs.groups i o).mp hr)
  · rw [heq] at hr
    have hs := sheds_removeReceiver s r
    exact h.reports i o ((reports_congr s _ hs.syncpoints hs.groups i o).mp hr)
  · rw [heq] at hr
    unfold clockReset at hr
    split_ifs at hr
    · exact h.reports i o hr
    · exact h.reports i o hr
  · exact h.seen s i o (hg.reports i o hr)

theorem known_step (solver : Solver F) (s : State F) (e : Event F) (h : Known s) :
    Known (s.step solver e) where
  reports := h.step_reports solver s e
  ends k o ho := by
    rcases step_trained solver s e k o ho with hold | hj
    · exact h.ends k o hold
    · exact h.joins s e k o hj
  kept := step_kept solver s e h.kept

theorem Known.addReceiver (s : State F) (h : Known s) (info : ReceiverInfo F) :
    Known (s.addReceiver info).1 := by
  have hs := sheds_addReceiver s info
  constructor
  · exact fun i o hr => h.reports i o ((reports_congr s _ hs.syncpoints hs.groups i o).mp hr)
  · exact fun k o ho => h.ends k o (hs.trained k o ho)
  · exact s.addReceiver_kept h.kept info

theorem known_run (solver : Solver F) (shardId : Nat) (mlatAdsb emitFiltered : Bool)
    (es : List (Event F)) :
    Known (exec (step solver) (State.new shardId mlatAdsb emitFiltered) es) := by
  refine List.foldlRecOn es _ (motive := fun s : State F => Known s)
    (known_new shardId mlatAdsb emitFiltered) ?_
  intro s h e _
  exact known_step solver s e h

/-- The slot a connection takes was not in use. -/
theorem takeSlot_dead (s : State F) (h : WellFormed s) (info : ReceiverInfo F) :
    s.isAlive (s.takeSlot info).2 = false := by
  unfold takeSlot
  cases hslots : s.freeSlots with
  | cons i free => exact ((h.free i).mp (by rw [hslots]; exact List.mem_cons_self)).2
  | nil =>
      simp only [isAlive]
      rw [List.getD_eq_default]
      rw [h.alive]

/-- No model was trained with a receiver that has just connected. -/
theorem addReceiver_untrained (s : State F) (h : WellFormed s) (hk : Known s)
    (info : ReceiverInfo F) (k : Nat × Nat) (o : Origin)
    (ho : o ∈ (s.addReceiver info).1.trained k) : o.ref ≠ (s.addReceiver info).2 := by
  intro href
  rcases s.addReceiver_fresh h info with ⟨t, ht, _, hold, hidx, reference, heq⟩
  have hends := hk.ends k o ((sheds_addReceiver s info).trained k o ho)
  have hsome := s.addReceiver_kept hk.kept info k (List.ne_nil_of_mem ho)
  rw [heq] at hsome
  simp only [(t.takeSlot_models info).2] at hsome
  rcases ht.pairs k.1 k.2 hsome with ⟨_, halive₁, halive₂, _⟩
  have hdead := t.takeSlot_dead ht info
  rw [href, hidx] at hends
  rcases hends with hends | hends
  · rw [← hends, hdead] at halive₁
    exact Bool.false_ne_true halive₁
  · rw [← hends, hdead] at halive₂
    exact Bool.false_ne_true halive₂

/-- The models of a receiver are trained under the clock it runs on. -/
def Current (s : State F) (r : RxRef) : Prop :=
  ∀ k, ∀ o ∈ s.trained k, o.ref = r → o.epoch = s.resets r

/-- No report of the receiver from before a reset is joined. -/
def JoinsCurrent (s : State F) (r : RxRef) (e : Event F) : Prop :=
  ∀ k o, s.Joins k o e → o.ref = r → o.epoch = s.resets r

/-- Only a reset of the receiver advances its clock. -/
theorem step_resets (solver : Solver F) (s : State F) (e : Event F) (r : RxRef)
    (h : e ≠ .reset r) : (s.step solver e).resets r = s.resets r := by
  rcases s.step_cases solver e with ⟨info, _, heq⟩ | ⟨q, _, heq⟩ | ⟨q, rfl, heq⟩ | hg
  · rw [heq, (sheds_addReceiver s info).resets]
  · rw [heq, (sheds_removeReceiver s q).resets]
  · rw [heq]
    unfold clockReset
    split_ifs
    · rfl
    · have hne : r ≠ q := fun hrq => h (by rw [hrq])
      exact Function.update_of_ne hne _ _
  · rw [hg.resets]

theorem current_step (solver : Solver F) (s : State F) (e : Event F) (r : RxRef)
    (h : Current s r) (he : e ≠ .reset r) (hjoins : s.JoinsCurrent r e) :
    Current (s.step solver e) r := by
  intro k o ho href
  rw [step_resets solver s e r he]
  rcases step_trained solver s e k o ho with hold | hj
  · exact h k o hold href
  · exact hjoins k o hj href

omit [F64Fn F] in
/-- A reset drops every model of the receiver. -/
theorem clockReset_untrained (s : State F) (h : Known s) (r : RxRef) (hlive : s.live r = true)
    (k : Nat × Nat) (o : Origin) (ho : o ∈ (s.clockReset r).trained k) : o.ref ≠ r := by
  unfold clockReset at ho
  rw [if_neg (Bool.not_eq_false _ ▸ hlive)] at ho
  rcases s.dropPairs_trained r.idx k o ho with ⟨⟨hne₁, hne₂⟩, hold⟩
  rintro rfl
  rcases h.ends k o hold with he | he
  · exact hne₁ he.symm
  · exact hne₂ he.symm

end State

/-- What the server makes of each message. -/
theorem uploadOf_toJson (m : Proto.ClientMsg) (atScaled : F) :
    uploadOf m.toJson atScaled = match m with
      | .sync et ot em om => some (.sync (lit et) (lit ot) em om atScaled)
      | .mlat t m => some (.mlat (lit t) m atScaled)
      | .clockReset _ => some .clockReset
      | .clockJump _ => some .clockReset
      | _ => none := by
  cases m with
  | _ => rfl

end Server

open Library F64 F64Fn Proto Client Server

/-- Between the readings of two input connections comes a reset; `last` is the
    connection of what was stamped since the reset before. -/
def Ordered : Option Nat → List (Nat × ClientMsg) → Prop
  | _, [] => True
  | last, m :: ms =>
    (isStamped m.2 = true → last = none ∨ last = some m.1) ∧ Ordered (restamp last m) ms

theorem ordered_append (last : Option Nat) (ms ns : List (Nat × ClientMsg)) :
    Ordered last (ms ++ ns) ↔ Ordered last ms ∧ Ordered (ms.foldl restamp last) ns := by
  induction ms generalizing last with
  | nil => simp only [List.nil_append, Ordered, true_and, List.foldl_nil]
  | cons m ms ih => simp only [List.cons_append, Ordered, ih, List.foldl_cons, and_assoc]

namespace Link

variable {F : Type} [F64Fn F]

/-- What was stamped under one clock stems from one input connection, and so does
    what a model of the receiver was trained with. -/
structure OneConnection (l : Link F) : Prop where
  epochs : ∀ x ∈ l.stamped, ∀ y ∈ l.stamped, x.1 = y.1 → x.2 = y.2
  models : ∀ k, ∃ connection, ∀ o ∈ l.state.trained k, o.ref = l.receiver →
    ∀ x ∈ l.stamped, x.1 = o.epoch → x.2 = connection

/-- The call a turn makes on the shard. -/
def call (l : Link F) : Action F → Option (State.Event F)
  | .serve now atScaled =>
    match l.uplink with
    | [] => none
    | (_, m) :: _ => (uploadOf m.toJson atScaled).map fun up => (up.toShard l.receiver).event now
  | .other e => if foreign l.receiver e then some e else none
  | _ => none

/-- The engine stamps nothing under a new input connection before it has sent a
    reset, and the shard joins no report of the receiver from before a reset. -/
def Faithful (l : Link F) (a : Action F) : Prop :=
  l.Active → Ordered l.sent (l.emission a) ∧
    ∀ e, l.call a = some e → l.state.JoinsCurrent l.receiver e

/-- The invariant. What is in flight goes on where the shard is. -/
structure Kept (l : Link F) : Prop where
  known : l.state.Known
  current : l.state.Current l.receiver
  epochs : ∀ x ∈ l.stamped, ∀ y ∈ l.stamped, x.1 = y.1 → x.2 = y.2
  bound : ∀ x ∈ l.stamped, x.1 ≤ l.state.resets l.receiver
  flight : ∃ last, Ordered last l.uplink ∧ l.uplink.foldl restamp last = l.sent ∧
    ∀ x ∈ l.stamped, x.1 = l.state.resets l.receiver → last = some x.2

omit [F64Fn F] in
/-- The models of a receiver are trained under its running clock, so what they were
    trained with is of one connection. -/
theorem Kept.oneConnection (l : Link F) (h : Kept l) : OneConnection l where
  epochs := h.epochs
  models k := by
    rcases h.flight with ⟨last, _, _, hlast⟩
    refine ⟨last.getD 0, ?_⟩
    intro o ho href x hx hepoch
    rw [hlast x hx (by rw [hepoch]; exact h.current k o ho href)]
    rfl

omit [F64Fn F] in
/-- What is emitted goes on where the engine is. -/
theorem Kept.send (l : Link F) (h : Kept l) (ms : List (Nat × ClientMsg))
    (hms : Ordered l.sent ms) (engine : Engine) (connection : Nat) :
    Kept { l.send ms with engine := engine, connection := connection } where
  known := h.known
  current := h.current
  epochs := h.epochs
  bound := h.bound
  flight := by
    rcases h.flight with ⟨last, hordered, hsent, hlast⟩
    refine ⟨last, ?_, ?_, hlast⟩
    · refine (ordered_append last l.uplink ms).mpr ⟨hordered, ?_⟩
      rw [hsent]
      exact hms
    · simp only [Link.send, List.foldl_append, hsent]

/-- A call that leaves the receiver's clock alone. -/
theorem Kept.call (solver : Solver F) (l : Link F) (h : Kept l) (e : State.Event F)
    (he : e ≠ .reset l.receiver) (hjoins : l.state.JoinsCurrent l.receiver e) :
    Kept { l with state := l.state.step solver e } where
  known := State.known_step solver l.state e h.known
  current := State.current_step solver l.state e l.receiver h.current he hjoins
  epochs := h.epochs
  bound := by
    simp only [State.step_resets solver l.state e l.receiver he]
    exact h.bound
  flight := by
    simp only [State.step_resets solver l.state e l.receiver he]
    exact h.flight

omit [F64Fn F] in
/-- A line that has nothing for the shard. -/
theorem Kept.skip (l : Link F) (h : Kept l) (n : Nat) (m : ClientMsg)
    (rest : List (Nat × ClientMsg)) (huplink : l.uplink = (n, m) :: rest)
    (hstamped : isStamped m = false) (hreset : isReset m = false) (requested : List String) :
    Kept { l with uplink := rest, requested := requested } where
  known := h.known
  current := h.current
  epochs := h.epochs
  bound := h.bound
  flight := by
    rcases h.flight with ⟨last, hordered, hsent, hlast⟩
    have hsame : restamp last (n, m) = last := by simp [restamp, hstamped, hreset]
    rw [huplink] at hordered hsent
    refine ⟨last, ?_, ?_, hlast⟩
    · simpa only [Ordered, hsame] using hordered.2
    · simpa only [List.foldl_cons, hsame] using hsent

/-- A reading is taken under the clock that runs. -/
theorem Kept.stamp (solver : Solver F) (l : Link F) (h : Kept l) (n : Nat) (m : ClientMsg)
    (rest : List (Nat × ClientMsg)) (huplink : l.uplink = (n, m) :: rest)
    (hstamped : isStamped m = true) (requested : List String) (e : State.Event F)
    (he : e ≠ .reset l.receiver) (hjoins : l.state.JoinsCurrent l.receiver e) :
    Kept { l with
      uplink := rest, requested := requested, state := l.state.step solver e
      stamped := l.stamped ++ [(l.state.resets l.receiver, n)] } := by
  have hcall := h.call solver l e he hjoins
  have hresets := State.step_resets solver l.state e l.receiver he
  rcases h.flight with ⟨last, hordered, hsent, hlast⟩
  rw [huplink] at hordered hsent
  have hnext : restamp last (n, m) = some n := if_pos hstamped
  -- Earlier readings under this clock are of the same connection.
  have hsame : ∀ x ∈ l.stamped, x.1 = l.state.resets l.receiver → x.2 = n := by
    intro x hx hepoch
    have hold := hlast x hx hepoch
    rcases hordered.1 hstamped with hnone | hsome
    · rw [hnone] at hold
      exact absurd hold (Option.some_ne_none _).symm
    · rw [hsome] at hold
      exact (Option.some.inj hold).symm
  constructor
  · exact hcall.known
  · exact hcall.current
  · intro x hx y hy hxy
    rw [List.mem_append, List.mem_singleton] at hx hy
    rcases hx with hx | rfl
    · rcases hy with hy | rfl
      · exact h.epochs x hx y hy hxy
      · exact hsame x hx hxy
    · rcases hy with hy | rfl
      · exact (hsame y hy hxy.symm).symm
      · rfl
  · intro x hx
    simp only [hresets]
    rw [List.mem_append, List.mem_singleton] at hx
    rcases hx with hx | rfl
    · exact h.bound x hx
    · exact Nat.le_refl _
  · refine ⟨some n, ?_, ?_, ?_⟩
    · simpa only [hnext] using hordered.2
    · simpa only [List.foldl_cons, hnext] using hsent
    · intro x hx hepoch
      simp only [hresets] at hepoch
      rw [List.mem_append, List.mem_singleton] at hx
      rcases hx with hx | rfl
      · rw [hsame x hx hepoch]
      · rfl

/-- A reset starts a new clock, with no model and no reading yet. -/
theorem Kept.reset (solver : Solver F) (l : Link F) (h : Kept l) (hactive : l.Active) (n : Nat)
    (m : ClientMsg) (rest : List (Nat × ClientMsg)) (huplink : l.uplink = (n, m) :: rest)
    (hstamped : isStamped m = false) (hreset : isReset m = true) (requested : List String) :
    Kept { l with
      uplink := rest, requested := requested
      state := l.state.step solver (.reset l.receiver) } := by
  have hstep : l.state.step solver (.reset l.receiver) = l.state.clockReset l.receiver := by
    unfold State.step
    rw [if_neg (by rw [hactive.1]; exact Bool.false_ne_true)]
  have hresets : (l.state.step solver (.reset l.receiver)).resets l.receiver =
      l.state.resets l.receiver + 1 := by
    rw [hstep]
    unfold State.clockReset
    rw [if_neg (Bool.not_eq_false _ ▸ hactive.2)]
    exact Function.update_self _ _ _
  rcases h.flight with ⟨last, hordered, hsent, hlast⟩
  have hnext : restamp last (n, m) = none := by simp [restamp, hstamped, hreset]
  rw [huplink] at hordered hsent
  constructor
  · exact State.known_step solver l.state (.reset l.receiver) h.known
  · intro k o ho href
    simp only [hstep] at ho
    exact absurd href (State.clockReset_untrained l.state h.known l.receiver hactive.2 k o ho)
  · exact h.epochs
  · intro x hx
    simp only [hresets]
    exact Nat.le_succ_of_le (h.bound x hx)
  · refine ⟨none, ?_, ?_, ?_⟩
    · simpa only [Ordered, hnext] using hordered.2
    · simpa only [List.foldl_cons, hnext] using hsent
    · intro x hx hepoch
      simp only [hresets] at hepoch
      have hle := h.bound x hx
      omega

/-- A line is served. -/
theorem Kept.serve (solver : Solver F) (l : Link F) (h : Kept l) (hactive : l.Active)
    (now : Nat) (atScaled : F)
    (hjoins : ∀ e, l.call (.serve now atScaled) = some e → l.state.JoinsCurrent l.receiver e) :
    Kept (l.step solver (.serve now atScaled)) := by
  simp only [step, if_pos hactive]
  cases huplink : l.uplink with
  | nil => exact h
  | cons line rest =>
      rcases line with ⟨n, m⟩
      simp only [Link.call, huplink, uploadOf_toJson] at hjoins
      simp only [processLine, uploadOf_toJson]
      cases m with
      | sync et ot em om =>
          exact h.stamp solver l n _ rest huplink rfl _
            (.sync now l.receiver (lit et) (lit ot) em om atScaled) (by simp) (hjoins _ rfl)
      | mlat t mHex =>
          exact h.stamp solver l n _ rest huplink rfl _
            (.mlat now l.receiver (lit t) mHex atScaled) (by simp) (hjoins _ rfl)
      | clockReset text => exact h.reset solver l hactive n _ rest huplink rfl rfl _
      | clockJump text => exact h.reset solver l hactive n _ rest huplink rfl rfl _
      | _ => exact h.skip l n _ rest huplink rfl rfl _

omit [F64Fn F] in
/-- Another connection has no reset for this receiver. -/
theorem foreign_reset (r : RxRef) (e : State.Event F) (h : foreign r e = true) :
    e ≠ .reset r := by
  rintro rfl
  simp only [foreign, ne_eq, not_true_eq_false, decide_false] at h
  exact Bool.false_ne_true h

theorem kept_step (solver : Solver F) (l : Link F) (a : Action F) (h : Kept l)
    (ha : Faithful l a) : Kept (l.step solver a) := by
  by_cases hactive : l.Active
  · rcases ha hactive with ⟨hordered, hjoins⟩
    cases a with
    | tick now order =>
        simp only [step, if_pos hactive]
        exact h.send l _ hordered _ l.connection
    | take now ev =>
        simp only [step, if_pos hactive]
        exact h.send l _ hordered _ _
    | serve now atScaled => exact h.serve solver l hactive now atScaled hjoins
    | other e =>
        simp only [step, if_pos hactive]
        split_ifs with hforeign
        · refine h.call solver l e (foreign_reset l.receiver e hforeign) ?_
          exact hjoins e (if_pos hforeign)
        · exact h
  · have hstep : l.step solver a = l := by
      unfold step
      rw [if_neg hactive]
    rw [hstep]
    exact h

theorem kept_new (user : String) (now : Instant) (nServers server : Nat) (s : State F)
    (hwf : s.WellFormed) (hknown : s.Known) (info : ReceiverInfo F) :
    Kept (new user now nServers server s info) where
  known := hknown.addReceiver s info
  current k o ho href := absurd href (s.addReceiver_untrained hwf hknown info k o ho)
  epochs _ hx := absurd hx List.not_mem_nil
  bound _ hx := absurd hx List.not_mem_nil
  flight := ⟨none, trivial, rfl, fun _ hx => absurd hx List.not_mem_nil⟩

/-- A receiver joins a shard after any run of it. In every run that stamps nothing
    across a reconnect and joins no report from before a reset, the shard resets the
    receiver's clock between the readings of two input connections, and every model
    of the receiver is trained with readings of one. -/
theorem epochs_reach_server (solver : Solver F) (user : String) (now : Instant)
    (nServers server shardId : Nat) (mlatAdsb emitFiltered : Bool) (es : List (State.Event F))
    (info : ReceiverInfo F) (as : List (Action F))
    (h : Along (step solver) Faithful (new user now nServers server
      (exec (State.step solver) (State.new shardId mlatAdsb emitFiltered) es) info) as) :
    OneConnection (exec (step solver) (new user now nServers server
      (exec (State.step solver) (State.new shardId mlatAdsb emitFiltered) es) info) as) := by
  refine Kept.oneConnection _ (Along.invariant (step solver) Faithful Kept
    (kept_step solver) _ as ?_ h)
  exact kept_new user now nServers server _
    (State.representation solver shardId mlatAdsb emitFiltered es)
    (State.known_run solver shardId mlatAdsb emitFiltered es) info

instance decidableOrdered :
    (last : Option Nat) → (ms : List (Nat × ClientMsg)) → Decidable (Ordered last ms)
  | _, [] => isTrue trivial
  | last, m :: ms =>
    have := decidableOrdered (restamp last m) ms
    inferInstanceAs (Decidable (_ ∧ _))

/-- The call is a sync message. -/
def isSync : State.Event F → Bool
  | .sync .. => true
  | _ => false

/-- Calls that are no sync messages join nothing. -/
theorem faithful_of_no_sync (l : Link F) (a : Action F)
    (h : Ordered l.sent (l.emission a) ∧ (l.call a).all (fun e => !isSync e) = true) :
    Faithful l a := by
  refine fun _ => ⟨h.1, fun e he k o hj => ?_⟩
  have hno := h.2
  rw [he] at hno
  cases e with
  | sync => exact absurd hno Bool.false_ne_true
  | _ => exact hj.elim

/-- An aircraft is heard and asked for, and heard again. -/
def heardTwice : List (Action ℚ) :=
  [.take 0 .inputUp, .take 0 (.receptions [⟨1000, Modes.df11 ⟨0xABCDEF⟩ 0⟩]),
    .take 0 (.start 0 ["abcdef"]), .take 0 (.receptions [⟨2000, Modes.df11 ⟨0xABCDEF⟩ 0⟩]),
    .take 0 .inputDown, .take 0 .inputUp]

/-- The input reconnects, and before the aircraft is heard again the counter is
    seen to jump backward. The shard resets the clock in between. -/
def jumpSeen : List (Action ℚ) :=
  heardTwice ++ [.take 0 (.receptions [⟨1000000000, []⟩, ⟨3000, Modes.df11 ⟨0xABCDEF⟩ 0⟩]),
    .serve 0 0, .serve 0 0, .serve 0 0, .serve 0 0, .serve 0 0, .serve 0 0]

theorem epochs_reach_server_jump :
    (exec (step Solve.solveRobust) (new "rx" 0 1 0
        (exec (State.step Solve.solveRobust) (State.new 0 false false) [])
        (State.exampleRx "a")) jumpSeen).stamped = [(0, 1), (1, 2)] ∧
      OneConnection (exec (step Solve.solveRobust) (new "rx" 0 1 0
        (exec (State.step Solve.solveRobust) (State.new 0 false false) [])
        (State.exampleRx "a")) jumpSeen) := by
  refine ⟨by decide +kernel, epochs_reach_server Solve.solveRobust "rx" 0 1 0 0 false false []
    (State.exampleRx "a") jumpSeen ?_⟩
  refine Along.mono _ _ _ faithful_of_no_sync _ _ ?_
  simp only [jumpSeen, heardTwice, List.cons_append, List.nil_append, Along]
  decide +kernel

/-- An aircraft overhead sends a position pair that is heard twice, and the input
    reconnects in between with its counter anew. Another receiver has reported the
    same pair. -/
def jumpUnseen : List (Action ℚ) :=
  let even := (hexDecode "8d3c644458b500000000008c4ccb").getD []
  let odd := (hexDecode "8d3c644458b504000000008067f3").getD []
  [.other (State.exampleSync ⟨0, 0⟩), .take 0 .inputUp, .take 0 (.receptions [⟨12000000, even⟩]),
    .take 0 (.start 0 ["3c6444"]), .take 0 (.receptions [⟨18000000, odd⟩]), .take 0 .inputDown,
    .take 0 .inputUp, .take 0 (.receptions [⟨5000, even⟩, ⟨6005000, odd⟩]),
    .serve 0 0, .serve 0 0, .serve 0 0, .serve 0 0, .serve 0 0]

/-- The shard resets no clock, and the readings of both connections train one
    model. -/
theorem reconnect_unnoticed :
    let l := exec (step Solve.solveRobust) (new "rx" 0 1 0
      (exec (State.step Solve.solveRobust) (State.new 0 false false) [.add (State.exampleRx "b")])
      (State.exampleRx "a")) jumpUnseen
    (l.stamped = [(0, 1), (0, 2)] ∧ l.state.resets l.receiver = 0 ∧
      (l.state.trained (1, 0)).count ⟨l.receiver, 0⟩ = 2) ∧ ¬ OneConnection l := by
  intro l
  have hrun : l.stamped = [(0, 1), (0, 2)] ∧ l.state.resets l.receiver = 0 ∧
      (l.state.trained (1, 0)).count ⟨l.receiver, 0⟩ = 2 := by
    decide +kernel
  refine ⟨hrun, fun h => ?_⟩
  have hsame := h.epochs
  rw [hrun.1] at hsame
  exact absurd (hsame (0, 1) (by decide) (0, 2) (by decide) rfl) (by decide)

end Link

end MlatBench
