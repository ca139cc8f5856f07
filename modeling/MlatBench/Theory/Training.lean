import MlatBench.Library.Batches
import MlatBench.Library.Ledger
import MlatBench.Theory.Epochs
import MlatBench.Theory.Outliers

/-!
# Pair Models Come in Pairs

A shard keeps two models for two slots, one for each direction, and keeps of each
only its sums. What they are made of is in the sync messages. A report of an event
trains the models with every earlier report of the event from another slot that is
alive, at most fifteen of them, with two observations for each: the even and the
odd frame. A slot that is left or whose clock is reset loses its models.

The observations of all that are a book (`State.booked`), and the models of a run
are what its values come to (`pairs_booked`). What has trained one direction has
trained the other, turned round, in the same order; so there is no model without
its partner, and the peers of a receiver are the live slots it shares an
observation with.

## Main definitions

* `State.reportOf`, `State.partners`: The report of a sync message, and the earlier
  ones it is paired with.
* `State.postingsAt`: What a call does to the models.
* `State.booked`: The observations of a run that models stand for.

## Theorems

* `onSync_pairs`, `leave_pairs`: What calls do to the models.
* `step_pairs`: Any call.
* `postings_mirrored`: The book after a call.
* `pairs_booked`: A run.
-/

namespace MlatBench

namespace Server

open Library F64 F64Fn Modes

variable {F : Type} [F64Fn F]

namespace State

/-- What is done to the models, which are kept by direction. -/
abbrev Trained (F : Type) := Posting (Nat × Nat) (F × F)

/-- The models after some postings. -/
def train (pairs : Nat × Nat → Option (PairModel F)) (ps : List (Trained F)) :
    Nat × Nat → Option (PairModel F) :=
  exec (fun t p => Posting.post PairModel.take PairModel.default t p) pairs ps

/-- An observation, in both directions. -/
def both (k : Nat × Nat) (x : F × F) : List (Trained F) :=
  [.enter k x, .enter k.swap x.swap]

/-- What a report has in common with another of the same event. -/
def shared (me other : Reporter F) : List (Trained F) :=
  both (me.rx, other.rx) (me.te, other.te) ++ both (me.rx, other.rx) (me.tO, other.tO)

/-- A slot loses its models. -/
def lose (rx : Nat) : Trained F :=
  .strike fun k => decide (k.1 = rx ∨ k.2 = rx)

/-- A slot loses its models, if the reference is live. -/
def leave (s : State F) (r : RxRef) : List (Trained F) :=
  if s.live r then [lose r.idx] else []

/-- The report a sync message makes. -/
def reportOf (s : State F) (r : RxRef) (et ot : F) (d : Df17Airborne × (F × F) × (F × F)) :
    Reporter F :=
  let altM : F := lit (d.1.altFt.getD 0) * lit (3048 / 10000)
  let geoE : Geodetic F := ⟨d.2.1.1, d.2.1.2, altM⟩
  let geoO : Geodetic F := ⟨d.2.2.1, d.2.2.2, altM⟩
  let info := s.receiver r.idx
  { rx := r.idx
    te := et / info.freqHz - info.ecef.dist geoE.toEcef / cMps
    tO := ot / info.freqHz - info.ecef.dist geoO.toEcef / cMps
    origin := s.originOf r }

/-- The earlier reports of an event that a report is paired with. -/
def partners (s : State F) (key : String × String) (me : Reporter F) : List (Reporter F) :=
  let reporters := ((s.syncpoints key).map SyncPoint.reporters).getD []
  if 15 ≤ reporters.length then []
  else reporters.filter fun o => decide (¬(o.rx = me.rx ∨ s.isAlive o.rx = false))

/-- What a call does to the models. -/
def postingsAt (s : State F) (e : Event F) : List (Trained F) :=
  if s.hung then []
  else
    match e with
    | .add info => (s.byUser info.user).toList.flatMap fun old => s.leave ⟨old, s.genOf old⟩
    | .remove r => s.leave r
    | .reset r => s.leave r
    | .sync _ r et ot emHex omHex _ =>
      if s.live r then
        (syncEvent emHex omHex).toList.flatMap fun d =>
          (s.partners (emHex, omHex) (s.reportOf r et ot d)).flatMap
            (shared (s.reportOf r et ot d))
      else []
    | _ => []

/-- The observations of a run that the models stand for, by direction. -/
def booked (solver : Solver F) (s : State F) (es : List (Event F)) : Nat × Nat → List (F × F) :=
  exec Posting.write (fun _ => []) (journal (step solver) postingsAt s es)

theorem train_append (pairs : Nat × Nat → Option (PairModel F)) (ps qs : List (Trained F)) :
    train pairs (ps ++ qs) = train (train pairs ps) qs :=
  exec_append _ _ ps qs

/-- One earlier report: it is passed over, or both frames train both directions. -/
theorem trainWith_trains (s : State F) (me other : Reporter F) :
    (s.trainWith me other).pairs = train s.pairs
        (if other.rx = me.rx ∨ s.isAlive other.rx = false then [] else shared me other) ∧
      (s.trainWith me other).alive = s.alive := by
  unfold trainWith
  by_cases hskip : other.rx = me.rx ∨ s.isAlive other.rx = false
  · rw [if_pos hskip, if_pos hskip]
    exact ⟨rfl, rfl⟩
  · rw [if_neg hskip, if_neg hskip]
    exact ⟨rfl, rfl⟩

/-- One earlier report after another. -/
theorem trainAll_trains (s : State F) (me : Reporter F) (others : List (Reporter F)) :
    (others.foldl (fun s other => s.trainWith me other) s).pairs = train s.pairs
      ((others.filter fun o => decide (¬(o.rx = me.rx ∨ s.isAlive o.rx = false))).flatMap
        (shared me)) := by
  induction others generalizing s with
  | nil => rfl
  | cons other others ih =>
      have hone := s.trainWith_trains me other
      have halive : (s.trainWith me other).isAlive = s.isAlive := by
        funext i
        unfold isAlive
        rw [hone.2]
      rw [List.foldl_cons, ih, hone.1, halive, ← train_append]
      by_cases hskip : other.rx = me.rx ∨ s.isAlive other.rx = false
      · rw [if_pos hskip, List.filter_cons_of_neg (by simpa only [decide_eq_true_eq, not_not] using hskip), List.nil_append]
      · rw [if_neg hskip, List.filter_cons_of_pos (by simpa only [decide_eq_true_eq] using hskip), List.flatMap_cons]

theorem joinSync_pairs (s : State F) (now : Nat) (r : RxRef) (te tO : F)
    (key : String × String) (me : Reporter F)
    (hme : me = { rx := r.idx, te := te, tO := tO, origin := s.originOf r }) :
    (s.joinSync now r te tO key).pairs =
      train s.pairs ((s.partners key me).flatMap (shared me)) := by
  have hsp : ((s.syncpoints key).getD { created := now, reporters := [] }).reporters =
      ((s.syncpoints key).map SyncPoint.reporters).getD [] := by
    cases s.syncpoints key with
    | none => rfl
    | some sp => rfl
  unfold joinSync partners
  simp only [hsp]
  by_cases hfull : 15 ≤ (((s.syncpoints key).map SyncPoint.reporters).getD []).length
  · rw [if_pos hfull, if_pos hfull]
    rfl
  · rw [if_neg hfull, if_neg hfull, trainAll_trains, hme]
    rfl

/-- A sync message trains the models with what it has in common with the earlier
    reports of its event. -/
theorem onSync_pairs (s : State F) (now : Nat) (r : RxRef) (et ot : F) (emHex omHex : String)
    (atScaled : F) (hlive : s.live r = true) :
    (s.onSync now r et ot emHex omHex atScaled).pairs = train s.pairs
      ((syncEvent emHex omHex).toList.flatMap fun d =>
        (s.partners (emHex, omHex) (s.reportOf r et ot d)).flatMap
          (shared (s.reportOf r et ot d))) := by
  unfold onSync
  rw [if_neg (by simp only [hlive, Bool.true_eq_false, not_false_eq_true])]
  cases syncEvent (F := F) emHex omHex with
  | none => rfl
  | some d =>
      rcases d with ⟨de, pe, po⟩
      simp only [Option.toList_some, List.flatMap_cons, List.flatMap_nil, List.append_nil]
      generalize hnoted : s.noteAdsb de _ atScaled = noted
      generalize hjoin : (if noted.mlatAdsb = true then noted.onMlat now r et emHex atScaled
        else noted) = joining
      -- Notes and groups leave alone what the models are trained from.
      have hsame : joining.pairs = s.pairs ∧ joining.syncpoints = s.syncpoints ∧
          joining.alive = s.alive ∧ joining.receivers = s.receivers ∧
          joining.resets = s.resets := by
        rw [← hjoin, ← hnoted]
        split_ifs
        · rcases (s.noteAdsb de _ atScaled).onMlat_cases now r et emHex atScaled with
            heq | ⟨_, alts, g, _, heq⟩
          · rw [heq]
            exact ⟨rfl, rfl, rfl, rfl, rfl⟩
          · rw [heq]
            exact ⟨rfl, rfl, rfl, rfl, rfl⟩
        · exact ⟨rfl, rfl, rfl, rfl, rfl⟩
      rcases hsame with ⟨hpairs, hpoints, halive, hrx, hresets⟩
      have hpartners : joining.partners (emHex, omHex) = s.partners (emHex, omHex) := by
        unfold partners isAlive
        rw [hpoints, halive]
      rw [joinSync_pairs _ now r _ _ _ _ rfl, hpairs, hpartners]
      unfold reportOf originOf
      rw [hresets]

/-- A slot that is left, or whose clock is reset, loses its models. -/
theorem leave_pairs (s : State F) (r : RxRef) :
    (s.removeReceiver r).pairs = train s.pairs (s.leave r) ∧
      (s.clockReset r).pairs = train s.pairs (s.leave r) := by
  have hdrop : (s.dropPairs r.idx).pairs = train s.pairs [lose r.idx] := by
    funext k
    simp only [dropPairs, train, exec_cons, exec_nil, lose, Posting.post, decide_eq_true_eq]
    by_cases hk : k.1 ≠ r.idx ∧ k.2 ≠ r.idx
    · rw [if_pos hk, if_neg (not_or.mpr hk)]
    · rw [if_neg hk, if_pos (by tauto)]
  unfold removeReceiver clockReset leave
  by_cases hdead : s.live r = false
  · have hlive : ¬s.live r = true := by simp [hdead]
    rw [if_pos hdead, if_pos hdead, if_neg hlive]
    exact ⟨rfl, rfl⟩
  · have hlive : s.live r = true := by simpa using hdead
    rw [if_neg hdead, if_neg hdead, if_pos hlive]
    exact ⟨hdrop, hdrop⟩

theorem addReceiver_pairs (s : State F) (info : ReceiverInfo F) :
    (s.addReceiver info).1.pairs = train s.pairs
      ((s.byUser info.user).toList.flatMap fun old => s.leave ⟨old, s.genOf old⟩) := by
  unfold addReceiver
  cases s.byUser info.user with
  | none => exact (takeSlot_models s info).2
  | some old =>
      simp only [Option.toList_some, List.flatMap_cons, List.flatMap_nil, List.append_nil]
      exact (takeSlot_models _ info).2.trans (s.leave_pairs ⟨old, s.genOf old⟩).1

/-- What a call does to the models. -/
theorem step_pairs (solver : Solver F) (s : State F) (e : Event F) :
    (s.step solver e).pairs = train s.pairs (s.postingsAt e) := by
  unfold step postingsAt
  by_cases hhung : s.hung = true
  · rw [if_pos hhung, if_pos hhung]
    rfl
  · rw [if_neg hhung, if_neg hhung]
    cases e with
    | add info => exact s.addReceiver_pairs info
    | remove r => exact (s.leave_pairs r).1
    | reset r => exact (s.leave_pairs r).2
    | sync now r et ot emHex omHex atScaled =>
        simp only []
        by_cases hlive : s.live r = true
        · rw [if_pos hlive]
          exact s.onSync_pairs now r et ot emHex omHex atScaled hlive
        · rw [if_neg hlive]
          unfold onSync
          rw [if_pos (by simpa using hlive)]
          rfl
    | mlat now r tCounts mHex atScaled =>
        exact (s.onMlat_trained now r tCounts mHex atScaled).2.1
    | stats r =>
        unfold receiverStats
        simp only []
        split_ifs <;> rfl
    | sweep now window order clock => exact (s.sweep_trained solver now window order clock).2

/-- The observations under a direction are those under the other, turned round. -/
def Even (book : Nat × Nat → List (F × F)) : Prop :=
  Mirrored Prod.swap Prod.swap book

omit [F64Fn F] in
theorem even_shared (book : Nat × Nat → List (F × F)) (h : Even book) (me other : Reporter F)
    (hne : other.rx ≠ me.rx) : Even (exec Posting.write book (shared me other)) := by
  have hturn : (me.rx, other.rx).swap ≠ (me.rx, other.rx) := fun hc => hne (congrArg Prod.fst hc)
  have hswap : ∀ α : Type, Function.Involutive (Prod.swap (α := α) (β := α)) :=
    fun _ => Prod.swap_swap
  unfold shared
  rw [exec_append]
  exact mirrored_both _ _ (hswap Nat) (hswap F) _
    (mirrored_both _ _ (hswap Nat) (hswap F) book h _ _ hturn) _ _ hturn

omit [F64Fn F] in
theorem even_lose (book : Nat × Nat → List (F × F)) (h : Even book) (rx : Nat) :
    Even ((lose rx).write book) := by
  refine mirrored_strike _ _ book h _ fun k => ?_
  simp only [Prod.fst_swap, Prod.snd_swap, or_comm]

omit [F64Fn F] in
/-- No report is paired with one from its own slot. -/
theorem partners_other (s : State F) (key : String × String) (me : Reporter F) :
    ∀ o ∈ s.partners key me, o.rx ≠ me.rx := by
  intro o ho
  unfold partners at ho
  simp only [] at ho
  by_cases hfull : 15 ≤ (((s.syncpoints key).map SyncPoint.reporters).getD []).length
  · rw [if_pos hfull] at ho
    exact absurd ho List.not_mem_nil
  · rw [if_neg hfull] at ho
    have hkept := of_decide_eq_true (List.mem_filter.mp ho).2
    exact (not_or.mp hkept).1

omit [F64Fn F] in
theorem even_all (me : Reporter F) (others : List (Reporter F)) (book : Nat × Nat → List (F × F))
    (h : Even book) (hne : ∀ o ∈ others, o.rx ≠ me.rx) :
    Even (exec Posting.write book (others.flatMap (shared me))) := by
  induction others generalizing book with
  | nil => exact h
  | cons o others ih =>
      rw [List.flatMap_cons, exec_append]
      exact ih _ (even_shared book h me o (hne o List.mem_cons_self)) fun o' ho' =>
        hne o' (List.mem_cons_of_mem o ho')

omit [F64Fn F] in
theorem even_leave (s : State F) (r : RxRef) (book : Nat × Nat → List (F × F)) (h : Even book) :
    Even (exec Posting.write book (s.leave r)) := by
  unfold leave
  split_ifs
  · exact even_lose book h r.idx
  · exact h

/-- After a call the two directions still agree. -/
theorem postings_mirrored (s : State F) (e : Event F) (book : Nat × Nat → List (F × F))
    (h : Even book) : Even (exec Posting.write book (s.postingsAt e)) := by
  unfold postingsAt
  by_cases hhung : s.hung = true
  · rw [if_pos hhung]
    exact h
  · rw [if_neg hhung]
    cases e with
    | add info =>
        simp only []
        cases s.byUser info.user with
        | none => exact h
        | some old =>
            simp only [Option.toList_some, List.flatMap_cons, List.flatMap_nil, List.append_nil]
            exact s.even_leave _ book h
    | remove r => exact s.even_leave r book h
    | reset r => exact s.even_leave r book h
    | sync now r et ot emHex omHex atScaled =>
        simp only []
        by_cases hlive : s.live r = true
        · rw [if_pos hlive]
          cases syncEvent (F := F) emHex omHex with
          | none => exact h
          | some d =>
              simp only [Option.toList_some, List.flatMap_cons, List.flatMap_nil,
                List.append_nil]
              exact even_all _ _ book h (s.partners_other _ _)
        · rw [if_neg hlive]
          exact h
    | mlat now r tCounts mHex atScaled => exact h
    | stats r => exact h
    | sweep now window order clock => exact h

/-- The models of a run are what its book comes to, and the book is even. -/
theorem booked_run (solver : Solver F) (s : State F) (hs : s.pairs = fun _ => none)
    (es : List (Event F)) :
    Totals PairModel.take PairModel.default (exec (step solver) s es).pairs (booked solver s es) ∧
      Even (booked solver s es) := by
  -- From the end: the postings of the last call go on top of those before.
  induction es using List.reverseRecOn with
  | nil =>
      rw [exec_nil, hs]
      exact ⟨totals_empty _ _, mirrored_empty _ _⟩
  | append_singleton es e ih =>
      have hbook : booked solver s (es ++ [e]) =
          exec Posting.write (booked solver s es) ((exec (step solver) s es).postingsAt e) := by
        unfold booked
        rw [journal_append, journal_singleton, exec_append]
      rw [hbook, exec_append, exec_cons, exec_nil, step_pairs]
      exact ⟨totals_posts _ _ _ _ ih.1 _, postings_mirrored _ e _ ih.2⟩

theorem total_isSome {α β : Type} (add : β → α → β) (zero : β) (xs : List α) :
    (total add zero xs).isSome = !xs.isEmpty := by
  unfold total
  split_ifs with h
  · rw [h]
    rfl
  · rw [Bool.not_eq_true] at h
    rw [h]
    rfl

/-- In every run of a shard the two models of two slots are what their shared
    observations since either was left or reset come to, in the same order and turned
    round for the one; and the peers a receiver is told are the live slots it shares
    one with. -/
theorem pairs_booked (solver : Solver F) (shardId : Nat) (mlatAdsb emitFiltered : Bool)
    (es : List (Event F)) :
    (∀ a b, (exec (step solver) (new shardId mlatAdsb emitFiltered) es).pairs (a, b) =
        total PairModel.take PairModel.default
          (booked solver (new shardId mlatAdsb emitFiltered) es (a, b)) ∧
      (exec (step solver) (new shardId mlatAdsb emitFiltered) es).pairs (b, a) =
        total PairModel.take PairModel.default
          ((booked solver (new shardId mlatAdsb emitFiltered) es (a, b)).map Prod.swap)) ∧
    ∀ r, ((exec (step solver) (new shardId mlatAdsb emitFiltered) es).receiverStats r).2.map
        Prod.fst =
      if (exec (step solver) (new shardId mlatAdsb emitFiltered) es).live r then
        some ((List.range (exec (step solver) (new shardId mlatAdsb emitFiltered)
            es).alive.length).countP fun b =>
          !(booked solver (new shardId mlatAdsb emitFiltered) es (r.idx, b)).isEmpty &&
            (exec (step solver) (new shardId mlatAdsb emitFiltered) es).isAlive b)
      else none := by
  have hrun := booked_run solver (new shardId mlatAdsb emitFiltered) rfl es
  refine ⟨fun a b => ⟨hrun.1 (a, b), ?_⟩, fun r => ?_⟩
  · have hturn := hrun.2 (a, b)
    rw [hrun.1 (b, a)]
    exact congrArg _ hturn
  · generalize exec (step solver) (new shardId mlatAdsb emitFiltered) es = s at hrun ⊢
    unfold receiverStats
    by_cases hlive : s.live r = true
    · rw [if_neg (by simp [hlive]), if_pos hlive]
      simp only [Option.map_some, hrun.1 (r.idx, _), total_isSome]
    · rw [if_pos (by simpa using hlive), if_neg hlive]
      rfl

end State

end Server

end MlatBench
