import MlatBench.Core.Output
import MlatBench.Theory.Csv
import MlatBench.Theory.Fixes

/-!
# What Leaves the Server

The shards emit while they sweep, each under its own number. The channel to the
output task may drop what they emit but changes no order. The task lets a fix pass
if its place is not another shard's and its key was not among the last that passed;
the set and the queue it keeps for this are one memory (`Recent`).

So in any interleaving, what was sent of a shard is what the shard emitted with
gaps, twins are far apart, the files hold what was sent, and a program at the SBS port
has got a part of it without gaps.

## Main definitions

* `State.Emits`: A call adds to the output under the shard's marks.
* `Output.due`: What the task is to send for a message.
* `Output.Kept`: The memory and the files agree with what was sent.
* `Mlatd.Ordered`: What was sent was emitted, in order.
* `Mlatd.run`: The state a run leads to.
* `Mlatd.SentOnce`: What a run has sent, of each shard and in the files.

## Theorems

* `State.emits_step`: A call of the shard's loop.
* `Output.onMsg_sent`, `Kept.onMsg`: A message to the task.
* `Mlatd.newOut_spec`, `Mlatd.sent_grows`: What a step adds to what was emitted and sent.
* `Mlatd.ordered_step`: Any step.
* `Mlatd.sent_once`: Fixes are sent once.
-/

namespace MlatBench

namespace Server

open Library F64 F64Fn Modes

variable {F : Type} [F64Fn F]

namespace State

/-- The shard's number, and whether it smooths. -/
def marks {G : Type} (s : State G) : Nat × Bool :=
  (s.shardId, s.emitFiltered)

/-- The output grows by fixes that carry the shard's marks. -/
structure Emits {G : Type} (s s' : State G) : Prop where
  marks : s'.marks = s.marks
  out : ∃ more, s'.out = s.out ++ more ∧
    ∀ row ∈ fixes more, (row.shard, row.filtered.isSome) = s.marks

theorem Emits.still {G : Type} (s s' : State G) (hmarks : s'.marks = s.marks) (hout : s'.out = s.out) :
    Emits s s' :=
  ⟨hmarks, [], hout.trans (List.append_nil _).symm, fun _ h => absurd h List.not_mem_nil⟩

theorem Emits.trans {G : Type} (s t u : State G) (h : Emits s t) (h' : Emits t u) : Emits s u := by
  rcases h.out with ⟨more, hmore, hrows⟩
  rcases h'.out with ⟨more', hmore', hrows'⟩
  refine ⟨h'.marks.trans h.marks, more ++ more', ?_, ?_⟩
  · rw [hmore', hmore, List.append_assoc]
  · intro row hrow
    rw [fixes_append, List.mem_append] at hrow
    exact hrow.elim (hrows row) fun hin => (hrows' row hin).trans h.marks

/-- What comes before changes neither marks nor output. -/
theorem Emits.after {G : Type} (s t u : State G) (h : Emits t u) (hmarks : t.marks = s.marks)
    (hout : t.out = s.out) : Emits s u :=
  Emits.trans s t u (Emits.still s t hmarks hout) h

theorem Emits.hang {G : Type} (s t : State G) (h : Emits s t) : Emits s { t with hung := true } :=
  ⟨h.marks, h.out⟩

theorem emits_learn (s : State F) (scatter : Bool) (rxIds : List Nat) (sol : Solution F) :
    Emits s (s.learn scatter rxIds sol) := by
  refine Emits.still s _ ?_ (learn_still s scatter rxIds sol).2.1
  unfold learn
  split_ifs <;> rfl

theorem emits_selfTruth (s : State F) (nowScaled stamp : F) (icao : Icao) (sol : Solution F)
    (n : Nat) : Emits s (s.selfTruth nowScaled stamp icao sol n) := by
  unfold selfTruth
  split
  · exact Emits.still s s rfl rfl
  · split_ifs
    · exact ⟨rfl, _, rfl, fun row hrow => absurd hrow List.not_mem_nil⟩
    · exact Emits.still s s rfl rfl

theorem emits_publish (s : State F) (stamp : F) (icao : Icao) (altFt : Int) (sol : Solution F)
    (users : List String) (n : Nat) : Emits s (s.publish stamp icao altFt sol users n) := by
  refine ⟨rfl, _, rfl, fun row hrow => ?_⟩
  rw [List.mem_singleton.mp hrow]
  refine congrArg (Prod.mk s.shardId) ?_
  cases hfilt : s.emitFiltered with
  | false => rfl
  | true => cases s.filters icao <;> rfl

theorem emits_accept (s : State F) (nowScaled stamp : F) (icao : Icao) (df17 : Bool)
    (track : Track F) (altFt : Int) (obs : List (Observed F)) (sol : Solution F) :
    Emits s (s.accept nowScaled stamp icao df17 track altFt obs sol) := by
  unfold accept
  simp only []
  split_ifs
  · exact Emits.still s _ rfl rfl
  · exact Emits.still s _ rfl rfl
  · exact Emits.still s _ rfl rfl
  · exact Emits.still s _ rfl rfl
  · exact Emits.trans s _ _ (emits_learn s _ _ sol) (emits_selfTruth _ _ _ _ _ _)
  · have hlearn := emits_learn { s with statsSolved := s.statsSolved + 1 } true
      (obs.map Observed.rx) sol
    refine Emits.trans s _ _ (hlearn.after s _ _ rfl rfl) ?_
    exact (emits_publish _ stamp icao altFt sol _ _).after _ _ _ rfl rfl

theorem emits_attempt (solver : Solver F) (s : State F) (nowScaled stamp : F) (icao : Icao)
    (df17 : Bool) (track : Track F) (obs : List (Observed F)) :
    Emits s (s.attempt solver nowScaled stamp icao df17 track obs) := by
  unfold attempt
  split
  · exact Emits.still s s rfl rfl
  · simp only []
    split
    · exact Emits.still s _ rfl rfl
    · exact (emits_accept _ _ _ _ _ _ _ _ _).after s _ _ rfl rfl

theorem emits_solveCluster (solver : Solver F) (s : State F) (nowScaled : F) (icao : Icao)
    (df17 : Bool) (ref : Nat) (cluster : List (Conv F)) :
    Emits s (s.solveCluster solver nowScaled icao df17 ref cluster) := by
  unfold solveCluster
  simp only []
  split
  · exact Emits.still s _ rfl rfl
  · split_ifs
    · exact Emits.still s _ rfl rfl
    · exact Emits.still s _ rfl rfl
    · exact Emits.still s _ rfl rfl
    · exact (emits_attempt solver _ _ _ _ _ _ _).after s _ _ rfl rfl

theorem emits_solveGroup (solver : Solver F) (s : State F) (clock : Nat → F) (g : Group F) :
    Emits s (s.solveGroup solver clock g) := by
  have hfold : ∀ (t : State F) (icao : Icao) (df17 : Bool) (ref : Nat)
      (cs : List (List (Conv F) × Nat)),
      Emits t (t.solveClusters solver clock icao df17 ref cs) := by
    intro t icao df17 ref cs
    unfold solveClusters
    refine List.foldlRecOn _ _ (motive := fun t' => Emits t t') (Emits.still t t rfl rfl) ?_
    exact fun t' h c _ => Emits.trans t t' _ h (emits_solveCluster solver t' _ _ _ _ _)
  unfold solveGroup
  simp only []
  split
  · exact Emits.still s s rfl rfl
  · split_ifs
    · exact Emits.still s s rfl rfl
    · exact Emits.still s _ rfl rfl
    · exact (hfold _ _ _ _ _).after s _ _ rfl rfl
    · refine Emits.hang s _ ?_
      exact (hfold _ _ _ _ _).after s _ _ rfl rfl

theorem emits_sweep (solver : Solver F) (s : State F) (now window : Nat) (order : List String)
    (clock : String → Nat → F) : Emits s (s.sweep solver now window order clock) := by
  unfold sweep
  simp only []
  refine List.foldlRecOn _ _ (motive := fun s' => Emits s s') (Emits.still s _ rfl rfl) ?_
  intro s' h key _
  split
  · exact h
  · split_ifs
    · exact h
    · exact Emits.trans s s' _ h
        ((emits_solveGroup solver _ (clock key) _).after s' _ _ rfl rfl)

theorem onMlat_marks (s : State F) (now : Nat) (r : RxRef) (tCounts : F) (mHex : String)
    (atScaled : F) : (s.onMlat now r tCounts mHex atScaled).marks = s.marks := by
  rcases s.onMlat_cases now r tCounts mHex atScaled with heq | ⟨_, alts, g, _, heq⟩ <;> rw [heq]
  rfl

theorem joinSync_marks (s : State F) (now : Nat) (r : RxRef) (te tO : F)
    (key : String × String) : (s.joinSync now r te tO key).marks = s.marks := by
  unfold joinSync
  simp only []
  split_ifs
  · rfl
  · refine List.foldlRecOn _ _ (motive := fun s' : State F => s'.marks = s.marks) rfl ?_
    intro s' h other _
    rw [← h]
    unfold trainWith
    split_ifs <;> rfl

theorem onSync_marks (s : State F) (now : Nat) (r : RxRef) (et ot : F) (emHex omHex : String)
    (atScaled : F) : (s.onSync now r et ot emHex omHex atScaled).marks = s.marks := by
  unfold onSync
  by_cases hlive : s.live r = false
  · rw [if_pos hlive]
  · rw [if_neg hlive]
    split
    · rfl
    · simp only []
      rw [joinSync_marks]
      split_ifs
      · exact onMlat_marks _ now r et emHex atScaled
      · rfl

theorem removeReceiver_marks (s : State F) (r : RxRef) :
    (s.removeReceiver r).marks = s.marks := by
  unfold removeReceiver
  split_ifs <;> rfl

theorem clockReset_marks {G : Type} (s : State G) (r : RxRef) :
    (s.clockReset r).marks = s.marks := by
  unfold clockReset
  split_ifs <;> rfl

theorem receiverStats_marks (s : State F) (r : RxRef) :
    (s.receiverStats r).1.marks = s.marks := by
  unfold receiverStats
  split_ifs <;> rfl

theorem addReceiver_marks (s : State F) (info : ReceiverInfo F) :
    (s.addReceiver info).1.marks = s.marks := by
  rcases s.addReceiver_eq info with ⟨t, ht, _, users, reference, heq⟩
  have hst : t.marks = s.marks := by
    rcases ht with rfl | ⟨old, _, rfl⟩
    · rfl
    · exact removeReceiver_marks s _
  rw [heq, ← hst]
  change (t.takeSlot info).1.marks = t.marks
  unfold takeSlot
  cases t.freeSlots <;> rfl

/-- A call of the shard's loop adds to the output under the shard's marks. -/
theorem emits_step (solver : Solver F) (s : State F) (e : Event F) :
    Emits s (s.step solver e) := by
  unfold step
  split_ifs
  · exact Emits.still s s rfl rfl
  · cases e with
    | add info =>
        exact Emits.still s _ (addReceiver_marks s info) (addReceiver_aside s info).out
    | remove r =>
        exact Emits.still s _ (removeReceiver_marks s r) (removeReceiver_aside s r).out
    | reset r => exact Emits.still s _ (clockReset_marks s r) (clockReset_aside s r).out
    | sync now r et ot emHex omHex atScaled =>
        exact Emits.still s _ (onSync_marks s now r et ot emHex omHex atScaled)
          (onSync_aside s now r et ot emHex omHex atScaled).out
    | mlat now r tCounts mHex atScaled =>
        exact Emits.still s _ (onMlat_marks s now r tCounts mHex atScaled)
          (onMlat_aside s now r tCounts mHex atScaled).out
    | stats r => exact Emits.still s _ (receiverStats_marks s r) (receiverStats_aside s r).out
    | sweep now window order clock => exact emits_sweep solver s now window order clock

end State

namespace Output

variable (num : Numbers F)

/-- What the task is to send for a message. -/
def due (router : Router F) (sent : List (OutRow F)) : OutMsg F → List (OutRow F)
  | .selfTruth _ _ _ _ _ => []
  | .fix row =>
    if foreign router row = false ∧ passes recentKeys (sent.map OutRow.key) row.key = true then [row]
    else []

/-- The memory and the files agree with what was sent. -/
structure Kept (csv filtered : Bool) (o : Output F) : Prop where
  recent : o.recent.Tracks recentKeys (o.sent.map OutRow.key)
  spaced : Spaced recentKeys (o.sent.map OutRow.key)
  csv : o.csv = if csv then some (o.sent.map (csvLine num)) else none
  filtered : o.filtered =
    if filtered then some (o.sent.filterMap (filteredLine num)) else none

theorem kept_new (csv filtered selfTruth : Bool) :
    Kept num csv filtered (Output.new csv filtered selfTruth : Output F) where
  recent := Recent.tracks_empty recentKeys
  spaced := spaced_nil recentKeys
  csv := by cases csv <;> rfl
  filtered := by cases filtered <;> rfl

/-- A message has the task send what is due and nothing else. -/
theorem onMsg_sent (csv filtered : Bool) (router : Router F) (o : Output F)
    (h : Kept num csv filtered o) (msg : OutMsg F) :
    (o.onMsg num router msg).sent = o.sent ++ due router o.sent msg := by
  cases msg with
  | selfTruth stamp icao err errEst n => exact (List.append_nil _).symm
  | fix row =>
      have hoffer := (Recent.offer_tracks recentKeys o.recent _ row.key h.recent).1
      unfold onMsg due
      simp only [← hoffer]
      cases foreign router row with
      | true =>
          rw [if_pos rfl, if_neg (fun hand => Bool.noConfusion hand.1), List.append_nil]
      | false =>
          rw [if_neg Bool.false_ne_true]
          rcases o.recent.offer recentKeys row.key with ⟨recent, fresh⟩
          cases fresh with
          | false => rw [if_neg (fun hand => Bool.noConfusion hand.2), List.append_nil]
          | true => rw [if_pos ⟨rfl, rfl⟩]

/-- A message keeps memory and files in agreement. -/
theorem Kept.onMsg (csv filtered : Bool) (router : Router F) (o : Output F)
    (h : Kept num csv filtered o) (msg : OutMsg F) :
    Kept num csv filtered (o.onMsg num router msg) := by
  cases msg with
  | selfTruth stamp icao err errEst n => exact ⟨h.recent, h.spaced, h.csv, h.filtered⟩
  | fix row =>
      have hoffer := Recent.offer_tracks recentKeys o.recent _ row.key h.recent
      unfold Output.onMsg
      simp only []
      by_cases hforeign : foreign router row = true
      · rw [if_pos hforeign]
        exact h
      · rw [if_neg hforeign]
        revert hoffer
        rcases o.recent.offer recentKeys row.key with ⟨recent, fresh⟩
        rintro ⟨hpass, htracks⟩
        cases fresh with
        | false => exact h
        | true =>
            have hpasses : passes recentKeys (o.sent.map OutRow.key) row.key = true := hpass.symm
            rw [hpasses, if_pos rfl] at htracks
            refine ⟨?_, ?_, ?_, ?_⟩
            · rw [List.map_append]
              exact htracks
            · rw [List.map_append]
              exact spaced_concat recentKeys _ row.key h.spaced hpasses
            · simp only [h.csv, List.map_append]
              cases csv <;> rfl
            · simp only [h.filtered, List.filterMap_append]
              cases filtered with
              | false => rfl
              | true =>
                  refine congrArg some (congrArg (o.sent.filterMap (filteredLine num) ++ ·) ?_)
                  rw [List.filterMap_cons, List.filterMap_nil]
                  cases filteredLine num row <;> rfl

/-- What is due is the fix of the message, or nothing. -/
theorem due_sublist (router : Router F) (sent : List (OutRow F)) (msg : OutMsg F) :
    (due router sent msg).Sublist (fixes [msg]) := by
  cases msg with
  | selfTruth stamp icao err errEst n => exact List.Sublist.refl _
  | fix row =>
      unfold due
      simp only []
      split_ifs
      · exact List.Sublist.refl _
      · exact List.nil_sublist _

end Output

namespace Daemon

theorem answer_shards {G : Type} (w : Daemon G) (i conn : Nat) (r : RxRef) :
    (w.answer i conn r).shards = w.shards := by
  unfold answer
  split <;> rfl

/-- A shard that takes a message makes one call. -/
theorem work_shards (solver : Solver F) (w : Daemon F) (i now : Nat) :
    (w.work solver i now).shards = w.shards ∨
      ∃ queue ev, (w.work solver i now).shards = Function.update w.shards i
        ⟨(w.shards i).state.step solver ev, queue, (w.shards i).gone⟩ := by
  unfold work
  simp only []
  by_cases hoff : (w.shards i).gone = true ∨ (w.shards i).state.hung = true
  · rw [if_pos hoff]
    exact Or.inl rfl
  · rw [if_neg hoff]
    cases (w.shards i).queue with
    | nil => exact Or.inl rfl
    | cons m queue =>
        right
        have hcall : ((w.setShard i { w.shards i with queue := queue }).call solver i
            (m.event now)).shards = Function.update w.shards i
              ⟨(w.shards i).state.step solver (m.event now), queue, (w.shards i).gone⟩ := by
          unfold call setShard
          simp only [Function.update_self, Function.update_idem]
        refine ⟨queue, m.event now, ?_⟩
        cases m with
        | addReceiver info conn => exact (answer_shards _ i conn _).trans hcall
        | _ => exact hcall

/-- A shard is left alone, runs, or ends. -/
theorem step_shard (solver : Solver F) (w : Daemon F) (e : Event F) (i : Nat) :
    (((w.step solver e).shards i).state = (w.shards i).state ∧
        ((w.step solver e).shards i).gone = (w.shards i).gone) ∨
      (Mlatd.shardOf e = some i ∧ ((w.step solver e).shards i).gone = (w.shards i).gone ∧
        ∃ ev, ((w.step solver e).shards i).state = (w.shards i).state.step solver ev) ∨
      (Mlatd.shardOf e = none ∧ ((w.step solver e).shards i).gone = true ∧
        ((w.step solver e).shards i).state.marks = (w.shards i).state.marks) := by
  -- What sets one shard says nothing of the others.
  have hset : ∀ (v : Daemon F) (j : Nat) (t : ShardTask F), v.shards = w.shards →
      t.state = (w.shards j).state → t.gone = (w.shards j).gone →
      ((v.setShard j t).shards i).state = (w.shards i).state ∧
        ((v.setShard j t).shards i).gone = (w.shards i).gone := by
    intro v j t hv hstate hgone
    unfold setShard
    by_cases hij : i = j
    · subst hij
      simp only [Function.update_self]
      exact ⟨hstate, hgone⟩
    · simp only [Function.update_of_ne hij, hv]
      exact ⟨trivial, trivial⟩
  have hsend : ∀ (j : Nat) (m : ShardMsg F), ((w.shards j).send m).state = (w.shards j).state ∧
      ((w.shards j).send m).gone = (w.shards j).gone := by
    intro j m
    unfold ShardTask.send
    split_ifs <;> exact ⟨rfl, rfl⟩
  have hsame : ∀ v : Daemon F, v.shards = w.shards →
      (v.shards i).state = (w.shards i).state ∧ (v.shards i).gone = (w.shards i).gone := by
    intro v hv
    rw [hv]
    exact ⟨rfl, rfl⟩
  cases e with
  | accept => exact Or.inl ⟨rfl, rfl⟩
  | rates rate => exact Or.inl ⟨rfl, rfl⟩
  | handshake c hs order =>
      refine Or.inl (hsame _ ?_)
      simp only [step]
      split
      · split <;> rfl
      · rfl
  | recvReply c =>
      refine Or.inl (hsame _ ?_)
      simp only [step]
      split
      · rfl
      · split_ifs <;> rfl
      · rfl
  | writeReply c ok =>
      refine Or.inl (hsame _ ?_)
      simp only [step]
      split <;> rfl
  | finish c =>
      refine Or.inl (hsame _ ?_)
      simp only [step]
      split <;> rfl
  | release c =>
      refine Or.inl (hsame _ ?_)
      simp only [step]
      split <;> rfl
  | sendAdd c =>
      left
      simp only [step]
      split
      · split_ifs
        · exact hsame _ rfl
        · exact hset w _ _ rfl (hsend _ _).1 (hsend _ _).2
      · exact hsame _ rfl
  | say c m =>
      left
      simp only [step]
      split
      · exact hset w _ _ rfl (hsend _ _).1 (hsend _ _).2
      · exact hsame _ rfl
  | sendRemove c =>
      left
      simp only [step]
      split
      · exact hset w _ _ rfl (hsend _ _).1 (hsend _ _).2
      · exact hsame _ rfl
  | work j now =>
      rcases work_shards solver w j now with hsame | ⟨queue, ev, hshards⟩
      · exact Or.inl (by rw [step, hsame]; exact ⟨rfl, rfl⟩)
      · rw [step, hshards]
        by_cases hij : i = j
        · subst hij
          rw [Function.update_self]
          exact Or.inr (Or.inl ⟨rfl, rfl, ev, rfl⟩)
        · rw [Function.update_of_ne hij]
          exact Or.inl ⟨rfl, rfl⟩
  | sweep j now window order clock =>
      simp only [step]
      split_ifs with hgone
      · exact Or.inl ⟨rfl, rfl⟩
      · unfold call setShard
        by_cases hij : i = j
        · subst hij
          simp only [Function.update_self]
          exact Or.inr (Or.inl ⟨rfl, trivial, _, rfl⟩)
        · simp only [Function.update_of_ne hij]
          exact Or.inl ⟨trivial, trivial⟩
  | die j =>
      simp only [step]
      unfold setShard
      by_cases hij : i = j
      · subst hij
        simp only [Function.update_self]
        exact Or.inr (Or.inr ⟨rfl, trivial, rfl⟩)
      · simp only [Function.update_of_ne hij]
        exact Or.inl ⟨trivial, trivial⟩

end Daemon

namespace Mlatd

variable (num : Numbers F) (solver : Solver F)

/-- Fixes are only added to those sent. -/
theorem sent_grows (m : Mlatd F) (e : Event F) :
    ∃ more, (m.step num solver e).output.sent = m.output.sent ++ more := by
  cases e with
  | output =>
      unfold step
      cases m.channel with
      | nil => exact ⟨[], (List.append_nil _).symm⟩
      | cons msg rest =>
          simp only []
          cases msg with
          | selfTruth stamp icao err errEst n => exact ⟨[], (List.append_nil _).symm⟩
          | fix row =>
              unfold Output.onMsg
              simp only []
              split_ifs
              · exact ⟨[], (List.append_nil _).symm⟩
              · split
                · exact ⟨[], (List.append_nil _).symm⟩
                · exact ⟨[row], rfl⟩
  | emit i =>
      unfold step
      simp only []
      cases m.emitting i <;> exact ⟨[], (List.append_nil _).symm⟩
  | _ => exact ⟨[], (List.append_nil _).symm⟩

/-- What was sent was emitted, in order, under the marks of its shard. -/
structure Ordered (csv filtered : Bool) (m : Mlatd F) : Prop where
  kept : m.output.Kept num csv filtered
  marks : ∀ i, (m.daemon.shards i).state.marks = (i, filtered)
  emitted : ∀ i, (m.daemon.shards i).gone = false →
    m.emitted i = (m.daemon.shards i).state.out
  rows : ∀ i, ∀ row ∈ fixes (m.emitted i), (row.shard, row.filtered.isSome) = (i, filtered)
  sent : ∀ i, ((m.output.sent ++ fixes m.channel).filter (fun row => row.shard = i) ++
    fixes (m.emitting i)).Sublist (fixes (m.emitted i))
  consumers : ∀ f ∈ m.consumers, f.Sound m.output.sent (sbsBytes num) none

theorem ordered_new (nShards : Nat) (hpos : 0 < nShards) (baseDeg : F) (cap : Nat)
    (csv filtered selfTruth : Bool) : Ordered num csv filtered
      (Mlatd.new (Daemon.new nShards hpos baseDeg cap selfTruth filtered)
        (Output.new csv filtered selfTruth)) where
  kept := Output.kept_new num csv filtered selfTruth
  marks _ := rfl
  emitted _ _ := rfl
  rows _ _ hrow := absurd hrow List.not_mem_nil
  sent _ := List.Sublist.refl _
  consumers _ hf := absurd hf List.not_mem_nil

/-- What a shard emits at a step carries its marks, and while it is there the
    history says what its state has put out. -/
theorem newOut_spec (m : Mlatd F) (csv filtered : Bool) (h : Ordered num csv filtered m)
    (e : Daemon.Event F) (i : Nat) :
    ((m.daemon.step solver e).shards i).state.marks = (i, filtered) ∧
      (∀ row ∈ fixes (newOut m.daemon (m.daemon.step solver e) e i),
        (row.shard, row.filtered.isSome) = (i, filtered)) ∧
      (((m.daemon.step solver e).shards i).gone = false →
        m.emitted i ++ newOut m.daemon (m.daemon.step solver e) e i =
          ((m.daemon.step solver e).shards i).state.out) := by
  have hmarks := h.marks i
  unfold newOut
  rcases m.daemon.step_shard solver e i with ⟨hstate, hgone⟩ | ⟨hshard, hgone, ev, hstate⟩ |
    ⟨hshard, hgone, hend⟩
  · -- Nothing is added by a shard that did not run.
    rw [hstate, hgone, List.drop_length, ite_self]
    refine ⟨hmarks, fun row hrow => absurd hrow List.not_mem_nil, fun hthere => ?_⟩
    rw [List.append_nil]
    exact h.emitted i hthere
  · have hemits := (m.daemon.shards i).state.emits_step solver ev
    rcases hemits.out with ⟨more, hout, hrows⟩
    rw [if_pos hshard, hstate, hgone, hout, List.drop_left]
    refine ⟨hemits.marks.trans hmarks, fun row hrow => (hrows row hrow).trans hmarks, ?_⟩
    intro hthere
    rw [h.emitted i hthere]
  · rw [if_neg (by rw [hshard]; exact Option.some_ne_none i ∘ Eq.symm), hgone]
    refine ⟨hend.trans hmarks, fun row hrow => absurd hrow List.not_mem_nil, fun hthere => ?_⟩
    exact Bool.noConfusion hthere

/-- The fixes of one shard in a message, behind others. -/
theorem filter_fixes_append {G : Type} (sent : List (OutRow G)) (channel : List (OutMsg G))
    (msg : OutMsg G) (i : Nat) : (sent ++ fixes (channel ++ [msg])).filter (fun row => row.shard = i) =
      (sent ++ fixes channel).filter (fun row => row.shard = i) ++
        (fixes [msg]).filter (fun row => row.shard = i) := by
  rw [fixes_append, ← List.append_assoc, List.filter_append]

/-- Any step keeps the order. -/
theorem ordered_step (csv filtered : Bool) (m : Mlatd F) (h : Ordered num csv filtered m)
    (e : Event F) : Ordered num csv filtered (m.step num solver e) := by
  cases e with
  | daemon e =>
      refine ⟨h.kept, fun i => (newOut_spec num solver m csv filtered h e i).1,
        fun i => (newOut_spec num solver m csv filtered h e i).2.2, fun i row hrow => ?_,
        fun i => ?_, h.consumers⟩
      · simp only [step, fixes_append, List.mem_append] at hrow
        rcases hrow with hrow | hrow
        · exact h.rows i row hrow
        · exact (newOut_spec num solver m csv filtered h e i).2.1 row hrow
      · simp only [step, fixes_append]
        rw [← List.append_assoc]
        exact (h.sent i).append (List.Sublist.refl _)
  | emit j =>
      simp only [step]
      cases hemitting : m.emitting j with
      | nil => exact h
      | cons msg rest =>
          refine ⟨h.kept, h.marks, h.emitted, h.rows, fun i => ?_, h.consumers⟩
          have hsent := h.sent i
          simp only []
          by_cases hij : i = j
          · subst hij
            rw [hemitting, ← List.singleton_append, fixes_append] at hsent
            rw [Function.update_self]
            -- The message carries the number of its shard.
            have hown : (fixes [msg]).filter (fun row => row.shard = i) = fixes [msg] := by
              rw [List.filter_eq_self]
              intro row hrow
              have hin : row ∈ fixes (m.emitted i) := by
                refine hsent.subset (List.mem_append_right _ (List.mem_append_left _ hrow))
              exact decide_eq_true (congrArg Prod.fst (h.rows i row hin))
            split_ifs
            · rw [filter_fixes_append, hown, List.append_assoc]
              exact hsent
            · refine List.Sublist.trans ?_ hsent
              exact (List.Sublist.refl _).append (List.sublist_append_right _ _)
          · rw [Function.update_of_ne hij]
            split_ifs
            · have hother : (fixes [msg]).filter (fun row => row.shard = i) = [] := by
                rw [List.filter_eq_nil_iff]
                intro row hrow hshard
                have hin : row ∈ fixes (m.emitted j) := by
                  refine (h.sent j).subset (List.mem_append_right _ ?_)
                  rw [hemitting, ← List.singleton_append, fixes_append]
                  exact List.mem_append_left _ hrow
                have hj : row.shard = j := congrArg Prod.fst (h.rows j row hin)
                exact hij ((of_decide_eq_true hshard).symm.trans hj)
              rw [filter_fixes_append, hother, List.append_nil]
              exact hsent
            · exact hsent
  | output =>
      simp only [step]
      cases hchannel : m.channel with
      | nil => exact h
      | cons msg rest =>
          have hsent := Output.onMsg_sent num csv filtered m.daemon.router m.output h.kept msg
          refine ⟨h.kept.onMsg num csv filtered m.daemon.router m.output msg, h.marks, h.emitted,
            h.rows, fun i => ?_, fun f hf => ?_⟩
          · refine List.Sublist.trans ((List.Sublist.filter _ ?_).append (List.Sublist.refl _))
              (h.sent i)
            rw [hsent, hchannel, ← List.singleton_append (l := rest), fixes_append,
              List.append_assoc]
            exact (List.Sublist.refl _).append
              ((Output.due_sublist _ _ msg).append (List.Sublist.refl _))
          · rw [hsent]
            exact (h.consumers f hf).append (sbsBytes num) none _ _ f
  | subscribe =>
      refine ⟨h.kept, h.marks, h.emitted, h.rows, h.sent, fun f hf => ?_⟩
      simp only [step, List.mem_append, List.mem_singleton] at hf
      rcases hf with hf | rfl
      · exact h.consumers f hf
      · exact Feed.sound_join (sbsBytes num) none m.output.sent
  | turn k cut =>
      refine ⟨h.kept, h.marks, h.emitted, h.rows, h.sent, fun f hf => ?_⟩
      exact forall_mem_modify (fun f => f.Sound m.output.sent (sbsBytes num) none) _ m.consumers k
        h.consumers (fun f hf => hf.turn (sbsBytes num) none publishSlots m.output.sent cut f) f hf

/-- The state a run leads to. The flags say which files are written. -/
def run (nShards : Nat) (hpos : 0 < nShards) (baseDeg : F) (cap : Nat)
    (csv filtered selfTruth : Bool) (es : List (Event F)) : Mlatd F :=
  exec (step num solver) (Mlatd.new (Daemon.new nShards hpos baseDeg cap selfTruth filtered)
    (Output.new csv filtered selfTruth)) es

theorem ordered_run (nShards : Nat) (hpos : 0 < nShards) (baseDeg : F) (cap : Nat)
    (csv filtered selfTruth : Bool) (es : List (Event F)) :
    Ordered num csv filtered
      (run num solver nShards hpos baseDeg cap csv filtered selfTruth es) := by
  unfold run exec
  refine List.foldlRecOn es _ (ordered_new num nShards hpos baseDeg cap csv filtered selfTruth) ?_
  exact fun m h e _ => ordered_step num solver csv filtered m h e

/-- What the output task is to send at an event. -/
def dueAt (m : Mlatd F) : Event F → List (OutRow F)
  | .output => (m.channel.head?.map (Output.due m.daemon.router m.output.sent)).getD []
  | _ => []

/-- Of each shard the fixes it emitted are sent, with gaps but in order, each once and
    under the shard's number. A fix is sent just when it is due, so twins are further apart
    than the memory. The files hold the lines of what was sent. -/
structure SentOnce (csv filtered : Bool) (m : Mlatd F) : Prop where
  inOrder : ∀ i, (m.output.sent.filter fun row => row.shard = i).Sublist (fixes (m.emitted i))
  emitted : ∀ i, (m.daemon.shards i).gone = false →
    m.emitted i = (m.daemon.shards i).state.out
  due : ∀ e, (m.step num solver e).output.sent = m.output.sent ++ m.dueAt e
  spaced : Spaced recentKeys (m.output.sent.map OutRow.key)
  csvFile : m.output.csv = if csv then some (m.output.sent.map (csvLine num)) else none
  filteredFile : m.output.filtered =
    if filtered then some (m.output.sent.filterMap (filteredLine num)) else none
  smoothed : ∀ row ∈ m.output.sent, row.filtered.isSome = filtered

theorem sent_due (csv filtered : Bool) (m : Mlatd F) (h : Ordered num csv filtered m)
    (e : Event F) : (m.step num solver e).output.sent = m.output.sent ++ m.dueAt e := by
  cases e with
  | output =>
      unfold step dueAt
      cases m.channel with
      | nil => exact (List.append_nil _).symm
      | cons msg rest =>
          exact Output.onMsg_sent num csv filtered m.daemon.router m.output h.kept msg
  | emit i =>
      simp only [step, dueAt, List.append_nil]
      split <;> rfl
  | _ => exact (List.append_nil _).symm

/-- Whatever happens, fixes are sent once. -/
theorem sent_once (nShards : Nat) (hpos : 0 < nShards) (baseDeg : F) (cap : Nat)
    (csv filtered selfTruth : Bool) (es : List (Event F)) :
    SentOnce num solver csv filtered
      (run num solver nShards hpos baseDeg cap csv filtered selfTruth es) := by
  have h := ordered_run num solver nShards hpos baseDeg cap csv filtered selfTruth es
  revert h
  generalize run num solver nShards hpos baseDeg cap csv filtered selfTruth es = m
  intro h
  have hsent := fun i => (List.sublist_append_left _ _).trans (h.sent i)
  refine ⟨fun i => ?_, h.emitted, sent_due num solver csv filtered _ h, h.kept.spaced, h.kept.csv,
    h.kept.filtered, fun row hrow => ?_⟩
  · refine List.Sublist.trans ?_ (hsent i)
    rw [List.filter_append]
    exact List.sublist_append_left _ _
  · have hin : row ∈ fixes (m.emitted row.shard) := by
      refine (hsent row.shard).subset (List.mem_filter.mpr ⟨?_, decide_eq_true rfl⟩)
      exact List.mem_append_left _ hrow
    exact congrArg Prod.snd (h.rows row.shard row hin)

section Example

/-- A feeder connects, under a name. -/
def connectAs (c : Nat) (user : String) : List (Event ℚ) :=
  [.accept, .handshake c (some { compress := ["none"], lat := some 0, lon := some 0, alt := some 0
                                 clockType := none, user := some user }) [],
    .sendAdd c, .work 0 0, .recvReply c, .writeReply c true].map .daemon

/-- Four feeders report what lets their shard find an aircraft, and the fix goes out. -/
def fixRun : List (Event ℚ) :=
  connectAs 0 "a" ++ connectAs 1 "b" ++ connectAs 2 "c" ++ connectAs 3 "d" ++
    ((List.range 5).flatMap fun e => (List.range 4).flatMap (fun c =>
      [.daemon (.say c (.sync (12000000 * (4 * e)) (12000000 * (4 * e + 1))
        "8d3c644458b500000000008c4ccb" "8d3c644458b504000000008067f3" 0)),
        .daemon (.work 0 (5000000000 * e))]) ++
      [.daemon (.sweep 0 (5000000000 * e + 4000000000) 1000000000 [] fun _ _ => 0)]) ++
    (List.range 4).flatMap (fun c => [.daemon (.say c (.mlat 1200000000 "5d3c6444dc6d6a" 100)),
      .daemon (.work 0 1000000000000)]) ++
    [.daemon (.sweep 0 1001000000000 1000000000 ["5d3c6444dc6d6a"] fun _ _ => 101),
      .subscribe, .emit 0, .output, .turn 0 none]

theorem sent_once_fix :
    (run decimals namedSolver 1 Nat.one_pos 8 64 true false false fixRun).output.sent.length = 1 ∧
      SentOnce decimals namedSolver true false
        (run decimals namedSolver 1 Nat.one_pos 8 64 true false false fixRun) :=
  ⟨by decide +kernel, sent_once decimals namedSolver 1 Nat.one_pos 8 64 true false false fixRun⟩

end Example

end Mlatd

end Server

end MlatBench
