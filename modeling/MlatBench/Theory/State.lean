import MlatBench.Core.Group
import MlatBench.Theory.Crc24

/-!
# What the Shard's Operations Can Do

One lemma per operation of the shard state about the reports that are pending,
what pair models and stamp offsets were made from, and what is used.

`Reports` says that a slot has a pending report of some origin. `Grows` is what
reports, statistics and sweeps can do: it says where all that is pending, trained
or set can come from, and lists all that is taken in. `Sheds` is what connecting
and disconnecting can do. Both are closed under composition, so the results about
isolation are read off them without opening an operation again.

## Main definitions

* `State.Reports`, `State.Seen`: Pending reports, and those a call brings.
* `State.Frame`, `State.Quiet`: What a solve leaves alone.
* `State.Solved`: What the solve of a group does to the history.
* `State.Grows`, `State.NewUse`: What reports and sweeps do to it.
* `State.Sheds`: What connecting and disconnecting do to it.

## Theorems

* `observe_spec`: Observations are conversions of slots alive and not quarantined.
* `clusters_mem`: Clusters are made of what is cut.
* `solveCluster_cases`, `solveGroup_solved`: The solve.
* `onMlat_cases`, `grows_onMlat`, `grows_onSync`, `grows_sweep`: Reports and sweeps.
* `sheds_addReceiver`, `sheds_removeReceiver`: Connecting and disconnecting.
* `step_cases`: One call.
-/

namespace MlatBench

namespace Server

open Library F64 F64Fn Modes

variable {F : Type} [F64Fn F]

namespace State

/-- A pending report of a slot. -/
def Reports (s : State F) (i : Nat) (o : Origin) : Prop :=
  (∃ k sp rep, s.syncpoints k = some sp ∧ rep ∈ sp.reporters ∧ rep.rx = i ∧ rep.origin = o) ∨
    ∃ k g e, s.groups k = some g ∧ e ∈ g.entries ∧ e.rx = i ∧ e.origin = o

/-- What the solve of a group leaves alone. -/
structure Frame (s s' : State F) : Prop where
  receivers : s'.receivers = s.receivers
  gens : s'.gens = s.gens
  alive : s'.alive = s.alive
  freeSlots : s'.freeSlots = s.freeSlots
  byUser : s'.byUser = s.byUser
  pairs : s'.pairs = s.pairs
  trained : s'.trained = s.trained
  resets : s'.resets = s.resets
  syncpoints : s'.syncpoints = s.syncpoints
  groups : s'.groups = s.groups
  biases : s'.rxBias.length = s.rxBias.length
  syncs : s'.rxSync.length = s.rxSync.length

section

omit [F64Fn F]

theorem Frame.refl (s : State F) : Frame s s := by
  constructor <;> rfl

theorem Frame.trans (s t u : State F) (h : Frame s t) (h' : Frame t u) : Frame s u :=
  ⟨h'.1.trans h.1, h'.2.trans h.2, h'.3.trans h.3, h'.4.trans h.4, h'.5.trans h.5,
    h'.6.trans h.6, h'.7.trans h.7, h'.8.trans h.8, h'.9.trans h.9, h'.10.trans h.10,
    h'.11.trans h.11, h'.12.trans h.12⟩

/-- What everything after the solver leaves alone besides. -/
structure Quiet (s s' : State F) : Prop extends Frame s s' where
  uses : s'.uses = s.uses
  offsetOrigin : s'.offsetOrigin = s.offsetOrigin
  stampOffset : s'.stampOffset = s.stampOffset
  hung : s'.hung = s.hung

theorem Quiet.refl (s : State F) : Quiet s s := by
  constructor <;> first | rfl | exact Frame.refl s

theorem Quiet.trans (s t u : State F) (h : Quiet s t) (h' : Quiet t u) : Quiet s u :=
  ⟨Frame.trans s t u h.1 h'.1, h'.2.trans h.2, h'.3.trans h.3, h'.4.trans h.4, h'.5.trans h.5⟩

theorem live_congr (s s' : State F) (hr : s'.receivers = s.receivers) (hg : s'.gens = s.gens)
    (ha : s'.alive = s.alive) (r : RxRef) : s'.live r = s.live r := by
  unfold live isAlive genOf
  rw [hr, hg, ha]

theorem Frame.use (s s' : State F) (h : Frame s s') (kind : UseKind) (i : Nat) (o : Origin) :
    s'.use kind i o = s.use kind i o := by
  unfold State.use
  rw [live_congr s s' h.receivers h.gens h.alive, h.resets]

theorem quiet_reject (s : State F) : Quiet s s.reject := by
  constructor <;> first | rfl | constructor <;> rfl

theorem quiet_setTrack (s : State F) (icao : Icao) (t : Track F) : Quiet s (s.setTrack icao t) := by
  constructor <;> first | rfl | constructor <;> rfl

end

end State

/-- The sixteen most precise are among all. -/
theorem capObs_mem (obs : List (Observed F)) : ∀ o ∈ capObs obs, o ∈ obs := by
  intro o ho
  unfold capObs at ho
  by_cases hlen : obs.length ≤ 16
  · rwa [if_pos hlen] at ho
  · rw [if_neg hlen] at ho
    rcases List.mem_filterMap.mp ho with ⟨i, _, hi⟩
    exact List.mem_of_getElem? hi

theorem clusters_mem (fuel : Nat) (xs : List (Conv F)) :
    ∀ cl ∈ (clusters fuel xs).1, ∀ c ∈ cl, c ∈ xs := by
  induction fuel generalizing xs with
  | zero =>
      cases xs with
      | nil => exact fun cl h => absurd h List.not_mem_nil
      | cons c rest => exact fun cl h => absurd h List.not_mem_nil
  | succ fuel ih =>
      cases xs with
      | nil => exact fun cl h => absurd h List.not_mem_nil
      | cons c rest =>
          intro cl hcl d hd
          simp only [clusters] at hcl
          by_cases hnear : (c :: rest).takeWhile
              (fun d => decide (d.t - c.t ≤ clusterSpanS)) = []
          · rw [if_pos hnear] at hcl
            exact absurd hcl List.not_mem_nil
          · rw [if_neg hnear] at hcl
            rcases List.mem_cons.mp hcl with rfl | hcl
            · exact (List.takeWhile_sublist _).subset hd
            · exact List.mem_of_mem_drop (ih _ cl hcl d hd)

namespace State

theorem quiet_learn (s : State F) (scatter : Bool) (rxIds : List Nat) (sol : Solution F) :
    Quiet s (s.learn scatter rxIds sol) := by
  unfold learn
  split_ifs
  · have hlen : ∀ (f : List (RxBias F) → Nat × F → List (RxBias F)),
        (∀ bs p, (f bs p).length = bs.length) → ∀ ps : List (Nat × F),
        (ps.foldl f s.rxBias).length = s.rxBias.length := by
      intro f hf ps
      refine List.foldlRecOn _ _ (motive := fun bs : List (RxBias F) =>
        bs.length = s.rxBias.length) rfl ?_
      intro bs hbs p _
      rw [hf, hbs]
    constructor <;> first
      | rfl
      | constructor <;> first | rfl | exact hlen _ (fun bs p => List.length_set) _
  · exact Quiet.refl s

theorem quiet_selfTruth (s : State F) (nowScaled stamp : F) (icao : Icao) (sol : Solution F)
    (n : Nat) : Quiet s (s.selfTruth nowScaled stamp icao sol n) := by
  unfold selfTruth
  split
  · exact Quiet.refl s
  · split_ifs
    · constructor <;> first | rfl | constructor <;> rfl
    · exact Quiet.refl s

theorem quiet_publish (s : State F) (stamp : F) (icao : Icao) (altFt : Int) (sol : Solution F)
    (users : List String) (n : Nat) : Quiet s (s.publish stamp icao altFt sol users n) := by
  constructor <;> first | rfl | constructor <;> rfl

theorem quiet_accept (s : State F) (nowScaled stamp : F) (icao : Icao) (df17 : Bool)
    (track : Track F) (altFt : Int) (obs : List (Observed F)) (sol : Solution F) :
    Quiet s (s.accept nowScaled stamp icao df17 track altFt obs sol) := by
  have hspeed : ∀ t, Quiet s (s.setTrack icao t).reject := fun t =>
    Quiet.trans _ _ _ (quiet_setTrack s icao t) (quiet_reject _)
  have hcount : Quiet s { s with statsSolved := s.statsSolved + 1 } := by
    constructor <;> first | rfl | constructor <;> rfl
  unfold accept
  simp only []
  split_ifs
  · exact quiet_reject s
  · exact quiet_reject s
  · exact hspeed _
  · exact hspeed _
  · exact Quiet.trans _ _ _ (quiet_learn s _ _ sol) (quiet_selfTruth _ _ _ _ _ _)
  · exact Quiet.trans _ _ _ hcount (Quiet.trans _ _ _ (quiet_learn _ _ _ sol)
      (Quiet.trans _ _ _ (quiet_setTrack _ _ _) (quiet_publish _ _ _ _ _ _ _)))

theorem quiet_attempt (solver : Solver F) (s : State F) (nowScaled stamp : F) (icao : Icao)
    (df17 : Bool) (track : Track F) (obs : List (Observed F)) :
    Quiet s (s.attempt solver nowScaled stamp icao df17 track obs) := by
  unfold attempt
  split
  · exact Quiet.refl s
  · simp only []
    split
    · exact Quiet.trans _ _ _ (quiet_setTrack _ _ _) (quiet_reject _)
    · exact Quiet.trans _ _ _ (quiet_setTrack _ _ _) (quiet_accept _ _ _ _ _ _ _ _ _)

/-- Observations are conversions of slots alive and not quarantined. -/
theorem observe_spec (s : State F) (cluster : List (Conv F)) :
    ∀ o ∈ s.observe cluster, ∃ c ∈ cluster, o.rx = c.rx ∧ o.origin = c.origin ∧
      s.isAlive c.rx = true ∧ (s.biasOf c.rx).quarantined = false := by
  unfold observe
  refine List.foldlRecOn cluster _ (motive := fun acc : List Nat × List (Observed F) =>
    ∀ o ∈ acc.2, ∃ c ∈ cluster, o.rx = c.rx ∧ o.origin = c.origin ∧
      s.isAlive c.rx = true ∧ (s.biasOf c.rx).quarantined = false)
    (fun o ho => absurd ho List.not_mem_nil) ?_
  rintro ⟨seen, obs⟩ hacc c hc
  by_cases hseen : c.rx ∈ seen
  · simp only [if_pos hseen]
    exact hacc
  · by_cases hout : s.isAlive c.rx = false ∨ (s.biasOf c.rx).quarantined = true
    · simp only [if_neg hseen, if_pos hout]
      exact hacc
    · simp only [if_neg hseen, if_neg hout]
      intro o ho
      rcases List.mem_append.mp ho with ho | ho
      · exact hacc o ho
      · rw [List.mem_singleton] at ho
        rw [not_or, Bool.not_eq_false, Bool.not_eq_true] at hout
        exact ⟨c, hc, by rw [ho], by rw [ho], hout.1, hout.2⟩

/-- A cluster is too small, or it sets the offset and goes on to the solver. -/
theorem solveCluster_cases (solver : Solver F) (s : State F) (nowScaled : F) (icao : Icao)
    (df17 : Bool) (ref : Nat) (cluster : List (Conv F)) :
    s.solveCluster solver nowScaled icao df17 ref cluster = s.withObserved cluster ∨
      s.observe cluster ≠ [] ∧ ∃ off, Quiet ((s.withObserved cluster).withOffset ref off)
        (s.solveCluster solver nowScaled icao df17 ref cluster) := by
  unfold solveCluster
  cases hobs : s.observe cluster with
  | nil =>
      left
      simp only [withObserved, hobs]
  | cons first rest =>
      by_cases hlen : (first :: rest).length < 4
      · left
        simp only [if_pos hlen]
      · right
        simp only [if_neg hlen]
        refine ⟨List.cons_ne_nil first rest,
          nextOffset ((s.withObserved cluster).stampOffset ref) (least first.atScaled
            (rest.map Observed.atScaled) - least first.obs.tS (rest.map fun o => o.obs.tS)), ?_⟩
        split_ifs
        · exact quiet_setTrack _ _ _
        · exact Quiet.trans _ _ _ (quiet_setTrack _ _ _) (quiet_reject _)
        · exact Quiet.trans _ _ _ (quiet_setTrack _ _ _) (quiet_attempt solver _ _ _ _ _ _ _)

/-- What the solve of a group takes in. -/
inductive SolveUse (s : State F) (es : List (Entry F)) : Use → Prop where
  | train (k : Nat × Nat) (o : Origin) (h : o ∈ s.trained k) :
      SolveUse s es (s.use .train o.ref.idx o)
  | convert (e : Entry F) (he : e ∈ es) : SolveUse s es (s.use .convert e.rx e.origin)
  | observe (e : Entry F) (he : e ∈ es) (halive : s.isAlive e.rx = true) :
      SolveUse s es (s.use .observe e.rx e.origin)
  | stamp (i : Nat) (o : Origin) (h : s.offsetOrigin i = some o ∨ o = s.originAt i) :
      SolveUse s es (s.use .stamp i o)

/-- What the solve of a group does to the history. -/
structure Solved (s : State F) (es : List (Entry F)) (s' : State F) : Prop where
  frame : Frame s s'
  uses : ∀ u ∈ s'.uses, u ∈ s.uses ∨ SolveUse s es u
  offsets : ∀ i o, s'.offsetOrigin i = some o → s.offsetOrigin i = some o ∨ o = s.originAt i
  kept : ∀ i, s'.stampOffset i = none →
    s.stampOffset i = none ∧ s'.offsetOrigin i = s.offsetOrigin i

section

omit [F64Fn F]

theorem Solved.refl (s : State F) (es : List (Entry F)) : Solved s es s :=
  ⟨Frame.refl s, fun _ h => Or.inl h, fun _ _ h => Or.inl h, fun _ h => ⟨h, rfl⟩⟩

theorem Solved.quiet (s s' t : State F) (es : List (Entry F)) (h : Solved s es s')
    (hq : Quiet s' t) : Solved s es t where
  frame := Frame.trans _ _ _ h.frame hq.toFrame
  uses u hu := h.uses u (by rwa [hq.uses] at hu)
  offsets i o ho := h.offsets i o (by rwa [hq.offsetOrigin] at ho)
  kept i hi := by
    rw [hq.stampOffset] at hi
    rw [hq.offsetOrigin]
    exact h.kept i hi

theorem Frame.originAt (s s' : State F) (h : Frame s s') (i : Nat) :
    s'.originAt i = s.originAt i := by
  simp only [State.originAt, State.originOf, genOf, h.gens, h.resets]

end

theorem Solved.withObserved (s s' : State F) (es : List (Entry F)) (h : Solved s es s')
    (cluster : List (Conv F))
    (hc : ∀ c ∈ cluster, ∃ e ∈ es, e.rx = c.rx ∧ e.origin = c.origin) :
    Solved s es (s'.withObserved cluster) where
  frame := by
    refine Frame.trans _ _ _ h.frame ?_
    constructor <;> rfl
  uses u hu := by
    rcases List.mem_append.mp hu with hu | hu
    · exact h.uses u hu
    · rcases List.mem_map.mp hu with ⟨o, ho, rfl⟩
      rcases s'.observe_spec cluster o ho with ⟨c, hcm, hrx, horig, halive, _⟩
      rcases hc c hcm with ⟨e, he, herx, heorig⟩
      right
      rw [Frame.use s s' h.frame, hrx, horig, ← herx, ← heorig]
      refine SolveUse.observe e he ?_
      rw [herx, ← halive, isAlive, isAlive, h.frame.alive]
  offsets := h.offsets
  kept := h.kept

omit [F64Fn F] in
theorem Solved.withOffset (s s' : State F) (es : List (Entry F)) (h : Solved s es s') (ref : Nat)
    (off : F) : Solved s es (s'.withOffset ref off) where
  frame := by
    refine Frame.trans _ _ _ h.frame ?_
    constructor <;> rfl
  uses u hu := by
    rcases List.mem_append.mp hu with hu | hu
    · exact h.uses u hu
    · rcases List.mem_map.mp hu with ⟨o, ho, rfl⟩
      rw [Option.mem_toList] at ho
      right
      rw [Frame.use s s' h.frame]
      exact SolveUse.stamp ref o (h.offsets ref o ho)
  offsets i o ho := by
    by_cases hi : i = ref
    · rw [hi] at ho ⊢
      have hself : (s'.withOffset ref off).offsetOrigin ref = some (s'.originAt ref) :=
        Function.update_self _ _ _
      rw [hself, Option.some.injEq] at ho
      exact Or.inr (by rw [← ho, Frame.originAt s s' h.frame])
    · have hother : (s'.withOffset ref off).offsetOrigin i = s'.offsetOrigin i :=
        Function.update_of_ne hi _ _
      exact h.offsets i o (by rwa [hother] at ho)
  kept i hi := by
    by_cases href : i = ref
    · rw [href] at hi
      have hself : (s'.withOffset ref off).stampOffset ref = some off :=
        Function.update_self _ _ _
      exact absurd (hself.symm.trans hi) (Option.some_ne_none off)
    · have hoff : (s'.withOffset ref off).stampOffset i = s'.stampOffset i :=
        Function.update_of_ne href _ _
      have horig : (s'.withOffset ref off).offsetOrigin i = s'.offsetOrigin i :=
        Function.update_of_ne href _ _
      rw [horig]
      exact h.kept i (by rwa [hoff] at hi)

theorem Solved.cluster (solver : Solver F) (s s' : State F) (es : List (Entry F))
    (h : Solved s es s') (nowScaled : F) (icao : Icao) (df17 : Bool) (ref : Nat)
    (cluster : List (Conv F))
    (hc : ∀ c ∈ cluster, ∃ e ∈ es, e.rx = c.rx ∧ e.origin = c.origin) :
    Solved s es (s'.solveCluster solver nowScaled icao df17 ref cluster) := by
  have hobs := Solved.withObserved s s' es h cluster hc
  rcases s'.solveCluster_cases solver nowScaled icao df17 ref cluster with heq | ⟨_, off, hq⟩
  · rw [heq]
    exact hobs
  · exact Solved.quiet _ _ _ _ (Solved.withOffset _ _ _ hobs ref off) hq

theorem Solved.clusters (solver : Solver F) (s s' : State F) (es : List (Entry F))
    (h : Solved s es s') (clock : Nat → F) (icao : Icao) (df17 : Bool) (ref : Nat)
    (cs : List (List (Conv F) × Nat))
    (hcs : ∀ p ∈ cs, ∀ c ∈ p.1, ∃ e ∈ es, e.rx = c.rx ∧ e.origin = c.origin) :
    Solved s es (s'.solveClusters solver clock icao df17 ref cs) := by
  unfold solveClusters
  induction cs generalizing s' with
  | nil => exact h
  | cons p cs ih =>
      refine ih _ (Solved.cluster solver s s' es h _ _ _ _ _ (hcs p List.mem_cons_self)) ?_
      exact fun q hq => hcs q (List.mem_cons_of_mem p hq)

omit [F64Fn F] in
theorem Solved.withConverted (s : State F) (es : List (Entry F)) (members : List Nat) (ref : Nat) :
    Solved s es (s.withConverted members ref es) := by
  refine ⟨by constructor <;> rfl, fun u hu => ?_, fun _ _ h => Or.inl h, fun _ h => ⟨h, rfl⟩⟩
  rcases List.mem_append.mp hu with hu | hu
  · exact Or.inl hu
  · rcases List.mem_flatMap.mp hu with ⟨e, he, hu⟩
    right
    rcases List.mem_append.mp hu with hu | hu
    · rcases List.mem_flatMap.mp hu with ⟨k, _, hu⟩
      rcases List.mem_map.mp hu with ⟨o, ho, rfl⟩
      exact SolveUse.train k o ho
    · rw [List.mem_singleton] at hu
      rw [hu]
      exact SolveUse.convert e he

/-- Every conversion is that of an entry. -/
theorem converted_mem (s : State F) (members : List Nat) (ref : Nat) (es : List (Entry F)) :
    ∀ c ∈ s.converted members ref es, ∃ e ∈ es, e.rx = c.rx ∧ e.origin = c.origin := by
  intro c hc
  rw [converted, List.mem_insertionSort] at hc
  rcases List.mem_filterMap.mp hc with ⟨e, he, hce⟩
  rcases Option.map_eq_some_iff.mp hce with ⟨⟨t, sigma⟩, _, rfl⟩
  exact ⟨e, he, rfl, rfl⟩

/-- The solve of a group takes in its entries, the models it consults and stamp
    offsets, and leaves the rest alone. -/
theorem solveGroup_solved (solver : Solver F) (s : State F) (clock : Nat → F) (g : Group F) :
    Solved s g.entries (s.solveGroup solver clock g) := by
  unfold solveGroup
  simp only []
  cases s.localRef g.members with
  | none => exact Solved.refl s _
  | some ref =>
      have hconv := Solved.withConverted s g.entries g.members ref
      have hfold := Solved.clusters solver s _ g.entries hconv clock g.icao g.df17 ref
        (Server.clusters ((s.withConverted g.members ref g.entries).converted g.members ref
          g.entries).length ((s.withConverted g.members ref g.entries).converted g.members ref
          g.entries)).1.zipIdx (by
            rintro ⟨cluster, i⟩ hp c hc
            have hcl := clusters_mem _ _ cluster (List.fst_mem_of_mem_zipIdx hp) c hc
            exact converted_mem _ _ _ _ c hcl)
      simp only []
      split_ifs
      · exact Solved.refl s _
      · exact hconv
      · exact hfold
      · refine ⟨Frame.trans _ _ _ hfold.frame ?_, hfold.uses, hfold.offsets, hfold.kept⟩
        constructor <;> rfl

/-- A pending report of a slot, or one a call brings now. -/
def Seen (s : State F) (i : Nat) (o : Origin) : Prop :=
  s.Reports i o ∨ ∃ r : RxRef, s.live r = true ∧ r.idx = i ∧ s.originOf r = o

/-- What the models of a pair may be made from. -/
def Trains (s : State F) (k : Nat × Nat) (o : Origin) : Prop :=
  o ∈ s.trained k ∨ ∃ i, (i = k.1 ∨ i = k.2) ∧ s.Seen i o

/-- What the stamp offset of a slot may be made from. -/
def Offers (s : State F) (i : Nat) (o : Origin) : Prop :=
  s.offsetOrigin i = some o ∨ o = s.originAt i

/-- A use made by a call. -/
inductive NewUse (s : State F) : Use → Prop where
  | train (k : Nat × Nat) (o : Origin) (h : s.Trains k o) : NewUse s (s.use .train o.ref.idx o)
  | push (i : Nat) (o : Origin) (h : s.Seen i o) (halive : s.isAlive i = true) :
      NewUse s (s.use .push i o)
  | convert (i : Nat) (o : Origin) (h : s.Seen i o) : NewUse s (s.use .convert i o)
  | observe (i : Nat) (o : Origin) (h : s.Seen i o) (halive : s.isAlive i = true) :
      NewUse s (s.use .observe i o)
  | stamp (i : Nat) (o : Origin) (h : s.Offers i o) : NewUse s (s.use .stamp i o)

/-- What reports and sweeps do to the history. -/
structure Grows (s s' : State F) : Prop where
  receivers : s'.receivers = s.receivers
  gens : s'.gens = s.gens
  alive : s'.alive = s.alive
  resets : s'.resets = s.resets
  reports : ∀ i o, s'.Reports i o → s.Seen i o
  trained : ∀ k, ∀ o ∈ s'.trained k, s.Trains k o
  offsets : ∀ i o, s'.offsetOrigin i = some o → s.Offers i o
  kept : ∀ i, s'.stampOffset i = none →
    s.stampOffset i = none ∧ s'.offsetOrigin i = s.offsetOrigin i
  uses : ∀ u ∈ s'.uses, u ∈ s.uses ∨ s.NewUse u

omit [F64Fn F] in
theorem Grows.refl (s : State F) : Grows s s where
  receivers := rfl
  gens := rfl
  alive := rfl
  resets := rfl
  reports _ _ h := Or.inl h
  trained _ _ h := Or.inl h
  offsets _ _ h := Or.inl h
  kept _ h := ⟨h, rfl⟩
  uses _ h := Or.inl h

section Grown

variable {s s' : State F} (h : Grows s s')

include h

section

omit [F64Fn F]

theorem Grows.live (r : RxRef) : s'.live r = s.live r :=
  live_congr s s' h.receivers h.gens h.alive r

theorem Grows.isAlive (i : Nat) : s'.isAlive i = s.isAlive i := by
  rw [State.isAlive, State.isAlive, h.alive]

theorem Grows.originOf (r : RxRef) : s'.originOf r = s.originOf r := by
  rw [State.originOf, State.originOf, h.resets]

theorem Grows.originAt (i : Nat) : s'.originAt i = s.originAt i := by
  rw [State.originAt, State.originAt, h.originOf, genOf, genOf, h.gens]

theorem Grows.use (kind : UseKind) (i : Nat) (o : Origin) : s'.use kind i o = s.use kind i o := by
  unfold State.use
  rw [h.live, h.resets]

theorem Grows.seen (i : Nat) (o : Origin) (hs : s'.Seen i o) : s.Seen i o := by
  rcases hs with hs | ⟨r, hr, hi, ho⟩
  · exact h.reports i o hs
  · exact Or.inr ⟨r, by rwa [h.live] at hr, hi, by rwa [h.originOf] at ho⟩

theorem Grows.trains (k : Nat × Nat) (o : Origin) (ht : s'.Trains k o) : s.Trains k o := by
  rcases ht with ht | ⟨i, hi, hs⟩
  · exact h.trained k o ht
  · exact Or.inr ⟨i, hi, h.seen i o hs⟩

theorem Grows.offers (i : Nat) (o : Origin) (ho : s'.Offers i o) : s.Offers i o := by
  rcases ho with ho | ho
  · exact h.offsets i o ho
  · exact Or.inr (by rwa [h.originAt] at ho)

theorem Grows.newUse (u : Use) (hu : s'.NewUse u) : s.NewUse u := by
  cases hu with
  | train k o ht =>
      rw [h.use]
      exact NewUse.train k o (h.trains k o ht)
  | push i o hs halive =>
      rw [h.use]
      exact NewUse.push i o (h.seen i o hs) (by rwa [h.isAlive] at halive)
  | convert i o hs =>
      rw [h.use]
      exact NewUse.convert i o (h.seen i o hs)
  | observe i o hs halive =>
      rw [h.use]
      exact NewUse.observe i o (h.seen i o hs) (by rwa [h.isAlive] at halive)
  | stamp i o ho =>
      rw [h.use]
      exact NewUse.stamp i o (h.offers i o ho)

theorem Grows.trans {s'' : State F} (h' : Grows s' s'') : Grows s s'' where
  receivers := h'.receivers.trans h.receivers
  gens := h'.gens.trans h.gens
  alive := h'.alive.trans h.alive
  resets := h'.resets.trans h.resets
  reports i o hr := h.seen i o (h'.reports i o hr)
  trained k o ho := h.trains k o (h'.trained k o ho)
  offsets i o ho := h.offers i o (h'.offsets i o ho)
  kept i hi := by
    rcases h'.kept i hi with ⟨hs, ho⟩
    exact ⟨(h.kept i hs).1, ho.trans (h.kept i hs).2⟩
  uses u hu := by
    rcases h'.uses u hu with hu | hu
    · exact h.uses u hu
    · exact Or.inr (h.newUse u hu)

end

end Grown

section

omit [F64Fn F]

theorem reports_congr (s s' : State F) (hs : s'.syncpoints = s.syncpoints)
    (hg : s'.groups = s.groups) (i : Nat) (o : Origin) : s'.Reports i o ↔ s.Reports i o := by
  rw [Reports, Reports, hs, hg]

theorem Quiet.grows (s s' : State F) (h : Quiet s s') : Grows s s' where
  receivers := h.receivers
  gens := h.gens
  alive := h.alive
  resets := h.resets
  reports i o hr := Or.inl ((reports_congr s s' h.syncpoints h.groups i o).mp hr)
  trained k o ho := Or.inl (by rwa [h.trained] at ho)
  offsets i o ho := Or.inl (by rwa [h.offsetOrigin] at ho)
  kept i hi := ⟨by rwa [h.stampOffset] at hi, by rw [h.offsetOrigin]⟩
  uses u hu := Or.inl (by rwa [h.uses] at hu)

/-- Only what is pending changes, by what is seen. -/
theorem grows_pending (s : State F) (sps : String × String → Option (SyncPoint F))
    (gs : String → Option (Group F))
    (h : ∀ i o, ({ s with syncpoints := sps, groups := gs } : State F).Reports i o → s.Seen i o) :
    Grows s { s with syncpoints := sps, groups := gs } :=
  { Grows.refl s with reports := h }

/-- A new entry joins a group. -/
theorem grows_group (s : State F) (key : String) (g : Group F)
    (h : ∀ e ∈ g.entries, s.Seen e.rx e.origin) :
    Grows s { s with groups := Function.update s.groups key (some g) } := by
  refine grows_pending s s.syncpoints _ ?_
  rintro i o (hr | ⟨k, g', e, hk, he, hi, ho⟩)
  · exact Or.inl (Or.inl hr)
  · simp only [] at hk
    by_cases hkey : k = key
    · rw [hkey, Function.update_self, Option.some.injEq] at hk
      rw [← hi, ← ho]
      exact h e (hk ▸ he)
    · rw [Function.update_of_ne hkey] at hk
      exact Or.inl (Or.inr ⟨k, g', e, hk, he, hi, ho⟩)

/-- A new reporter joins a sync point. -/
theorem grows_syncpoint (s : State F) (key : String × String) (sp : SyncPoint F)
    (h : ∀ rep ∈ sp.reporters, s.Seen rep.rx rep.origin) :
    Grows s { s with syncpoints := Function.update s.syncpoints key (some sp) } := by
  refine grows_pending s _ s.groups ?_
  rintro i o (⟨k, sp', rep, hk, hrep, hi, ho⟩ | hr)
  · simp only [] at hk
    by_cases hkey : k = key
    · rw [hkey, Function.update_self, Option.some.injEq] at hk
      rw [← hi, ← ho]
      exact h rep (hk ▸ hrep)
    · rw [Function.update_of_ne hkey] at hk
      exact Or.inl (Or.inl ⟨k, sp', rep, hk, hrep, hi, ho⟩)
  · exact Or.inl (Or.inr hr)

theorem group_seen (s : State F) (key : String) (g : Group F) (hg : g.entries = [])  :
    ∀ e ∈ ((s.groups key).getD g).entries, s.Seen e.rx e.origin := by
  intro e he
  cases hk : s.groups key with
  | none =>
      rw [hk, Option.getD_none, hg] at he
      exact absurd he List.not_mem_nil
  | some g' =>
      rw [hk, Option.getD_some] at he
      exact Or.inl (Or.inr ⟨key, g', e, hk, he, rfl, rfl⟩)

theorem syncpoint_seen (s : State F) (key : String × String) (sp : SyncPoint F)
    (hsp : sp.reporters = []) :
    ∀ rep ∈ ((s.syncpoints key).getD sp).reporters, s.Seen rep.rx rep.origin := by
  intro rep hrep
  cases hk : s.syncpoints key with
  | none =>
      rw [hk, Option.getD_none, hsp] at hrep
      exact absurd hrep List.not_mem_nil
  | some sp' =>
      rw [hk, Option.getD_some] at hrep
      exact Or.inl (Or.inl ⟨key, sp', rep, hk, hrep, rfl, rfl⟩)

theorem seen_now (s : State F) (r : RxRef) (h : s.live r = true) : s.Seen r.idx (s.originOf r) :=
  Or.inr ⟨r, h, rfl, rfl⟩

/-- A report joins the group of its text. -/
theorem grows_join (s : State F) (r : RxRef) (h : s.live r = true) (key : String) (g : Group F)
    (hg : g.entries = []) (tS atScaled : F) :
    Grows s { s with
      groups := Function.update s.groups key
        (some { (s.groups key).getD g with
          entries := ((s.groups key).getD g).entries ++
            [{ rx := r.idx, tS := tS, atScaled := atScaled, origin := s.originOf r }] }) } := by
  refine grows_group s key _ ?_
  intro e he
  rcases List.mem_append.mp he with he | he
  · exact group_seen s key g hg e he
  · rw [List.mem_singleton] at he
    rw [he]
    exact seen_now s r h

end

/-- A message changes nothing, or it joins the group of its text, which has an
    address of 24 bits if it is new; on the way at most an altitude is learned. -/
theorem onMlat_cases (s : State F) (now : Nat) (r : RxRef) (tCounts : F) (mHex : String)
    (atScaled : F) : s.onMlat now r tCounts mHex atScaled = s ∨
      (s.live r = true ∧ ∃ (alts : Icao → Option Int) (g : Group F),
        (g.entries = [] ∧ g.icao.val.toNat < 2 ^ 24) ∧ s.onMlat now r tCounts mHex atScaled = { s with
          altsFt := alts
          groups := Function.update s.groups mHex
            (some { (s.groups mHex).getD g with
              entries := ((s.groups mHex).getD g).entries ++
                [{ rx := r.idx, tS := tCounts / (s.receiver r.idx).freqHz, atScaled := atScaled
                   origin := s.originOf r }] }) }) := by
  unfold onMlat
  by_cases hlive : s.live r = false
  · rw [if_pos hlive]
    exact Or.inl rfl
  · rw [if_neg hlive]
    rw [Bool.not_eq_false] at hlive
    cases hexDecode mHex with
    | none => exact Or.inl rfl
    | some m =>
        simp only []
        split
        · exact Or.inl rfl
        · next icao s' hknown =>
            have hs' : (∃ alts, s' = { s with altsFt := alts }) ∧ icao.val.toNat < 2 ^ 24 := by
              split at hknown
              · split_ifs at hknown
                rcases Option.map_eq_some_iff.mp hknown with ⟨d, hparse, hd⟩
                rw [← (Prod.mk.inj hd).1]
                exact ⟨⟨s.altsFt, (Prod.mk.inj hd).2.symm⟩, parseDf17Airborne_lt m d hparse⟩
              · split at hknown
                · exact absurd hknown (Option.some_ne_none _).symm
                · next icao' alt hparse =>
                    rw [← (Prod.mk.inj (Option.some.inj hknown)).1]
                    exact ⟨⟨_, (Prod.mk.inj (Option.some.inj hknown)).2.symm⟩,
                      parseDf4_lt m icao' _ hparse⟩
                · next icao' hparse =>
                    rw [← (Prod.mk.inj (Option.some.inj hknown)).1]
                    exact ⟨⟨s.altsFt, (Prod.mk.inj (Option.some.inj hknown)).2.symm⟩,
                      parseDf4_lt m icao' _ hparse⟩
              · rcases Option.map_eq_some_iff.mp hknown with ⟨d, hparse, hd⟩
                rw [← (Prod.mk.inj hd).1]
                exact ⟨⟨s.altsFt, (Prod.mk.inj hd).2.symm⟩, parseDf11_lt m d hparse⟩
              · exact absurd hknown (Option.some_ne_none _).symm
            rcases hs' with ⟨⟨alts, rfl⟩, hicao⟩
            exact Or.inr ⟨hlive, alts, _, ⟨rfl, hicao⟩, rfl⟩

theorem grows_onMlat (s : State F) (now : Nat) (r : RxRef) (tCounts : F) (mHex : String)
    (atScaled : F) : Grows s (s.onMlat now r tCounts mHex atScaled) := by
  rcases s.onMlat_cases now r tCounts mHex atScaled with heq | ⟨hlive, alts, g, ⟨hg, _⟩, heq⟩
  · rw [heq]
    exact Grows.refl s
  · rw [heq]
    refine Grows.trans (grows_join s r hlive mHex g hg (tCounts / (s.receiver r.idx).freqHz)
      atScaled) (Quiet.grows _ _ ?_)
    constructor <;> first | rfl | constructor <;> rfl

/-- The models of a pair are trained with two reports seen before. -/
theorem Grows.trainWith (s s' : State F) (h : Grows s s') (me other : Reporter F)
    (hme : s.Seen me.rx me.origin) (halive : s.isAlive me.rx = true)
    (hother : s.Seen other.rx other.origin) : Grows s (s'.trainWith me other) := by
  unfold State.trainWith
  by_cases hskip : other.rx = me.rx ∨ s'.isAlive other.rx = false
  · rw [if_pos hskip]
    exact h
  · rw [if_neg hskip]
    rw [not_or, Bool.not_eq_false, h.isAlive] at hskip
    refine { h with trained := ?_, uses := ?_ }
    · intro k o ho
      simp only [] at ho
      by_cases hk : k ∈ [(me.rx, other.rx), (other.rx, me.rx)]
      · rw [if_pos hk] at ho
        rcases List.mem_append.mp ho with ho | ho
        · exact h.trained k o ho
        · have hends : (me.rx = k.1 ∨ me.rx = k.2) ∧ (other.rx = k.1 ∨ other.rx = k.2) := by
            rw [List.mem_cons, List.mem_singleton] at hk
            rcases hk with rfl | rfl
            · exact ⟨Or.inl rfl, Or.inr rfl⟩
            · exact ⟨Or.inr rfl, Or.inl rfl⟩
          rw [List.mem_cons, List.mem_singleton] at ho
          rcases ho with rfl | rfl
          · exact Or.inr ⟨me.rx, hends.1, hme⟩
          · exact Or.inr ⟨other.rx, hends.2, hother⟩
      · rw [if_neg hk] at ho
        exact h.trained k o ho
    · intro u hu
      rcases List.mem_append.mp hu with hu | hu
      · exact h.uses u hu
      · right
        rcases List.mem_append.mp hu with hu | hu
        · rcases List.mem_flatMap.mp hu with ⟨k, _, hu⟩
          rcases List.mem_map.mp hu with ⟨o, ho, rfl⟩
          rw [h.use]
          exact NewUse.train k o (h.trained k o ho)
        · rw [List.mem_cons, List.mem_singleton] at hu
          rcases hu with rfl | rfl
          · rw [h.use]
            exact NewUse.push me.rx me.origin hme halive
          · rw [h.use]
            exact NewUse.push other.rx other.origin hother hskip.2

omit [F64Fn F] in
theorem live_alive (s : State F) (r : RxRef) (h : s.live r = true) : s.isAlive r.idx = true := by
  rw [live, decide_eq_true_eq] at h
  exact h.2.1

theorem grows_joinSync (s : State F) (now : Nat) (r : RxRef) (te tO : F) (key : String × String)
    (hlive : s.live r = true) : Grows s (s.joinSync now r te tO key) := by
  have hsp := syncpoint_seen s key { created := now, reporters := [] } rfl
  unfold joinSync
  simp only []
  generalize (s.syncpoints key).getD { created := now, reporters := [] } = sp at hsp ⊢
  split_ifs
  · exact grows_syncpoint s key sp hsp
  · generalize hme : ({ rx := r.idx, te := te, tO := tO, origin := s.originOf r } : Reporter F) = me
    have hseen : s.Seen me.rx me.origin := by
      rw [← hme]
      exact seen_now s r hlive
    have halive : s.isAlive me.rx = true := by
      rw [← hme]
      exact live_alive s r hlive
    have hjoined : ∀ rep ∈ sp.reporters ++ [me], s.Seen rep.rx rep.origin := by
      intro rep hrep
      rcases List.mem_append.mp hrep with hrep | hrep
      · exact hsp rep hrep
      · rw [List.mem_singleton] at hrep
        rw [hrep]
        exact hseen
    -- One earlier reporter after another, each seen before the call.
    refine List.foldlRecOn sp.reporters _ (motive := fun s' => Grows s s')
      (grows_syncpoint s key { sp with reporters := sp.reporters ++ [me] } hjoined) ?_
    exact fun s' h other hother => Grows.trainWith s s' h me other hseen halive (hsp other hother)

theorem grows_onSync (s : State F) (now : Nat) (r : RxRef) (et ot : F) (emHex omHex : String)
    (atScaled : F) : Grows s (s.onSync now r et ot emHex omHex atScaled) := by
  unfold onSync
  by_cases hlive : s.live r = false
  · rw [if_pos hlive]
    exact Grows.refl s
  · rw [if_neg hlive]
    rw [Bool.not_eq_false] at hlive
    cases syncEvent (F := F) emHex omHex with
    | none => exact Grows.refl s
    | some d =>
        rcases d with ⟨de, pe, po⟩
        simp only []
        generalize (⟨pe.1, pe.2, _⟩ : Geodetic F) = geo
        have hnote : Grows s (s.noteAdsb de geo atScaled) := by
          refine Quiet.grows _ _ ?_
          constructor <;> first | rfl | constructor <;> rfl
        generalize s.noteAdsb de geo atScaled = noted at hnote ⊢
        have hjoin : Grows s (if noted.mlatAdsb = true then noted.onMlat now r et emHex atScaled
            else noted) := by
          split_ifs
          · exact hnote.trans (grows_onMlat noted now r et emHex atScaled)
          · exact hnote
        refine hjoin.trans (grows_joinSync _ now r _ _ _ ?_)
        rw [hjoin.live]
        exact hlive

omit [F64Fn F] in
/-- A solve of entries seen before. -/
theorem Grows.solved (s s' t : State F) (h : Grows s s') (es : List (Entry F))
    (hes : ∀ e ∈ es, s.Seen e.rx e.origin) (ht : Solved s' es t) : Grows s t where
  receivers := ht.frame.receivers.trans h.receivers
  gens := ht.frame.gens.trans h.gens
  alive := ht.frame.alive.trans h.alive
  resets := ht.frame.resets.trans h.resets
  reports i o hr :=
    h.reports i o ((reports_congr s' t ht.frame.syncpoints ht.frame.groups i o).mp hr)
  trained k o ho := h.trained k o (by rwa [ht.frame.trained] at ho)
  offsets i o ho := h.offers i o (ht.offsets i o ho)
  kept i hi := by
    rcases ht.kept i hi with ⟨hs, ho⟩
    exact ⟨(h.kept i hs).1, ho.trans (h.kept i hs).2⟩
  uses u hu := by
    rcases ht.uses u hu with hu | hu
    · exact h.uses u hu
    · right
      cases hu with
      | train k o ho =>
          rw [h.use]
          exact NewUse.train k o (h.trained k o ho)
      | convert e he =>
          rw [h.use]
          exact NewUse.convert _ _ (hes e he)
      | observe e he halive =>
          rw [h.use]
          exact NewUse.observe _ _ (hes e he) (by rwa [h.isAlive] at halive)
      | stamp i o ho =>
          rw [h.use]
          exact NewUse.stamp i o (h.offers i o ho)

omit [F64Fn F] in
/-- What stays pending was pending. -/
theorem grows_drop (s : State F) (sps : String × String → Option (SyncPoint F))
    (gs : String → Option (Group F)) (hsps : ∀ k sp, sps k = some sp → s.syncpoints k = some sp)
    (hgs : ∀ k g, gs k = some g → s.groups k = some g) :
    Grows s { s with syncpoints := sps, groups := gs } := by
  refine grows_pending s sps gs ?_
  rintro i o (⟨k, sp, rep, hk, hrep⟩ | ⟨k, g, e, hk, he⟩)
  · exact Or.inl (Or.inl ⟨k, sp, rep, hsps k sp hk, hrep⟩)
  · exact Or.inl (Or.inr ⟨k, g, e, hgs k g hk, he⟩)

theorem grows_sweep (solver : Solver F) (s : State F) (now window : Nat) (order : List String)
    (clock : String → Nat → F) : Grows s (s.sweep solver now window order clock) := by
  unfold sweep
  simp only []
  refine List.foldlRecOn _ _ (motive := fun s' => Grows s s') ?_ ?_
  · refine grows_drop s _ s.groups ?_ (fun _ _ h => h)
    exact fun k sp hk => (Option.filter_eq_some_iff.mp hk).1
  · intro s' h key _
    cases hkey : s'.groups key with
    | none => exact h
    | some g =>
        simp only []
        split_ifs
        · exact h
        · -- The group leaves the map before it is solved.
          refine Grows.solved s _ _ (h.trans (grows_drop s' s'.syncpoints _ (fun _ _ hk => hk) ?_))
            g.entries ?_ (solveGroup_solved solver _ _ g)
          · intro k g' hk
            by_cases hne : k = key
            · rw [hne, Function.update_self] at hk
              exact absurd hk (Option.some_ne_none g').symm
            · rwa [Function.update_of_ne hne] at hk
          · exact fun e he => h.seen _ _ (Or.inl (Or.inr ⟨key, g, e, hkey, he, rfl, rfl⟩))

theorem quiet_receiverStats (s : State F) (r : RxRef) : Quiet s (s.receiverStats r).1 := by
  unfold receiverStats
  split_ifs
  · exact Quiet.refl s
  · constructor <;> first | rfl | constructor <;> first | rfl | exact List.length_set

theorem grows_receiverStats (s : State F) (r : RxRef) : Grows s (s.receiverStats r).1 :=
  Quiet.grows _ _ (quiet_receiverStats s r)

/-- What connecting and disconnecting leave of the history. -/
structure Sheds (s s' : State F) : Prop where
  syncpoints : s'.syncpoints = s.syncpoints
  groups : s'.groups = s.groups
  resets : s'.resets = s.resets
  uses : s'.uses = s.uses
  trained : ∀ k, ∀ o ∈ s'.trained k, o ∈ s.trained k
  offsets : ∀ i o, s'.offsetOrigin i = some o → s.offsetOrigin i = some o
  kept : ∀ i, s'.stampOffset i = none → s.stampOffset i = none ∨ s'.offsetOrigin i = none

omit [F64Fn F] in
theorem Sheds.refl (s : State F) : Sheds s s :=
  ⟨rfl, rfl, rfl, rfl, fun _ _ h => h, fun _ _ h => h, fun _ h => Or.inl h⟩

omit [F64Fn F] in
/-- The pair models of other slots stay. -/
theorem dropPairs_trained (s : State F) (rx : Nat) (k : Nat × Nat) (o : Origin)
    (h : o ∈ (s.dropPairs rx).trained k) : (k.1 ≠ rx ∧ k.2 ≠ rx) ∧ o ∈ s.trained k := by
  simp only [dropPairs] at h
  by_cases hk : k.1 ≠ rx ∧ k.2 ≠ rx
  · rw [if_pos hk] at h
    exact ⟨hk, h⟩
  · rw [if_neg hk] at h
    exact absurd h List.not_mem_nil

theorem sheds_removeReceiver (s : State F) (r : RxRef) : Sheds s (s.removeReceiver r) := by
  unfold removeReceiver
  split_ifs
  · exact Sheds.refl s
  · refine ⟨rfl, rfl, rfl, rfl, ?_, ?_, ?_⟩
    · exact fun k o h => (s.dropPairs_trained r.idx k o h).2
    · intro i o h
      by_cases hi : i = r.idx
      · have hself : Function.update s.offsetOrigin r.idx none i = none := by
          rw [hi, Function.update_self]
        exact absurd (hself.symm.trans h) (Option.some_ne_none o).symm
      · have hother : Function.update s.offsetOrigin r.idx none i = s.offsetOrigin i :=
          Function.update_of_ne hi _ _
        exact hother.symm.trans h
    · intro i h
      by_cases hi : i = r.idx
      · right
        rw [hi]
        exact Function.update_self _ _ _
      · have hother : Function.update s.stampOffset r.idx none i = s.stampOffset i :=
          Function.update_of_ne hi _ _
        exact Or.inl (hother.symm.trans h)

/-- A connection takes over after the removal of one of the same user. -/
theorem addReceiver_eq (s : State F) (info : ReceiverInfo F) :
    ∃ t, (t = s ∨ ∃ old, s.byUser info.user = some old ∧
        t = s.removeReceiver ⟨old, s.genOf old⟩) ∧
      (s.addReceiver info).2 = ⟨(t.takeSlot info).2, (t.takeSlot info).1.genOf (t.takeSlot info).2⟩ ∧
      ∃ users reference, (s.addReceiver info).1 =
        { (t.takeSlot info).1 with byUser := users, reference := reference } := by
  unfold addReceiver
  cases hold : s.byUser info.user with
  | none => exact ⟨s, Or.inl rfl, rfl, _, _, rfl⟩
  | some old =>
      exact ⟨s.removeReceiver ⟨old, s.genOf old⟩, Or.inr ⟨old, rfl, rfl⟩, rfl, _, _, rfl⟩

theorem sheds_takeSlot (s : State F) (info : ReceiverInfo F) : Sheds s (s.takeSlot info).1 := by
  unfold takeSlot
  cases s.freeSlots with
  | nil => exact ⟨rfl, rfl, rfl, rfl, fun _ _ h => h, fun _ _ h => h, fun _ h => Or.inl h⟩
  | cons i free => exact ⟨rfl, rfl, rfl, rfl, fun _ _ h => h, fun _ _ h => h, fun _ h => Or.inl h⟩

omit [F64Fn F] in
theorem Sheds.trans (s t u : State F) (h : Sheds s t) (h' : Sheds t u) : Sheds s u where
  syncpoints := h'.syncpoints.trans h.syncpoints
  groups := h'.groups.trans h.groups
  resets := h'.resets.trans h.resets
  uses := h'.uses.trans h.uses
  trained k o ho := h.trained k o (h'.trained k o ho)
  offsets i o ho := h.offsets i o (h'.offsets i o ho)
  kept i hi := by
    rcases h'.kept i hi with ht | ht
    · rcases h.kept i ht with hs | hs
      · exact Or.inl hs
      · right
        cases ho : u.offsetOrigin i with
        | none => rfl
        | some o => exact absurd (hs.symm.trans (h'.offsets i o ho)) (Option.some_ne_none o).symm
    · exact Or.inr ht

theorem sheds_addReceiver (s : State F) (info : ReceiverInfo F) :
    Sheds s (s.addReceiver info).1 := by
  rcases s.addReceiver_eq info with ⟨t, ht, _, users, reference, heq⟩
  have hst : Sheds s t := by
    rcases ht with rfl | ⟨old, _, rfl⟩
    · exact Sheds.refl t
    · exact sheds_removeReceiver s _
  rw [heq]
  have htake := Sheds.trans s t _ hst (sheds_takeSlot t info)
  exact ⟨htake.1, htake.2, htake.3, htake.4, htake.5, htake.6, htake.7⟩

/-- A step adds, removes or resets a receiver, or grows the history. -/
theorem step_cases (solver : Solver F) (s : State F) (e : Event F) :
    (∃ info, e = .add info ∧ s.step solver e = (s.addReceiver info).1) ∨
      (∃ r, e = .remove r ∧ s.step solver e = s.removeReceiver r) ∨
      (∃ r, e = .reset r ∧ s.step solver e = s.clockReset r) ∨ Grows s (s.step solver e) := by
  by_cases hhung : s.hung = true
  · have hstep : s.step solver e = s := by
      unfold step
      rw [if_pos hhung]
    rw [hstep]
    exact Or.inr (Or.inr (Or.inr (Grows.refl s)))
  · unfold step
    rw [if_neg hhung]
    cases e with
    | add info => exact Or.inl ⟨info, rfl, rfl⟩
    | remove r => exact Or.inr (Or.inl ⟨r, rfl, rfl⟩)
    | reset r => exact Or.inr (Or.inr (Or.inl ⟨r, rfl, rfl⟩))
    | sync now r et ot emHex omHex atScaled =>
        exact Or.inr (Or.inr (Or.inr (grows_onSync s now r et ot emHex omHex atScaled)))
    | mlat now r tCounts mHex atScaled =>
        exact Or.inr (Or.inr (Or.inr (grows_onMlat s now r tCounts mHex atScaled)))
    | stats r => exact Or.inr (Or.inr (Or.inr (grows_receiverStats s r)))
    | sweep now window order clock =>
        exact Or.inr (Or.inr (Or.inr (grows_sweep solver s now window order clock)))

end State

end Server

end MlatBench
