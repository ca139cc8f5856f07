import MlatBench.Library.Runs
import MlatBench.Theory.State

/-!
# What Is Published

A call of `solveCluster` asks the solver if the last attempt for the aircraft is
long enough ago and four receivers are not too few, and publishes what it
answers if the error estimate, the rate and the speed pass. What is looked at is
the aircraft's `Track`, which DF17 groups share without publishing.

Each call leaves an `Attempt`: whether the solver was asked, whether its answer
was refused for its speed, and what was published. `Did` lists what a call can do
to the track of its aircraft, with all that was tested on the way.

Of the calls of the shard's loop only sweeps touch the tracks and the output, and
a sweep is calls of `solveCluster` one after another (`step_calls`).

## Main definitions

* `fixes`: What is published of the output.
* `Track.tooSoon`, `Track.tooFast`, `Track.refuses`: The gates on rate and speed.
* `State.question`, `State.answer`: What the solver is asked, and what it answers.
* `SolveCall`, `SolveCall.turn`: A call, and what is around it.
* `Attempt`, `attempts`: What the calls of a run did.
* `Did`: What a call does to the track of its aircraft.
* `Calls`: What runs of calls lead to.

## Theorems

* `solveCluster_unasked`, `solveCluster_asked`: When the solver matters.
* `accept_cases`: The outcomes of the gates.
* `turn_spec`: The outcomes of a call.
* `sweep_calls`, `step_calls`: What the shard's loop does.
-/

namespace MlatBench

namespace Server

open Library F64 F64Fn Modes

/-- The fixes among what goes to the output task. -/
def fixes {F : Type} (out : List (OutMsg F)) : List (OutRow F) :=
  out.filterMap fun
    | .fix row => some row
    | .selfTruth _ _ _ _ _ => none

theorem fixes_append {F : Type} (out out' : List (OutMsg F)) :
    fixes (out ++ out') = fixes out ++ fixes out' :=
  List.filterMap_append

section

variable {F : Type} [F64Fn F]

/-- The error estimate is too large for so short a silence. -/
def Track.tooSoon (t : Track F) (nowScaled err : F) : Prop :=
  t.lastPos.isSome = true ∧ (nowScaled - t.lastTimeScaled) / lit 20 < err / throttleScaleM

/-- The position implies an impossible speed. -/
def Track.tooFast (t : Track F) (nowScaled : F) (pos : Geodetic F) : Bool :=
  t.lastPos.any fun last => decide (nowScaled - t.lastTimeScaled < lit 30 ∧
    lit (5 / 100) < nowScaled - t.lastTimeScaled ∧
    lit 400 < pos.haversine last / (nowScaled - t.lastTimeScaled))

/-- A track after an impossible speed: the fifth forgets the position. -/
def Track.refused (t : Track F) (nowScaled : F) : Track F :=
  if 5 ≤ t.speedRejects + 1 then
    { t with lastAttemptScaled := nowScaled, lastPos := none, speedRejects := 0 }
  else { t with lastAttemptScaled := nowScaled, speedRejects := t.speedRejects + 1 }

/-- The gates refuse an answer for its speed. -/
def Track.refuses (t : Track F) (nowScaled : F) (sol : Solution F) : Prop :=
  ¬ maxErrM < sol.errEstM ∧ ¬ t.tooSoon nowScaled sol.errEstM ∧ t.tooFast nowScaled sol.pos = true

instance (t : Track F) (nowScaled err : F) : Decidable (t.tooSoon nowScaled err) :=
  inferInstanceAs (Decidable (_ ∧ _))

instance (t : Track F) (nowScaled : F) (sol : Solution F) : Decidable (t.refuses nowScaled sol) :=
  inferInstanceAs (Decidable (_ ∧ _))

namespace State

def trackOf (s : State F) (icao : Icao) : Track F :=
  (s.tracks icao).getD Track.default

/-- What the solver is asked at a call, if the call comes to that: the
    observations and the altitude. -/
def question (s : State F) (nowScaled : F) (icao : Icao) (cluster : List (Conv F)) :
    Option (List (Observed F) × Int) :=
  let obs := capObs (s.observe cluster)
  let track := s.trackOf icao
  if (s.observe cluster).length < 4 then none
  else if nowScaled - track.lastAttemptScaled < resolveBackoffS then none
  else if obs.length = 4 ∧ nowScaled - track.lastTimeScaled < lit 30 then none
  else (s.altsFt icao).map fun altFt => (obs, altFt)

/-- What it answers. -/
def answer (solver : Solver F) (s : State F) (nowScaled : F) (icao : Icao)
    (q : List (Observed F) × Int) : Option (Solution F) :=
  let altM := lit q.2 * lit (3048 / 10000)
  solver (q.1.map Observed.obs) altM
    (s.initialPos (s.trackOf icao) nowScaled altM (q.1.map Observed.user) q.1.length)

/-- What is asked is asked of the observations that were kept. -/
theorem question_kept (s : State F) (nowScaled : F) (icao : Icao) (cluster : List (Conv F))
    (q : List (Observed F) × Int) (h : s.question nowScaled icao cluster = some q) :
    q.1 = capObs (s.observe cluster) := by
  unfold question at h
  simp only [] at h
  split_ifs at h
  rcases Option.map_eq_some_iff.mp h with ⟨_, _, rfl⟩
  rfl

/-- The tracks and the output of two states are the same, but that a track may
    have been opened. -/
structure Still (s s' : State F) : Prop where
  tracks : ∀ icao, s'.trackOf icao = s.trackOf icao
  out : s'.out = s.out

theorem trackOf_congr (s s' : State F) (h : s'.tracks = s.tracks) (icao : Icao) :
    s'.trackOf icao = s.trackOf icao := by
  rw [trackOf, trackOf, h]

theorem trackOf_update (s s' : State F) (icao : Icao) (t : Track F)
    (h : s'.tracks = Function.update s.tracks icao (some t)) (icao' : Icao) :
    s'.trackOf icao' = if icao' = icao then t else s.trackOf icao' := by
  rw [trackOf, h]
  by_cases hicao : icao' = icao
  · rw [hicao, if_pos rfl, Function.update_self, Option.getD_some]
  · rw [if_neg hicao, Function.update_of_ne hicao, trackOf]

theorem trackOf_setTrack (s : State F) (icao icao' : Icao) (t : Track F) :
    (s.setTrack icao t).trackOf icao' = if icao' = icao then t else s.trackOf icao' :=
  trackOf_update s (s.setTrack icao t) icao t rfl icao'

/-- A track that is opened is the one that is read. -/
theorem still_open (s : State F) (icao : Icao) : Still s (s.setTrack icao (s.trackOf icao)) := by
  refine ⟨?_, rfl⟩
  intro icao'
  rw [trackOf_setTrack]
  by_cases h : icao' = icao
  · rw [if_pos h, h]
  · rw [if_neg h]

/-- A call in its parts: what comes before the gates does not depend on the
    solver and leaves the tracks and the output. -/
theorem solveCluster_parts (s : State F) (nowScaled : F) (icao : Icao) (df17 : Bool) (ref : Nat)
    (cluster : List (Conv F)) :
    ∃ (p : State F) (stamp : F), Still s p ∧ p.altsFt = s.altsFt ∧ p.receivers = s.receivers ∧
      p.rxBias = s.rxBias ∧ ∀ solver : Solver F,
        s.solveCluster solver nowScaled icao df17 ref cluster =
        if (s.observe cluster).length < 4 then s.withObserved cluster
        else if nowScaled - (s.trackOf icao).lastAttemptScaled < resolveBackoffS then p
        else if (capObs (s.observe cluster)).length = 4 ∧
            nowScaled - (s.trackOf icao).lastTimeScaled < lit 30 then p.reject
        else p.attempt solver nowScaled stamp icao df17 (s.trackOf icao)
          (capObs (s.observe cluster)) := by
  cases hobs : s.observe cluster with
  | nil =>
      refine ⟨s, nowScaled, ⟨fun _ => rfl, rfl⟩, rfl, rfl, rfl, fun solver => ?_⟩
      have hfew : ([] : List (Observed F)).length < 4 := Nat.zero_lt_succ 3
      unfold solveCluster
      rw [hobs, if_pos hfew]
  | cons first rest =>
      let before := s.withObserved cluster
      let tMin := least first.obs.tS (rest.map fun o => o.obs.tS)
      let off := nextOffset (before.stampOffset ref)
        (least first.atScaled (rest.map Observed.atScaled) - tMin)
      refine ⟨(before.withOffset ref off).setTrack icao (s.trackOf icao), tMin + off,
        ⟨(still_open s icao).tracks, rfl⟩, rfl, rfl, rfl, fun solver => ?_⟩
      unfold solveCluster
      rw [hobs]
      rfl

/-- Without a question the solver does not matter, and nothing is remembered or
    published. -/
theorem solveCluster_unasked (solver : Solver F) (s : State F) (nowScaled : F) (icao : Icao)
    (df17 : Bool) (ref : Nat) (cluster : List (Conv F))
    (h : s.question nowScaled icao cluster = none) :
    Still s (s.solveCluster solver nowScaled icao df17 ref cluster) ∧
      (s.solveCluster solver nowScaled icao df17 ref cluster).rxBias = s.rxBias ∧
      ∀ other : Solver F, s.solveCluster other nowScaled icao df17 ref cluster =
        s.solveCluster solver nowScaled icao df17 ref cluster := by
  rcases solveCluster_parts s nowScaled icao df17 ref cluster with
    ⟨p, stamp, hstill, halts, _, hbias, heq⟩
  rw [heq solver]
  simp only [heq]
  unfold question at h
  by_cases hlen : (s.observe cluster).length < 4
  · simp only [if_pos hlen]
    exact ⟨⟨fun _ => rfl, rfl⟩, rfl, fun _ => trivial⟩
  · simp only [if_neg hlen] at h ⊢
    by_cases hback : nowScaled - (s.trackOf icao).lastAttemptScaled < resolveBackoffS
    · simp only [if_pos hback]
      exact ⟨hstill, hbias, fun _ => trivial⟩
    · simp only [if_neg hback] at h ⊢
      by_cases hfour : (capObs (s.observe cluster)).length = 4 ∧
          nowScaled - (s.trackOf icao).lastTimeScaled < lit 30
      · simp only [if_pos hfour]
        exact ⟨⟨hstill.tracks, hstill.out⟩, hbias, fun _ => trivial⟩
      · simp only [if_neg hfour, Option.map_eq_none_iff] at h ⊢
        have hattempt : ∀ solver : Solver F, p.attempt solver nowScaled stamp icao df17
            (s.trackOf icao) (capObs (s.observe cluster)) = p := by
          intro solver
          unfold attempt
          rw [halts, h]
        simp only [hattempt]
        exact ⟨hstill, hbias, fun _ => trivial⟩

theorem length_capObs (obs : List (Observed F)) : (capObs obs).length ≤ 16 := by
  unfold capObs
  by_cases hfew : obs.length ≤ 16
  · rw [if_pos hfew]
    exact hfew
  · rw [if_neg hfew]
    refine (List.length_filterMap_le _ _).trans ?_
    rw [List.length_insertionSort, List.length_take]
    exact Nat.min_le_left 16 _

/-- With a question the gates before it are passed, and its answer decides. -/
theorem solveCluster_asked (s : State F) (nowScaled : F) (icao : Icao) (df17 : Bool) (ref : Nat)
    (cluster : List (Conv F)) (q : List (Observed F) × Int)
    (h : s.question nowScaled icao cluster = some q) :
    q.1.length ≤ 16 ∧ ¬ nowScaled - (s.trackOf icao).lastAttemptScaled < resolveBackoffS ∧
      ¬ (q.1.length = 4 ∧ nowScaled - (s.trackOf icao).lastTimeScaled < lit 30) ∧
      ∃ (p : State F) (stamp : F), p.out = s.out ∧ p.rxBias = s.rxBias ∧
        (∀ icao', p.trackOf icao' = if icao' = icao then
          { s.trackOf icao with lastAttemptScaled := nowScaled } else s.trackOf icao') ∧
        ∀ solver : Solver F, s.solveCluster solver nowScaled icao df17 ref cluster =
          match s.answer solver nowScaled icao q with
          | none => p.reject
          | some sol => p.accept nowScaled stamp icao df17 (s.trackOf icao) q.2 q.1 sol := by
  rcases solveCluster_parts s nowScaled icao df17 ref cluster with
    ⟨p, stamp, hstill, halts, hreceivers, hbias, heq⟩
  unfold question at h
  by_cases hlen : (s.observe cluster).length < 4
  · simp only [if_pos hlen] at h
    exact absurd h (by simp only [reduceCtorEq, not_false_eq_true])
  · simp only [if_neg hlen] at h heq
    by_cases hback : nowScaled - (s.trackOf icao).lastAttemptScaled < resolveBackoffS
    · simp only [if_pos hback] at h
      exact absurd h (by simp only [reduceCtorEq, not_false_eq_true])
    · simp only [if_neg hback] at h heq
      by_cases hfour : (capObs (s.observe cluster)).length = 4 ∧
          nowScaled - (s.trackOf icao).lastTimeScaled < lit 30
      · simp only [if_pos hfour] at h
        exact absurd h (by simp only [reduceCtorEq, not_false_eq_true])
      · simp only [if_neg hfour] at h heq
        rcases Option.map_eq_some_iff.mp h with ⟨altFt, haltFt, rfl⟩
        refine ⟨length_capObs _, hback, hfour,
          p.setTrack icao { s.trackOf icao with lastAttemptScaled := nowScaled }, stamp,
          hstill.out, hbias, ?_, ?_⟩
        · intro icao'
          rw [trackOf_setTrack, hstill.tracks]
        · intro solver
          rw [heq, attempt, halts, haltFt]
          unfold answer initialPos
          simp only []
          rw [← hreceivers]
          rfl

theorem learn_still (s : State F) (scatter : Bool) (rxIds : List Nat) (sol : Solution F) :
    (s.learn scatter rxIds sol).tracks = s.tracks ∧ (s.learn scatter rxIds sol).out = s.out ∧
      (s.learn scatter rxIds sol).shardId = s.shardId := by
  unfold learn
  split_ifs <;> exact ⟨rfl, rfl, rfl⟩

theorem selfTruth_still (s : State F) (nowScaled stamp : F) (icao : Icao) (sol : Solution F)
    (n : Nat) : (s.selfTruth nowScaled stamp icao sol n).tracks = s.tracks ∧
      fixes (s.selfTruth nowScaled stamp icao sol n).out = fixes s.out := by
  unfold selfTruth
  cases s.adsbPos icao with
  | none => exact ⟨rfl, rfl⟩
  | some claim =>
      simp only []
      split_ifs
      · refine ⟨rfl, ?_⟩
        rw [fixes_append]
        exact List.append_nil _
      · exact ⟨rfl, rfl⟩

/-- What is published of a solution. -/
def rowOf (shard : Nat) (stamp : F) (icao : Icao) (altFt : Int) (sol : Solution F)
    (users : List String) (n : Nat) (filtered : Option (Geodetic F)) : OutRow F :=
  { shard := shard, pos := sol.pos, icao := icao, stamp := stamp, altFt := altFt
    errM := sol.errEstM, n := n, users := users, filtered := filtered }

theorem publish_spec (s : State F) (stamp : F) (icao : Icao) (altFt : Int) (sol : Solution F)
    (users : List String) (n : Nat) :
    (s.publish stamp icao altFt sol users n).tracks = s.tracks ∧
      ∃ filtered, (s.publish stamp icao altFt sol users n).out =
        s.out ++ [.fix (rowOf s.shardId stamp icao altFt sol users n filtered)] :=
  ⟨rfl, _, rfl⟩

/-- The outcomes of the gates: the answer is dropped or taken for training only,
    it is refused for its speed, or it is published. -/
theorem accept_cases (p : State F) (nowScaled stamp : F) (icao : Icao) (df17 : Bool)
    (track : Track F) (altFt : Int) (obs : List (Observed F)) (sol : Solution F) :
    (¬ track.refuses nowScaled sol ∧
        (p.accept nowScaled stamp icao df17 track altFt obs sol).tracks = p.tracks ∧
        fixes (p.accept nowScaled stamp icao df17 track altFt obs sol).out = fixes p.out) ∨
      (track.refuses nowScaled sol ∧
        (p.accept nowScaled stamp icao df17 track altFt obs sol).tracks =
          Function.update p.tracks icao (some (track.refused nowScaled)) ∧
        (p.accept nowScaled stamp icao df17 track altFt obs sol).out = p.out) ∨
      (¬ track.refuses nowScaled sol ∧ ¬ maxErrM < sol.errEstM ∧
        ¬ track.tooSoon nowScaled sol.errEstM ∧ track.tooFast nowScaled sol.pos = false ∧
        (p.accept nowScaled stamp icao df17 track altFt obs sol).tracks =
          Function.update p.tracks icao (some ⟨some sol.pos, nowScaled, nowScaled, 0⟩) ∧
        ∃ filtered, (p.accept nowScaled stamp icao df17 track altFt obs sol).out = p.out ++
          [.fix (rowOf p.shardId stamp icao altFt sol (obs.map Observed.user) obs.length
            filtered)]) := by
  have hsoon : (track.lastPos.isSome = true ∧ (nowScaled - track.lastTimeScaled) / lit 20 <
      sol.errEstM / throttleScaleM) ↔ track.tooSoon nowScaled sol.errEstM := Iff.rfl
  unfold accept
  simp only [hsoon]
  by_cases hwide : maxErrM < sol.errEstM
  · rw [if_pos hwide]
    exact Or.inl ⟨fun h => h.1 hwide, rfl, rfl⟩
  · rw [if_neg hwide]
    by_cases hso : track.tooSoon nowScaled sol.errEstM
    · rw [if_pos hso]
      exact Or.inl ⟨fun h => h.2.1 hso, rfl, rfl⟩
    · rw [if_neg hso]
      by_cases hfast : track.tooFast nowScaled sol.pos = true
      · right
        left
        unfold Track.tooFast at hfast
        rw [if_pos hfast]
        refine ⟨⟨hwide, hso, hfast⟩, ?_, rfl⟩
        unfold Track.refused
        split_ifs <;> rfl
      · have hnot : ¬ track.refuses nowScaled sol := fun h => hfast h.2.2
        have hslow := Bool.eq_false_of_not_eq_true hfast
        unfold Track.tooFast at hfast
        rw [if_neg hfast]
        cases df17 with
        | true =>
            left
            rw [if_pos rfl, if_neg hwide]
            have htruth := selfTruth_still (p.learn false (obs.map Observed.rx) sol) nowScaled stamp
              icao sol obs.length
            have hlearn := learn_still p false (obs.map Observed.rx) sol
            exact ⟨hnot, htruth.1.trans hlearn.1, htruth.2.trans (congrArg fixes hlearn.2.1)⟩
        | false =>
            right
            right
            rw [if_neg Bool.false_ne_true]
            have hlearn := learn_still ({ p with statsSolved := p.statsSolved + 1 } : State F) true
              (obs.map Observed.rx) sol
            refine ⟨hnot, hwide, hso, hslow, ?_, ?_⟩
            · exact congrArg (fun ts => Function.update ts icao
                (some ⟨some sol.pos, nowScaled, nowScaled, 0⟩)) hlearn.1
            · rcases publish_spec (State.setTrack _ icao _) stamp icao altFt sol
                (obs.map Observed.user) obs.length with ⟨_, filtered, hout⟩
              refine ⟨filtered, hout.trans ?_⟩
              exact congrArg₂ (fun out shard => out ++ [OutMsg.fix (rowOf shard stamp icao altFt sol
                (obs.map Observed.user) obs.length filtered)]) hlearn.2.1 hlearn.2.2

end State

/-- A call of `solveCluster`, with all of the state but the tracks and the
    output. -/
structure SolveCall (F : Type) where
  env : State F
  nowScaled : F
  icao : Icao
  df17 : Bool
  ref : Nat
  cluster : List (Conv F)

/-- What a call did. -/
structure Attempt (F : Type) where
  nowScaled : F
  icao : Icao
  -- The solver was asked.
  asked : Bool
  -- Its answer was refused for its speed.
  refused : Bool
  fixes : List (OutRow F)

namespace SolveCall

/-- The state a call meets: what the calls before left of the tracks and the
    output, and anything else. -/
def enter (c : SolveCall F) (s : State F) : State F :=
  { c.env with tracks := s.tracks, out := s.out }

def turn (solver : Solver F) (s : State F) (c : SolveCall F) : State F :=
  (c.enter s).solveCluster solver c.nowScaled c.icao c.df17 c.ref c.cluster

/-- The solver's answer at a call is refused for its speed. -/
def refused (solver : Solver F) (s : State F) (c : SolveCall F) : Bool :=
  ((c.enter s).question c.nowScaled c.icao c.cluster).any fun q =>
    ((c.enter s).answer solver c.nowScaled c.icao q).any fun sol =>
      (s.trackOf c.icao).refuses c.nowScaled sol

def attempt (solver : Solver F) (s : State F) (c : SolveCall F) : Attempt F :=
  { nowScaled := c.nowScaled, icao := c.icao
    asked := ((c.enter s).question c.nowScaled c.icao c.cluster).isSome
    refused := c.refused solver s
    fixes := (Server.fixes (turn solver s c).out).drop (Server.fixes s.out).length }

end SolveCall

/-- What the calls of a run did. -/
def attempts (solver : Solver F) : State F → List (SolveCall F) → List (Attempt F)
  | _, [] => []
  | s, c :: cs => c.attempt solver s :: attempts solver (SolveCall.turn solver s c) cs

/-- What a call did to the aircraft's track. -/
inductive Did (t : Track F) (a : Attempt F) : Track F → Prop where
  /-- The solver was not asked. -/
  | nothing (hasked : a.asked = false) (hrefused : a.refused = false) (hfixes : a.fixes = []) :
      Did t a t
  /-- It was asked, and nothing came of it. -/
  | dropped (hasked : a.asked = true)
      (hback : ¬ a.nowScaled - t.lastAttemptScaled < resolveBackoffS)
      (hrefused : a.refused = false) (hfixes : a.fixes = []) :
      Did t a { t with lastAttemptScaled := a.nowScaled }
  /-- Its answer was refused for its speed. -/
  | refused (hasked : a.asked = true)
      (hback : ¬ a.nowScaled - t.lastAttemptScaled < resolveBackoffS)
      (hrefused : a.refused = true) (hfixes : a.fixes = []) : Did t a (t.refused a.nowScaled)
  /-- Its answer was published. -/
  | published (row : OutRow F) (hown : row.icao = a.icao) (hcount : row.n ≤ 16)
      (hasked : a.asked = true)
      (hback : ¬ a.nowScaled - t.lastAttemptScaled < resolveBackoffS)
      (hrefused : a.refused = false) (hfixes : a.fixes = [row])
      (hfour : ¬ (row.n = 4 ∧ a.nowScaled - t.lastTimeScaled < lit 30))
      (hwide : ¬ maxErrM < row.errM) (hsoon : ¬ t.tooSoon a.nowScaled row.errM)
      (hfast : t.tooFast a.nowScaled row.pos = false) :
      Did t a ⟨some row.pos, a.nowScaled, a.nowScaled, 0⟩

theorem Did.back (t t' : Track F) (a : Attempt F) (h : Did t a t') (hasked : a.asked = true) :
    ¬ a.nowScaled - t.lastAttemptScaled < resolveBackoffS := by
  cases h with
  | nothing hno _ _ =>
      rw [hasked] at hno
      exact absurd hno (by simp only [Bool.true_eq_false, not_false_eq_true])
  | dropped _ hback _ _ => exact hback
  | refused _ hback _ _ => exact hback
  | published _ _ _ _ hback _ _ _ _ _ _ => exact hback

/-- What was tested of a fix. -/
theorem Did.row (t t' : Track F) (a : Attempt F) (h : Did t a t') (row : OutRow F)
    (hrow : row ∈ a.fixes) : (row.icao = a.icao ∧ row.n ≤ 16) ∧ ¬ maxErrM < row.errM ∧
      ¬ (row.n = 4 ∧ a.nowScaled - t.lastTimeScaled < lit 30) ∧
      ¬ t.tooSoon a.nowScaled row.errM ∧ t.tooFast a.nowScaled row.pos = false := by
  cases h with
  | nothing _ _ hfixes =>
      rw [hfixes] at hrow
      exact absurd hrow List.not_mem_nil
  | dropped _ _ _ hfixes =>
      rw [hfixes] at hrow
      exact absurd hrow List.not_mem_nil
  | refused _ _ _ hfixes =>
      rw [hfixes] at hrow
      exact absurd hrow List.not_mem_nil
  | published row' hown hcount _ _ _ hfixes hfour hwide hsoon hfast =>
      rw [hfixes, List.mem_singleton] at hrow
      rw [hrow]
      exact ⟨⟨hown, hcount⟩, hwide, hfour, hsoon, hfast⟩

/-- A track knows when the solver was asked last. -/
theorem Did.attempted (t t' : Track F) (a : Attempt F) (h : Did t a t') :
    t'.lastAttemptScaled = if a.asked = true then a.nowScaled else t.lastAttemptScaled := by
  cases h with
  | nothing hno _ _ =>
      rw [hno]
      rfl
  | dropped hasked _ _ _ => rw [if_pos hasked]
  | refused hasked _ _ _ =>
      rw [if_pos hasked]
      unfold Track.refused
      split_ifs <;> rfl
  | published _ _ _ hasked _ _ _ _ _ _ _ => rw [if_pos hasked]

/-- A fix is where the track was last. -/
theorem Did.fixed (t t' : Track F) (a : Attempt F) (h : Did t a t') (row : OutRow F)
    (hrow : row ∈ a.fixes) :
    t'.lastTimeScaled = a.nowScaled ∧ t'.lastPos = some row.pos ∧ t'.speedRejects = 0 := by
  cases h with
  | nothing _ _ hfixes => rw [hfixes] at hrow; exact absurd hrow List.not_mem_nil
  | dropped _ _ _ hfixes => rw [hfixes] at hrow; exact absurd hrow List.not_mem_nil
  | refused _ _ _ hfixes => rw [hfixes] at hrow; exact absurd hrow List.not_mem_nil
  | published _ _ _ _ _ _ hfixes _ _ _ _ =>
      rw [hfixes, List.mem_singleton] at hrow
      rw [hrow]
      exact ⟨rfl, rfl, rfl⟩

/-- Without a fix the last one stands, unless this was the fifth refusal. -/
theorem Did.unfixed (t t' : Track F) (a : Attempt F) (h : Did t a t') (hno : a.fixes = [])
    (n : Nat) (hn : n = t.speedRejects + if a.refused = true then 1 else 0) :
    t'.lastTimeScaled = t.lastTimeScaled ∧
      (n < 5 → t'.lastPos = t.lastPos ∧ t'.speedRejects = n) := by
  cases h with
  | nothing _ hrefused _ =>
      rw [hrefused] at hn
      exact ⟨rfl, fun _ => ⟨rfl, hn.symm⟩⟩
  | dropped _ _ hrefused _ =>
      rw [hrefused] at hn
      exact ⟨rfl, fun _ => ⟨rfl, hn.symm⟩⟩
  | refused _ _ hrefused _ =>
      rw [if_pos hrefused] at hn
      unfold Track.refused
      refine ⟨?_, fun hfew => ?_⟩
      · split_ifs <;> rfl
      · rw [← hn, if_neg (Nat.not_le.mpr hfew)]
        exact ⟨rfl, rfl⟩
  | published row _ _ _ _ _ hfixes _ _ _ _ =>
      rw [hfixes] at hno
      exact absurd hno (List.cons_ne_nil row [])

/-- A call that publishes nothing moves the track of its aircraft at most. -/
theorem turn_unfixed (solver : Solver F) (s : State F) (c : SolveCall F)
    (hout : fixes (SolveCall.turn solver s c).out = fixes s.out)
    (hother : ∀ icao, icao ≠ c.icao → (SolveCall.turn solver s c).trackOf icao = s.trackOf icao)
    (hdid : (c.attempt solver s).fixes = [] →
      Did (s.trackOf c.icao) (c.attempt solver s) ((SolveCall.turn solver s c).trackOf c.icao)) :
    (∀ icao, icao ≠ c.icao → (SolveCall.turn solver s c).trackOf icao = s.trackOf icao) ∧
      Did (s.trackOf c.icao) (c.attempt solver s) ((SolveCall.turn solver s c).trackOf c.icao) ∧
      fixes (SolveCall.turn solver s c).out = fixes s.out ++ (c.attempt solver s).fixes := by
  have hnew : (c.attempt solver s).fixes = [] := by
    change (fixes (SolveCall.turn solver s c).out).drop (fixes s.out).length = []
    rw [hout, List.drop_length]
  refine ⟨hother, hdid hnew, ?_⟩
  rw [hnew, hout, List.append_nil]

/-- A call moves the track of its aircraft and no other, and appends what it
    publishes. -/
theorem turn_spec (solver : Solver F) (s : State F) (c : SolveCall F) :
    (∀ icao, icao ≠ c.icao → (SolveCall.turn solver s c).trackOf icao = s.trackOf icao) ∧
      Did (s.trackOf c.icao) (c.attempt solver s) ((SolveCall.turn solver s c).trackOf c.icao) ∧
      fixes (SolveCall.turn solver s c).out = fixes s.out ++ (c.attempt solver s).fixes := by
  have hrefused : (c.attempt solver s).refused = c.refused solver s := rfl
  unfold SolveCall.refused at hrefused
  cases hq : (c.enter s).question c.nowScaled c.icao c.cluster with
  | none =>
      rw [hq, Option.any_none] at hrefused
      have hasked : (c.attempt solver s).asked = false := by
        simp only [SolveCall.attempt, hq, Option.isSome_none]
      have hstill := ((c.enter s).solveCluster_unasked solver c.nowScaled c.icao c.df17 c.ref
        c.cluster hq).1
      have htrack : (SolveCall.turn solver s c).trackOf c.icao = s.trackOf c.icao :=
        hstill.tracks c.icao
      refine turn_unfixed solver s c (congrArg fixes hstill.out) (fun icao _ => hstill.tracks icao)
        fun hnew => ?_
      rw [htrack]
      exact Did.nothing hasked hrefused hnew
  | some q =>
      rw [hq, Option.any_some] at hrefused
      have hasked : (c.attempt solver s).asked = true := by
        simp only [SolveCall.attempt, hq, Option.isSome_some]
      rcases (c.enter s).solveCluster_asked c.nowScaled c.icao c.df17 c.ref c.cluster q hq with
        ⟨hcount, hback, hfour, p, stamp, hpout, _, hptracks, heq⟩
      have hturn : SolveCall.turn solver s c = _ := heq solver
      have hother : ∀ icao, icao ≠ c.icao → p.trackOf icao = s.trackOf icao := fun icao hicao =>
        (hptracks icao).trans (if_neg hicao)
      have hself : p.trackOf c.icao = { s.trackOf c.icao with lastAttemptScaled := c.nowScaled } :=
        (hptracks c.icao).trans (if_pos rfl)
      have hfixes : fixes p.out = fixes s.out := congrArg fixes hpout
      cases hans : (c.enter s).answer solver c.nowScaled c.icao q with
      | none =>
          rw [hans] at hturn hrefused
          have htracks := State.trackOf_congr p (SolveCall.turn solver s c) (by rw [hturn]; rfl)
          refine turn_unfixed solver s c (by rw [hturn]; exact hfixes)
            (fun icao hicao => (htracks icao).trans (hother icao hicao)) fun hnew => ?_
          rw [htracks, hself]
          exact Did.dropped hasked hback hrefused hnew
      | some sol =>
          rw [hans] at hturn hrefused
          rw [Option.any_some] at hrefused
          rcases State.accept_cases p c.nowScaled stamp c.icao c.df17 (s.trackOf c.icao) q.2 q.1
            sol with
            ⟨hnot, htr, hout⟩ | ⟨hyes, htr, hout⟩ | ⟨hnot, hwide, hsoon, hslow, htr, filtered, hout⟩
          · have htracks := State.trackOf_congr p (SolveCall.turn solver s c)
              (by rw [hturn]; exact htr)
            refine turn_unfixed solver s c (by rw [hturn]; exact hout.trans hfixes)
              (fun icao hicao => (htracks icao).trans (hother icao hicao)) fun hnew => ?_
            rw [htracks, hself]
            exact Did.dropped hasked hback (hrefused.trans (decide_eq_false hnot)) hnew
          · have htracks := State.trackOf_update p (SolveCall.turn solver s c) c.icao _
              (by rw [hturn]; exact htr)
            refine turn_unfixed solver s c
              (by rw [hturn]; exact (congrArg fixes hout).trans hfixes) (fun icao hicao => ?_)
              fun hnew => ?_
            · rw [htracks, if_neg hicao, hother icao hicao]
            · rw [htracks, if_pos rfl]
              exact Did.refused hasked hback (hrefused.trans (decide_eq_true hyes)) hnew
          · -- The one row is new.
            have hout : fixes (SolveCall.turn solver s c).out = fixes s.out ++
                [State.rowOf p.shardId stamp c.icao q.2 sol (q.1.map Observed.user) q.1.length
                  filtered] := by
              rw [hturn]
              refine (congrArg fixes hout).trans ?_
              rw [fixes_append, hfixes]
              rfl
            have hnew : (c.attempt solver s).fixes =
                (fixes (SolveCall.turn solver s c).out).drop (fixes s.out).length := rfl
            rw [hout, List.drop_left] at hnew
            have htracks := State.trackOf_update p (SolveCall.turn solver s c) c.icao _
              (by rw [hturn]; exact htr)
            refine ⟨fun icao hicao => ?_, ?_, ?_⟩
            · rw [htracks, if_neg hicao, hother icao hicao]
            · rw [htracks, if_pos rfl]
              exact Did.published _ rfl hcount hasked hback (hrefused.trans (decide_eq_false hnot))
                hnew hfour hwide hsoon hslow
            · rw [hnew, hout]

/-- Two states have the same tracks and output. -/
structure Aside (s s' : State F) : Prop where
  tracks : s'.tracks = s.tracks
  out : s'.out = s.out

theorem Aside.trans {G : Type} (s t u : State G) (h : Aside s t) (h' : Aside t u) : Aside s u :=
  ⟨h'.tracks.trans h.tracks, h'.out.trans h.out⟩

theorem turn_aside (solver : Solver F) (s t : State F) (h : Aside s t) (c : SolveCall F) :
    SolveCall.turn solver t c = SolveCall.turn solver s c := by
  unfold SolveCall.turn SolveCall.enter
  rw [h.tracks, h.out]

theorem exec_aside (solver : Solver F) (s t : State F) (h : Aside s t) (cs : List (SolveCall F)) :
    Aside (exec (SolveCall.turn solver) s cs) (exec (SolveCall.turn solver) t cs) := by
  cases cs with
  | nil => exact h
  | cons c cs =>
      rw [exec_cons, exec_cons, turn_aside solver s t h c]
      exact ⟨rfl, rfl⟩

/-- The tracks and the output of the second state are what calls make of those
    of the first. -/
def Calls (solver : Solver F) (P : SolveCall F → Prop) (s s' : State F) : Prop :=
  ∃ cs, (∀ c ∈ cs, P c) ∧ Aside (exec (SolveCall.turn solver) s cs) s'

theorem Aside.calls (solver : Solver F) (P : SolveCall F → Prop) (s s' : State F)
    (h : Aside s s') : Calls solver P s s' :=
  ⟨[], fun _ hc => absurd hc List.not_mem_nil, h⟩

theorem Calls.trans (solver : Solver F) (P : SolveCall F → Prop) (s t u : State F)
    (h : Calls solver P s t) (h' : Calls solver P t u) : Calls solver P s u := by
  rcases h with ⟨cs, hcs, hst⟩
  rcases h' with ⟨ds, hds, htu⟩
  refine ⟨cs ++ ds, ?_, ?_⟩
  · intro c hc
    exact (List.mem_append.mp hc).elim (hcs c) (hds c)
  · rw [exec_append]
    exact Aside.trans _ _ _ (exec_aside solver _ _ hst ds) htu

/-- What calls publish is of the aircraft of one of them, from sixteen receivers
    at most. -/
theorem Calls.fixes (solver : Solver F) (P : SolveCall F → Prop) (s s' : State F)
    (h : Calls solver P s s') (row : OutRow F) (hrow : row ∈ fixes s'.out) :
    row ∈ fixes s.out ∨ ∃ c, P c ∧ row.icao = c.icao ∧ row.n ≤ 16 := by
  rcases h with ⟨cs, hcs, haside⟩
  rw [haside.out] at hrow
  clear haside
  induction cs using List.reverseRecOn with
  | nil => exact Or.inl hrow
  | append_singleton cs c ih =>
      rw [exec_append, exec_cons, exec_nil] at hrow
      rcases turn_spec solver (exec (SolveCall.turn solver) s cs) c with ⟨_, hdid, hout⟩
      rw [hout, List.mem_append] at hrow
      rcases hrow with hrow | hrow
      · exact ih hrow fun d hd => hcs d (List.mem_append_left _ hd)
      · exact Or.inr ⟨c, hcs c (List.mem_append_right _ List.mem_cons_self),
          (hdid.row _ _ _ row hrow).1⟩

namespace State

theorem removeReceiver_aside (s : State F) (r : RxRef) : Aside s (s.removeReceiver r) := by
  unfold removeReceiver
  split_ifs <;> exact ⟨rfl, rfl⟩

theorem addReceiver_aside (s : State F) (info : ReceiverInfo F) :
    Aside s (s.addReceiver info).1 := by
  rcases s.addReceiver_eq info with ⟨t, ht, _, users, reference, heq⟩
  have hst : Aside s t := by
    rcases ht with rfl | ⟨old, _, rfl⟩
    · exact ⟨rfl, rfl⟩
    · exact removeReceiver_aside s _
  have htake : Aside t (t.takeSlot info).1 := by
    unfold takeSlot
    cases t.freeSlots <;> exact ⟨rfl, rfl⟩
  rw [heq]
  have hadded := Aside.trans s t _ hst htake
  exact ⟨hadded.tracks, hadded.out⟩

theorem clockReset_aside {G : Type} (s : State G) (r : RxRef) : Aside s (s.clockReset r) := by
  unfold clockReset
  split_ifs <;> exact ⟨rfl, rfl⟩

theorem receiverStats_aside (s : State F) (r : RxRef) : Aside s (s.receiverStats r).1 := by
  unfold receiverStats
  split_ifs <;> exact ⟨rfl, rfl⟩

theorem onMlat_aside (s : State F) (now : Nat) (r : RxRef) (tCounts : F) (mHex : String)
    (atScaled : F) : Aside s (s.onMlat now r tCounts mHex atScaled) := by
  rcases s.onMlat_cases now r tCounts mHex atScaled with heq | ⟨_, alts, g, _, heq⟩ <;> rw [heq] <;>
    exact ⟨rfl, rfl⟩

theorem trainWith_aside (s : State F) (me other : Reporter F) :
    Aside s (s.trainWith me other) := by
  unfold trainWith
  split_ifs <;> exact ⟨rfl, rfl⟩

theorem joinSync_aside (s : State F) (now : Nat) (r : RxRef) (te tO : F) (key : String × String) :
    Aside s (s.joinSync now r te tO key) := by
  unfold joinSync
  simp only []
  split_ifs
  · exact ⟨rfl, rfl⟩
  · refine List.foldlRecOn _ _ (motive := fun s' => Aside s s') ⟨rfl, rfl⟩ ?_
    exact fun s' h other _ => Aside.trans s s' _ h (trainWith_aside s' _ other)

theorem onSync_aside (s : State F) (now : Nat) (r : RxRef) (et ot : F) (emHex omHex : String)
    (atScaled : F) : Aside s (s.onSync now r et ot emHex omHex atScaled) := by
  unfold onSync
  by_cases hlive : s.live r = false
  · rw [if_pos hlive]
    exact ⟨rfl, rfl⟩
  · rw [if_neg hlive]
    cases syncEvent (F := F) emHex omHex with
    | none => exact ⟨rfl, rfl⟩
    | some d =>
        rcases d with ⟨de, pe, po⟩
        simp only []
        generalize (⟨pe.1, pe.2, _⟩ : Geodetic F) = geo
        have hnote : Aside s (s.noteAdsb de geo atScaled) := ⟨rfl, rfl⟩
        refine Aside.trans s _ _ ?_ (joinSync_aside _ now r _ _ _)
        split_ifs
        · exact Aside.trans s _ _ hnote (onMlat_aside _ now r et emHex atScaled)
        · exact hnote

/-- The clusters of a group are calls. -/
theorem solveClusters_calls (solver : Solver F) (P : SolveCall F → Prop) (s : State F)
    (clock : Nat → F) (icao : Icao) (df17 : Bool) (ref : Nat) (cs : List (List (Conv F) × Nat))
    (hP : ∀ env i cluster, P ⟨env, clock i, icao, df17, ref, cluster⟩) :
    Calls solver P s (s.solveClusters solver clock icao df17 ref cs) := by
  unfold solveClusters
  induction cs generalizing s with
  | nil => exact Aside.calls solver P s _ ⟨rfl, rfl⟩
  | cons p cs ih =>
      refine Calls.trans solver P s _ _ ⟨[⟨s, clock p.2, icao, df17, ref, p.1⟩], ?_, ?_⟩ (ih _)
      · intro c hc
        rw [List.mem_singleton.mp hc]
        exact hP s p.2 p.1
      · exact ⟨rfl, rfl⟩

theorem solveGroup_calls (solver : Solver F) (P : SolveCall F → Prop) (s : State F)
    (clock : Nat → F) (g : Group F)
    (hP : ∀ env i ref cluster, P ⟨env, clock i, g.icao, g.df17, ref, cluster⟩) :
    Calls solver P s (s.solveGroup solver clock g) := by
  have hself : Calls solver P s s := Aside.calls solver P s s ⟨rfl, rfl⟩
  unfold solveGroup
  simp only []
  cases s.localRef g.members with
  | none => exact hself
  | some ref =>
      have hconv : Calls solver P s (s.withConverted g.members ref g.entries) :=
        Aside.calls solver P s _ ⟨rfl, rfl⟩
      have hfold := fun cs => Calls.trans solver P s _ _ hconv
        (solveClusters_calls solver P (s.withConverted g.members ref g.entries) clock g.icao g.df17
          ref cs fun env i cluster => hP env i ref cluster)
      simp only []
      split_ifs
      · exact hself
      · exact hconv
      · exact hfold _
      · exact Calls.trans solver P s _ _ (hfold _) (Aside.calls solver P _ _ ⟨rfl, rfl⟩)

/-- A sweep makes calls for the groups it removes. -/
theorem sweep_calls (solver : Solver F) (P : SolveCall F → Prop) (s : State F)
    (now window : Nat) (order : List String) (clock : String → Nat → F)
    (hP : ∀ key g, s.groups key = some g → ∀ env i ref cluster,
      P ⟨env, clock key i, g.icao, g.df17, ref, cluster⟩) :
    Calls solver P s (s.sweep solver now window order clock) ∧
      ∀ key g, (s.sweep solver now window order clock).groups key = some g →
        s.groups key = some g := by
  unfold sweep
  simp only []
  refine List.foldlRecOn _ _ (motive := fun s' => Calls solver P s s' ∧
    ∀ key g, s'.groups key = some g → s.groups key = some g)
    ⟨Aside.calls solver P s _ ⟨rfl, rfl⟩, fun _ _ h => h⟩ ?_
  rintro s' ⟨hcalls, hgroups⟩ key _
  cases hkey : s'.groups key with
  | none => exact ⟨hcalls, hgroups⟩
  | some g =>
      simp only []
      split_ifs
      · exact ⟨hcalls, hgroups⟩
      · constructor
        · have hdrop : Calls solver P s' { s' with groups := Function.update s'.groups key none } :=
            Aside.calls solver P s' _ ⟨rfl, rfl⟩
          exact Calls.trans solver P s s' _ hcalls (Calls.trans solver P s' _ _ hdrop
            (solveGroup_calls solver P _ (clock key) g (hP key g (hgroups key g hkey))))
        · intro k g' hk
          have hframe := (solveGroup_solved solver
            { s' with groups := Function.update s'.groups key none } (clock key) g).frame.groups
          rw [hframe] at hk
          by_cases hne : k = key
          · rw [hne] at hk
            exact absurd (hk.symm.trans (Function.update_self _ _ _)) (by simp only [reduceCtorEq,
              not_false_eq_true])
          · exact hgroups k g' (hk.symm.trans (Function.update_of_ne hne _ _)).symm

end State

/-- Of the calls of the shard's loop a sweep is calls of `solveCluster`, at times
    read from the output clock, and the others leave tracks and output alone. -/
theorem step_calls (solver : Solver F) (s : State F) (e : State.Event F) (Q : Icao → Prop)
    (hQ : ∀ key g, s.groups key = some g → Q g.icao) :
    Calls solver (fun c => Q c.icao ∧ ∃ now window order clock key i,
      e = .sweep now window order clock ∧ c.nowScaled = clock key i) s (s.step solver e) := by
  unfold State.step
  split_ifs
  · exact Aside.calls solver _ s s ⟨rfl, rfl⟩
  · cases e with
    | add info => exact (s.addReceiver_aside info).calls solver _
    | remove r => exact (s.removeReceiver_aside r).calls solver _
    | reset r => exact (s.clockReset_aside r).calls solver _
    | sync now r et ot emHex omHex atScaled =>
        exact (s.onSync_aside now r et ot emHex omHex atScaled).calls solver _
    | mlat now r tCounts mHex atScaled =>
        exact (s.onMlat_aside now r tCounts mHex atScaled).calls solver _
    | stats r => exact (s.receiverStats_aside r).calls solver _
    | sweep now window order clock =>
        refine (s.sweep_calls solver _ now window order clock ?_).1
        intro key g hkey env i ref cluster
        exact ⟨hQ key g hkey, now, window, order, clock, key, i, rfl, rfl⟩

end

end Server

end MlatBench
