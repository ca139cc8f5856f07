import MlatBench.Library.Lists
import MlatBench.Theory.Clusters
import MlatBench.Theory.Fixes
import MlatBench.Theory.Quarantine
import MlatBench.Theory.Residuals

/-!
# Who Learns

Biases are learned from the residuals of a solve, by their place in the list. The
observations of a cluster are one for each receiver, at most the sixteen most
precise of them are kept, and the solve gives a residual for each it was asked
with. An answer without one of them has a residual less and teaches nobody, so a
residual is always that of its own receiver.

The solve is any that gives the residuals of what it was asked, at the position it
answers.

## Main definitions

* `Capped`: The most precise observations, in their order.
* `Solve.Candid`: A solve with the residuals of what it was asked.
* `Solve.without`: A solve that leaves one observation out.
* `State.Credited`: Every receiver has learned from its own residual.

## Theorems

* `capObs_capped`: What is kept.
* `learn_cases`: What a solution teaches.
* `solveCluster_learned`: When anything is learned.
* `solveCluster_credits`: Who is credited, and with what.
-/

namespace MlatBench

namespace Server

open Library F64 F64Fn Modes

section

variable {F : Type} [F64Fn F]

/-- The most precise of some observations, in their order. -/
structure Capped (all kept : List (Observed F)) : Prop where
  order : kept.Sublist all
  size : kept.length = Nat.min 16 all.length
  precise : ∀ o ∈ kept, ∀ o' ∈ all, o' ∉ kept → totalLe o.obs.errS o'.obs.errS = true

theorem capObs_capped (horder : TotalOrder F) (obs : List (Observed F)) :
    Capped obs (capObs obs) := by
  unfold capObs
  by_cases hfew : obs.length ≤ 16
  · rw [if_pos hfew]
    refine ⟨List.Sublist.refl obs, (Nat.min_eq_right hfew).symm, fun o _ o' ho' hnot => ?_⟩
    exact absurd ho' hnot
  · rw [if_neg hfew]
    simp only []
    let errAt := fun i : Nat => (obs[i]?.map fun o : Observed F => o.obs.errS).getD (lit 0)
    let less := fun a b : Nat => totalLe (errAt a) (errAt b) = true
    -- The indices by precision, the first sixteen of them, and these in order.
    let idx := (List.range obs.length).insertionSort less
    let best := (idx.take 16).insertionSort (· ≤ ·)
    change Capped obs (best.filterMap fun i => obs[i]?)
    have hperm : best.Perm (idx.take 16) := List.perm_insertionSort _ _
    have hall : idx.Perm (List.range obs.length) := List.perm_insertionSort _ _
    have hrange : ∀ i ∈ best, i < obs.length := by
      intro i hi
      have hmem := hall.mem_iff.mp (List.mem_of_mem_take (hperm.mem_iff.mp hi))
      exact List.mem_range.mp hmem
    refine ⟨?_, ?_, ?_⟩
    · have hsub : best.Sublist (List.range obs.length) := by
        refine List.sublist_of_subperm_of_sortedLE ?_ List.sortedLE_insertionSort ?_
        · exact (hperm.subperm.trans (List.take_sublist 16 idx).subperm).trans hall.subperm
        · exact (List.sortedLT_range obs.length).sortedLE
      have h := hsub.filterMap fun i => obs[i]?
      rwa [filterMap_getElem?_range] at h
    · rw [length_filterMap_getElem? obs best hrange, hperm.length_eq, List.length_take,
        hall.length_eq, List.length_range]
    · intro o ho o' ho' hnot
      rcases List.mem_filterMap.mp ho with ⟨i, hi, hio⟩
      rcases List.mem_iff_getElem?.mp ho' with ⟨j, hjo⟩
      -- An index that is not kept comes after the sixteenth.
      have hj : j ∈ idx.drop 16 := by
        have hmem : j ∈ idx := hall.mem_iff.mpr
          (List.mem_range.mpr (List.getElem?_eq_some_iff.mp hjo).1)
        rw [← List.take_append_drop 16 idx] at hmem
        rcases List.mem_append.mp hmem with htake | hdrop
        · exact absurd (List.mem_filterMap.mpr ⟨j, hperm.mem_iff.mpr htake, hjo⟩) hnot
        · exact hdrop
      have hsorted : idx.Pairwise less := horder.pairwise_sort errAt _
      rw [← List.take_append_drop 16 idx, List.pairwise_append] at hsorted
      have hless := hsorted.2.2 i (hperm.mem_iff.mp hi) j hj
      have herr : ∀ (k : Nat) (p : Observed F), obs[k]? = some p → errAt k = p.obs.errS := by
        intro k p hk
        simp only [errAt, hk, Option.map_some, Option.getD_some]
      rw [← herr i o hio, ← herr j o' hjo]
      exact hless

/-- The lists the source keeps in step. -/
structure Columns (F : Type) where
  obs : List (Observation F)
  users : List String
  rxIds : List Nat

/-- The columns of some observations. -/
def Columns.of (os : List (Observed F)) : Columns F :=
  ⟨os.map Observed.obs, os.map Observed.user, os.map Observed.rx⟩

/-- The sixteen most precise, by their places in the first list. -/
def Columns.cap (l : Columns F) : Columns F :=
  if l.obs.length ≤ 16 then l
  else
    let errAt := fun i => (l.obs[i]?.map Observation.errS).getD (lit 0)
    let idx := (List.range l.obs.length).insertionSort fun a b => totalLe (errAt a) (errAt b)
    let best := (idx.take 16).insertionSort (· ≤ ·)
    { obs := best.filterMap fun i => l.obs[i]?
      users := best.filterMap fun i => l.users[i]?
      rxIds := best.filterMap fun i => l.rxIds[i]? }

/-- The lists are cut down in step. -/
theorem cap_columns (os : List (Observed F)) :
    (Columns.of os).cap = Columns.of (capObs os) := by
  unfold Columns.cap capObs
  by_cases hfew : os.length ≤ 16
  · rw [if_pos (by rwa [Columns.of, List.length_map]), if_pos hfew]
  · rw [if_neg (by rwa [Columns.of, List.length_map]), if_neg hfew]
    simp only [Columns.of, List.length_map, List.getElem?_map, Option.map_map, Function.comp_def,
      List.map_filterMap]

namespace State

/-- One more entry is taken into all of the lists or into none. -/
def pushed (s : State F) (acc : List Nat × Columns F) (c : Conv F) : List Nat × Columns F :=
  if c.rx ∈ acc.1 then acc
  else if s.isAlive c.rx = false ∨ (s.biasOf c.rx).quarantined = true then (c.rx :: acc.1, acc.2)
  else
    let o := s.observed c
    (c.rx :: acc.1,
      ⟨acc.2.obs ++ [o.obs], acc.2.users ++ [o.user], acc.2.rxIds ++ [o.rx]⟩)

def columns (s : State F) (cluster : List (Conv F)) : Columns F :=
  (cluster.foldl s.pushed ([], ⟨[], [], []⟩)).2

/-- The lists are the columns of the observations. -/
theorem columns_eq (s : State F) (cluster : List (Conv F)) :
    s.columns cluster = Columns.of (s.observe cluster) := by
  have hfold : cluster.foldl s.pushed ([], ⟨[], [], []⟩) =
      ((cluster.foldl s.take ([], [])).1, Columns.of (cluster.foldl s.take ([], [])).2) := by
    induction cluster using List.reverseRecOn with
    | nil => rfl
    | append_singleton cs c ih =>
        rw [List.foldl_append, List.foldl_append, ih]
        simp only [List.foldl_cons, List.foldl_nil, pushed, take]
        split_ifs
        · rfl
        · rfl
        · simp only [Columns.of, List.map_append, List.map_singleton]
  rw [columns, hfold]
  rfl

end State

namespace Solve

/-- The residuals of a solution are those of the observations it was asked with. -/
def Candid (solve : Solver F) : Prop :=
  ∀ obs altM init sol, solve obs altM init = some sol →
    sol.residualsS = obs.map (residualAt Geodetic.toEcef sol)

/-- The solve without one of the observations. -/
def without (solve : Solver F) (skip : Nat) : Solver F := fun obs altM init =>
  solve (obs.eraseIdx skip) altM init

theorem solve_candid : Candid (Solve.solve : Solver F) := by
  intro obs altM init sol hsol
  rw [← solveBy_toEcef] at hsol
  rcases (solveBy_eq_some Geodetic.toEcef obs altM init sol).mp hsol with ⟨q, p, _, hans⟩
  exact (answerBy_eq_some Geodetic.toEcef obs altM p sol hans).2.2.2.2.2.2

end Solve

namespace State

/-- Each of the observed receivers has learned once, from the residual of its own
    observation, and no other has. -/
structure Credited (s s' : State F) (scatter : Bool) (obs : List (Observed F))
    (sol : Solution F) : Prop where
  enough : 5 ≤ obs.length
  distinct : (obs.map Observed.rx).Nodup
  own : ∀ o ∈ obs, s'.rxBias[o.rx]? = s.rxBias[o.rx]?.map fun b =>
    b.learn scatter (Solve.residualAt Geodetic.toEcef sol o.obs)
  others : ∀ i, i ∉ obs.map Observed.rx → s'.rxBias[i]? = s.rxBias[i]?
  updated : ∀ i, s'.rxBias[i]? ≠ s.rxBias[i]? ↔ i ∈ obs.map Observed.rx ∧ i < s.rxBias.length

/-- What a solution teaches: nothing if it has not one residual for each, else
    each its own. -/
theorem learn_cases (s : State F) (scatter : Bool) (obs : List (Observed F)) (sol : Solution F) :
    (s.learn scatter (obs.map Observed.rx) sol).rxBias = s.rxBias ∨
      (sol.residualsS.length = obs.length ∧ ((obs.map Observed.rx).Nodup →
        sol.residualsS = (obs.map Observed.obs).map (Solve.residualAt Geodetic.toEcef sol) →
        Credited s (s.learn scatter (obs.map Observed.rx) sol) scatter obs sol)) := by
  unfold learn
  rw [List.length_map]
  split_ifs with h
  · refine Or.inr ⟨h.1, fun hnodup hres => ?_⟩
    -- The zip with the residuals pairs each receiver with its own.
    have hzip : (obs.map Observed.rx).zip sol.residualsS = obs.map fun o =>
        (o.rx, Solve.residualAt Geodetic.toEcef sol o.obs) := by
      rw [hres, List.map_map, List.zip_map']
      rfl
    rcases getElem?_foldl_set Observed.rx (fun o b => RxBias.learn b scatter
      (Solve.residualAt Geodetic.toEcef sol o.obs)) RxBias.default obs s.rxBias hnodup with
      ⟨hown, hothers⟩
    refine ⟨h.2.1, hnodup, ?_, ?_, ?_⟩
    · simp only [hzip, List.foldl_map]
      exact hown
    · simp only [hzip, List.foldl_map]
      exact hothers
    · simp only [hzip, List.foldl_map]
      intro i
      by_cases hi : i ∈ obs.map Observed.rx
      · rcases List.mem_map.mp hi with ⟨o, ho, rfl⟩
        rw [hown o ho]
        by_cases hlt : o.rx < s.rxBias.length
        · -- The count of what was learned tells the entries apart.
          rw [List.getElem?_eq_getElem hlt, Option.map_some]
          refine iff_of_true (fun heq => ?_) ⟨hi, hlt⟩
          have hn := congrArg RxBias.n (Option.some.inj heq)
          exact Nat.succ_ne_self _ hn
        · rw [List.getElem?_eq_none (Nat.le_of_not_lt hlt), Option.map_none]
          exact iff_of_false (fun hne => hne rfl) fun hboth => hlt hboth.2
      · rw [hothers i hi]
        exact iff_of_false (fun hne => hne rfl) fun hboth => hi hboth.1
  · exact Or.inl rfl

/-- The biases after the gates are those after learning, or as before. -/
theorem accept_learned (s : State F) (nowScaled stamp : F) (icao : Icao) (df17 : Bool)
    (track : Track F) (altFt : Int) (obs : List (Observed F)) (sol : Solution F) :
    (s.accept nowScaled stamp icao df17 track altFt obs sol).rxBias = s.rxBias ∨
      (s.accept nowScaled stamp icao df17 track altFt obs sol).rxBias =
        (s.learn (!df17) (obs.map Observed.rx) sol).rxBias := by
  unfold accept
  simp only []
  split_ifs with _ _ _ _ hdf17
  · exact Or.inl rfl
  · exact Or.inl rfl
  · exact Or.inl rfl
  · exact Or.inl rfl
  · right
    -- What a position message claims is compared after learning, which logs it only.
    rw [hdf17]
    unfold selfTruth
    split
    · rfl
    · split_ifs <;> rfl
  · right
    rw [Bool.eq_false_of_not_eq_true hdf17]
    unfold learn
    split_ifs <;> rfl

/-- When a cluster changes any bias: the solver was asked and has answered, and
    its answer has been learned from. -/
theorem solveCluster_learned (solver : Solver F) (s : State F) (nowScaled : F) (icao : Icao)
    (df17 : Bool) (ref : Nat) (cluster : List (Conv F)) :
    (s.solveCluster solver nowScaled icao df17 ref cluster).rxBias = s.rxBias ∨
      ∃ q sol, s.question nowScaled icao cluster = some q ∧
        s.answer solver nowScaled icao q = some sol ∧
        (s.solveCluster solver nowScaled icao df17 ref cluster).rxBias =
          (s.learn (!df17) (q.1.map Observed.rx) sol).rxBias := by
  cases hq : s.question nowScaled icao cluster with
  | none => exact Or.inl (s.solveCluster_unasked solver nowScaled icao df17 ref cluster hq).2.1
  | some q =>
      rcases s.solveCluster_asked nowScaled icao df17 ref cluster q hq with
        ⟨_, _, _, p, stamp, _, hbias, _, heq⟩
      rw [heq solver]
      cases hsol : s.answer solver nowScaled icao q with
      | none => exact Or.inl hbias
      | some sol =>
          rcases p.accept_learned nowScaled stamp icao df17 (s.trackOf icao) q.2 q.1 sol with h | h
          · exact Or.inl (h.trans hbias)
          · refine Or.inr ⟨q, sol, rfl, hsol, h.trans ?_⟩
            unfold learn
            split_ifs
            · simp only [hbias]
            · exact hbias

/-- The lists of a cluster hold its most precise observations. If a call changes
    any bias, the full set was solved and each of its receivers has learned once,
    from the residual of its own observation; an answer without one of them
    teaches nothing. -/
theorem solveCluster_credits (horder : TotalOrder F) (solve : Solver F)
    (hsolve : Solve.Candid solve) (s : State F) (nowScaled : F) (icao : Icao) (df17 : Bool)
    (ref : Nat) (cluster : List (Conv F)) :
    (s.columns cluster).cap = Columns.of (capObs (s.observe cluster)) ∧
      Capped (s.observe cluster) (capObs (s.observe cluster)) ∧
      ((s.solveCluster (Solve.robustBy solve) nowScaled icao df17 ref cluster).rxBias ≠ s.rxBias →
        ∃ q sol, s.question nowScaled icao cluster = some q ∧
          q.1 = capObs (s.observe cluster) ∧
          s.answer solve nowScaled icao q = some sol ∧
          s.answer (Solve.robustBy solve) nowScaled icao q = some sol ∧
          Credited s (s.solveCluster (Solve.robustBy solve) nowScaled icao df17 ref cluster)
            (!df17) q.1 sol) ∧
      ∀ q skip, s.question nowScaled icao cluster = some q → skip < q.1.length →
        s.answer (Solve.robustBy solve) nowScaled icao q =
          s.answer (Solve.without solve skip) nowScaled icao q →
        (s.solveCluster (Solve.robustBy solve) nowScaled icao df17 ref cluster).rxBias =
          s.rxBias := by
  -- An answer without one of the observations has a residual less.
  have hless : ∀ (q : List (Observed F) × Int) skip sol, skip < q.1.length →
      s.answer (Solve.without solve skip) nowScaled icao q = some sol →
      sol.residualsS.length ≠ q.1.length := by
    intro q skip sol hskip hsol heq
    have hlen := congrArg List.length (hsolve _ _ _ sol hsol)
    rw [List.length_map, List.length_eraseIdx_of_lt (by rwa [List.length_map]), List.length_map,
      heq] at hlen
    omega
  have hlearned := s.solveCluster_learned (Solve.robustBy solve) nowScaled icao df17 ref cluster
  refine ⟨?_, capObs_capped horder _, fun hne => ?_, fun q skip hq hskip hsame => ?_⟩
  · rw [columns_eq, cap_columns]
  · rcases hlearned with hsame | ⟨q, sol, hq, hsol, hbias⟩
    · exact absurd hsame hne
    have hkept := s.question_kept nowScaled icao cluster q hq
    rcases s.learn_cases (!df17) q.1 sol with hnothing | ⟨hlen, hcredited⟩
    · exact absurd (hbias.trans hnothing) hne
    -- The answer is that of the full set, as it has all residuals.
    have hfull : s.answer solve nowScaled icao q = some sol := by
      rcases Solve.robustBy_cases solve (q.1.map Observed.obs) (lit q.2 * lit (3048 / 10000))
        (s.initialPos (s.trackOf icao) nowScaled (lit q.2 * lit (3048 / 10000))
          (q.1.map Observed.user) q.1.length) with h | ⟨skip, hskip, _, _, h⟩
      · exact h.symm.trans hsol
      · rw [List.length_map] at hskip
        exact absurd hlen (hless q skip sol hskip (h.symm.trans hsol))
    rcases s.observe_firsts cluster with ⟨_, hfirsts⟩
    -- What was capped has one observation for each receiver, as what was observed has.
    have hnodup : (q.1.map Observed.rx).Nodup := by
      rw [hkept]
      exact hfirsts.distinct.sublist ((capObs_capped horder _).order.map _)
    have hown := hcredited hnodup (hsolve _ _ _ sol hfull)
    refine ⟨q, sol, hq, hkept, hfull, hsol, hown.enough, hown.distinct, ?_, ?_, ?_⟩
    · rw [hbias]
      exact hown.own
    · rw [hbias]
      exact hown.others
    · rw [hbias]
      exact hown.updated
  · rcases hlearned with h | ⟨q', sol, hq', hsol, hbias⟩
    · exact h
    · cases hq.symm.trans hq'
      rcases s.learn_cases (!df17) q.1 sol with hnothing | ⟨hlen, _⟩
      · exact hbias.trans hnothing
      · exact absurd hlen (hless q skip sol hskip (hsame.symm.trans hsol))

end State

end

namespace State

/-- The seven receivers, and the altitude of the aircraft. -/
def surveyKnown : State ℚ :=
  exec (step fun _ _ _ => none) (State.new 0 false false)
    ((List.range 7).map (fun i => .add (surveyRx i)) ++ [surveySync 0 0])

/-- Its reply in one clock. -/
def surveyCluster : List (Conv ℚ) :=
  (List.range 7).map fun i =>
    { rx := i
      t := 100 + surveyDelay i + if i = 1 then -surveyOff else if i = 2 then surveyOff else 0
      sigma := 15 / 100000000, atScaled := 1, origin := ⟨⟨i, 0⟩, 0⟩ }

theorem solveCluster_credits_survey :
    ∃ q sol, surveyKnown.answer Solve.solve 2 ⟨0x3C6444⟩ q = some sol ∧
      q.1 = capObs (surveyKnown.observe surveyCluster) ∧
      Credited surveyKnown
        (surveyKnown.solveCluster Solve.solveRobust 2 ⟨0x3C6444⟩ false 0 surveyCluster) true q.1
        sol := by
  have hne : (surveyKnown.solveCluster (Solve.robustBy Solve.solve) 2 ⟨0x3C6444⟩ false 0
      surveyCluster).rxBias ≠ surveyKnown.rxBias := by decide +kernel
  rcases (solveCluster_credits (totalOrder_exact ℚ) Solve.solve Solve.solve_candid surveyKnown 2
    ⟨0x3C6444⟩ false 0 surveyCluster).2.2.1 hne with ⟨q, sol, _, hkept, hfull, _, hcredited⟩
  exact ⟨q, sol, hfull, hkept, hcredited⟩

end State

end Server

end MlatBench
