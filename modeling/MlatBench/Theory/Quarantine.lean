import MlatBench.Library.Runs
import MlatBench.Theory.Slots

/-!
# Quarantine

A receiver whose residuals scatter too much is left out of the observations of a
cluster. What a receiver learns, it learns from its residual as an observation; so
a quarantined one learns nothing any more, and as long as its connection lasts its
scatter stays what it was when it was quarantined.

## Main definitions

* `State.Stays`: A reference stays live through an event.

## Theorems

* `learn_bias`: Only observed receivers learn.
* `solveCluster_bias`, `sweep_bias`: A quarantined receiver learns from no cluster.
* `quarantine_absorbing`: It keeps its bias and scatter while its reference lives.
-/

namespace MlatBench

namespace Server

open Library F64 F64Fn Modes

variable {F : Type} [F64Fn F]

namespace State

/-- Only observed receivers learn. -/
theorem learn_bias (s : State F) (scatter : Bool) (rxIds : List Nat) (sol : Solution F) (i : Nat)
    (hi : i ∉ rxIds) : (s.learn scatter rxIds sol).biasOf i = s.biasOf i := by
  unfold learn
  split_ifs
  · unfold biasOf
    simp only []
    refine List.foldlRecOn (rxIds.zip sol.residualsS) _ (motive := fun bs : List (RxBias F) =>
      bs.getD i RxBias.default = s.rxBias.getD i RxBias.default) rfl ?_
    rintro bs hbs ⟨rx, r⟩ hmem
    have hne : rx ≠ i := fun heq => hi (heq ▸ (List.of_mem_zip hmem).1)
    rw [List.getD_eq_getElem?_getD, List.getElem?_set_ne hne, ← List.getD_eq_getElem?_getD]
    exact hbs
  · rfl

theorem accept_bias (s : State F) (nowScaled stamp : F) (icao : Icao) (df17 : Bool)
    (track : Track F) (altFt : Int) (obs : List (Observed F)) (sol : Solution F) (i : Nat)
    (hi : i ∉ obs.map Observed.rx) :
    (s.accept nowScaled stamp icao df17 track altFt obs sol).biasOf i = s.biasOf i := by
  unfold accept
  simp only []
  split_ifs
  · rfl
  · rfl
  · rfl
  · rfl
  · have hself : ∀ t : State F, (t.selfTruth nowScaled stamp icao sol obs.length).biasOf i =
        t.biasOf i := by
      intro t
      unfold selfTruth
      split
      · rfl
      · split_ifs <;> rfl
    rw [hself]
    exact s.learn_bias false _ sol i hi
  · exact learn_bias { s with statsSolved := s.statsSolved + 1 } true _ sol i hi

theorem attempt_bias (solver : Solver F) (s : State F) (nowScaled stamp : F) (icao : Icao)
    (df17 : Bool) (track : Track F) (obs : List (Observed F)) (i : Nat)
    (hi : i ∉ obs.map Observed.rx) :
    (s.attempt solver nowScaled stamp icao df17 track obs).biasOf i = s.biasOf i := by
  unfold attempt
  split
  · rfl
  · simp only []
    split
    · rfl
    · rw [accept_bias _ nowScaled stamp icao df17 track _ obs _ i hi]
      rfl

/-- A cluster teaches nothing to a quarantined receiver, whether it reported or
    not. -/
theorem solveCluster_bias (solver : Solver F) (s : State F) (nowScaled : F) (icao : Icao)
    (df17 : Bool) (ref : Nat) (cluster : List (Conv F)) (i : Nat)
    (hq : (s.biasOf i).quarantined = true) :
    (s.solveCluster solver nowScaled icao df17 ref cluster).biasOf i = s.biasOf i := by
  have hout : ∀ o ∈ s.observe cluster, o.rx ≠ i := by
    intro o ho heq
    rcases s.observe_spec cluster o ho with ⟨c, _, hrx, _, _, hnot⟩
    rw [← hrx, heq, hq] at hnot
    exact absurd hnot.symm Bool.false_ne_true
  have hcap : i ∉ (capObs (s.observe cluster)).map Observed.rx := by
    intro hmem
    rcases List.mem_map.mp hmem with ⟨o, ho, hrx⟩
    exact hout o (capObs_mem _ o ho) hrx
  unfold solveCluster
  simp only []
  cases hobs : s.observe cluster with
  | nil => rfl
  | cons first rest =>
      rw [hobs] at hcap
      simp only []
      split_ifs
      · rfl
      · rfl
      · rfl
      · rw [attempt_bias solver _ nowScaled _ icao df17 _ _ i hcap]
        rfl

theorem solveClusters_bias (solver : Solver F) (s : State F) (clock : Nat → F) (icao : Icao)
    (df17 : Bool) (ref : Nat) (cs : List (List (Conv F) × Nat)) (i : Nat)
    (hq : (s.biasOf i).quarantined = true) :
    (s.solveClusters solver clock icao df17 ref cs).biasOf i = s.biasOf i := by
  unfold solveClusters
  refine List.foldlRecOn cs _ (motive := fun s' : State F => s'.biasOf i = s.biasOf i) rfl ?_
  intro s' h c _
  rw [solveCluster_bias solver s' _ _ _ _ _ i (by rw [h]; exact hq)]
  exact h

theorem solveGroup_bias (solver : Solver F) (s : State F) (clock : Nat → F) (g : Group F) (i : Nat)
    (hq : (s.biasOf i).quarantined = true) :
    (s.solveGroup solver clock g).biasOf i = s.biasOf i := by
  unfold solveGroup
  simp only []
  split
  · rfl
  · split_ifs
    · rfl
    · rfl
    · exact solveClusters_bias solver (s.withConverted _ _ _) clock _ _ _ _ i hq
    · exact solveClusters_bias solver (s.withConverted _ _ _) clock _ _ _ _ i hq

theorem sweep_bias (solver : Solver F) (s : State F) (now window : Nat) (order : List String)
    (clock : String → Nat → F) (i : Nat) (hq : (s.biasOf i).quarantined = true) :
    (s.sweep solver now window order clock).biasOf i = s.biasOf i := by
  unfold sweep
  simp only []
  refine List.foldlRecOn _ _ (motive := fun s' : State F => s'.biasOf i = s.biasOf i) rfl ?_
  intro s' h key _
  split
  · exact h
  · split_ifs
    · exact h
    · rw [solveGroup_bias solver _ _ _ i (by rw [← h] at hq; exact hq)]
      exact h

theorem onMlat_rxBias (s : State F) (now : Nat) (r : RxRef) (tCounts : F) (mHex : String)
    (atScaled : F) : (s.onMlat now r tCounts mHex atScaled).rxBias = s.rxBias := by
  rcases s.onMlat_cases now r tCounts mHex atScaled with heq | ⟨_, alts, g, _, heq⟩
  · rw [heq]
  · rw [heq]

theorem joinSync_rxBias (s : State F) (now : Nat) (r : RxRef) (te tO : F)
    (key : String × String) : (s.joinSync now r te tO key).rxBias = s.rxBias := by
  unfold joinSync
  simp only []
  split_ifs
  · rfl
  · refine List.foldlRecOn _ _ (motive := fun s' : State F => s'.rxBias = s.rxBias) rfl ?_
    intro s' h other _
    unfold trainWith
    split_ifs
    · exact h
    · exact h

theorem onSync_rxBias (s : State F) (now : Nat) (r : RxRef) (et ot : F) (emHex omHex : String)
    (atScaled : F) : (s.onSync now r et ot emHex omHex atScaled).rxBias = s.rxBias := by
  unfold onSync
  split_ifs
  · rfl
  · split
    · rfl
    · simp only [joinSync_rxBias]
      split_ifs
      · exact onMlat_rxBias _ _ _ _ _ _
      · rfl

theorem removeReceiver_rxBias (s : State F) (r : RxRef) :
    (s.removeReceiver r).rxBias = s.rxBias := by
  unfold removeReceiver
  split_ifs <;> rfl

omit [F64Fn F] in
theorem clockReset_rxBias (s : State F) (r : RxRef) : (s.clockReset r).rxBias = s.rxBias := by
  unfold clockReset
  split_ifs <;> rfl

theorem receiverStats_rxBias (s : State F) (r : RxRef) :
    (s.receiverStats r).1.rxBias = s.rxBias := by
  unfold receiverStats
  split_ifs <;> rfl

/-- A slot taken again has another generation. -/
theorem takeSlot_gen (s : State F) (h : Sized s) (info : ReceiverInfo F) (i : Nat)
    (hi : i < s.receivers.length) (heq : (s.takeSlot info).2 = i) :
    (s.takeSlot info).1.genOf i ≠ s.genOf i := by
  unfold takeSlot at heq ⊢
  cases hfree : s.freeSlots with
  | nil =>
      rw [hfree] at heq
      simp only [] at heq
      omega
  | cons j free =>
      rw [hfree] at heq
      simp only [] at heq ⊢
      have hlt : i < s.gens.length := by rw [h.gens]; exact hi
      rw [heq, genOf, List.getD_eq_getElem?_getD, List.getElem?_set_self hlt, Option.getD_some]
      omega

/-- A connection leaves the bias of a quarantined receiver that stays. -/
theorem addReceiver_bias (s : State F) (h : Sized s) (info : ReceiverInfo F) (r : RxRef)
    (hlive : s.live r = true) (hstay : (s.addReceiver info).1.live r = true)
    (hq : (s.biasOf r.idx).quarantined = true) :
    (s.addReceiver info).1.biasOf r.idx = s.biasOf r.idx := by
  rcases s.addReceiver_eq info with ⟨t, ht, _, users, reference, heq⟩
  rw [heq] at hstay ⊢
  have hstay : (t.takeSlot info).1.live r = true := hstay
  change (t.takeSlot info).1.biasOf r.idx = s.biasOf r.idx
  have hst : Sized t ∧ t.rxBias = s.rxBias ∧ t.gens = s.gens ∧
      t.receivers.length = s.receivers.length := by
    rcases ht with rfl | ⟨old, _, rfl⟩
    · exact ⟨h, rfl, rfl, rfl⟩
    · have hsized := Sized.removeReceiver s h ⟨old, s.genOf old⟩
      refine ⟨hsized, removeReceiver_rxBias s _, removeReceiver_gens s _, ?_⟩
      rw [← hsized.gens, removeReceiver_gens, h.gens]
  rw [live, decide_eq_true_eq] at hlive hstay
  have hne : (t.takeSlot info).2 ≠ r.idx := by
    intro hidx
    refine t.takeSlot_gen hst.1 info r.idx ?_ hidx ?_
    · rw [hst.2.2.2]
      exact hlive.1
    · rw [hstay.2.2, ← hlive.2.2, genOf, genOf, hst.2.2.1]
  -- A bias that is not there would not be quarantined.
  have hlt : r.idx < t.rxBias.length := by
    rw [hst.2.1]
    by_contra hge
    rw [biasOf, List.getD_eq_default _ _ (Nat.le_of_not_lt hge)] at hq
    exact absurd hq (by simp [RxBias.quarantined, RxBias.default, quarantineMinN])
  unfold takeSlot at hne ⊢
  cases hfree : t.freeSlots with
  | nil =>
      simp only [biasOf]
      rw [List.getD_append _ _ _ _ hlt, hst.2.1]
  | cons j free =>
      rw [hfree] at hne
      simp only [biasOf]
      rw [List.getD_eq_getElem?_getD, List.getElem?_set_ne hne, ← List.getD_eq_getElem?_getD,
        hst.2.1]

/-- A reference stays live through an event. -/
def Stays (solver : Solver F) (r : RxRef) (s : State F) (e : Event F) : Prop :=
  s.live r = true ∧ (s.step solver e).live r = true

theorem quarantined_step (solver : Solver F) (s : State F) (h : Sized s) (e : Event F) (r : RxRef)
    (hstay : s.Stays solver r e) (hq : (s.biasOf r.idx).quarantined = true) :
    (s.step solver e).biasOf r.idx = s.biasOf r.idx := by
  rcases hstay with ⟨hlive, hstay⟩
  have hcongr : ∀ s' : State F, s'.rxBias = s.rxBias → s'.biasOf r.idx = s.biasOf r.idx := by
    intro s' heq
    rw [biasOf, biasOf, heq]
  unfold step at hstay ⊢
  by_cases hhung : s.hung = true
  · rw [if_pos hhung]
  · rw [if_neg hhung] at hstay ⊢
    cases e with
    | add info => exact s.addReceiver_bias h info r hlive hstay hq
    | remove q => exact hcongr _ (s.removeReceiver_rxBias q)
    | reset q => exact hcongr _ (s.clockReset_rxBias q)
    | sync now q et ot emHex omHex atScaled =>
        exact hcongr _ (s.onSync_rxBias now q et ot emHex omHex atScaled)
    | mlat now q tCounts mHex atScaled =>
        exact hcongr _ (s.onMlat_rxBias now q tCounts mHex atScaled)
    | stats q => exact hcongr _ (s.receiverStats_rxBias q)
    | sweep now window order clock =>
        exact s.sweep_bias solver now window order clock r.idx hq

/-- While its reference lives, a quarantined receiver keeps its bias. -/
theorem quarantined_run (solver : Solver F) (s : State F) (h : Sized s) (r : RxRef)
    (hq : (s.biasOf r.idx).quarantined = true) (ds : List (Event F))
    (hstay : Along (step solver) (Stays solver r) s ds) :
    Sized (exec (step solver) s ds) ∧ (exec (step solver) s ds).biasOf r.idx = s.biasOf r.idx := by
  refine Along.invariant (step solver) (Stays solver r)
    (fun s' => Sized s' ∧ s'.biasOf r.idx = s.biasOf r.idx) ?_ s ds ⟨h, rfl⟩ hstay
  rintro s' e ⟨hsized, hbias⟩ hst
  refine ⟨sized_step solver s' e hsized, ?_⟩
  rw [quarantined_step solver s' hsized e r hst (by rw [hbias]; exact hq)]
  exact hbias

theorem sized_exec (solver : Solver F) (shardId : Nat) (mlatAdsb emitFiltered : Bool)
    (es : List (Event F)) :
    Sized (exec (step solver) (State.new shardId mlatAdsb emitFiltered) es) := by
  refine List.foldlRecOn es (step solver) (motive := Sized) (sized_new _ _ _) ?_
  exact fun s h e _ => sized_step solver s e h

/-- In every run, a receiver once quarantined keeps its bias and scatter as long as
    its reference lives, and no cluster it reports to teaches it anything. -/
theorem quarantine_absorbing (solver : Solver F) (shardId : Nat) (mlatAdsb emitFiltered : Bool)
    (es ds : List (Event F)) (s t : State F)
    (hs : s = exec (step solver) (State.new shardId mlatAdsb emitFiltered) es)
    (ht : t = exec (step solver) s ds) (r : RxRef) (hq : (s.biasOf r.idx).quarantined = true)
    (hstay : Along (step solver) (Stays solver r) s ds) :
    t.biasOf r.idx = s.biasOf r.idx ∧
      ∀ nowScaled icao df17 ref cluster,
        (t.solveCluster solver nowScaled icao df17 ref cluster).biasOf r.idx = t.biasOf r.idx := by
  have hsized : Sized s := by
    rw [hs]
    exact sized_exec solver shardId mlatAdsb emitFiltered es
  have hkept : t.biasOf r.idx = s.biasOf r.idx := by
    rw [ht]
    exact (quarantined_run solver s hsized r hq ds hstay).2
  refine ⟨hkept, ?_⟩
  intro nowScaled icao df17 ref cluster
  refine t.solveCluster_bias solver nowScaled icao df17 ref cluster r.idx ?_
  rw [hkept]
  exact hq

/-- Messages and sweeps leave references live. -/
theorem along_stays (solver : Solver F) (r : RxRef) (s : State F) (es : List (Event F))
    (hes : ∀ e ∈ es, (∃ now q t m a, e = .mlat now q t m a) ∨ ∃ now window o c,
      e = .sweep now window o c) (hlive : s.live r = true) :
    Along (step solver) (Stays solver r) s es := by
  induction es generalizing s with
  | nil => trivial
  | cons e es ih =>
      have hstay : (s.step solver e).live r = true := by
        rcases s.step_cases solver e with ⟨info, rfl, _⟩ | ⟨q, rfl, _⟩ | ⟨q, rfl, _⟩ | hg
        · rcases hes _ List.mem_cons_self with ⟨_, _, _, _, _, h⟩ | ⟨_, _, _, _, h⟩ <;> injection h
        · rcases hes _ List.mem_cons_self with ⟨_, _, _, _, _, h⟩ | ⟨_, _, _, _, h⟩ <;> injection h
        · rcases hes _ List.mem_cons_self with ⟨_, _, _, _, _, h⟩ | ⟨_, _, _, _, h⟩ <;> injection h
        · rw [hg.live]
          exact hlive
      exact ⟨⟨hlive, hstay⟩, ih _ (fun d hd => hes d (List.mem_cons_of_mem e hd)) hstay⟩

section Example

/-- Seven receivers around the equator, two of them at one place. -/
def surveyRx (i : Nat) : ReceiverInfo ℚ :=
  let p := ([(0, 0), (1, 1), (1, 1), (-2, 0), (0, -2), (2, -2), (-2, 2)] : List (ℚ × ℚ)).getD i (0, 0)
  let geo : Geodetic ℚ := ⟨p.1, p.2, 0⟩
  { user := String.ofList [Nat.digitChar i], geo := geo, ecef := geo.toEcef, freqHz := 12000000
    gps := false, jitterS := 15 / 100000000 }

/-- An aircraft overhead at 35000 feet. -/
def surveyPos : Geodetic ℚ := ⟨0, 0, 10668⟩

/-- The flight time of its signals. -/
def surveyDelay (i : Nat) : ℚ := (surveyRx i).ecef.dist surveyPos.toEcef / 299792458

/-- Its position messages, which all seven receive with clocks that agree. -/
def surveySync (e i : Nat) : Event ℚ :=
  .sync (5000000000 * e) ⟨i, 0⟩ (12000000 * (4 * e + surveyDelay i))
    (12000000 * (4 * e + 1 + surveyDelay i)) "8d3c644458b500000000008c4ccb"
    "8d3c644458b504000000008067f3" 0

/-- The receivers connect and train their models. -/
def surveyTrain : List (Event ℚ) :=
  (List.range 7).map (fun i => .add (surveyRx i)) ++
    (List.range 5).flatMap fun e => (List.range 7).map (surveySync e) ++
      [.sweep (5000000000 * e + 4000000000) 1000000000 [] fun _ _ => 0]

/-- What the two receivers at one place are off by. -/
def surveyOff : ℚ := 9 / 10000000

/-- Its all-call reply. The two receivers at one place are off to either side, more
    so from reply to reply. -/
def surveyMlat (k i : Nat) : Event ℚ :=
  let off := surveyOff + k * surveyOff / 10
  .mlat (1000000000000 + 10000000000 * k) ⟨i, 0⟩
    (12000000 * (100 + surveyDelay i + if i = 1 then -off else if i = 2 then off else 0))
    "5d3c6444dc6d6a" (10 * k + 1)

/-- The reply is received by all seven, and solved. -/
def surveyRound (k : Nat) : List (Event ℚ) :=
  (List.range 7).map (surveyMlat k) ++
    [.sweep (1001000000000 + 10000000000 * k) 1000000000 ["5d3c6444dc6d6a"] fun _ _ => 10 * k + 2]

/-- The seven observations, the same in every round once the biases are applied. -/
def surveyObs : List (Observation ℚ) :=
  (List.range 7).map fun i =>
    { rx := (surveyRx i).ecef
      tS := 100 + surveyDelay i + if i = 1 then -surveyOff else if i = 2 then surveyOff else 0
      errS := 15 / 100000000 }

/-- Their solution. -/
def surveySolution : Solution ℚ :=
  { pos := surveyPos, rmsS := 48107 / 100000000000, errEstM := 78529260369363 / 500000000000
    iterations := 2, tTx := 100, residualsS := [0, surveyOff, -surveyOff, 0, 0, 0, 0] }

/-- The solver, which need not solve the same observations again. -/
def surveySolver : Solver ℚ := fun obs altM init =>
  if obs = surveyObs ∧ altM = surveyPos.altM ∧ init = surveyPos then some surveySolution
  else Solve.solveRobust obs altM init

theorem surveySolver_eq : Solve.solveRobust = surveySolver := by
  have hsol : Solve.solveRobust surveyObs surveyPos.altM surveyPos = some surveySolution := by
    decide +kernel
  funext obs altM init
  unfold surveySolver
  split_ifs with h
  · rw [h.1, h.2.1, h.2.2, hsol]
  · rfl

/-- After thirty-five replies. -/
def surveyState (solver : Solver ℚ) : State ℚ :=
  exec (step solver) (State.new 0 false false) (surveyTrain ++ (List.range 35).flatMap surveyRound)

/-- The slots of the clusters one more reply is cut into. -/
def surveyClusters (solver : Solver ℚ) : List (List Nat) :=
  let s := exec (step solver) (surveyState solver) ((List.range 7).map (surveyMlat 35))
  match s.groups "5d3c6444dc6d6a" with
  | none => []
  | some g =>
    let conv := s.converted g.members ((s.localRef g.members).getD 0) g.entries
    (clusters conv.length conv).1.map fun cluster => cluster.map Conv.rx

/-- Slot 1 is quarantined then. One more reply, which it reports too, is solved and
    published from the five others, who learn from it. -/
theorem surveyState_spec :
    (surveyState surveySolver).live ⟨1, 0⟩ = true ∧
      ((surveyState surveySolver).biasOf 1).quarantined = true ∧
      surveyClusters surveySolver = [[0, 1, 2, 3, 4, 5, 6]] ∧
      (exec (step surveySolver) (surveyState surveySolver) (surveyRound 35)).statsSolved =
        (surveyState surveySolver).statsSolved + 1 ∧
      ∀ i ∈ [0, 3, 4, 5, 6],
        ((exec (step surveySolver) (surveyState surveySolver) (surveyRound 35)).biasOf i).n =
          ((surveyState surveySolver).biasOf i).n + 1 := by
  decide +kernel

theorem along_surveyRound (s : State ℚ) (k : Nat) (r : RxRef) (h : s.live r = true) :
    Along (step Solve.solveRobust) (Stays Solve.solveRobust r) s (surveyRound k) := by
  refine along_stays _ r s _ ?_ h
  intro e he
  rcases List.mem_append.mp he with he | he
  · rcases List.mem_map.mp he with ⟨i, _, rfl⟩
    exact Or.inl ⟨_, _, _, _, _, rfl⟩
  · rw [List.mem_singleton] at he
    exact Or.inr ⟨_, _, _, _, he⟩

theorem quarantine_absorbing_survey :
    ((surveyState Solve.solveRobust).biasOf 1).quarantined = true ∧
      (exec (step Solve.solveRobust) (surveyState Solve.solveRobust) (surveyRound 35)).biasOf 1 =
        (surveyState Solve.solveRobust).biasOf 1 := by
  have hspec := surveyState_spec
  rw [← surveySolver_eq] at hspec
  refine ⟨hspec.2.1, ?_⟩
  exact (quarantine_absorbing Solve.solveRobust 0 false false _ (surveyRound 35) _ _ rfl rfl ⟨1, 0⟩
    hspec.2.1 (along_surveyRound _ 35 _ hspec.1)).1

/-- Slot 1 is live and quarantined, reports a reply that is solved from five
    receivers and published, and learns nothing. -/
theorem quarantined_not_taught :
    (surveyState Solve.solveRobust).live ⟨1, 0⟩ = true ∧
      ((surveyState Solve.solveRobust).biasOf 1).quarantined = true ∧
      surveyClusters Solve.solveRobust = [[0, 1, 2, 3, 4, 5, 6]] ∧
      (exec (step Solve.solveRobust) (surveyState Solve.solveRobust) (surveyRound 35)).statsSolved =
        (surveyState Solve.solveRobust).statsSolved + 1 ∧
      (∀ i ∈ [0, 3, 4, 5, 6],
        ((exec (step Solve.solveRobust) (surveyState Solve.solveRobust) (surveyRound 35)).biasOf i).n =
          ((surveyState Solve.solveRobust).biasOf i).n + 1) ∧
      (exec (step Solve.solveRobust) (surveyState Solve.solveRobust) (surveyRound 35)).biasOf 1 =
        (surveyState Solve.solveRobust).biasOf 1 := by
  have hspec := surveyState_spec
  rw [← surveySolver_eq] at hspec
  rcases hspec with ⟨hlive, hq, hclusters, hsolved, hlearn⟩
  refine ⟨hlive, hq, hclusters, hsolved, hlearn, ?_⟩
  exact (quarantined_run Solve.solveRobust (surveyState Solve.solveRobust) (sized_exec _ _ _ _ _)
    ⟨1, 0⟩ hq (surveyRound 35) (along_surveyRound _ 35 _ hlive)).2

end Example

end State

end Server

end MlatBench
