import Mathlib.Logic.Relation
import MlatBench.Library.Ext
import MlatBench.Library.Runs
import MlatBench.Theory.State

/-!
# When a Sweep Ends

Cutting a group into clusters goes on from the index where the last cluster
ended, so it ends if every turn moves the index. A turn takes the times whose
difference to the first one is at most the span, the first one among them if it
is a finite number: otherwise the difference to itself is no number, no
comparison with it holds, and the index stays.

The order of the times matters as well. An infinity below all numbers would be
near any of them, but it is sorted to the front.

Whether a time is finite is a matter of the pair models. Their sums overflow on
times that are finite, and the gate on the sigma refuses only what is above a
bound.

## Main definitions

* `turn`, `Advances`: The loop's index and its turns.
* `State.Cut`: A group whose times are cut.
* `State.Stuck`: The cut of a group does not advance.
* `State.Advancing`, `State.FiniteTimes`: A sweep's loops advance, its times are finite.

## Theorems

* `clusters_ended_iff`: The cut ends if the index always moves.
* `clusters_finite_iff`: The cut ends if all times are finite.
* `State.solveGroup_hung`, `State.sweep_hung`: What hangs.
* `State.step_hung`, `State.advancing_iff`: Which steps hang.
-/

namespace MlatBench

namespace Server

open Library F64 F64Fn Modes Relation

section Loop

variable {F : Type} [F64Fn F]

/-- The index after a turn: past the times within the span of the first. -/
def turn (conv : List (Conv F)) (i : Nat) : Nat :=
  match conv.drop i with
  | [] => i
  | c :: rest => i + ((c :: rest).takeWhile fun d => decide (d.t - c.t ≤ clusterSpanS)).length

/-- One turn of the loop. -/
def Turn (conv : List (Conv F)) (i j : Nat) : Prop :=
  i < conv.length ∧ j = turn conv i

/-- Every turn, from an index on, moves the index. -/
def AdvancesFrom (conv : List (Conv F)) (i : Nat) : Prop :=
  ∀ k, ReflTransGen (Turn conv) i k → k < conv.length → k < turn conv k

/-- Every turn of the loop moves the index. -/
def Advances (conv : List (Conv F)) : Prop := AdvancesFrom conv 0

theorem advancesFrom_end (conv : List (Conv F)) (i : Nat) (h : conv.length ≤ i) :
    AdvancesFrom conv i := by
  intro k hk hlt
  rcases ReflTransGen.cases_head hk with rfl | ⟨j, hj, _⟩
  · omega
  · have := hj.1
    omega

theorem advancesFrom_turn (conv : List (Conv F)) (i : Nat) (h : i < conv.length) :
    AdvancesFrom conv i ↔ i < turn conv i ∧ AdvancesFrom conv (turn conv i) := by
  constructor
  · intro hadv
    exact ⟨hadv i ReflTransGen.refl h, fun k hk => hadv k (ReflTransGen.head ⟨h, rfl⟩ hk)⟩
  · rintro ⟨hi, hadv⟩ k hk hlt
    rcases ReflTransGen.cases_head hk with rfl | ⟨j, ⟨_, rfl⟩, hjk⟩
    · exact hi
    · exact hadv k hjk hlt

theorem clusters_ended_from (conv : List (Conv F)) (fuel i : Nat) (hf : conv.length ≤ i + fuel) :
    (clusters fuel (conv.drop i)).2 = true ↔ AdvancesFrom conv i := by
  induction fuel generalizing i with
  | zero =>
      rw [Nat.add_zero] at hf
      rw [List.drop_eq_nil_of_le hf]
      exact iff_of_true rfl (advancesFrom_end conv i hf)
  | succ fuel ih =>
      cases hd : conv.drop i with
      | nil => exact iff_of_true rfl (advancesFrom_end conv i (List.drop_eq_nil_iff.mp hd))
      | cons c rest =>
          have hi : i < conv.length := by
            by_contra hc
            rw [List.drop_eq_nil_of_le (not_lt.mp hc)] at hd
            exact absurd hd (List.cons_ne_nil c rest).symm
          rw [advancesFrom_turn conv i hi, clusters]
          have hturn : turn conv i = i + ((c :: rest).takeWhile
              fun d => decide (d.t - c.t ≤ clusterSpanS)).length := by
            rw [turn, hd]
          by_cases hnear : (c :: rest).takeWhile
              (fun d => decide (d.t - c.t ≤ clusterSpanS)) = []
          · rw [if_pos hnear]
            rw [hnear] at hturn
            exact iff_of_false Bool.false_ne_true (by rw [hturn]; simp)
          · have hpos := List.length_pos_iff.mpr hnear
            rw [if_neg hnear, ← hd, List.drop_drop, hd, ← hturn]
            rw [← ih (turn conv i) (by omega), and_iff_right (by omega)]

/-- The cut ends if every turn moves the index. -/
theorem clusters_ended_iff (conv : List (Conv F)) :
    (clusters conv.length conv).2 = true ↔ Advances conv := by
  have h := clusters_ended_from conv conv.length 0 (by omega)
  rwa [List.drop_zero] at h

end Loop

section Times

variable {K : Type} [Field K] [LinearOrder K] [IsStrictOrderedRing K]

theorem span_le_maxFinite : ((25 / 10000 : ℚ) : K) ≤ maxFinite K := by
  have hnat : 1 ≤ (2 ^ 53 - 1) * 2 ^ 971 := by decide +kernel
  have hmax : (1 : K) ≤ maxFinite K := by
    unfold maxFinite
    exact_mod_cast hnat
  refine le_trans ?_ hmax
  norm_num

variable [FloorRing K] [Fns K]

/-- The times are in order. -/
def Ordered (xs : List (Conv (Ext K))) : Prop :=
  xs.Pairwise fun a b => totalLe a.t b.t = true

/-- The cut of ordered times ends just when all of them are finite. -/
theorem clusters_finite_iff (fuel : Nat) (xs : List (Conv (Ext K))) (hlen : xs.length ≤ fuel)
    (hs : Ordered xs) :
    (clusters fuel xs).2 = true ↔ ∀ c ∈ xs, c.t.isFinite = true := by
  induction fuel generalizing xs with
  | zero =>
      rw [List.eq_nil_of_length_eq_zero (Nat.le_zero.mp hlen)]
      exact iff_of_true rfl fun c hc => absurd hc List.not_mem_nil
  | succ fuel ih =>
      cases xs with
      | nil => exact iff_of_true rfl fun c hc => absurd hc List.not_mem_nil
      | cons c rest =>
          rw [clusters]
          set p := fun d : Conv (Ext K) => decide (d.t - c.t ≤ clusterSpanS) with hp
          have hself := Ext.sub_self_le c.t (25 / 10000) (by norm_num)
          by_cases hc : c.t.isFinite = true
          · have hnear : (c :: rest).takeWhile p = c :: rest.takeWhile p :=
              List.takeWhile_cons_of_pos (decide_eq_true (hself.mpr hc))
            have hcut : (c :: rest).drop ((c :: rest).takeWhile p).length =
                (c :: rest).dropWhile p := by
              nth_rewrite 2 [← List.takeWhile_append_dropWhile (p := p) (l := c :: rest)]
              exact List.drop_left
            have hpos : 0 < ((c :: rest).takeWhile p).length := by
              rw [hnear]
              exact Nat.succ_pos _
            -- What the first time takes with it comes after it and is near it.
            have hfin : ∀ d ∈ (c :: rest).takeWhile p, d.t.isFinite = true := by
              intro d hd
              have hclose := of_decide_eq_true (List.all_eq_true.mp List.all_takeWhile d hd)
              rcases List.mem_cons.mp ((List.takeWhile_sublist _).subset hd) with rfl | hmem
              · exact hc
              · exact Ext.finite_of_near c.t d.t (25 / 10000) span_le_maxFinite (by norm_num) hc
                  ((List.pairwise_cons.mp hs).1 d hmem) hclose
            have hrest := ih _ (by rw [List.length_drop]; omega)
              (hs.sublist (List.drop_sublist ((c :: rest).takeWhile p).length _))
            rw [if_neg (List.length_pos_iff.mp hpos)]
            refine hrest.trans ⟨fun h d hd => ?_, fun h d hd => h d (List.mem_of_mem_drop hd)⟩
            rw [← List.takeWhile_append_dropWhile (p := p) (l := c :: rest), ← hcut] at hd
            rcases List.mem_append.mp hd with hd | hd
            · exact hfin d hd
            · exact h d hd
          · have hhead : ¬ p c = true := fun h => hc (hself.mp (of_decide_eq_true h))
            rw [if_pos (List.takeWhile_cons_of_neg hhead)]
            exact iff_of_false Bool.false_ne_true fun h => hc (h c List.mem_cons_self)

end Times

namespace State

section Hung

variable {F : Type} [F64Fn F]

/-- A group of four members with four times in the clock of one is cut. -/
def Cut (s : State F) (g : Group F) (ref : Nat) : Prop :=
  s.localRef g.members = some ref ∧ 4 ≤ g.members.length ∧
    4 ≤ (s.converted g.members ref g.entries).length

/-- The cut of a group does not advance. -/
def Stuck (s : State F) (g : Group F) : Prop :=
  ∃ ref, s.Cut g ref ∧ ¬ Advances (s.converted g.members ref g.entries)

/-- The conversions of a group depend on pair models and receivers only. -/
theorem stuck_congr (s s' : State F) (hp : s'.pairs = s.pairs) (hr : s'.receivers = s.receivers)
    (g : Group F) : s'.Stuck g ↔ s.Stuck g := by
  have hhop : s'.hop = s.hop := by
    ext1 a
    unfold hop
    rw [hp]
  have hrx : s'.receiver = s.receiver := by
    ext1 i
    unfold receiver
    rw [hr]
  have hconv : s'.converted = s.converted := by
    unfold converted convertEntry toRef
    rw [hhop, hrx]
  have href : s'.localRef = s.localRef := by
    unfold localRef
    rw [hp]
  unfold Stuck Cut
  rw [hconv, href]

theorem solveCluster_hung (solver : Solver F) (s : State F) (nowScaled : F) (icao : Icao)
    (df17 : Bool) (ref : Nat) (cluster : List (Conv F)) :
    (s.solveCluster solver nowScaled icao df17 ref cluster).hung = s.hung := by
  rcases s.solveCluster_cases solver nowScaled icao df17 ref cluster with heq | ⟨_, off, hq⟩
  · rw [heq]
    rfl
  · rw [hq.hung]
    rfl

theorem solveClusters_hung (solver : Solver F) (s : State F) (clock : Nat → F) (icao : Icao)
    (df17 : Bool) (ref : Nat) (cs : List (List (Conv F) × Nat)) :
    (s.solveClusters solver clock icao df17 ref cs).hung = s.hung := by
  unfold solveClusters
  refine List.foldlRecOn cs _ (motive := fun s' : State F => s'.hung = s.hung) rfl ?_
  intro s' h c _
  rw [solveCluster_hung, h]

/-- The solve of a group hangs just when its cut does not advance. -/
theorem solveGroup_hung (solver : Solver F) (s : State F) (clock : Nat → F) (g : Group F)
    (hs : s.hung = false) : (s.solveGroup solver clock g).hung = false ↔ ¬ s.Stuck g := by
  unfold solveGroup
  simp only []
  cases href : s.localRef g.members with
  | none =>
      refine iff_of_true hs ?_
      rintro ⟨ref, ⟨hcut, _⟩, _⟩
      exact absurd (href.symm.trans hcut) (Option.some_ne_none ref).symm
  | some ref =>
      -- The history that the conversion writes is not read by it.
      have hconv : (s.withConverted g.members ref g.entries).converted g.members ref g.entries =
          s.converted g.members ref g.entries := rfl
      have hstuck : s.Stuck g ↔ 4 ≤ g.members.length ∧
          4 ≤ (s.converted g.members ref g.entries).length ∧
          ¬ Advances (s.converted g.members ref g.entries) := by
        constructor
        · rintro ⟨r, ⟨hr, hm, hc⟩, hadv⟩
          rw [Option.some.inj (href.symm.trans hr)]
          exact ⟨hm, hc, hadv⟩
        · rintro ⟨hm, hc, hadv⟩
          exact ⟨ref, ⟨href, hm, hc⟩, hadv⟩
      simp only [hconv]
      rw [hstuck]
      split_ifs with hm hc hend
      · exact iff_of_true hs fun h => by omega
      · exact iff_of_true hs fun h => by omega
      · rw [solveClusters_hung]
        refine iff_of_true hs fun h => h.2.2 ?_
        exact (clusters_ended_iff _).mp hend
      · refine iff_of_false id (not_not.mpr ⟨by omega, by omega, ?_⟩)
        exact fun h => hend ((clusters_ended_iff _).mpr h)

/-- What a sweep does with one key: its group is removed and solved. -/
def solveKey (solver : Solver F) (clock : String → Nat → F) (s : State F) (key : String) :
    State F :=
  match s.groups key with
  | none => s
  | some g =>
    if s.hung then s
    else ({ s with groups := Function.update s.groups key none }).solveGroup solver (clock key) g

theorem solveKey_none (solver : Solver F) (clock : String → Nat → F) (s : State F) (key : String)
    (hkey : s.groups key = none) : s.solveKey solver clock key = s := by
  rw [solveKey, hkey]

theorem solveKey_some (solver : Solver F) (clock : String → Nat → F) (s : State F) (key : String)
    (g : Group F) (hkey : s.groups key = some g) (hs : s.hung = false) :
    s.solveKey solver clock key =
      ({ s with groups := Function.update s.groups key none }).solveGroup solver (clock key) g := by
  rw [solveKey, hkey]
  exact if_neg (by rw [hs]; exact Bool.false_ne_true)

/-- A state that hangs solves nothing more. -/
theorem solves_keep (solver : Solver F) (clock : String → Nat → F) (keys : List String)
    (s : State F) (hs : s.hung = true) :
    (keys.foldl (solveKey solver clock) s).hung = true := by
  refine List.foldlRecOn keys _ (motive := fun s' : State F => s'.hung = true) hs ?_
  intro s' h key _
  unfold solveKey
  split
  · exact h
  · rwa [if_pos h]

/-- Groups solved one after another: the first that is stuck hangs all. -/
theorem solves_hung (solver : Solver F) (clock : String → Nat → F) (keys : List String)
    (s : State F) (hs : s.hung = false) :
    (keys.foldl (solveKey solver clock) s).hung = false ↔
      ∀ key ∈ keys, ∀ g, s.groups key = some g → ¬ s.Stuck g := by
  induction keys generalizing s with
  | nil => exact iff_of_true hs fun key hkey => absurd hkey List.not_mem_nil
  | cons key keys ih =>
      rw [List.foldl_cons, List.forall_mem_cons]
      cases hkey : s.groups key with
      | none =>
          rw [solveKey_none solver clock s key hkey, ih s hs]
          refine (and_iff_right ?_).symm
          exact fun g hg => absurd hg (Option.some_ne_none g).symm
      | some g =>
          rw [solveKey_some solver clock s key g hkey hs]
          set t : State F := { s with groups := Function.update s.groups key none }
          have hgroups : t.groups = Function.update s.groups key none := rfl
          have hframe := (solveGroup_solved solver t (clock key) g).frame
          have hone := solveGroup_hung solver t (clock key) g hs
          have hcongr := fun g' => stuck_congr s (t.solveGroup solver (clock key) g)
            hframe.pairs hframe.receivers g'
          cases hhung : (t.solveGroup solver (clock key) g).hung with
          | false =>
              have hfree : ¬ s.Stuck g := hone.mp hhung
              rw [ih _ hhung, hframe.groups, hgroups]
              refine ⟨fun h => ⟨?_, fun k hk g' hg' => ?_⟩, fun h k hk g' hg' => ?_⟩
              · intro g' hg'
                rwa [← Option.some.inj hg']
              · by_cases hne : k = key
                · rw [hne, hkey] at hg'
                  rwa [← Option.some.inj hg']
                · rw [← hcongr]
                  exact h k hk g' (by rwa [Function.update_of_ne hne])
              · by_cases hne : k = key
                · rw [hne, Function.update_self] at hg'
                  exact absurd hg' (Option.some_ne_none g').symm
                · rw [Function.update_of_ne hne] at hg'
                  rw [hcongr]
                  exact h.2 k hk g' hg'
          | true =>
              have hstuck : s.Stuck g := by
                by_contra hfree
                exact absurd (hone.mpr hfree) (by rw [hhung]; exact Bool.false_ne_true.symm)
              refine iff_of_false ?_ fun h => h.1 g rfl hstuck
              rw [solves_keep solver clock keys _ hhung]
              exact Bool.false_ne_true.symm

/-- In every group a sweep cuts, each turn moves the index. -/
def Advancing (s : State F) : Event F → Prop
  | .sweep now window order _ => ∀ key ∈ order, ∀ g, s.groups key = some g →
      window ≤ now - g.created → ∀ ref, s.Cut g ref →
        Advances (s.converted g.members ref g.entries)
  | _ => True

theorem sweep_hung (solver : Solver F) (s : State F) (now window : Nat) (order : List String)
    (clock : String → Nat → F) (hs : s.hung = false) :
    (s.sweep solver now window order clock).hung = false ↔
      s.Advancing (.sweep now window order clock) := by
  have hsweep := solves_hung solver clock
    (order.filter fun key => (s.groups key).any fun g => decide (window ≤ now - g.created))
    { s with syncpoints := fun k => (s.syncpoints k).filter fun sp =>
        decide (now - sp.created < 4 * 10 ^ 9) } hs
  refine hsweep.trans ⟨fun h key hkey g hg hdue ref hcut => ?_, fun h key hkey g hg => ?_⟩
  · have hready : key ∈ order.filter fun key =>
        (s.groups key).any fun g => decide (window ≤ now - g.created) := by
      rw [List.mem_filter, hg]
      exact ⟨hkey, decide_eq_true hdue⟩
    by_contra hadv
    exact h key hready g hg ⟨ref, hcut, hadv⟩
  · rintro ⟨ref, hcut, hadv⟩
    rcases List.mem_filter.mp hkey with ⟨hkey, hdue⟩
    have hg' : s.groups key = some g := hg
    rw [hg'] at hdue
    exact hadv (h key hkey g hg (of_decide_eq_true hdue) ref hcut)

theorem onMlat_hung (s : State F) (now : Nat) (r : RxRef) (tCounts : F) (mHex : String)
    (atScaled : F) : (s.onMlat now r tCounts mHex atScaled).hung = s.hung := by
  rcases s.onMlat_cases now r tCounts mHex atScaled with heq | ⟨_, alts, g, _, heq⟩
  · rw [heq]
  · rw [heq]

theorem joinSync_hung (s : State F) (now : Nat) (r : RxRef) (te tO : F) (key : String × String) :
    (s.joinSync now r te tO key).hung = s.hung := by
  unfold joinSync
  simp only []
  split_ifs
  · rfl
  · refine List.foldlRecOn _ _ (motive := fun s' : State F => s'.hung = s.hung) rfl ?_
    intro s' h other _
    unfold trainWith
    split_ifs
    · exact h
    · exact h

theorem onSync_hung (s : State F) (now : Nat) (r : RxRef) (et ot : F) (emHex omHex : String)
    (atScaled : F) : (s.onSync now r et ot emHex omHex atScaled).hung = s.hung := by
  unfold onSync
  split_ifs
  · rfl
  · split
    · rfl
    · simp only [joinSync_hung]
      split_ifs
      · exact onMlat_hung _ _ _ _ _ _
      · rfl

theorem removeReceiver_hung (s : State F) (r : RxRef) : (s.removeReceiver r).hung = s.hung := by
  unfold removeReceiver
  split_ifs <;> rfl

theorem addReceiver_hung (s : State F) (info : ReceiverInfo F) :
    (s.addReceiver info).1.hung = s.hung := by
  have htake : ∀ t : State F, (t.takeSlot info).1.hung = t.hung := by
    intro t
    unfold takeSlot
    split <;> rfl
  unfold addReceiver
  simp only [htake]
  split
  · exact removeReceiver_hung s _
  · rfl

/-- A step hangs just when it is a sweep whose loop does not advance. -/
theorem step_hung (solver : Solver F) (s : State F) (e : Event F) (hs : s.hung = false) :
    (s.step solver e).hung = false ↔ s.Advancing e := by
  unfold step
  rw [if_neg (by rw [hs]; exact Bool.false_ne_true)]
  cases e with
  | add info => exact iff_of_true ((addReceiver_hung s info).trans hs) trivial
  | remove r => exact iff_of_true ((removeReceiver_hung s r).trans hs) trivial
  | reset r =>
      refine iff_of_true ?_ trivial
      simp only [clockReset]
      split_ifs <;> exact hs
  | sync now r et ot emHex omHex atScaled =>
      exact iff_of_true ((onSync_hung s now r et ot emHex omHex atScaled).trans hs) trivial
  | mlat now r tCounts mHex atScaled =>
      exact iff_of_true ((onMlat_hung s now r tCounts mHex atScaled).trans hs) trivial
  | stats r => exact iff_of_true ((quiet_receiverStats s r).hung.trans hs) trivial
  | sweep now window order clock => exact sweep_hung solver s now window order clock hs

end Hung

section Finite

variable {K : Type} [Field K] [LinearOrder K] [FloorRing K] [Fns K]

/-- In every group a sweep cuts, each time comes out finite in the clock of the
    reference. -/
def FiniteTimes (s : State (Ext K)) : Event (Ext K) → Prop
  | .sweep now window order _ => ∀ key ∈ order, ∀ g, s.groups key = some g →
      window ≤ now - g.created → ∀ ref, s.Cut g ref →
        ∀ e ∈ g.entries, ∀ t sigma, s.toRef g.members ref e.rx e.tS = some (t, sigma) →
          t.isFinite = true
  | _ => True

theorem ordered_converted (s : State (Ext K)) (members : List Nat) (ref : Nat)
    (es : List (Entry (Ext K))) : Ordered (s.converted members ref es) :=
  Ext.totalOrder.pairwise_sort Conv.t _

variable [IsStrictOrderedRing K]

/-- The loop of a group advances just when its times are finite. -/
theorem advances_iff (s : State (Ext K)) (members : List Nat) (ref : Nat)
    (es : List (Entry (Ext K))) :
    Advances (s.converted members ref es) ↔ ∀ e ∈ es, ∀ t sigma,
      s.toRef members ref e.rx e.tS = some (t, sigma) → t.isFinite = true := by
  rw [← clusters_ended_iff,
    clusters_finite_iff _ _ le_rfl (ordered_converted s members ref es)]
  constructor
  · intro h e he t sigma ht
    refine h { rx := e.rx, t := t, sigma := F64.max sigma (s.receiver e.rx).jitterS
               atScaled := e.atScaled, origin := e.origin } ?_
    rw [converted, List.mem_insertionSort, List.mem_filterMap]
    exact ⟨e, he, by rw [convertEntry, ht, Option.map_some]⟩
  · intro h c hc
    rw [converted, List.mem_insertionSort, List.mem_filterMap] at hc
    rcases hc with ⟨e, he, hc⟩
    rcases Option.map_eq_some_iff.mp hc with ⟨⟨t, sigma⟩, ht, rfl⟩
    exact h e he t sigma ht

theorem advancing_iff (s : State (Ext K)) (e : Event (Ext K)) :
    s.Advancing e ↔ s.FiniteTimes e := by
  cases e with
  | sweep now window order clock => simp only [Advancing, FiniteTimes, advances_iff]
  | add info => exact Iff.rfl
  | remove r => exact Iff.rfl
  | reset r => exact Iff.rfl
  | sync now r et ot emHex omHex atScaled => exact Iff.rfl
  | mlat now r tCounts mHex atScaled => exact Iff.rfl
  | stats r => exact Iff.rfl

end Finite

end State

end Server

end MlatBench
