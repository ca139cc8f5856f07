import MlatBench.Library.Batches
import MlatBench.Theory.ColdStart
import MlatBench.Theory.Csv

/-!
# Reports Are Solved Once

The reports of a message are collected in the group of its text. The first one
opens the group, and the first sweep that finds it as old as the window removes it
and solves it. A later report of the same text opens another group.

So of each text the reports a shard has taken are those of the groups it solved,
one behind the other, and those that wait (`reports_solved_once`). A sweep solves
each group that is old enough once, and no other.

## Main definitions

* `State.takes`: A message is taken.
* `State.reportsAt`, `State.solvedAt`: What is taken and solved at a call.
* `Gathers`: A group has the reports, and is as old as the first.

## Theorems

* `onMlat_groups`, `onSync_groups`: A report.
* `solvedFor_under`, `sweep_solves`: A sweep.
* `step_moves`: Any call.
* `reports_solved_once`: A run.
-/

namespace MlatBench

namespace Server

open Library F64 F64Fn Modes

variable {F : Type} [F64Fn F]

namespace State

/-- The aircraft of a message the shard locates. -/
def heard (s : State F) (m : List UInt8) : Option Icao :=
  if dfOf m = some 17 then
    if s.mlatAdsb = false then none else (parseDf17Airborne m).map fun d => d.icao
  else if dfOf m = some 4 then (parseDf4 m).map Prod.fst
  else if dfOf m = some 11 then parseDf11 m
  else none

/-- A message of a receiver is taken. -/
def takes (s : State F) (r : RxRef) (mHex : String) : Bool :=
  s.live r && ((hexDecode mHex).bind s.heard).isSome

/-- The report of a message. -/
def entryOf (s : State F) (r : RxRef) (tCounts atScaled : F) : Entry F :=
  { rx := r.idx, tS := tCounts / (s.receiver r.idx).freqHz, atScaled := atScaled
    origin := s.originOf r }

/-- The reports taken at a call, each under its text and with the time. -/
def reportsAt (s : State F) (e : Event F) : List (String × Nat × Entry F) :=
  if s.hung then []
  else
    match e with
    | .mlat now r tCounts mHex atScaled =>
      if s.takes r mHex then [(mHex, now, s.entryOf r tCounts atScaled)] else []
    | .sync now r et _ emHex omHex atScaled =>
      if s.mlatAdsb && (syncEvent (F := F) emHex omHex).isSome && s.takes r emHex then
        [(emHex, now, s.entryOf r et atScaled)]
      else []
    | _ => []

/-- The groups solved for some keys. -/
def solvedFor (solver : Solver F) (clock : String → Nat → F) (s : State F) (keys : List String) :
    List (String × Group F) :=
  (visits (solveKey solver clock) s keys).filterMap fun v =>
    if v.1.hung then none else (v.1.groups v.2).map fun g => (v.2, g)

/-- The groups solved at a call, each under its text. -/
def solvedAt (solver : Solver F) (s : State F) (e : Event F) : List (String × Group F) :=
  if s.hung then []
  else
    match e with
    | .sweep now window order clock =>
      solvedFor solver clock (s.sweepStart now) ((s.sweepStart now).sweepReady now window order)
    | _ => []

/-- What stands under a key. -/
def under {α : Type} (key : String) (xs : List (String × α)) : List α :=
  (xs.filter fun x => x.1 = key).map Prod.snd

/-- A report has joined the group of its text, which is opened if there was none. -/
def Gathered (s s' : State F) (now : Nat) (key : String) (entry : Entry F) : Prop :=
  ∃ icao df17, s'.groups = Function.update s.groups key (some
    { ((s.groups key).getD ⟨now, icao, df17, []⟩) with
      entries := ((s.groups key).getD ⟨now, icao, df17, []⟩).entries ++ [entry] })

/-- A message that is not taken changes no group; else its report joins one. -/
theorem onMlat_groups (s : State F) (now : Nat) (r : RxRef) (tCounts : F) (mHex : String)
    (atScaled : F) :
    (s.takes r mHex = false ∧ (s.onMlat now r tCounts mHex atScaled).groups = s.groups) ∨
      (s.takes r mHex = true ∧ Gathered s (s.onMlat now r tCounts mHex atScaled) now mHex
        (s.entryOf r tCounts atScaled)) := by
  unfold onMlat takes
  cases hlive : s.live r with
  | false => exact Or.inl ⟨rfl, rfl⟩
  | true =>
      rw [if_neg (by decide), Bool.true_and]
      cases hexDecode mHex with
      | none => exact Or.inl ⟨rfl, rfl⟩
      | some m =>
          rw [Option.bind_some]
          simp only []
          split
          · next hknown =>
              refine Or.inl ⟨?_, rfl⟩
              rw [Option.isSome_eq_false_iff, Option.isNone_iff_eq_none]
              unfold heard
              split at hknown
              · next hdf =>
                  rw [if_pos hdf]
                  split_ifs at hknown ⊢
                  · rfl
                  · rwa [Option.map_eq_none_iff] at hknown ⊢
              · next hdf =>
                  rw [if_neg (by rw [hdf]; decide), if_pos hdf]
                  split at hknown
                  · next hparse => rw [hparse]; rfl
                  · exact absurd hknown (Option.some_ne_none _)
                  · exact absurd hknown (Option.some_ne_none _)
              · next hdf =>
                  rw [if_neg (by rw [hdf]; decide), if_neg (by rw [hdf]; decide), if_pos hdf]
                  rwa [Option.map_eq_none_iff] at hknown
              · next h17 h4 h11 => rw [if_neg h17, if_neg h4, if_neg h11]
          · next icao s' hknown =>
              -- Whatever the format, the message is heard, and at most an altitude is learned.
              have hheard : (s.heard m).isSome = true ∧ ∃ alts, s' = { s with altsFt := alts } := by
                unfold heard
                split at hknown
                · next hdf =>
                    rw [if_pos hdf]
                    split_ifs at hknown ⊢
                    rcases Option.map_eq_some_iff.mp hknown with ⟨d, hparse, hd⟩
                    rw [hparse]
                    exact ⟨rfl, s.altsFt, (Prod.mk.inj hd).2.symm⟩
                · next hdf =>
                    rw [if_neg (by rw [hdf]; decide), if_pos hdf]
                    split at hknown
                    · exact absurd hknown (Option.some_ne_none _).symm
                    · next hparse =>
                        rw [hparse]
                        exact ⟨rfl, _, (Prod.mk.inj (Option.some.inj hknown)).2.symm⟩
                    · next hparse =>
                        rw [hparse]
                        exact ⟨rfl, s.altsFt, (Prod.mk.inj (Option.some.inj hknown)).2.symm⟩
                · next hdf =>
                    rw [if_neg (by rw [hdf]; decide), if_neg (by rw [hdf]; decide), if_pos hdf]
                    rcases Option.map_eq_some_iff.mp hknown with ⟨d, hparse, hd⟩
                    rw [hparse]
                    exact ⟨rfl, s.altsFt, (Prod.mk.inj hd).2.symm⟩
                · exact absurd hknown (Option.some_ne_none _).symm
              rcases hheard with ⟨hheard, alts, rfl⟩
              exact Or.inr ⟨hheard, icao, decide ((m.getD 0 0) >>> 3 = 17), rfl⟩

/-- A sync message does the same with its even message, if such messages are located. -/
theorem onSync_groups (s : State F) (now : Nat) (r : RxRef) (et ot : F) (emHex omHex : String)
    (atScaled : F) :
    ((s.mlatAdsb && (syncEvent (F := F) emHex omHex).isSome && s.takes r emHex) = false ∧
        (s.onSync now r et ot emHex omHex atScaled).groups = s.groups) ∨
      ((s.mlatAdsb && (syncEvent (F := F) emHex omHex).isSome && s.takes r emHex) = true ∧
        Gathered s (s.onSync now r et ot emHex omHex atScaled) now emHex
          (s.entryOf r et atScaled)) := by
  unfold onSync
  cases hlive : s.live r with
  | false =>
      refine Or.inl ⟨?_, rfl⟩
      rw [takes, hlive, Bool.false_and, Bool.and_false]
  | true =>
      rw [if_neg (by decide)]
      cases syncEvent (F := F) emHex omHex with
      | none => exact Or.inl ⟨by rw [Option.isSome_none, Bool.and_false, Bool.false_and], rfl⟩
      | some d =>
          rcases d with ⟨de, pe, po⟩
          simp only [Option.isSome_some, Bool.and_true]
          generalize (⟨pe.1, pe.2, _⟩ : Geodetic F) = geo
          unfold Gathered
          rw [joinSync_groups]
          have hadsb : (s.noteAdsb de geo atScaled).mlatAdsb = s.mlatAdsb := rfl
          rw [hadsb]
          cases s.mlatAdsb with
          | false => exact Or.inl ⟨rfl, rfl⟩
          | true =>
              rw [if_pos rfl, Bool.true_and]
              -- What is noted of the aircraft does not matter to its group.
              exact (s.noteAdsb de geo atScaled).onMlat_groups now r et emHex atScaled

/-- What a group is solved with: its reports, and the time of the first. -/
def Gathers (g : Group F) (xs : List (Nat × Entry F)) : Prop :=
  xs.map Prod.snd = g.entries ∧ xs.head?.map Prod.fst = some g.created

omit [F64Fn F] in
/-- A report is a move of the group of its text, and of no other. -/
theorem gathered_moves (s s' : State F) (now : Nat) (key : String) (entry : Entry F)
    (h : Gathered s s' now key entry) (k : String) :
    Moves Gathers (s.groups k) (s'.groups k) (under k [(key, now, entry)]) [] := by
  rcases h with ⟨icao, df17, hgroups⟩
  rw [hgroups]
  by_cases hk : k = key
  · subst hk
    have hone : under k [(k, now, entry)] = [(now, entry)] := by
      rw [under, List.filter_cons, if_pos (decide_eq_true rfl)]
      rfl
    rw [hone, Function.update_self]
    cases s.groups k with
    | none => exact Moves.opens _ _ ⟨rfl, rfl⟩
    | some g =>
        refine Moves.joins _ _ _ fun xs hxs => ⟨?_, ?_⟩
        · rw [List.map_append, hxs.1]
          rfl
        · cases xs with
          | nil => exact absurd hxs.2.symm (Option.some_ne_none _)
          | cons x xs => exact hxs.2
  · have hnone : under k [(key, now, entry)] = [] := by
      rw [under, List.filter_cons, if_neg (by rw [decide_eq_true_eq]; exact fun heq => hk heq.symm)]
      rfl
    rw [hnone, Function.update_of_ne hk]
    exact Moves.idle _

/-- A key whose group is there, while nothing hangs: the group is removed and solved. -/
theorem solvedFor_cons (solver : Solver F) (clock : String → Nat → F) (s : State F) (key : String)
    (keys : List String) :
    (solvedFor solver clock s (key :: keys) = solvedFor solver clock s keys ∧
        s.solveKey solver clock key = s ∧ (s.hung = true ∨ s.groups key = none)) ∨
      ∃ g, s.hung = false ∧ s.groups key = some g ∧
        (s.solveKey solver clock key).groups = Function.update s.groups key none ∧
        solvedFor solver clock s (key :: keys) =
          (key, g) :: solvedFor solver clock (s.solveKey solver clock key) keys := by
  unfold solvedFor
  rw [visits, List.filterMap_cons]
  cases hhung : s.hung with
  | true =>
      have hsame : s.solveKey solver clock key = s := by
        unfold solveKey
        split
        · rfl
        · rw [if_pos hhung]
      refine Or.inl ⟨?_, hsame, Or.inl rfl⟩
      simp only [if_true, hsame]
  | false =>
      cases hkey : s.groups key with
      | none =>
          have hsame := solveKey_none solver clock s key hkey
          refine Or.inl ⟨?_, hsame, Or.inr rfl⟩
          simp only [Bool.false_eq_true, if_false, Option.map_none, hsame]
      | some g =>
          have hsolve := solveKey_some solver clock s key g hkey hhung
          have hframe := (solveGroup_solved solver
            { s with groups := Function.update s.groups key none } (clock key) g).frame.groups
          refine Or.inr ⟨g, rfl, rfl, by rw [hsolve]; exact hframe, ?_⟩
          simp only [Bool.false_eq_true, if_false, Option.map_some]

theorem under_cons {α : Type} (key k : String) (x : α) (xs : List (String × α)) :
    under key ((k, x) :: xs) = if k = key then x :: under key xs else under key xs := by
  unfold under
  rw [List.filter_cons]
  by_cases hk : k = key
  · rw [if_pos (decide_eq_true hk), if_pos hk]
    rfl
  · rw [if_neg (by rwa [decide_eq_true_eq]), if_neg hk]

/-- The group of a text is solved once or stays. -/
theorem solvedFor_under (solver : Solver F) (clock : String → Nat → F) (keys : List String)
    (s : State F) (key : String) :
    (under key (solvedFor solver clock s keys) = [] ∧
        (exec (solveKey solver clock) s keys).groups key = s.groups key) ∨
      ∃ g, s.groups key = some g ∧ under key (solvedFor solver clock s keys) = [g] ∧
        (exec (solveKey solver clock) s keys).groups key = none := by
  induction keys generalizing s with
  | nil => exact Or.inl ⟨rfl, rfl⟩
  | cons k keys ih =>
      rw [exec_cons]
      rcases solvedFor_cons solver clock s k keys with ⟨hlog, hsame, _⟩ |
        ⟨g, _, hg, hgroups, hlog⟩
      · rw [hlog, hsame]
        exact ih s
      · rw [hlog, under_cons]
        have hrest := ih (s.solveKey solver clock k)
        rw [hgroups] at hrest
        by_cases hk : k = key
        · -- Nothing is left under the text.
          subst hk
          rw [Function.update_self] at hrest
          rcases hrest with ⟨hnil, hnone⟩ | ⟨g', hg', _⟩
          · rw [if_pos rfl, hnil]
            exact Or.inr ⟨g, hg, rfl, hnone⟩
          · exact absurd hg' (Option.some_ne_none g').symm
        · rw [Function.update_of_ne (Ne.symm hk)] at hrest
          rwa [if_neg hk]

/-- What is solved was visited. -/
theorem solvedFor_not_mem (solver : Solver F) (clock : String → Nat → F) (keys : List String)
    (s : State F) (key : String) (hkey : key ∉ keys) :
    under key (solvedFor solver clock s keys) = [] := by
  rw [under, List.map_eq_nil_iff, List.filter_eq_nil_iff]
  intro x hx heq
  rcases List.mem_filterMap.mp hx with ⟨v, hv, hsome⟩
  have hvisited : v.2 ∈ keys := by
    have hin := List.mem_map_of_mem (f := Prod.snd) hv
    rwa [map_snd_visits] at hin
  split_ifs at hsome
  rcases Option.map_eq_some_iff.mp hsome with ⟨g, _, rfl⟩
  exact hkey (of_decide_eq_true heq ▸ hvisited)

/-- Unless the shard hangs, no group stays whose key is visited. -/
theorem solved_none (solver : Solver F) (clock : String → Nat → F) (keys : List String)
    (s : State F) (key : String) (hkey : key ∈ keys)
    (hend : (exec (solveKey solver clock) s keys).hung = false) :
    (exec (solveKey solver clock) s keys).groups key = none := by
  induction keys generalizing s with
  | nil => exact absurd hkey List.not_mem_nil
  | cons k keys ih =>
      rw [exec_cons] at hend ⊢
      by_cases hin : key ∈ keys
      · exact ih _ hin hend
      · have hk : key = k := (List.mem_cons.mp hkey).resolve_right hin
        have hnone : (s.solveKey solver clock k).groups key = none := by
          rcases solvedFor_cons solver clock s k keys with ⟨_, hsame, hhung | hnone⟩ |
            ⟨g, _, _, hgroups, _⟩
          · -- A shard that hangs does so to the end.
            rw [hsame] at hend
            exact absurd (hend.symm.trans (solves_keep solver clock keys s hhung)) (by decide)
          · rw [hsame, hk]
            exact hnone
          · rw [hgroups, hk, Function.update_self]
        rcases solvedFor_under solver clock keys (s.solveKey solver clock k) key with
          ⟨_, hstay⟩ | ⟨g, hg, _⟩
        · rw [hstay, hnone]
        · exact absurd (hnone.symm.trans hg) (Option.some_ne_none g).symm

/-- Any call moves the group of a text. -/
theorem step_moves (solver : Solver F) (s : State F) (e : Event F) (key : String) :
    Moves Gathers (s.groups key) ((s.step solver e).groups key) (under key (s.reportsAt e))
      (under key (s.solvedAt solver e)) := by
  unfold step reportsAt solvedAt
  split_ifs with hhung
  · exact Moves.idle _
  · have hidle : ∀ s' : State F, s'.groups = s.groups →
        Moves Gathers (s.groups key) (s'.groups key) [] [] := by
      intro s' hs'
      rw [hs']
      exact Moves.idle _
    cases e with
    | add info => exact hidle _ (sheds_addReceiver s info).groups
    | remove r => exact hidle _ (sheds_removeReceiver s r).groups
    | reset r => exact hidle _ (clockReset_groups s r)
    | stats r => exact hidle _ (quiet_receiverStats s r).groups
    | mlat now r tCounts mHex atScaled =>
        simp only []
        rcases s.onMlat_groups now r tCounts mHex atScaled with ⟨htakes, hsame⟩ | ⟨htakes, hjoin⟩
        · rw [htakes]
          exact hidle _ hsame
        · rw [htakes, if_pos rfl]
          exact gathered_moves s _ now mHex _ hjoin key
    | sync now r et ot emHex omHex atScaled =>
        simp only []
        rcases s.onSync_groups now r et ot emHex omHex atScaled with ⟨htakes, hsame⟩ |
          ⟨htakes, hjoin⟩
        · rw [htakes]
          exact hidle _ hsame
        · rw [htakes, if_pos rfl]
          exact gathered_moves s _ now emHex _ hjoin key
    | sweep now window order clock =>
        simp only []
        rw [sweep_eq]
        rcases solvedFor_under solver clock ((s.sweepStart now).sweepReady now window order)
          (s.sweepStart now) key with ⟨hnil, hstay⟩ | ⟨g, hg, hone, hnone⟩
        · rw [hstay]
          change Moves _ _ _ _ (under key (solvedFor solver clock _ _))
          rw [hnil]
          exact Moves.idle _
        · have hwas : s.groups key = some g := hg
          rw [hwas, hnone]
          change Moves _ _ _ _ (under key (solvedFor solver clock _ _))
          rw [hone]
          exact Moves.taken g

/-- A sweep solves the groups that are old enough and keeps the others. -/
theorem sweep_solves (solver : Solver F) (s : State F) (now window : Nat) (order : List String)
    (clock : String → Nat → F) (key : String) (g : Group F) (hg : s.groups key = some g)
    (hhung : s.hung = false) (hkey : key ∈ order)
    (hend : (s.step solver (.sweep now window order clock)).hung = false) :
    (window ≤ now - g.created →
        under key (s.solvedAt solver (.sweep now window order clock)) = [g] ∧
          (s.step solver (.sweep now window order clock)).groups key = none) ∧
      (now - g.created < window →
        under key (s.solvedAt solver (.sweep now window order clock)) = [] ∧
          (s.step solver (.sweep now window order clock)).groups key = some g) := by
  unfold step solvedAt at *
  rw [if_neg (by rw [hhung]; decide)] at hend ⊢
  rw [if_neg (by rw [hhung]; decide)]
  simp only [] at hend ⊢
  rw [sweep_eq] at hend ⊢
  have hwas : (s.sweepStart now).groups key = some g := hg
  have hready : key ∈ (s.sweepStart now).sweepReady now window order ↔
      window ≤ now - g.created := by
    rw [sweepReady, List.mem_filter, hwas]
    exact ⟨fun h => of_decide_eq_true h.2, fun h => ⟨hkey, decide_eq_true h⟩⟩
  rcases solvedFor_under solver clock ((s.sweepStart now).sweepReady now window order)
    (s.sweepStart now) key with ⟨hnil, hstay⟩ | ⟨g', hg', hone, hnone⟩
  · refine ⟨fun hold => ?_, fun _ => ⟨hnil, hstay.trans hwas⟩⟩
    have hnone := solved_none solver clock _ (s.sweepStart now) key (hready.mpr hold) hend
    rw [hstay, hwas] at hnone
    exact absurd hnone (Option.some_ne_none g)
  · rw [hwas, Option.some.injEq] at hg'
    subst hg'
    refine ⟨fun _ => ⟨hone, hnone⟩, fun hyoung => ?_⟩
    -- A key that is not visited is not solved.
    have hout : key ∉ (s.sweepStart now).sweepReady now window order := fun h => by
      have hold := hready.mp h
      omega
    rw [solvedFor_not_mem solver clock _ (s.sweepStart now) key hout] at hone
    exact absurd hone (List.cons_ne_nil g []).symm

/-- In any run, of each text the reports taken are those of the groups solved, in
    order and each as old as its first report, and behind them those that wait. A sweep
    that goes through all texts solves each group as old as the window once and leaves
    the others, unless it hangs. -/
theorem reports_solved_once (solver : Solver F) (shardId : Nat) (mlatAdsb emitFiltered : Bool)
    (es : List (Event F)) (key : String) :
    (∃ bs rest,
      journal (step solver) (fun s e => under key (s.reportsAt e))
          (State.new shardId mlatAdsb emitFiltered) es = bs.flatten ++ rest ∧
        List.Forall₂ Gathers (journal (step solver) (fun s e => under key (s.solvedAt solver e))
          (State.new shardId mlatAdsb emitFiltered) es) bs ∧
        Remains Gathers ((exec (step solver) (State.new shardId mlatAdsb emitFiltered) es).groups key)
          rest) ∧
      ∀ s, s = exec (step solver) (State.new shardId mlatAdsb emitFiltered) es →
        ∀ g, s.groups key = some g → ∀ now window order clock, s.hung = false → key ∈ order →
          (s.step solver (.sweep now window order clock)).hung = false →
          (window ≤ now - g.created →
              under key (s.solvedAt solver (.sweep now window order clock)) = [g] ∧
                (s.step solver (.sweep now window order clock)).groups key = none) ∧
            (now - g.created < window →
              under key (s.solvedAt solver (.sweep now window order clock)) = [] ∧
                (s.step solver (.sweep now window order clock)).groups key = some g) :=
  ⟨batches_partition Gathers (step solver) (fun s => s.groups key) _ _
      (fun s e => s.step_moves solver e key) _ rfl es,
    fun s _ g hg now window order clock hhung hkey hend =>
      s.sweep_solves solver now window order clock key g hg hhung hkey hend⟩

section Example

/-- Four reports of one reply wait for a sweep. -/
def waiting : State ℚ :=
  exec (step namedSolver) (State.new 0 false false) (namedRun ["a", "b", "c", "d"]).dropLast

/-- A sweep of the reply's text, with a window of a second. -/
def sweepAt (now : Nat) : Event ℚ :=
  .sweep now 1000000000 ["5d3c6444dc6d6a"] fun _ _ => 101

/-- The group is as old as the window a second after its first report, and not before. -/
theorem reports_solved_once_waiting :
    ∃ g, waiting.groups "5d3c6444dc6d6a" = some g ∧
      under "5d3c6444dc6d6a" (waiting.solvedAt namedSolver (sweepAt 1001000000000)) = [g] ∧
      (waiting.step namedSolver (sweepAt 1001000000000)).groups "5d3c6444dc6d6a" = none ∧
      under "5d3c6444dc6d6a" (waiting.solvedAt namedSolver (sweepAt 1000500000000)) = [] ∧
      (waiting.step namedSolver (sweepAt 1000500000000)).groups "5d3c6444dc6d6a" = some g := by
  have hcreated : (waiting.groups "5d3c6444dc6d6a").map Group.created = some 1000000000000 := by
    decide +kernel
  rcases Option.map_eq_some_iff.mp hcreated with ⟨g, hg, hage⟩
  have hsweep := (reports_solved_once namedSolver 0 false false
    (namedRun ["a", "b", "c", "d"]).dropLast "5d3c6444dc6d6a").2 waiting rfl g hg
  have hhung : waiting.hung = false := by decide +kernel
  have hold := (hsweep 1001000000000 1000000000 ["5d3c6444dc6d6a"] (fun _ _ => 101) hhung
    List.mem_cons_self (by decide +kernel)).1 (by omega)
  have hyoung := (hsweep 1000500000000 1000000000 ["5d3c6444dc6d6a"] (fun _ _ => 101) hhung
    List.mem_cons_self (by decide +kernel)).2 (by omega)
  unfold sweepAt
  exact ⟨g, hg, hold.1, hold.2, hyoung.1, hyoung.2⟩

end Example

end State

end Server

end MlatBench
