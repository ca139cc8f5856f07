import Mathlib.Algebra.Order.Field.Basic
import Mathlib.Data.List.Induction
import MlatBench.Library.Ext
import MlatBench.Library.Lists
import MlatBench.Theory.Fixes

/-!
# The Gates in Front of a Fix

A run is a list of calls of `solveCluster`; between two of them everything but
the tracks and the output may change.

An aircraft's track remembers of the attempts since its last fix what the gates
need (`turn_remembers`): when the solver was asked last, when and where the fix
was, and how many answers were refused for their speed, as long as it is less
than five. So the gates speak of pairs of fixes however many attempts lie between
(`attempts_tested`). That much holds in any arithmetic; in exact arithmetic the
tests are the bounds they stand for (`gates_hold`).

## Main definitions

* `refusals`: The answers refused for their speed.
* `Remembers`: What the tracks know of the attempts.
* `Tested`: What is tested at an attempt, given those before.
* `Gated`: What the gates promise of a run.

## Theorems

* `turn_remembers`: The tracks know the last attempt and the last fix.
* `attempts_tested`: What is tested between two attempts.
* `gates_hold`: The gates hold over whole runs.
-/

namespace MlatBench

namespace Server

open Library F64 F64Fn Modes

section

variable {F : Type} [F64Fn F]

/-- The refusals for speed of an aircraft. -/
def refusals (icao : Icao) (as : List (Attempt F)) : Nat :=
  as.countP fun a => a.icao = icao && a.refused

/-- Of the attempts an aircraft's track knows the last one and, as long as no
    five were refused since, the last fix. -/
structure Remembers (as : List (Attempt F)) (s : State F) : Prop where
  attempt : ∀ before a since, as = before ++ a :: since → a.asked = true →
    (∀ b ∈ since, b.icao = a.icao → b.asked = false) →
    (s.trackOf a.icao).lastAttemptScaled = a.nowScaled
  fix : ∀ before a since, as = before ++ a :: since →
    (∀ b ∈ since, b.icao = a.icao → b.fixes = []) → ∀ row ∈ a.fixes,
    (s.trackOf a.icao).lastTimeScaled = a.nowScaled ∧
      (refusals a.icao since < 5 → (s.trackOf a.icao).lastPos = some row.pos ∧
        (s.trackOf a.icao).speedRejects = refusals a.icao since)

/-- What was tested at an attempt, given those before it. -/
structure Tested (as : List (Attempt F)) (b : Attempt F) : Prop where
  apart : ∀ before a since, as = before ++ a :: since → a.icao = b.icao → a.asked = true →
    (∀ m ∈ since, m.icao = a.icao → m.asked = false) → b.asked = true →
    ¬ b.nowScaled - a.nowScaled < resolveBackoffS
  own : ∀ row ∈ b.fixes, row.icao = b.icao
  ceiling : ∀ row ∈ b.fixes, ¬ maxErrM < row.errM
  four : ∀ before a since, as = before ++ a :: since → a.icao = b.icao → a.fixes ≠ [] →
    (∀ m ∈ since, m.icao = a.icao → m.fixes = []) → ∀ row ∈ b.fixes,
    ¬ (row.n = 4 ∧ b.nowScaled - a.nowScaled < lit 30)
  paced : ∀ before a since, as = before ++ a :: since → a.icao = b.icao →
    (∀ m ∈ since, m.icao = a.icao → m.fixes = []) → refusals a.icao since < 5 →
    ∀ last ∈ a.fixes, ∀ row ∈ b.fixes,
      ¬ (b.nowScaled - a.nowScaled) / lit 20 < row.errM / throttleScaleM ∧
      ¬ (b.nowScaled - a.nowScaled < lit 30 ∧ lit (5 / 100) < b.nowScaled - a.nowScaled ∧
        lit 400 < row.pos.haversine last.pos / (b.nowScaled - a.nowScaled))

/-- The gates test against what the track remembers. -/
theorem turn_tested (solver : Solver F) (as : List (Attempt F)) (s : State F) (c : SolveCall F)
    (h : Remembers as s) : Tested as (c.attempt solver s) := by
  have hdid := (turn_spec solver s c).2.1
  generalize (SolveCall.turn solver s c).trackOf c.icao = t' at hdid
  have hicao : (c.attempt solver s).icao = c.icao := rfl
  generalize c.attempt solver s = b at hdid hicao ⊢
  rw [← hicao] at hdid
  -- What is tested against the track is tested against what it remembers.
  refine ⟨?_, fun row hrow => (hdid.row _ _ _ row hrow).1.1,
    fun row hrow => (hdid.row _ _ _ row hrow).2.1, ?_, ?_⟩
  · intro before a since has haicao hasked hsince hb
    rw [← h.attempt before a since has hasked hsince, haicao]
    exact hdid.back _ _ _ hb
  · intro before a since has haicao hne hsince row hrow
    rcases List.exists_mem_of_ne_nil a.fixes hne with ⟨last, hlast⟩
    rw [← (h.fix before a since has hsince last hlast).1, haicao]
    exact (hdid.row _ _ _ row hrow).2.2.1
  · intro before a since has haicao hsince hfew last hlast row hrow
    rcases h.fix before a since has hsince last hlast with ⟨htime, hpos⟩
    have hlastPos := (hpos hfew).1
    rw [haicao] at htime hlastPos
    rcases hdid.row _ _ _ row hrow with ⟨_, _, _, hsoon, hfast⟩
    rw [← htime]
    refine ⟨fun hslow => hsoon ⟨?_, hslow⟩, fun hquick => ?_⟩
    · rw [hlastPos, Option.isSome_some]
    · rw [Track.tooFast, hlastPos, Option.any_some, decide_eq_false_iff_not] at hfast
      exact hfast hquick

/-- The track remembers the call's attempt too. -/
theorem turn_remembers (solver : Solver F) (as : List (Attempt F)) (s : State F) (c : SolveCall F)
    (h : Remembers as s) : Remembers (as ++ [c.attempt solver s]) (SolveCall.turn solver s c) := by
  rcases turn_spec solver s c with ⟨hother, hdid, _⟩
  have hicao : (c.attempt solver s).icao = c.icao := rfl
  generalize c.attempt solver s = b at hdid hicao ⊢
  generalize SolveCall.turn solver s c = s' at hother hdid ⊢
  rw [← hicao] at hother hdid
  refine ⟨?_, ?_⟩
  · intro before a since has hasked hsince
    rcases concat_eq_append_cons as before since b a has with ⟨rfl, rfl, rfl⟩ | ⟨mid, rfl, rfl⟩
    · rw [hdid.attempted, if_pos hasked]
    · have hold := h.attempt before a mid rfl hasked fun m hm =>
        hsince m (List.mem_append_left _ hm)
      by_cases hsame : b.icao = a.icao
      · -- The new attempt is of the aircraft, and did not ask.
        have hno := hsince b (List.mem_append_right _ List.mem_cons_self) hsame
        rw [← hsame] at hold ⊢
        rw [hdid.attempted, hno, if_neg Bool.false_ne_true]
        exact hold
      · rw [hother a.icao fun heq => hsame heq.symm]
        exact hold
  · intro before a since has hsince row hrow
    rcases concat_eq_append_cons as before since b a has with ⟨rfl, rfl, rfl⟩ | ⟨mid, rfl, rfl⟩
    · rcases hdid.fixed _ _ _ row hrow with ⟨htime, hpos, hrejects⟩
      exact ⟨htime, fun _ => ⟨hpos, hrejects⟩⟩
    · have hold := h.fix before a mid rfl (fun m hm => hsince m (List.mem_append_left _ hm)) row hrow
      have hcount : refusals a.icao (mid ++ [b]) = refusals a.icao mid +
          if b.icao = a.icao ∧ b.refused = true then 1 else 0 := by
        rw [refusals, List.countP_append, List.countP_singleton, refusals]
        simp only [Bool.and_eq_true, decide_eq_true_eq]
      rw [hcount]
      by_cases hsame : b.icao = a.icao
      · -- The new attempt is of the aircraft, and published nothing.
        have hno := hsince b (List.mem_append_right _ List.mem_cons_self) hsame
        have hunfixed := hdid.unfixed _ _ _ hno _ rfl
        rw [hsame] at hunfixed
        simp only [hsame, true_and]
        refine ⟨hunfixed.1.trans hold.1, fun hfew => ?_⟩
        -- As few refusals were counted before it, so the position is still known.
        rcases hold.2 (Nat.lt_of_le_of_lt (Nat.le_add_right _ _) hfew) with ⟨hpos, hrejects⟩
        rw [← hrejects] at hfew ⊢
        rcases hunfixed.2 hfew with ⟨hpos', hrejects'⟩
        exact ⟨hpos'.trans hpos, hrejects'⟩
      · rw [hother a.icao fun heq => hsame heq.symm, if_neg fun hand => hsame hand.1, Nat.add_zero]
        exact hold

theorem attempts_append (solver : Solver F) (s : State F) (cs : List (SolveCall F))
    (c : SolveCall F) : attempts solver s (cs ++ [c]) =
      attempts solver s cs ++ [c.attempt solver (exec (SolveCall.turn solver) s cs)] := by
  induction cs generalizing s with
  | nil => rfl
  | cons d cs ih => rw [List.cons_append, attempts, attempts, ih, exec_cons, List.cons_append]

theorem attempts_nowScaled (solver : Solver F) (s : State F) (cs : List (SolveCall F)) :
    (attempts solver s cs).map Attempt.nowScaled = cs.map SolveCall.nowScaled := by
  induction cs generalizing s with
  | nil => rfl
  | cons c cs ih => rw [attempts, List.map_cons, List.map_cons, ih]; rfl

theorem attempts_remember (solver : Solver F) (s : State F) (cs : List (SolveCall F)) :
    Remembers (attempts solver s cs) (exec (SolveCall.turn solver) s cs) := by
  induction cs using List.reverseRecOn with
  | nil =>
      refine ⟨?_, ?_⟩
      · intro before a since has
        exact absurd has.symm (List.append_ne_nil_of_right_ne_nil before (List.cons_ne_nil a since))
      · intro before a since has
        exact absurd has.symm (List.append_ne_nil_of_right_ne_nil before (List.cons_ne_nil a since))
  | append_singleton cs c ih =>
      rw [attempts_append, exec_append, exec_cons, exec_nil]
      exact turn_remembers solver _ _ c ih

/-- Every attempt of a run was tested against those before it. -/
theorem attempts_tested (solver : Solver F) (s : State F) (cs : List (SolveCall F))
    (before after : List (Attempt F)) (b : Attempt F)
    (h : attempts solver s cs = before ++ b :: after) : Tested before b := by
  induction cs using List.reverseRecOn generalizing after with
  | nil =>
      exact absurd h.symm (List.append_ne_nil_of_right_ne_nil before (List.cons_ne_nil b after))
  | append_singleton cs c ih =>
      rw [attempts_append] at h
      -- The attempt is the last one, or one of the run before it.
      rcases concat_eq_append_cons _ before after _ b h with ⟨_, rfl, rfl⟩ | ⟨after', _, hold⟩
      · exact turn_tested solver _ _ c (attempts_remember solver s cs)
      · exact ih after' hold

/-- What the gates promise of a run: the solver is not asked more often than
    every 0.4 s, no fix has an error estimate above ten kilometres, one of four
    receivers follows another only after half a minute, and of two fixes in a
    row the second is neither too soon for its error nor impossibly far, unless
    five were refused between them. -/
structure Gated (as : List (Attempt F)) : Prop where
  apart : ∀ before a since b after, as = (before ++ a :: since) ++ b :: after →
    a.icao = b.icao → a.asked = true → b.asked = true → lit (4 / 10) ≤ b.nowScaled - a.nowScaled
  own : ∀ b ∈ as, ∀ row ∈ b.fixes, row.icao = b.icao
  ceiling : ∀ b ∈ as, ∀ row ∈ b.fixes, row.errM ≤ lit 10000
  four : ∀ before a since b after, as = (before ++ a :: since) ++ b :: after →
    a.icao = b.icao → a.fixes ≠ [] → (∀ m ∈ since, m.icao = a.icao → m.fixes = []) →
    ∀ row ∈ b.fixes, row.n = 4 → lit 30 ≤ b.nowScaled - a.nowScaled
  paced : ∀ before a since b after, as = (before ++ a :: since) ++ b :: after →
    a.icao = b.icao → (∀ m ∈ since, m.icao = a.icao → m.fixes = []) → refusals a.icao since < 5 →
    ∀ last ∈ a.fixes, ∀ row ∈ b.fixes,
      row.errM / lit 1500 ≤ (b.nowScaled - a.nowScaled) / lit 20 ∧
      (lit (5 / 100) < b.nowScaled - a.nowScaled → b.nowScaled - a.nowScaled < lit 30 →
        row.pos.haversine last.pos / (b.nowScaled - a.nowScaled) ≤ lit 400)

end

section Exact

variable {K : Type} [Field K] [LinearOrder K] [IsStrictOrderedRing K] [FloorRing K] [Fns K]

/-- Arithmetic is exact. -/
local instance (priority := low) exactGates : F64Fn K := F64.exactFn K

/-- Whatever the solver answers, in every run of calls at times that do not
    decrease the gates hold. -/
theorem gates_hold (solver : Solver K) (s : State K) (cs : List (SolveCall K))
    (hcs : (cs.map SolveCall.nowScaled).Pairwise (· ≤ ·)) : Gated (attempts solver s cs) := by
  have htested := attempts_tested solver s cs
  have hsorted : ((attempts solver s cs).map Attempt.nowScaled).Pairwise (· ≤ ·) := by
    rw [attempts_nowScaled]
    exact hcs
  generalize attempts solver s cs = as at htested hsorted
  refine ⟨?_, ?_, ?_, ?_, ?_⟩
  · rintro before a since b after rfl hicao ha hb
    -- The last attempt of the aircraft that asked is at least as late as this one.
    rcases none_or_exists_last (fun m : Attempt K => m.icao = a.icao ∧ m.asked = true) since with
      hnone | ⟨ys, m, zs, rfl, ⟨hmicao, hmasked⟩, hzs⟩
    · refine not_lt.mp ((htested _ after b rfl).apart before a since rfl hicao ha ?_ hb)
      intro m hm hmicao
      exact Bool.eq_false_of_not_eq_true fun h => hnone m hm ⟨hmicao, h⟩
    · have hspace := not_lt.mp ((htested _ after b rfl).apart (before ++ a :: ys) m zs
        (by simp only [List.append_assoc, List.cons_append]) (hmicao.trans hicao) hmasked
        (fun z hz hzicao => Bool.eq_false_of_not_eq_true fun h =>
          hzs z hz ⟨hzicao.trans hmicao, h⟩) hb)
      have hle : a.nowScaled ≤ m.nowScaled := by
        simp only [List.map_append, List.map_cons, List.append_assoc, List.cons_append,
          List.pairwise_append, List.pairwise_cons] at hsorted
        exact hsorted.2.1.1 _ (List.mem_append_right _ List.mem_cons_self)
      exact hspace.trans (sub_le_sub_left hle _)
  · intro b hb row hrow
    rcases List.append_of_mem hb with ⟨before, after, rfl⟩
    exact (htested before after b rfl).own row hrow
  · intro b hb row hrow
    rcases List.append_of_mem hb with ⟨before, after, rfl⟩
    exact not_lt.mp ((htested before after b rfl).ceiling row hrow)
  · rintro before a since b after rfl hicao hne hsince row hrow hn
    have hfour := (htested _ after b rfl).four before a since rfl hicao hne hsince row hrow
    exact not_lt.mp fun h => hfour ⟨hn, h⟩
  · rintro before a since b after rfl hicao hsince hfew last hlast row hrow
    rcases (htested _ after b rfl).paced before a since rfl hicao hsince hfew last hlast row hrow
      with ⟨hsoon, hfast⟩
    exact ⟨not_lt.mp hsoon, fun hlo hhi => not_lt.mp fun h => hfast ⟨hhi, hlo, h⟩⟩

/-- Five receivers, and the altitude of every aircraft. -/
def fiveReceivers : State ℚ :=
  { State.new 0 false false with
    receivers := List.replicate 5 ⟨"rx", ⟨0, 0, 0⟩, ⟨0, 0, 0⟩, 12000000, false, 0⟩
    alive := List.replicate 5 true
    altsFt := fun _ => some 35000 }

/-- All of them hear an aircraft. -/
def heardByFive (nowScaled : ℚ) : SolveCall ℚ :=
  { env := fiveReceivers, nowScaled := nowScaled, icao := ⟨0xABCDEF⟩, df17 := false, ref := 0
    cluster := (List.range 5).map fun i => ⟨i, 0, 0, 0, ⟨⟨i, 0⟩, 0⟩⟩ }

/-- It is always found at one place. -/
def hoveringSolver : Solver ℚ := fun _ _ _ =>
  some { pos := ⟨0, 0, 10668⟩, rmsS := 0, errEstM := 60, iterations := 1, tTx := 0, residualsS := [] }

/-- Heard every tenth of a second, its fixes are 0.8 s apart. -/
theorem gates_hold_hovering :
    ((attempts hoveringSolver (State.new 0 false false)
        ((List.range 10).map fun i => heardByFive (10 + i / 10))).map fun a =>
          (a.asked, a.fixes.length)) =
      [(true, 1), (false, 0), (false, 0), (false, 0), (true, 0), (false, 0), (false, 0), (false, 0),
        (true, 1), (false, 0)] ∧
      Gated (attempts hoveringSolver (State.new 0 false false)
        ((List.range 10).map fun i => heardByFive (10 + i / 10))) :=
  ⟨by decide +kernel, gates_hold hoveringSolver (State.new 0 false false)
    ((List.range 10).map fun i => heardByFive (10 + i / 10)) (by decide +kernel)⟩

end Exact

end Server

end MlatBench
