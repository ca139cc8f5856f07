import MlatBench.Library.Runs
import MlatBench.Theory.Fit

/-!
# Refused Observations

What the gate of a pair model does to the fit. An observation is taken in before
the model is warm, let through by the gate, or refused. Refusals only count: the
model that never saw the refused observations is the same but for the counter, and
accepts the same ones. The eighth refusal with none let through in between clears
the model.

Of two clocks that differ by an offset and a rate nothing is refused, and the line
is theirs. That is so in exact arithmetic; the rest holds for every rounding.

## Main definitions

* `PairModel.Verdict`, `PairModel.verdict`: What becomes of an observation.
* `PairModel.Patient`: No eight refusals without one let through in between.
* `PairModel.streak`: The refusals since one was let through.
* `PairModel.take`, `PairModel.verdicts`, `PairModel.accepted`: Runs.
* `PairModel.Inert`: A run and the run over what it accepted.
* `PairModel.readings`, `PairModel.Clean`: Exact clocks and their model.

## Theorems

* `PairModel.patient_append`: One verdict more.
* `PairModel.push_refused`, `PairModel.push_gated`, `PairModel.push_free`: One
  observation.
* `PairModel.refused_inert`: Refused observations do not move the fit.
* `PairModel.Clean.push`: One more reading of exact clocks.
* `PairModel.exact_clocks`: Exact clocks are recovered.
-/

namespace MlatBench

namespace Server

open Library F64 F64Fn

namespace PairModel

/-- What becomes of an observation: taken in by a model that is not warm, let
    through by the gate, or refused. -/
inductive Verdict where
  | free
  | gated
  | refused
deriving DecidableEq

/-- No eight refusals without one let through in between. -/
def Patient (vs : List Verdict) : Prop :=
  ∀ ws, ws <:+: vs → Verdict.gated ∉ ws → ws.count .refused < 8

/-- The refusals since the gate let one through. -/
def streak (vs : List Verdict) : Nat :=
  vs.foldl (fun n v => match v with
    | .free => n
    | .gated => 0
    | .refused => n + 1) 0

theorem streak_free (vs : List Verdict) : streak (vs ++ [.free]) = streak vs := by
  rw [streak, List.foldl_append]
  rfl

theorem streak_gated (vs : List Verdict) : streak (vs ++ [.gated]) = 0 := by
  rw [streak, List.foldl_append]
  rfl

theorem streak_refused (vs : List Verdict) : streak (vs ++ [.refused]) = streak vs + 1 := by
  rw [streak, List.foldl_append]
  rfl

/-- The streak is the most refusals at the end with none let through. -/
theorem count_le_streak (vs ws : List Verdict) (hws : ws <:+ vs) (hgated : Verdict.gated ∉ ws) :
    ws.count .refused ≤ streak vs := by
  induction vs using List.reverseRecOn generalizing ws with
  | nil =>
      rw [List.suffix_nil.mp hws]
      exact Nat.zero_le _
  | append_singleton vs v ih =>
      -- The part is empty, or ends with the last verdict.
      rcases List.suffix_concat_iff.mp hws with rfl | ⟨us, rfl, hus⟩
      · exact Nat.zero_le _
      · have hold := ih us hus fun h => hgated (List.mem_append_left _ h)
        rw [List.count_append]
        cases v with
        | free =>
            rw [streak_free]
            exact hold
        | gated => exact absurd (List.mem_append_right _ (List.mem_singleton.mpr rfl)) hgated
        | refused =>
            rw [streak_refused]
            exact Nat.succ_le_succ hold

theorem exists_streak (vs : List Verdict) :
    ∃ ws, ws <:+ vs ∧ Verdict.gated ∉ ws ∧ ws.count .refused = streak vs := by
  induction vs using List.reverseRecOn with
  | nil => exact ⟨[], List.suffix_rfl, List.not_mem_nil, rfl⟩
  | append_singleton vs v ih =>
      rcases ih with ⟨ws, hws, hgated, hcount⟩
      have hsuffix : ws ++ [v] <:+ vs ++ [v] := by
        rcases hws with ⟨us, rfl⟩
        exact ⟨us, by rw [List.append_assoc]⟩
      have hnot : v ≠ .gated → Verdict.gated ∉ ws ++ [v] := by
        intro hv hmem
        rcases List.mem_append.mp hmem with h | h
        · exact hgated h
        · exact hv (List.mem_singleton.mp h).symm
      cases v with
      | free =>
          refine ⟨ws ++ [.free], hsuffix, hnot (by decide), ?_⟩
          rw [streak_free, List.count_append, hcount]
          rfl
      | gated => exact ⟨[], List.nil_suffix, List.not_mem_nil, (streak_gated vs).symm⟩
      | refused =>
          refine ⟨ws ++ [.refused], hsuffix, hnot (by decide), ?_⟩
          rw [streak_refused, List.count_append, hcount]
          rfl

/-- One verdict more. -/
theorem patient_append (vs : List Verdict) (v : Verdict) :
    Patient (vs ++ [v]) ↔ Patient vs ∧ streak (vs ++ [v]) < 8 := by
  constructor
  · intro h
    refine ⟨fun ws hws => h ws (hws.trans (List.prefix_append vs [v]).isInfix), ?_⟩
    rcases exists_streak (vs ++ [v]) with ⟨ws, hws, hgated, hcount⟩
    rw [← hcount]
    exact h ws hws.isInfix hgated
  · rintro ⟨hold, hstreak⟩ ws hws hgated
    -- A part is at the end, or was one before.
    rcases List.infix_concat_iff.mp hws with hsuffix | hinfix
    · exact lt_of_le_of_lt (count_le_streak _ ws hsuffix hgated) hstreak
    · exact hold ws hinfix hgated

theorem Patient.streak_lt (vs : List Verdict) (h : Patient vs) : streak vs < 8 := by
  rcases exists_streak vs with ⟨ws, hws, hgated, hcount⟩
  rw [← hcount]
  exact h ws hws.isInfix hgated

section Push

variable {F : Type} [F64Fn F]

/-- The model after one observation. -/
def take (m : PairModel F) (o : F × F) : PairModel F :=
  (m.push o.1 o.2).1

def verdict (m : PairModel F) (o : F × F) : Verdict :=
  if (m.push o.1 o.2).2 = false then .refused else if m.usable then .gated else .free

/-- What becomes of each of some observations. -/
def verdicts (m : PairModel F) : List (F × F) → List Verdict
  | [] => []
  | o :: os => m.verdict o :: (m.take o).verdicts os

/-- Those that are not refused. -/
def accepted (m : PairModel F) : List (F × F) → List (F × F)
  | [] => []
  | o :: os =>
    if m.verdict o = .refused then (m.take o).accepted os else o :: (m.take o).accepted os

theorem verdicts_append (m : PairModel F) (os ps : List (F × F)) :
    m.verdicts (os ++ ps) = m.verdicts os ++ (exec take m os).verdicts ps := by
  induction os generalizing m with
  | nil => rfl
  | cons o os ih => rw [List.cons_append, verdicts, ih, verdicts, List.cons_append, exec_cons]

theorem accepted_append (m : PairModel F) (os ps : List (F × F)) :
    m.accepted (os ++ ps) = m.accepted os ++ (exec take m os).accepted ps := by
  induction os generalizing m with
  | nil => rfl
  | cons o os ih =>
      rw [List.cons_append, accepted, ih, accepted, exec_cons]
      split_ifs
      · rfl
      · rfl

/-- A refusal counts, or clears the model. -/
theorem push_refused (m : PairModel F) (o : F × F) (h : m.verdict o = .refused) :
    m.take o =
      if resetAfterRejects ≤ m.rejects + 1 then default else { m with rejects := m.rejects + 1 } := by
  unfold verdict at h
  unfold take
  split_ifs at h with hrefused
  unfold push at hrefused ⊢
  by_cases husable : m.usable = true
  · rw [if_pos husable] at hrefused ⊢
    simp only [] at hrefused ⊢
    split_ifs at hrefused ⊢
    · rfl
    · rfl
  · rw [if_neg husable] at hrefused
    exact absurd hrefused (by simp only [Bool.true_eq_false, not_false_eq_true])

/-- The scatter after an observation the gate lets through. -/
def scatter (m : PairModel F) (o : F × F) : F :=
  let r := o.2 - (m.predictUnchecked o.1).1
  m.msq + (lit 1 - lambda) * (r * r - m.msq)

/-- Past the gate an observation is taken in, and the refusals are forgotten. -/
theorem push_gated (m : PairModel F) (o : F × F) (h : m.verdict o = .gated) :
    m.take o = ({ m with rejects := 0, msq := m.scatter o }).ingest o.1 o.2 := by
  unfold verdict at h
  split_ifs at h with hrefused husable
  unfold take scatter
  unfold push at hrefused ⊢
  rw [if_pos husable] at hrefused ⊢
  simp only [] at hrefused ⊢
  split_ifs at hrefused ⊢
  · exact absurd rfl hrefused
  · exact absurd rfl hrefused
  · rfl

theorem push_free (m : PairModel F) (o : F × F) (h : m.verdict o = .free) :
    m.take o = m.ingest o.1 o.2 := by
  unfold verdict at h
  split_ifs at h with hrefused husable
  unfold take push
  rw [if_neg husable]

/-- An observation is refused by a warm model that it is too far from. -/
def refuses (m : PairModel F) (o : F × F) : Bool :=
  m.usable && decide (F64.max (lit 4 * sqrt m.msq) gateFloorS <
    F64.abs (o.2 - (m.predictUnchecked o.1).1))

theorem push_refuses (m : PairModel F) (o : F × F) : (m.push o.1 o.2).2 = !m.refuses o := by
  unfold push refuses
  cases m.usable with
  | true =>
      rw [if_pos rfl, Bool.true_and]
      simp only []
      split_ifs with hfar
      · rw [decide_eq_true hfar, Bool.not_true]
      · rw [decide_eq_true hfar, Bool.not_true]
      · rw [decide_eq_false hfar, Bool.not_false]
  | false =>
      rw [if_neg Bool.false_ne_true]
      rfl

/-- The verdict does not look at the counter. -/
theorem verdict_rejects (m : PairModel F) (n : Nat) (o : F × F) :
    ({ m with rejects := n } : PairModel F).verdict o = m.verdict o := by
  unfold verdict
  rw [push_refuses, push_refuses]
  rfl

/-- The same sums, and any counter. -/
def Same (m n : PairModel F) : Prop :=
  { m with rejects := n.rejects } = n

theorem Same.verdict {m n : PairModel F} (h : Same m n) (o : F × F) :
    m.verdict o = n.verdict o := by
  rw [← h]
  exact (m.verdict_rejects n.rejects o).symm

/-- Models with the same sums take in an observation alike. -/
theorem Same.take {m n : PairModel F} (h : Same m n) (o : F × F)
    (ho : m.verdict o ≠ .refused) : Same (m.take o) (n.take o) := by
  have hn := h.verdict o
  cases hv : m.verdict o with
  | refused => exact absurd hv ho
  | free =>
      rw [push_free m o hv, push_free n o (hn.symm.trans hv)]
      rw [← h]
      rfl
  | gated =>
      rw [push_gated m o hv, push_gated n o (hn.symm.trans hv)]
      rw [← h]
      rfl

theorem take_rejects (m : PairModel F) (o : F × F) (ho : m.verdict o ≠ .refused) :
    (m.take o).rejects = if m.verdict o = .gated then 0 else m.rejects := by
  cases hv : m.verdict o with
  | refused => exact absurd hv ho
  | free =>
      rw [push_free m o hv]
      rfl
  | gated =>
      rw [push_gated m o hv]
      rfl

/-- A patient run so far: the counter is the streak, and the run over what was
    accepted has the same sums and accepted all of it. -/
structure Inert (os : List (F × F)) : Prop where
  counted : (exec take default os).rejects = streak (default.verdicts os)
  same : Same (exec take default os) (exec take default (default.accepted os))
  accepts : default.verdicts (default.accepted os) =
    (default.verdicts os).filter fun v => decide (v ≠ .refused)

theorem inert_nil : Inert ([] : List (F × F)) :=
  ⟨rfl, rfl, rfl⟩

theorem verdicts_concat (m : PairModel F) (os : List (F × F)) (o : F × F) :
    m.verdicts (os ++ [o]) = m.verdicts os ++ [(exec take m os).verdict o] :=
  verdicts_append m os [o]

theorem exec_concat (m : PairModel F) (os : List (F × F)) (o : F × F) :
    exec take m (os ++ [o]) = (exec take m os).take o :=
  exec_append take m os [o]

/-- A refusal leaves the sums alone, if it is not the eighth. -/
theorem Inert.refused {os : List (F × F)} (h : Inert os) (o : F × F)
    (ho : (exec take default os).verdict o = .refused)
    (hpatient : Patient (default.verdicts (os ++ [o]))) : Inert (os ++ [o]) := by
  rw [verdicts_concat, ho, patient_append, streak_refused, ← h.counted] at hpatient
  have htake := push_refused _ o ho
  have hfew : ¬ resetAfterRejects ≤ (exec take default os).rejects + 1 :=
    Nat.not_le.mpr hpatient.2
  rw [if_neg hfew] at htake
  have haccepted : default.accepted (os ++ [o]) = default.accepted os := by
    rw [accepted_append, accepted, if_pos ho, accepted, List.append_nil]
  -- The run over what was accepted does not see the observation.
  refine ⟨?_, ?_, ?_⟩
  · rw [exec_concat, htake, verdicts_concat, ho, streak_refused, ← h.counted]
  · rw [exec_concat, htake, haccepted]
    exact h.same
  · rw [haccepted, h.accepts, verdicts_concat, ho, List.filter_append]
    exact (List.append_nil _).symm

/-- What is not refused is taken in by both models. -/
theorem Inert.taken {os : List (F × F)} (h : Inert os) (o : F × F)
    (ho : (exec take default os).verdict o ≠ .refused) : Inert (os ++ [o]) := by
  have haccepted : default.accepted (os ++ [o]) = default.accepted os ++ [o] := by
    rw [accepted_append, accepted, if_neg ho, accepted]
  -- Both runs take the observation in, into like sums.
  refine ⟨?_, ?_, ?_⟩
  · rw [exec_concat, verdicts_concat, take_rejects _ o ho]
    cases hv : (exec take default os).verdict o with
    | refused => exact absurd hv ho
    | free =>
        rw [streak_free, ← h.counted]
        rfl
    | gated =>
        rw [streak_gated]
        rfl
  · rw [exec_concat, haccepted, exec_concat]
    exact h.same.take o ho
  · rw [haccepted, verdicts_concat, h.accepts, verdicts_concat, List.filter_append,
      ← h.same.verdict o]
    rw [List.filter_singleton, decide_eq_true ho]
    rfl

theorem inert (os : List (F × F)) (h : Patient (default.verdicts os)) : Inert os := by
  induction os using List.reverseRecOn with
  | nil => exact inert_nil
  | append_singleton os o ih =>
      have hold := h
      rw [verdicts_concat, patient_append] at hold
      by_cases ho : (exec take default os).verdict o = .refused
      · exact (ih hold.1).refused o ho h
      · exact (ih hold.1).taken o ho

/-- Without eight refusals in a row that none let through interrupts, the model is
    the one of the accepted observations alone but for the counter, and these are
    accepted there too; with the eighth the model is new. -/
theorem refused_inert (os : List (F × F)) (hpatient : Patient (default.verdicts os)) :
    { exec take default os with rejects := (exec take default (default.accepted os)).rejects } =
        exec take default (default.accepted os) ∧
      default.verdicts (default.accepted os) =
        (default.verdicts os).filter (fun v => decide (v ≠ .refused)) ∧
      ∀ o, ¬ Patient (default.verdicts (os ++ [o])) → exec take default (os ++ [o]) = default := by
  have h := inert os hpatient
  refine ⟨h.same, h.accepts, fun o ho => ?_⟩
  rw [verdicts_concat, patient_append, not_and] at ho
  have hstreak := ho hpatient
  have hold := hpatient.streak_lt
  -- Only a refusal makes the streak longer.
  have hv : (exec take default os).verdict o = .refused := by
    cases hv : (exec take default os).verdict o with
    | refused => rfl
    | free =>
        rw [hv, streak_free] at hstreak
        exact absurd hold hstreak
    | gated =>
        rw [hv, streak_gated] at hstreak
        exact absurd (Nat.zero_lt_succ 7) hstreak
  rw [hv, streak_refused, ← h.counted] at hstreak
  have hfull : resetAfterRejects ≤ (exec take default os).rejects + 1 := Nat.le_of_not_lt hstreak
  rw [exec_concat, push_refused _ o hv, if_pos hfull]

end Push

theorem patient_of_count (vs : List Verdict) (h : vs.count .refused < 8) : Patient vs := by
  intro ws hws _
  exact lt_of_le_of_lt (hws.sublist.count_le .refused) h

/-- Nine observations of two like clocks, one far off, and one more. -/
def spoiled : List (ℚ × ℚ) :=
  (List.range 9).map (fun i => (10 * (i : ℚ), 10 * (i : ℚ))) ++ [(45, 46), (90, 90)]

theorem spoiled_patient : Patient (default.verdicts spoiled) :=
  patient_of_count _ (by decide +kernel)

/-- The one far off is refused, and the model is that of the other ten. -/
theorem refused_inert_spoiled :
    default.accepted spoiled = spoiled.eraseIdx 9 ∧
      { exec take default spoiled with
          rejects := (exec take default (default.accepted spoiled)).rejects } =
        exec take default (default.accepted spoiled) :=
  ⟨by decide +kernel, (refused_inert spoiled spoiled_patient).1⟩

section Exact

variable {K : Type} [Field K] [LinearOrder K] [IsStrictOrderedRing K] [FloorRing K] [Fns K]

/-- Arithmetic is exact. -/
local instance (priority := low) exactRefusals : F64Fn K := F64.exactFn K

/-- Readings of two clocks that differ by an offset and a rate. -/
def readings (α β : K) (ts : List K) : List (K × K) :=
  ts.map fun a => (a, α + β * a)

/-- A model of such readings: their sums, no scatter, and none refused. -/
structure Clean (α β : K) (ts : List K) (m : PairModel K) : Prop where
  batch : Batch m (readings α β ts)
  msq : m.msq = 0
  rejects : m.rejects = 0
  nTotal : m.nTotal = ts.length

omit [IsStrictOrderedRing K] in
theorem clean_default (α β : K) : Clean α β [] (default : PairModel K) :=
  ⟨batch_default, Rat.cast_zero, rfl, rfl⟩

/-- A warm model has spread. -/
theorem caa_pos (m : PairModel K) (h : m.usable = true) : 0 < m.caa := by
  unfold usable at h
  rw [decide_eq_true_eq] at h
  have hspread : (0 : K) < ((5 : ℚ) : K) / ((4 : ℚ) : K) * (((5 : ℚ) : K) / ((4 : ℚ) : K)) := by
    norm_num
  have hmax : (0 : K) < Max.max m.w ((1 : ℚ) : K) :=
    lt_of_lt_of_le (by norm_num) (le_max_right _ _)
  have hquot : 0 < m.caa / Max.max m.w ((1 : ℚ) : K) := lt_of_lt_of_le hspread h.2
  rcases div_pos_iff.mp hquot with h | h
  · exact h.1
  · exact absurd h.2 (not_lt.mpr hmax.le)

/-- The line of a warm model of such readings is theirs. -/
theorem Clean.line {α β : K} {ts : List K} {m : PairModel K} (h : Clean α β ts m)
    (hm : m.usable = true) (t : K) : (m.predictUnchecked t).1 = α + β * t := by
  have hcaa := caa_pos m hm
  have hon : ∀ o ∈ readings α β ts, o.2 = α + β * o.1 := by
    intro o ho
    rcases List.mem_map.mp ho with ⟨a, _, rfl⟩
    rfl
  have hne : readings α β ts ≠ [] := by
    intro hnil
    rw [h.batch.caa, hnil] at hcaa
    exact absurd hcaa (lt_irrefl 0)
  have hL := (lambda_pos : 0 < (lambda : K)).le
  have hslope : m.slope = β := by
    rw [slope, if_pos hcaa, h.batch.cab, h.batch.caa,
      moment_affine lambda hL Prod.fst Prod.snd α β _ hon, ← h.batch.caa]
    exact mul_div_cancel_right₀ β hcaa.ne'
  rw [(h.batch.line).2, hslope, mean_affine lambda hL Prod.fst Prod.snd α β _ hne hon]
  ring

/-- One more reading is on the line, and is taken in. -/
theorem Clean.push {α β : K} {ts : List K} {m : PairModel K} (h : Clean α β ts m) (a : K) :
    m.verdict (a, α + β * a) ≠ .refused ∧
      Clean α β (ts ++ [a]) (m.take (a, α + β * a)) := by
  have hbatch : ∀ n : PairModel K, Batch n (readings α β ts) →
      Batch (n.ingest a (α + β * a)) (readings α β (ts ++ [a])) := by
    intro n hn
    unfold readings
    rw [List.map_append]
    exact hn.ingest a (α + β * a)
  have hcount : m.nTotal + 1 = (ts ++ [a]).length := by
    rw [h.nTotal, List.length_append, List.length_singleton]
  -- A warm model predicts the reading.
  have hzero : m.usable = true → α + β * a - (m.predictUnchecked a).1 = 0 := by
    intro hm
    rw [h.line hm, sub_self]
  have hverdict : m.verdict (a, α + β * a) ≠ .refused := by
    unfold verdict
    rw [push_refuses]
    have hrefuses : m.refuses (a, α + β * a) = false := by
      unfold refuses
      cases hm : m.usable with
      | false => rfl
      | true =>
          rw [Bool.true_and, hzero hm]
          -- The reading is not off at all, and the gate is never narrower than its floor.
          refine decide_eq_false (not_lt.mpr ?_)
          have habs : F64.abs (0 : K) = |0| := abs_exact 0
          rw [habs, abs_zero]
          change 0 ≤ Max.max (((4 : ℚ) : K) * Fns.sqrt m.msq) ((1 / 1000000 : ℚ) : K)
          exact le_trans (by norm_num) (le_max_right _ _)
    rw [hrefuses, Bool.not_false, if_neg (by decide)]
    split_ifs
    · decide
    · decide
  refine ⟨hverdict, ?_⟩
  cases hv : m.verdict (a, α + β * a) with
  | refused => exact absurd hv hverdict
  | free =>
      rw [push_free m _ hv]
      exact ⟨hbatch m h.batch, h.msq, h.rejects, hcount⟩
  | gated =>
      have hm : m.usable = true := by
        unfold verdict at hv
        split_ifs at hv with _ hm
        exact hm
      have hscatter : m.scatter (a, α + β * a) = 0 := by
        unfold scatter
        simp only [hzero hm, h.msq]
        ring
      rw [push_gated m _ hv]
      exact ⟨hbatch _ ⟨h.batch.w, h.batch.ma, h.batch.mb, h.batch.caa, h.batch.cab⟩, hscatter, rfl,
        hcount⟩

theorem clean_run (α β : K) (ts : List K) :
    (∀ v ∈ default.verdicts (readings α β ts), v ≠ .refused) ∧
      Clean α β ts (exec take default (readings α β ts)) := by
  induction ts using List.reverseRecOn with
  | nil => exact ⟨fun v hv => absurd hv List.not_mem_nil, clean_default α β⟩
  | append_singleton ts a ih =>
      have hsplit : readings α β (ts ++ [a]) = readings α β ts ++ [(a, α + β * a)] :=
        List.map_append
      rcases ih.2.push a with ⟨hverdict, hclean⟩
      rw [hsplit, verdicts_concat, exec_concat]
      refine ⟨fun v hv => ?_, hclean⟩
      rcases List.mem_append.mp hv with h | h
      · exact ih.1 v h
      · rw [List.mem_singleton.mp h]
        exact hverdict

/-- Of clocks that differ by an offset and a rate no reading is refused and the
    model is never cleared; it converts once it is warm, and then exactly. -/
theorem exact_clocks (hsqrt : Fns.sqrt (0 : K) = 0) (α β : K) (ts : List K) :
    (∀ v ∈ default.verdicts (readings α β ts), v ≠ .refused) ∧
      (exec take default (readings α β ts)).nTotal = ts.length ∧
      ∀ t, (exec take default (readings α β ts)).convert t =
        if (exec take default (readings α β ts)).usable then some (α + β * t, 0) else none := by
  rcases clean_run α β ts with ⟨hverdicts, hclean⟩
  refine ⟨hverdicts, hclean.nTotal, fun t => ?_⟩
  generalize exec take default (readings α β ts) = m at hclean ⊢
  unfold convert
  cases hm : m.usable with
  | false => rfl
  | true =>
      -- Without scatter the prediction has no uncertainty.
      have hsigma : (m.predictUnchecked t).2 = 0 := by
        change Fns.sqrt m.msq * _ = 0
        rw [hclean.msq, hsqrt, zero_mul]
      have hline := hclean.line hm t
      have hsmall : ¬ (maxPredSigmaS : K) < (m.predictUnchecked t).2 := by
        rw [hsigma]
        change ¬ ((2 / 1000000 : ℚ) : K) < 0
        norm_num
      rw [if_neg (by decide), if_neg hsmall, if_pos rfl, ← hline, ← hsigma]

/-- A clock that is half a millisecond and ten parts in a million ahead, after nine
    readings ten seconds apart. -/
theorem exact_clocks_warm :
    (exec take default (readings (1 / 2000 : ℚ) (100001 / 100000)
        ((List.range 9).map fun i => 10 * (i : ℚ)))).convert 100 =
      some (1 / 2000 + 100001 / 100000 * 100, 0) := by
  have hwarm : (exec take default (readings (1 / 2000 : ℚ) (100001 / 100000)
      ((List.range 9).map fun i => 10 * (i : ℚ)))).usable = true := by decide +kernel
  have hline := (exact_clocks (by decide +kernel) (1 / 2000 : ℚ) (100001 / 100000)
    ((List.range 9).map fun i => 10 * (i : ℚ))).2.2 100
  exact hline.trans (if_pos hwarm)

end Exact

end PairModel

end Server

end MlatBench
