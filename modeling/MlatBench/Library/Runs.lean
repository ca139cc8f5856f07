import Mathlib.Logic.Basic
import Mathlib.Data.List.Basic
import Mathlib.Data.List.Perm.Basic

/-!
# Runs

Systems as step functions on a state and an event. All choice, of the order of
steps as of what the environment does, is in the list of events. A run is the
fold of the step; `Along` says that a condition on state and event holds at
every step of it.

## Main definitions

* `exec`: The state a list of events leads to.
* `Along`: A condition holds at every step.
* `visits`: The states a run goes through, with its events.
* `turn`: A party among several takes its next step on a shared state.
* `translate`: The events of another system that those of a run come to.

## Theorems

* `exec_append`: Runs compose.
* `along_append`: Conditions along composed runs.
* `Along.mono`: A weaker condition holds too.
* `Along.invariant`: What every step keeps, a run keeps.
* `along_iff_take`: What decides every step decides the run.
* `visits_invariant`: What every step keeps holds on the way.
* `exec_turn`: What the parties have done together is a run in some order.
* `exec_translate`: If each step is matched by what it comes to, so is a run.
-/

namespace MlatBench

namespace Library

variable {S E : Type*} (step : S → E → S)

/-- The state a list of events leads to. -/
def exec (s : S) (es : List E) : S :=
  es.foldl step s

/-- A condition holds at every step of a run. -/
def Along (P : S → E → Prop) : S → List E → Prop
  | _, [] => True
  | s, e :: es => P s e ∧ Along P (step s e) es

instance instDecidableAlong (P : S → E → Prop) [∀ s e, Decidable (P s e)] :
    ∀ s es, Decidable (Along step P s es)
  | _, [] => isTrue trivial
  | s, e :: es =>
      have := instDecidableAlong P (step s e) es
      inferInstanceAs (Decidable (P s e ∧ Along step P (step s e) es))

theorem exec_nil (s : S) : exec step s [] = s := rfl

theorem exec_cons (s : S) (e : E) (es : List E) :
    exec step s (e :: es) = exec step (step s e) es := rfl

theorem exec_append (s : S) (es ds : List E) :
    exec step s (es ++ ds) = exec step (exec step s es) ds :=
  List.foldl_append

theorem along_append (P : S → E → Prop) (s : S) (es ds : List E) :
    Along step P s (es ++ ds) ↔ Along step P s es ∧ Along step P (exec step s es) ds := by
  induction es generalizing s with
  | nil => simp only [List.nil_append, Along, true_and, exec_nil]
  | cons e es ih =>
      simp only [List.cons_append, Along, ih, exec_cons]
      tauto

theorem Along.mono (P Q : S → E → Prop) (hPQ : ∀ s e, P s e → Q s e) (s : S) (es : List E)
    (h : Along step P s es) : Along step Q s es := by
  induction es generalizing s with
  | nil => trivial
  | cons e es ih => exact ⟨hPQ s e h.1, ih _ h.2⟩

theorem along_of_forall (P : S → E → Prop) (s : S) (es : List E) (h : ∀ e ∈ es, ∀ s, P s e) :
    Along step P s es := by
  induction es generalizing s with
  | nil => trivial
  | cons e es ih =>
      exact ⟨h e List.mem_cons_self s, ih _ fun d hd => h d (List.mem_cons_of_mem e hd)⟩

/-- What every step under the condition keeps holds after the run. -/
theorem Along.invariant (P : S → E → Prop) (I : S → Prop)
    (hstep : ∀ s e, I s → P s e → I (step s e)) (s : S) (es : List E) (hs : I s)
    (h : Along step P s es) : I (exec step s es) := by
  induction es generalizing s with
  | nil => exact hs
  | cons e es ih => exact ih _ (hstep s e hs h.1) h.2

/-- If a condition decides whether a step stays good, it decides along a run
    whether all its states are good. -/
theorem along_iff_take (P : S → E → Prop) (I : S → Prop)
    (hstep : ∀ s e, I s → (I (step s e) ↔ P s e)) (s : S) (es : List E) (hs : I s) :
    (∀ n, I (exec step s (es.take n))) ↔ Along step P s es := by
  constructor
  · intro h
    induction es generalizing s with
    | nil => trivial
    | cons e es ih =>
        have hone : I (step s e) := h 1
        exact ⟨(hstep s e hs).mp hone, ih _ hone fun n => h (n + 1)⟩
  · intro h n
    induction n generalizing s es with
    | zero => exact hs
    | succ n ih =>
        cases es with
        | nil => exact hs
        | cons e es => exact ih _ es ((hstep s e hs).mpr h.1) h.2

/-- The state before each event of a run, with the event. -/
def visits : S → List E → List (S × E)
  | _, [] => []
  | s, e :: es => (s, e) :: visits (step s e) es

theorem map_snd_visits (s : S) (es : List E) : (visits step s es).map Prod.snd = es := by
  induction es generalizing s with
  | nil => rfl
  | cons e es ih => rw [visits, List.map_cons, ih]

/-- What every step keeps holds before each of them. -/
theorem visits_invariant (I : S → Prop) (hstep : ∀ s e, I s → I (step s e)) (s : S) (es : List E)
    (hs : I s) : ∀ v ∈ visits step s es, I v.1 := by
  induction es generalizing s with
  | nil => exact fun v hv => absurd hv List.not_mem_nil
  | cons e es ih =>
      intro v hv
      rcases List.mem_cons.mp hv with rfl | hv
      · exact hs
      · exact ih (step s e) (hstep s e hs) v hv

/-- A party takes its next step on the shared state, if it has one left. -/
def turn (s : S × List (List E)) (party : Nat) : S × List (List E) :=
  match s.2[party]? with
  | some (e :: es) => (step s.1 e, s.2.set party es)
  | _ => s

/-- One step goes from what is to come to what was done. -/
theorem flatten_set_tail (rest : List (List E)) (party : Nat) (e : E) (es : List E)
    (h : rest[party]? = some (e :: es)) : (e :: (rest.set party es).flatten).Perm rest.flatten := by
  induction rest generalizing party with
  | nil => exact absurd h.symm (Option.some_ne_none _)
  | cons xs rest ih =>
      cases party with
      | zero =>
          cases h
          exact List.Perm.refl _
      | succ party =>
          rw [List.set_cons_succ, List.flatten_cons, List.flatten_cons]
          exact List.perm_middle.symm.trans ((ih party h).append_left xs)

/-- After any turns the shared state is that of a run of what was done, and what was
    done and what is left is what there was. -/
theorem exec_turn (s : S) (rest : List (List E)) (turns : List Nat) :
    ∃ done, (exec (turn step) (s, rest) turns).1 = exec step s done ∧
      (done ++ (exec (turn step) (s, rest) turns).2.flatten).Perm rest.flatten := by
  induction turns generalizing s rest with
  | nil => exact ⟨[], rfl, List.Perm.refl _⟩
  | cons party turns ih =>
      rw [exec_cons, turn]
      cases hparty : rest[party]? with
      | none => exact ih s rest
      | some stream =>
          cases stream with
          | nil => exact ih s rest
          | cons e es =>
              rcases ih (step s e) (rest.set party es) with ⟨done, hrun, hperm⟩
              refine ⟨e :: done, hrun, ?_⟩
              exact (hperm.cons e).trans (flatten_set_tail rest party e es hparty)

section

variable {T D : Type*} (other : T → D → T) (tr : S → E → List D)

/-- The events of another system that those of a run come to. -/
def translate : S → List E → List D
  | _, [] => []
  | s, e :: es => tr s e ++ translate (step s e) es

theorem translate_append (s : S) (es ds : List E) :
    translate step tr s (es ++ ds) = translate step tr s es ++ translate step tr (exec step s es) ds := by
  induction es generalizing s with
  | nil => rfl
  | cons e es ih => rw [List.cons_append, translate, translate, ih, List.append_assoc, exec_cons]

/-- If the other system keeps up with each step, it keeps up with a run. -/
theorem exec_translate (R : S → T → Prop)
    (hstep : ∀ s t e, R s t → R (step s e) (exec other t (tr s e))) (s : S) (t : T) (es : List E)
    (h : R s t) : R (exec step s es) (exec other t (translate step tr s es)) := by
  induction es generalizing s t with
  | nil => exact h
  | cons e es ih =>
      rw [exec_cons, translate, exec_append]
      exact ih (step s e) (exec other t (tr s e)) (hstep s t e h)

end

end Library

end MlatBench
