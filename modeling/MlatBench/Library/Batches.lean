import Mathlib.Data.List.Forall2
import Mathlib.Data.List.Induction
import MlatBench.Library.Runs

/-!
# Batches

Items that are collected and taken together. A batch is opened by the first item,
later ones join it, and it is taken as a whole; the next item opens another. So
the items are the batches that were taken, one behind the other, and behind them
those that still wait. None is lost, none is in two batches.

What a batch holds is a relation, as a batch may keep something else of its items
than the items. What happens at the steps of a run is a journal.

## Main definitions

* `journal`: What happens at the steps of a run.
* `Moves`: What a step may do with the batch that waits.
* `Remains`: What is left behind the batches taken.

## Theorems

* `journal_append`: Journals of composed runs.
* `batches_partition`: The items of a run are those of the batches taken and those
  that wait.
-/

namespace MlatBench

namespace Library

section

variable {S E α : Type*} (step : S → E → S) (note : S → E → List α)

/-- What happens at the steps of a run, in order. -/
def journal : S → List E → List α
  | _, [] => []
  | s, e :: es => note s e ++ journal (step s e) es

theorem journal_append (s : S) (es ds : List E) :
    journal step note s (es ++ ds) =
      journal step note s es ++ journal step note (exec step s es) ds := by
  induction es generalizing s with
  | nil => rfl
  | cons e es ih => rw [List.cons_append, journal, journal, ih, List.append_assoc, exec_cons]

theorem journal_singleton (s : S) (e : E) : journal step note s [e] = note s e :=
  List.append_nil _

end

variable {α β : Type*} (Holds : β → List α → Prop)

/-- What a step may do with the batch that waits: nothing, open one, have an item
    join, or take it. -/
inductive Moves : Option β → Option β → List α → List β → Prop where
  | idle (b : Option β) : Moves b b [] []
  | opens (x : α) (b : β) (h : Holds b [x]) : Moves none (some b) [x] []
  | joins (x : α) (b b' : β) (h : ∀ xs, Holds b xs → Holds b' (xs ++ [x])) :
      Moves (some b) (some b') [x] []
  | taken (b : β) : Moves (some b) none [] [b]

/-- The items that wait: those of the batch there is. -/
def Remains (b : Option β) (xs : List α) : Prop :=
  match b with
  | none => xs = []
  | some b => Holds b xs

/-- The items of a run are those of the batches taken, and those that wait. -/
theorem batches_partition {S E : Type*} (step : S → E → S) (waiting : S → Option β)
    (put : S → E → List α) (took : S → E → List β)
    (hmoves : ∀ s e, Moves Holds (waiting s) (waiting (step s e)) (put s e) (took s e))
    (s : S) (hs : waiting s = none) (es : List E) :
    ∃ bs rest, journal step put s es = bs.flatten ++ rest ∧
      List.Forall₂ Holds (journal step took s es) bs ∧
      Remains Holds (waiting (exec step s es)) rest := by
  -- From the end: the last step changes the items that wait, or makes them a batch.
  induction es using List.reverseRecOn with
  | nil => exact ⟨[], [], rfl, List.Forall₂.nil, by rw [exec_nil, hs]; rfl⟩
  | append_singleton es e ih =>
      rcases ih with ⟨bs, rest, hput, htook, hwaits⟩
      rw [journal_append, journal_append, journal_singleton, journal_singleton, exec_append,
        exec_cons, exec_nil, hput]
      have hmove := hmoves (exec step s es) e
      revert hmove hwaits
      generalize waiting (step (exec step s es) e) = after
      generalize waiting (exec step s es) = before
      generalize put (exec step s es) e = xs
      generalize took (exec step s es) e = ts
      intro hwaits hmove
      cases hmove with
      | idle =>
          exact ⟨bs, rest, List.append_nil _, by rwa [List.append_nil], hwaits⟩
      | opens x b h =>
          have hrest : rest = [] := hwaits
          refine ⟨bs, [x], ?_, by rwa [List.append_nil], h⟩
          rw [hrest, List.append_nil]
      | joins x b b' h =>
          exact ⟨bs, rest ++ [x], List.append_assoc _ _ _, by rwa [List.append_nil], h rest hwaits⟩
      | taken b =>
          refine ⟨bs ++ [rest], [], ?_, ?_, rfl⟩
          · rw [List.flatten_append, List.flatten_singleton]
          · exact List.rel_append htook (List.Forall₂.cons hwaits List.Forall₂.nil)

end Library

end MlatBench
