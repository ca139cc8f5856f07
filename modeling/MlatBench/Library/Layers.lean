import Mathlib.Data.List.Basic

/-!
# Layers

Things drawn one over the other. At a point the last one shows of those that
cover it. If they are drawn in the order of their depth, that is the deepest one.

## Main definitions

* `shown`: What shows at a point.

## Theorems

* `shown_deepest`: The deepest one shows.
* `shown_eq_none`: Nothing shows where nothing covers the point.
-/

namespace MlatBench

namespace Library

variable {α : Type*} (covers : α → Bool)

/-- The last one drawn of those that cover the point. -/
def shown (layers : List α) : Option α :=
  (layers.filter covers).getLast?

theorem shown_mem (layers : List α) (x : α) (h : shown covers layers = some x) :
    x ∈ layers ∧ covers x = true := by
  have hmem := List.mem_of_getLast? h
  rw [List.mem_filter] at hmem
  exact hmem

theorem shown_deepest (depth : α → Nat) (layers : List α)
    (hsorted : layers.Pairwise fun a b => depth a ≤ depth b) (x : α)
    (h : shown covers layers = some x) :
    ∀ y ∈ layers, covers y = true → depth y ≤ depth x := by
  intro y hy hcovers
  rcases List.getLast?_eq_some_iff.mp h with ⟨front, hfront⟩
  have hpair := hsorted.filter (fun a => covers a)
  rw [hfront, List.pairwise_append] at hpair
  have hmem : y ∈ front ++ [x] := by
    rw [← hfront, List.mem_filter]
    exact ⟨hy, hcovers⟩
  rcases List.mem_append.mp hmem with hmem | hmem
  · exact hpair.2.2 y hmem x (List.mem_singleton_self x)
  · exact Nat.le_of_eq (congrArg depth (List.mem_singleton.mp hmem))

theorem shown_eq_none (layers : List α) (h : shown covers layers = none) :
    ∀ y ∈ layers, covers y = false := by
  intro y hy
  have hnil := List.getLast?_eq_none_iff.mp h
  by_contra hcovers
  rw [Bool.not_eq_false] at hcovers
  exact List.not_mem_nil (hnil ▸ List.mem_filter.mpr ⟨hy, hcovers⟩)

end Library

end MlatBench
