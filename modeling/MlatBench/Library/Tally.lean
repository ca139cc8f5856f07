import Mathlib.Algebra.BigOperators.Group.Finset.Basic
import Mathlib.Algebra.GroupWithZero.Nat
import Mathlib.Algebra.Order.BigOperators.Group.Finset
import Mathlib.Data.Finset.Card
import Mathlib.Data.List.Dedup

/-!
# Tallies

Items counted by a key: one sum per key adds up to the whole, counted with
multiplicity or as a set.

## Theorems

* `sum_length_byKey`: Items by key, with multiplicity.
* `sum_card_byKey`: Values by key, as sets.
-/

namespace MlatBench

namespace Library

variable {α β γ : Type*} [DecidableEq β] [DecidableEq γ]

/-- The items of each key add up to all items. -/
theorem sum_length_byKey (l : List α) (key : α → β) :
    ((l.map key).dedup.map fun k => (l.filter fun a => key a = k).length).sum = l.length := by
  have hcount : ∀ k, (l.filter fun a => key a = k).length = (l.map key).count k := by
    intro k
    rw [List.count, List.countP_map, List.countP_eq_length_filter]
    rfl
  simp only [hcount]
  rw [List.sum_map_count_dedup_eq_length, List.length_map]

/-- The distinct values of each key add up to the distinct pairs. -/
theorem sum_card_byKey (l : List α) (key : α → β) (value : α → γ) :
    ((l.map key).dedup.map fun k =>
        ((l.filter fun a => key a = k).map value).toFinset.card).sum =
      (l.map fun a => (key a, value a)).toFinset.card := by
  have hmaps : ∀ p ∈ (l.map fun a => (key a, value a)).toFinset,
      p.1 ∈ (l.map key).dedup.toFinset := by
    intro p hp
    rw [List.mem_toFinset, List.mem_map] at hp
    rcases hp with ⟨a, ha, rfl⟩
    rw [List.mem_toFinset, List.mem_dedup]
    exact List.mem_map_of_mem ha
  rw [Finset.card_eq_sum_card_fiberwise hmaps, List.sum_toFinset _ (List.nodup_dedup _)]
  congr 1
  refine List.map_congr_left fun k _ => ?_
  -- The pairs of a key are its values with the key put back.
  have himage : (l.map fun a => (key a, value a)).toFinset.filter (fun p => p.1 = k) =
      ((l.filter fun a => key a = k).map value).toFinset.image fun v => (k, v) := by
    ext ⟨j, v⟩
    simp only [Finset.mem_filter, List.mem_toFinset, List.mem_map, Prod.mk.injEq, Finset.mem_image,
      List.mem_filter, decide_eq_true_eq]
    constructor
    · rintro ⟨⟨a, ha, hj, hv⟩, hk⟩
      exact ⟨v, ⟨a, ⟨ha, hj.trans hk⟩, hv⟩, hk.symm, rfl⟩
    · rintro ⟨w, ⟨a, ⟨ha, hk⟩, hw⟩, hj, hv⟩
      exact ⟨⟨a, ha, hk.trans hj, hw.trans hv⟩, hj.symm⟩
  rw [himage, Finset.card_image_of_injective _ fun v w h => (Prod.mk.inj h).2]

end Library

end MlatBench
