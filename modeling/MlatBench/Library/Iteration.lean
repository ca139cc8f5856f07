import Mathlib.Data.List.Perm.Basic
import Mathlib.Data.List.Nodup
import Mathlib.Data.List.Dedup

/-!
# Iteration

Maps as functions that are none almost everywhere, and the orders in which a hash
map may hand out what it holds: every key once, in any order.

A result that is put together from the entries in order hangs on the order unless
the parts are all the same.

## Main definitions

* `Iteration`: An order of a map's keys.
* `Iteration.entries`: The keys with what they hold.

## Theorems

* `Iteration.perm`: Two orders are permutations of each other.
* `Iteration.exists_two`: Of two keys each comes first in some order.
* `Iteration.keys_eq`: A single key has one order.
* `Iteration.exists_of_cover`: There is an order.
-/

namespace MlatBench

namespace Library

variable {κ α : Type*}

/-- An order in which a map may be gone through. -/
structure Iteration (m : κ → Option α) where
  keys : List κ
  nodup : keys.Nodup
  mem_keys : ∀ k, k ∈ keys ↔ (m k).isSome = true

namespace Iteration

variable {m : κ → Option α}

/-- The keys with what they hold. -/
def entries (it : Iteration m) : List (κ × α) :=
  it.keys.filterMap fun k => (m k).map fun v => (k, v)

theorem perm (it it' : Iteration m) : it.keys.Perm it'.keys :=
  (List.perm_ext_iff_of_nodup it.nodup it'.nodup).mpr fun k =>
    (it.mem_keys k).trans (it'.mem_keys k).symm

/-- Another order of the same keys. -/
def reorder (it : Iteration m) (keys : List κ) (h : keys.Perm it.keys) : Iteration m where
  keys := keys
  nodup := h.nodup_iff.mpr it.nodup
  mem_keys k := h.mem_iff.trans (it.mem_keys k)

/-- Of two keys each comes first in some order, and the other right after it. -/
theorem exists_two (it : Iteration m) (a b : κ) (ha : (m a).isSome = true)
    (hb : (m b).isSome = true) (hab : a ≠ b) :
    ∃ (rest : List κ) (i j : Iteration m), i.keys = a :: b :: rest ∧ j.keys = b :: a :: rest := by
  classical
  have hmem : a ∈ it.keys := (it.mem_keys a).mpr ha
  have hmem' : b ∈ it.keys.erase a :=
    (List.mem_erase_of_ne hab.symm).mpr ((it.mem_keys b).mpr hb)
  have hperm : (a :: b :: (it.keys.erase a).erase b).Perm it.keys :=
    ((List.perm_cons_erase hmem').symm.cons a).trans (List.perm_cons_erase hmem).symm
  exact ⟨_, it.reorder _ hperm, it.reorder _ ((List.Perm.swap a b _).trans hperm), rfl, rfl⟩

/-- A map that holds one key at most has one order. -/
theorem keys_eq (it it' : Iteration m)
    (h : ∀ a b, (m a).isSome = true → (m b).isSome = true → a = b) : it.keys = it'.keys := by
  have hperm := it.perm it'
  cases hkeys : it.keys with
  | nil =>
      rw [hkeys] at hperm
      exact hperm.nil_eq
  | cons a rest =>
      have hrest : rest = [] := by
        refine List.eq_nil_iff_forall_not_mem.mpr fun b hb => ?_
        have hmem : ∀ c ∈ a :: rest, (m c).isSome = true := fun c hc =>
          (it.mem_keys c).mp (hkeys ▸ hc)
        have heq := h a b (hmem a List.mem_cons_self) (hmem b (List.mem_cons_of_mem _ hb))
        have hnodup : (a :: rest).Nodup := hkeys ▸ it.nodup
        exact (List.nodup_cons.mp hnodup).1 (heq ▸ hb)
      rw [hkeys, hrest] at hperm
      rw [hrest]
      exact List.singleton_perm.mp hperm

/-- A map has an order if a list has all its keys. -/
theorem exists_of_cover [DecidableEq κ] (l : List κ) (h : ∀ k, (m k).isSome = true → k ∈ l) :
    Nonempty (Iteration m) :=
  ⟨{ keys := (l.filter fun k => (m k).isSome).dedup
     nodup := List.nodup_dedup _
     mem_keys := fun k => by
      rw [List.mem_dedup, List.mem_filter]
      exact ⟨fun hk => hk.2, fun hk => ⟨h k hk, hk⟩⟩ }⟩

/-- There are as many entries as keys. -/
theorem length_entries (it : Iteration m) : it.entries.length = it.keys.length := by
  refine List.filterMap_length_eq_length.mpr fun k hk => ?_
  rw [Option.isSome_map]
  exact (it.mem_keys k).mp hk

theorem mem_entries (it : Iteration m) (e : κ × α) : e ∈ it.entries ↔ m e.1 = some e.2 := by
  rw [entries, List.mem_filterMap]
  constructor
  · rintro ⟨k, _, hk⟩
    rcases Option.map_eq_some_iff.mp hk with ⟨v, hv, rfl⟩
    exact hv
  · intro h
    refine ⟨e.1, (it.mem_keys e.1).mpr (h ▸ Option.isSome_some), ?_⟩
    rw [h, Option.map_some]

end Iteration

end Library

end MlatBench
