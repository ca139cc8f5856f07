import Mathlib.Data.Finset.Basic
import Mathlib.Data.List.Basic
import Mathlib.Data.List.Nodup

/-!
# A Filter with a Bounded Memory

Keys pass that are not among the last so many that passed. The filter remembers
them twice, as a set to look keys up in and as a queue that says which to forget
first.

What it is to let through is said without either: a key passes if it is not among
the last ones (`passes`). Both memories hold just these (`Tracks`), so the filter
does what it is to do, and of two equal keys that passed one came more than the
bound behind the other (`spaced_concat`).

## Main definitions

* `Recent`: The memory.
* `Recent.offer`: The filter at one key.
* `lastOf`: The last so many of a list.
* `passes`: A key is to pass.
* `Recent.Tracks`: The memory holds the last keys that passed.
* `Spaced`: Equal keys are far from each other.

## Theorems

* `lastOf_concat`: The last ones of those and one more.
* `Recent.evict_spec`: What is forgotten.
* `Recent.offer_tracks`: One key.
* `spaced_concat`: Equal keys stay far from each other.
-/

namespace MlatBench

namespace Library

/-- The last so many of a list. -/
def lastOf {α : Type*} (n : Nat) (xs : List α) : List α :=
  xs.drop (xs.length - n)

theorem lastOf_concat {α : Type*} (n : Nat) (xs : List α) (x : α) :
    lastOf n (lastOf n xs ++ [x]) = lastOf n (xs ++ [x]) := by
  unfold lastOf
  rw [List.length_append, List.length_append, List.length_drop, List.length_singleton]
  rcases Nat.eq_zero_or_pos n with rfl | hn
  · rw [List.drop_eq_nil_of_le (by rw [List.length_append, List.length_drop]; rfl),
      List.drop_eq_nil_of_le (by rw [List.length_append]; rfl)]
  · rw [← List.drop_append_of_le_length (by omega), List.drop_drop]
    congr 1
    omega

theorem lastOf_cons {α : Type*} (n : Nat) (x : α) (xs : List α) :
    lastOf n (x :: xs) = if n < xs.length + 1 then lastOf n xs else x :: xs := by
  unfold lastOf
  rw [List.length_cons]
  split_ifs with h
  · rw [show xs.length + 1 - n = xs.length - n + 1 by omega, List.drop_succ_cons]
  · rw [Nat.sub_eq_zero_of_le (Nat.le_of_not_lt h), List.drop_zero]

variable {α : Type*} [DecidableEq α]

/-- What a filter remembers: the keys as a set, and in order, the oldest first. -/
structure Recent (α : Type*) where
  members : Finset α
  order : List α

/-- A key is to pass behind those that passed. -/
def passes (bound : Nat) (before : List α) (k : α) : Bool :=
  k ∉ lastOf bound before

namespace Recent

def empty : Recent α := ⟨∅, []⟩

/-- The oldest keys are forgotten while there are too many. -/
def evict (bound : Nat) (members : Finset α) : List α → Recent α
  | [] => ⟨members, []⟩
  | k :: rest =>
    if bound < rest.length + 1 then evict bound (members.erase k) rest
    else ⟨members, k :: rest⟩

/-- A key that is remembered does not pass. Another one does and is remembered. -/
def offer (bound : Nat) (r : Recent α) (k : α) : Recent α × Bool :=
  if k ∈ r.members then (r, false)
  else (evict bound (insert k r.members) (r.order ++ [k]), true)

/-- The memory holds the last keys that passed, which differ. -/
structure Tracks (bound : Nat) (r : Recent α) (before : List α) : Prop where
  order : r.order = lastOf bound before
  members : r.members = r.order.toFinset
  nodup : r.order.Nodup

theorem tracks_empty (bound : Nat) : (empty : Recent α).Tracks bound [] where
  order := List.drop_nil.symm
  members := rfl
  nodup := List.nodup_nil

/-- What is left are the last ones, in both memories. -/
theorem evict_spec (bound : Nat) (order : List α) (members : Finset α)
    (hmembers : members = order.toFinset) (hnodup : order.Nodup) :
    (evict bound members order).order = lastOf bound order ∧
      (evict bound members order).members = (evict bound members order).order.toFinset := by
  induction order generalizing members with
  | nil => exact ⟨List.drop_nil.symm, hmembers⟩
  | cons k rest ih =>
      rcases List.nodup_cons.mp hnodup with ⟨hk, hrest⟩
      rw [evict, lastOf_cons]
      split_ifs
      · have herase : members.erase k = rest.toFinset := by
          rw [hmembers, List.toFinset_cons, Finset.erase_insert]
          rwa [List.mem_toFinset]
        exact ih (members.erase k) herase hrest
      · exact ⟨rfl, hmembers⟩

/-- A key passes just when it is to, and the memory keeps up. -/
theorem offer_tracks (bound : Nat) (r : Recent α) (before : List α) (k : α)
    (h : r.Tracks bound before) :
    (r.offer bound k).2 = passes bound before k ∧
      (r.offer bound k).1.Tracks bound
        (if passes bound before k then before ++ [k] else before) := by
  have hmem : k ∈ r.members ↔ k ∈ lastOf bound before := by
    rw [h.members, List.mem_toFinset, h.order]
  unfold offer passes
  by_cases hk : k ∈ r.members
  · have hin := hmem.mp hk
    simp only [if_pos hk, hin, not_true_eq_false, decide_false, Bool.false_eq_true, if_false]
    exact ⟨trivial, h⟩
  · have hout : k ∉ lastOf bound before := fun hin => hk (hmem.mpr hin)
    have hnodup : (r.order ++ [k]).Nodup := by
      refine List.nodup_append.mpr ⟨h.nodup, List.nodup_singleton k, ?_⟩
      rintro a ha b hb rfl
      rw [List.mem_singleton] at hb
      exact hout (h.order ▸ hb ▸ ha)
    have hset : insert k r.members = (r.order ++ [k]).toFinset := by
      ext a
      rw [h.members, Finset.mem_insert, List.mem_toFinset, List.mem_toFinset, List.mem_append,
        List.mem_singleton, or_comm]
    rcases evict_spec bound (r.order ++ [k]) (insert k r.members) hset hnodup with
      ⟨horder, hmembers⟩
    simp only [if_neg hk, hout, not_false_eq_true, decide_true, if_true]
    refine ⟨trivial, ?_, hmembers, ?_⟩
    · rw [horder, h.order, lastOf_concat]
    · rw [horder]
      exact hnodup.sublist (List.drop_sublist _ _)

end Recent

/-- Of two equal keys that passed, one came more than the bound behind the other. -/
def Spaced (bound : Nat) (ks : List α) : Prop :=
  ∀ i j k, i < j → ks[i]? = some k → ks[j]? = some k → i + bound < j

omit [DecidableEq α] in
theorem spaced_nil (bound : Nat) : Spaced bound ([] : List α) := by
  intro i j k _ hi
  rw [List.getElem?_nil] at hi
  exact absurd hi.symm (Option.some_ne_none k)

/-- A key that is to pass is far from those equal to it. -/
theorem spaced_concat (bound : Nat) (before : List α) (k : α) (h : Spaced bound before)
    (hk : passes bound before k = true) : Spaced bound (before ++ [k]) := by
  intro i j a hij hi hj
  have hlen : j < (before ++ [k]).length := (List.getElem?_eq_some_iff.mp hj).1
  rw [List.length_append, List.length_singleton] at hlen
  rcases Nat.lt_or_ge j before.length with hin | hlast
  · rw [List.getElem?_append_left (by omega)] at hi hj
    exact h i j a hij hi hj
  · obtain rfl : j = before.length := by omega
    rw [List.getElem?_append_left hij] at hi
    rw [List.getElem?_concat_length, Option.some.injEq] at hj
    subst hj
    -- If it were near, the key would be among the last ones.
    by_contra hnear
    have hmem : k ∈ lastOf bound before := by
      rw [lastOf, List.mem_iff_getElem?]
      refine ⟨i - (before.length - bound), ?_⟩
      rw [List.getElem?_drop, ← hi]
      congr 1
      omega
    rw [passes, decide_eq_true_eq] at hk
    exact hk hmem

end Library

end MlatBench
