import MlatBench.Core.Router

/-!
# The Cell Map

What the router's map looks like and what one assignment does to it.

A point's cells form a chain, one for each level. The descent passes split
cells and stops at the first one that is not (`leafAt_eq`, `leafLevel_split`,
`leafLevel_not_split`), and the owner of a point is found by going back up
(`ownerUpTo`). `Nested` says that on a set of points the cells of equal key lie
in equal cells above, as far down as cells may split. `Tree` is the invariant:
a cell with an owner or a split of its own lies in a split cell. It makes two
points with one leaf agree on everything above it (`cellAt_eq_of_leaf`), so an
assignment is about the leaf's points alike.

## Main definitions

* `Router.leafLevel`: The level of a point's leaf.
* `Router.ownerUpTo`: The owner of a point, seen from a level.
* `Router.Nested`: Equal cells lie in equal cells.
* `Router.Tree`: The invariant of the map.

## Theorems

* `leafFrom_spec`: What the descent passes and where it stops.
* `leafAt_eq`, `leafLevel_split`, `leafLevel_not_split`: The leaf of a point.
* `leafLevel_unique`: The leaf is the first unsplit cell.
* `ownerUpTo_succ`: The owner, one level further down.
* `cellAt_eq_of_leaf`: Points in one leaf share the cells above it.
* `tree_new`, `tree_shardFor`: The invariant holds.
* `ownerAt_shardFor_other`, `ownerAt_shardFor_leaf`: Owners after a call.
-/

namespace MlatBench

namespace Server

open Library F64

namespace Router

variable {F : Type} [F64 F]

/-- The level of the leaf at a point. -/
def leafLevel (r : Router F) (lat lon : F) : Nat :=
  (r.leafAt lat lon).1

theorem leafFrom_spec (r : Router F) (lat lon : F) (fuel level : Nat) :
    ∃ n, n ≤ fuel ∧ r.leafFrom lat lon fuel level = r.cellAt (level + n) lat lon ∧
      (∀ l, level ≤ l → l < level + n → r.cellAt l lat lon ∈ r.map.split) ∧
      (n < fuel → r.cellAt (level + n) lat lon ∉ r.map.split) := by
  induction fuel generalizing level with
  | zero => exact ⟨0, le_refl _, rfl, fun l h1 h2 => by omega, fun h => by omega⟩
  | succ fuel ih =>
      by_cases h : r.cellAt level lat lon ∈ r.map.split
      · rcases ih (level + 1) with ⟨n, hn, heq, hsplit, hstop⟩
        have hshift : level + 1 + n = level + (n + 1) := by omega
        rw [hshift] at heq hsplit hstop
        refine ⟨n + 1, by omega, ?_, ?_, fun hlt => hstop (by omega)⟩
        · rw [leafFrom, if_pos h, heq]
        · intro l h1 h2
          by_cases hl : l = level
          · rw [hl]
            exact h
          · exact hsplit l (by omega) h2
      · refine ⟨0, by omega, ?_, fun l h1 h2 => by omega, fun _ => h⟩
        rw [leafFrom, if_neg h]
        rfl

-- The cells of a point at distinct levels are distinct, so a descent through
-- more of them than there are split cells would not fit.
theorem split_card_lt (r : Router F) (lat lon : F) :
    ∃ l, l ≤ r.map.split.card ∧ r.cellAt l lat lon ∉ r.map.split := by
  by_contra hcon
  push Not at hcon
  have hsub : (Finset.range (r.map.split.card + 1)).image (fun l => r.cellAt l lat lon)
      ⊆ r.map.split := by
    intro k hk
    rcases Finset.mem_image.mp hk with ⟨l, hl, rfl⟩
    exact hcon l (by have := Finset.mem_range.mp hl; omega)
  have hcard := Finset.card_le_card hsub
  rw [Finset.card_image_of_injective _ (fun a b h => congrArg Prod.fst h),
    Finset.card_range] at hcard
  omega

theorem leafAt_spec (r : Router F) (lat lon : F) :
    ∃ n, r.leafAt lat lon = r.cellAt n lat lon ∧
      (∀ l, l < n → r.cellAt l lat lon ∈ r.map.split) ∧
      r.cellAt n lat lon ∉ r.map.split := by
  rcases r.leafFrom_spec lat lon r.map.split.card 0 with ⟨n, hn, heq, hsplit, hstop⟩
  rw [Nat.zero_add] at heq hstop
  refine ⟨n, heq, fun l hl => hsplit l (Nat.zero_le l) (by omega), ?_⟩
  by_cases hlt : n < r.map.split.card
  · exact hstop hlt
  · rcases r.split_card_lt lat lon with ⟨l, hl, hnot⟩
    by_cases hln : l = n
    · rw [← hln]
      exact hnot
    · exact absurd (hsplit l (Nat.zero_le l) (by omega)) hnot

theorem leafAt_eq (r : Router F) (lat lon : F) :
    r.leafAt lat lon = r.cellAt (r.leafLevel lat lon) lat lon := by
  rcases r.leafAt_spec lat lon with ⟨n, heq, _, _⟩
  have hn : r.leafLevel lat lon = n := congrArg Prod.fst heq
  rw [hn, heq]

theorem leafLevel_split (r : Router F) (lat lon : F) (l : Nat) (h : l < r.leafLevel lat lon) :
    r.cellAt l lat lon ∈ r.map.split := by
  rcases r.leafAt_spec lat lon with ⟨n, heq, hsplit, _⟩
  have hn : r.leafLevel lat lon = n := congrArg Prod.fst heq
  exact hsplit l (by omega)

theorem leafLevel_not_split (r : Router F) (lat lon : F) :
    r.cellAt (r.leafLevel lat lon) lat lon ∉ r.map.split := by
  rcases r.leafAt_spec lat lon with ⟨n, heq, _, hnot⟩
  have hn : r.leafLevel lat lon = n := congrArg Prod.fst heq
  rw [hn]
  exact hnot

theorem leafLevel_unique (r : Router F) (lat lon : F) (n : Nat)
    (hsplit : ∀ l, l < n → r.cellAt l lat lon ∈ r.map.split)
    (hnot : r.cellAt n lat lon ∉ r.map.split) : r.leafLevel lat lon = n := by
  rcases Nat.lt_trichotomy (r.leafLevel lat lon) n with h | h | h
  · exact absurd (hsplit _ h) (r.leafLevel_not_split lat lon)
  · exact h
  · exact absurd (r.leafLevel_split lat lon n h) hnot

/-- The owner of a point, looking up from a level. -/
def ownerUpTo (r : Router F) (lat lon : F) (level : Nat) : Option Nat :=
  (List.range (level + 1)).reverse.findSome? fun l => r.map.owner (r.cellAt l lat lon)

theorem ownerAt_eq (r : Router F) (lat lon : F) :
    r.ownerAt lat lon = r.ownerUpTo lat lon (r.leafLevel lat lon) := rfl

theorem ownerUpTo_zero (r : Router F) (lat lon : F) :
    r.ownerUpTo lat lon 0 = r.map.owner (r.cellAt 0 lat lon) := by
  unfold ownerUpTo
  cases h : r.map.owner (r.cellAt 0 lat lon) <;> simp [h]

theorem ownerUpTo_succ (r : Router F) (lat lon : F) (l : Nat) :
    r.ownerUpTo lat lon (l + 1)
      = (r.map.owner (r.cellAt (l + 1) lat lon)).or (r.ownerUpTo lat lon l) := by
  unfold ownerUpTo
  rw [List.range_succ, List.reverse_append, List.reverse_singleton, List.singleton_append,
    List.findSome?_cons]
  cases r.map.owner (r.cellAt (l + 1) lat lon) <;> rfl

/-- The owner a point has depends on the owners of its cells only. -/
theorem ownerUpTo_congr (r r' : Router F) (lat lon lat' lon' : F) (n : Nat)
    (h : ∀ l, l ≤ n → r.map.owner (r.cellAt l lat lon) = r'.map.owner (r'.cellAt l lat' lon')) :
    r.ownerUpTo lat lon n = r'.ownerUpTo lat' lon' n := by
  induction n with
  | zero => rw [ownerUpTo_zero, ownerUpTo_zero, h 0 (le_refl 0)]
  | succ n ih =>
      rw [ownerUpTo_succ, ownerUpTo_succ, h (n + 1) (le_refl _), ih fun l hl => h l (by omega)]

/-- On a set of points, equal cells lie in equal cells above, as far down as
    cells may split. -/
def Nested (r : Router F) (D : Set (F × F)) : Prop :=
  ∀ p ∈ D, ∀ q ∈ D, ∀ l, r.splittable l = true →
    r.cellAt (l + 1) p.1 p.2 = r.cellAt (l + 1) q.1 q.2 → r.cellAt l p.1 p.2 = r.cellAt l q.1 q.2

/-- The invariant of the map: only cells that may split are split, and a cell
    with an owner or a split of its own lies in a split cell. -/
structure Tree (r : Router F) (D : Set (F × F)) : Prop where
  may_split : ∀ k ∈ r.map.split, r.splittable k.1 = true
  owner_parent : ∀ p ∈ D, ∀ l, r.map.owner (r.cellAt (l + 1) p.1 p.2) ≠ none →
    r.cellAt l p.1 p.2 ∈ r.map.split
  split_parent : ∀ p ∈ D, ∀ l, r.cellAt (l + 1) p.1 p.2 ∈ r.map.split →
    r.cellAt l p.1 p.2 ∈ r.map.split

section Step

variable (r : Router F) (D : Set (F × F)) (p q : F × F)

-- Downward from the leaf: each cell above it is split, so it may split, and
-- nesting carries the equality up one level.
theorem cellAt_eq_of_leaf (hD : r.Nested D) (ht : r.Tree D) (hp : p ∈ D) (hq : q ∈ D)
    (h : r.cellAt (r.leafLevel q.1 q.2) p.1 p.2 = r.leafAt q.1 q.2) (l : Nat)
    (hl : l ≤ r.leafLevel q.1 q.2) : r.cellAt l p.1 p.2 = r.cellAt l q.1 q.2 := by
  rw [leafAt_eq] at h
  induction hl using Nat.decreasingInduction with
  | self => exact h
  | of_succ l hl ih =>
      have hsplit := r.leafLevel_split q.1 q.2 l (by omega)
      exact hD p hp q hq l (ht.may_split _ hsplit) ih

theorem leafLevel_eq_of_leaf (hD : r.Nested D) (ht : r.Tree D) (hp : p ∈ D) (hq : q ∈ D)
    (h : r.cellAt (r.leafLevel q.1 q.2) p.1 p.2 = r.leafAt q.1 q.2) :
    r.leafLevel p.1 p.2 = r.leafLevel q.1 q.2 := by
  have hcell := r.cellAt_eq_of_leaf D p q hD ht hp hq h
  refine r.leafLevel_unique p.1 p.2 _ ?_ ?_
  · intro l hl
    rw [hcell l (by omega)]
    exact r.leafLevel_split q.1 q.2 l hl
  · rw [hcell _ (le_refl _)]
    exact r.leafLevel_not_split q.1 q.2

theorem ownerAt_eq_of_leaf (hD : r.Nested D) (ht : r.Tree D) (hp : p ∈ D) (hq : q ∈ D)
    (h : r.cellAt (r.leafLevel q.1 q.2) p.1 p.2 = r.leafAt q.1 q.2) :
    r.ownerAt p.1 p.2 = r.ownerAt q.1 q.2 := by
  rw [ownerAt_eq, ownerAt_eq, r.leafLevel_eq_of_leaf D p q hD ht hp hq h]
  refine ownerUpTo_congr r r _ _ _ _ _ fun l hl => ?_
  rw [r.cellAt_eq_of_leaf D p q hD ht hp hq h l hl]

theorem ownerUpTo_of_owner (n i : Nat) (h : r.map.owner (r.cellAt n p.1 p.2) = some i) :
    r.ownerUpTo p.1 p.2 n = some i := by
  cases n with
  | zero => rw [ownerUpTo_zero, h]
  | succ n => rw [ownerUpTo_succ, h, Option.some_or]

theorem tree_new (n : Nat) (hpos : 0 < n) (shards : Nat → Load) (baseDeg : F) (cap : Nat) :
    (Router.new n hpos shards baseDeg cap).Tree D where
  may_split _ hk := absurd hk (Finset.notMem_empty _)
  owner_parent _ _ _ h := absurd rfl h
  split_parent _ _ _ h := absurd h (Finset.notMem_empty _)

variable (order : List Nat)

theorem cellAt_shardFor (l : Nat) :
    (r.shardFor order q.1 q.2).2.cellAt l p.1 p.2 = r.cellAt l p.1 p.2 := rfl

theorem mem_split_shardFor (k : CellKey) :
    k ∈ (r.shardFor order q.1 q.2).2.map.split ↔
      k ∈ r.map.split ∨ (k = r.leafAt q.1 q.2 ∧ splitAt < r.map.rxCount (r.leafAt q.1 q.2) + 1 ∧
        r.splittable (r.leafAt q.1 q.2).1 = true) := by
  simp only [shardFor]
  by_cases h : splitAt < r.map.rxCount (r.leafAt q.1 q.2) + 1 ∧
      r.splittable (r.leafAt q.1 q.2).1 = true
  · rw [if_pos h, Finset.mem_insert]
    tauto
  · rw [if_neg h]
    tauto

theorem owner_shardFor (k : CellKey) :
    (r.shardFor order q.1 q.2).2.map.owner k =
      if k = r.leafAt q.1 q.2 then some (r.shardFor order q.1 q.2).1 else r.map.owner k := by
  simp only [shardFor, Function.update_apply]

/-- A cell that is a point's leaf lies in split cells only, also as the cell
    of another point. -/
theorem parent_of_leaf (hD : r.Nested D) (ht : r.Tree D) (hp : p ∈ D) (hq : q ∈ D) (l : Nat)
    (h : r.cellAt (l + 1) p.1 p.2 = r.leafAt q.1 q.2) : r.cellAt l p.1 p.2 ∈ r.map.split := by
  have hl : r.leafLevel q.1 q.2 = l + 1 := (congrArg Prod.fst h).symm
  rw [← hl] at h
  rw [r.cellAt_eq_of_leaf D p q hD ht hp hq h l (by omega)]
  exact r.leafLevel_split q.1 q.2 l (by omega)

theorem tree_shardFor (hD : r.Nested D) (ht : r.Tree D) (hq : q ∈ D) :
    (r.shardFor order q.1 q.2).2.Tree D where
  may_split k hk := by
    rcases (r.mem_split_shardFor q order k).mp hk with h | ⟨rfl, _, h⟩
    · exact ht.may_split k h
    · exact h
  owner_parent p hp l h := by
    rw [cellAt_shardFor, owner_shardFor] at h
    refine (r.mem_split_shardFor q order _).mpr (Or.inl ?_)
    by_cases hleaf : r.cellAt (l + 1) p.1 p.2 = r.leafAt q.1 q.2
    · exact r.parent_of_leaf D p q hD ht hp hq l hleaf
    · exact ht.owner_parent p hp l (by rwa [if_neg hleaf] at h)
  split_parent p hp l h := by
    refine (r.mem_split_shardFor q order _).mpr (Or.inl ?_)
    rcases (r.mem_split_shardFor q order _).mp h with h | ⟨hleaf, _, _⟩
    · exact ht.split_parent p hp l h
    · exact r.parent_of_leaf D p q hD ht hp hq l hleaf

/-- A call leaves the owner of every point outside the leaf it lands in. -/
theorem ownerAt_shardFor_other
    (h : r.cellAt (r.leafLevel q.1 q.2) p.1 p.2 ≠ r.leafAt q.1 q.2) :
    (r.shardFor order q.1 q.2).2.ownerAt p.1 p.2 = r.ownerAt p.1 p.2 := by
  have hne : ∀ l, r.cellAt l p.1 p.2 ≠ r.leafAt q.1 q.2 := by
    intro l hl
    have hlevel : r.leafLevel q.1 q.2 = l := (congrArg Prod.fst hl).symm
    exact h (by rw [hlevel, hl])
  have hsplit : ∀ l, r.cellAt l p.1 p.2 ∈ (r.shardFor order q.1 q.2).2.map.split ↔
      r.cellAt l p.1 p.2 ∈ r.map.split := by
    intro l
    rw [mem_split_shardFor, or_iff_left fun hk => hne l hk.1]
  have hlevel : (r.shardFor order q.1 q.2).2.leafLevel p.1 p.2 = r.leafLevel p.1 p.2 := by
    refine leafLevel_unique _ _ _ _ ?_ ?_
    · intro l hl
      exact (hsplit l).mpr (r.leafLevel_split p.1 p.2 l hl)
    · exact fun hk => r.leafLevel_not_split p.1 p.2 ((hsplit _).mp hk)
  rw [ownerAt_eq, ownerAt_eq, hlevel]
  refine ownerUpTo_congr _ _ _ _ _ _ _ fun l _ => ?_
  rw [owner_shardFor]
  exact if_neg (hne l)

-- If the leaf splits, the points in it get a fresh leaf one level down. It has
-- no owner, the leaf having been unsplit, so the owner is found one level up.
/-- A call gives every point of the leaf it lands in the shard it returns. -/
theorem ownerAt_shardFor_leaf (hD : r.Nested D) (ht : r.Tree D) (hp : p ∈ D) (hq : q ∈ D)
    (h : r.cellAt (r.leafLevel q.1 q.2) p.1 p.2 = r.leafAt q.1 q.2) :
    (r.shardFor order q.1 q.2).2.ownerAt p.1 p.2 = some (r.shardFor order q.1 q.2).1 := by
  have ht' := r.tree_shardFor D q order hD ht hq
  have hcell := r.cellAt_eq_of_leaf D p q hD ht hp hq h
  have habove : ∀ l, l < r.leafLevel q.1 q.2 →
      r.cellAt l p.1 p.2 ∈ (r.shardFor order q.1 q.2).2.map.split := by
    intro l hl
    refine (r.mem_split_shardFor q order _).mpr (Or.inl ?_)
    rw [hcell l (by omega)]
    exact r.leafLevel_split q.1 q.2 l hl
  have hself : (r.shardFor order q.1 q.2).2.map.owner (r.cellAt (r.leafLevel q.1 q.2) p.1 p.2)
      = some (r.shardFor order q.1 q.2).1 := by
    rw [owner_shardFor, if_pos h]
  by_cases hs : r.cellAt (r.leafLevel q.1 q.2) p.1 p.2 ∈
      (r.shardFor order q.1 q.2).2.map.split
  · -- The child below is neither split nor owned.
    have hold : r.cellAt (r.leafLevel q.1 q.2) p.1 p.2 ∉ r.map.split := by
      rw [hcell _ (le_refl _)]
      exact r.leafLevel_not_split q.1 q.2
    have hne : r.cellAt (r.leafLevel q.1 q.2 + 1) p.1 p.2 ≠ r.leafAt q.1 q.2 := by
      intro hk
      have hlevel : r.leafLevel q.1 q.2 + 1 = r.leafLevel q.1 q.2 := congrArg Prod.fst hk
      omega
    have hlevel : (r.shardFor order q.1 q.2).2.leafLevel p.1 p.2 = r.leafLevel q.1 q.2 + 1 := by
      refine leafLevel_unique _ _ _ _ ?_ ?_
      · intro l hl
        by_cases heq : l = r.leafLevel q.1 q.2
        · rw [heq]
          exact hs
        · exact habove l (by omega)
      · intro hk
        rcases (r.mem_split_shardFor q order _).mp hk with hk | ⟨hk, _⟩
        · exact hold (ht.split_parent p hp _ hk)
        · exact hne hk
    have hnone : (r.shardFor order q.1 q.2).2.map.owner
        (r.cellAt (r.leafLevel q.1 q.2 + 1) p.1 p.2) = none := by
      rw [owner_shardFor, if_neg hne]
      by_contra hk
      exact hold (ht.owner_parent p hp _ hk)
    rw [ownerAt_eq, hlevel, ownerUpTo_succ]
    refine (congrArg₂ _ hnone rfl).trans ?_
    rw [Option.none_or]
    exact ownerUpTo_of_owner _ p _ _ hself
  · have hlevel := leafLevel_unique _ _ _ _ habove hs
    rw [ownerAt_eq, hlevel]
    exact ownerUpTo_of_owner _ p _ _ hself

end Step

end Router

end Server

end MlatBench
