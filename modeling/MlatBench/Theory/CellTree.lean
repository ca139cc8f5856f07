import MlatBench.Theory.Assignment

/-!
# The Cell Map as a Tree

What the map looks like after any calls, for the keys themselves and for every
point of the plane.

The cells of a point are computed apart at each level, so that they form a
chain at all is a fact about rounding: half an index, rounded down, is the index
one level up, as long as none of them saturates. A call's point is never far
out, so neither is a cell that is mapped or split (`Placed`), and a point whose
cell is split lies within a cell's width of such a point (`mem_of_split`). Points
further out keep a leaf of level zero, however their indices saturate.

The descent has no bound of its own. It ends because a split cell has children
of two degrees or more, which a base size of 360 degrees allows on seven levels
only (`level_le_of_splittable`).

## Main definitions

* `Router.parent`: The cell one level up.
* `Router.chain`: The cells of a point, from the top to its leaf.
* `Router.Placed`: Mapped and split cells hold points of calls.
* `Router.InRange`, `Router.nearby`: The places receivers have, and more of the
  plane.
* `Router.CellTree`: The map is a tree.

## Theorems

* `placed_shardFor`, `placed_call`: A call places its leaf.
* `run_inv`: Runs keep the tree.
* `cellAt_parent`: Halved indices are those one level up.
* `mem_of_split`: A point in a split cell is not far out.
* `cellAt_eq_of_leafAt`: Points with one leaf share all cells.
* `cellTree_run`: The map is a tree after every run.
-/

namespace MlatBench

namespace Server

open Library F64

namespace Router

/-- The cell one level up: its indices are halved, rounding down. -/
def parent (k : CellKey) : CellKey :=
  (k.1 - 1, k.2.1 / 2, k.2.2 / 2)

variable {F : Type} [F64 F]

/-- The cells of a point, from the top to its leaf. -/
def chain (r : Router F) (lat lon : F) : List CellKey :=
  (List.range (r.leafLevel lat lon + 1)).map fun l => r.cellAt l lat lon

/-- Every cell with an owner or a split of its own holds a point of the set. -/
structure Placed (r : Router F) (D : Set (F × F)) : Prop where
  owner : ∀ k, r.map.owner k ≠ none → ∃ p ∈ D, k = r.cellAt k.1 p.1 p.2
  split : ∀ k ∈ r.map.split, ∃ p ∈ D, k = r.cellAt k.1 p.1 p.2

/-- The places receivers have, in degrees. -/
def InRange (p : F × F) : Prop :=
  lit (-90) ≤ p.1 ∧ p.1 ≤ lit 90 ∧ lit (-180) ≤ p.2 ∧ p.2 ≤ lit 360

/-- The points within `2 ^ 16` degrees. -/
def nearby : Set (F × F) :=
  {p | (lit (-65536) ≤ p.1 ∧ p.1 < lit 65536) ∧ lit (-65536) ≤ p.2 ∧ p.2 < lit 65536}

/-- The map is a tree. -/
structure CellTree (r : Router F) : Prop where
  /-- The descent ends at every point, after eight looks at most. -/
  stops : ∀ lat lon, ∃ n, n ≤ 7 ∧ (∀ l, l < n → r.cellAt l lat lon ∈ r.map.split) ∧
    r.cellAt n lat lon ∉ r.map.split ∧ r.leafAt lat lon = r.cellAt n lat lon ∧
    ∀ fuel, 7 ≤ fuel → r.leafFrom lat lon fuel 0 = r.leafAt lat lon
  /-- The children of a split cell are wide enough. -/
  wide : ∀ k ∈ r.map.split, lit minCellDeg ≤ r.cellSize (k.1 + 1)
  /-- What is mapped or split below the top lies in a split cell. -/
  parent_split : ∀ k, 0 < k.1 → r.map.owner k ≠ none ∨ k ∈ r.map.split →
    parent k ∈ r.map.split
  /-- On the way down each cell is the parent of the next. -/
  chain_parent : ∀ lat lon l, l < r.leafLevel lat lon →
    parent (r.cellAt (l + 1) lat lon) = r.cellAt l lat lon
  /-- The leaf decides the owner and the cells above. -/
  leaf_decides : ∀ p q : F × F, r.leafAt p.1 p.2 = r.leafAt q.1 q.2 →
    r.ownerAt p.1 p.2 = r.ownerAt q.1 q.2 ∧ r.chain p.1 p.2 = r.chain q.1 q.2

section Step

variable (r : Router F) (D : Set (F × F))

theorem placed_new (n : Nat) (hpos : 0 < n) (shards : Nat → Load) (baseDeg : F) (cap : Nat) :
    (Router.new n hpos shards baseDeg cap).Placed D where
  owner _ h := absurd rfl h
  split _ hk := absurd hk (Finset.notMem_empty _)

/-- The leaf a call lands in holds the call's point. -/
theorem placed_shardFor (q : F × F) (order : List Nat) (h : r.Placed D) (hq : q ∈ D) :
    (r.shardFor order q.1 q.2).2.Placed D where
  owner k hk := by
    rw [owner_shardFor] at hk
    by_cases hleaf : k = r.leafAt q.1 q.2
    · refine ⟨q, hq, ?_⟩
      rw [hleaf]
      exact r.leafAt_eq q.1 q.2
    · rw [if_neg hleaf] at hk
      exact h.owner k hk
  split k hk := by
    rcases (r.mem_split_shardFor q order k).mp hk with hk | ⟨hleaf, _, _⟩
    · exact h.split k hk
    · refine ⟨q, hq, ?_⟩
      rw [hleaf]
      exact r.leafAt_eq q.1 q.2

theorem placed_call (c : Call F) (h : r.Placed D) (hc : c.point ∈ D) : (r.call c).2.Placed D :=
  placed_shardFor (r.withShards c.shards) D c.point c.order ⟨h.owner, h.split⟩ hc

/-- Calls in a part of a set with nested cells keep the tree and place what
    they map, and the base size stays. -/
theorem run_inv (D' : Set (F × F)) (hsub : D' ⊆ D) (hD : r.Nested D) (ht : r.Tree D)
    (hp : r.Placed D') (cs : List (Call F)) (hcs : ∀ c ∈ cs, c.point ∈ D') :
    (r.run cs).baseDeg = r.baseDeg ∧ (r.run cs).Tree D ∧ (r.run cs).Placed D' := by
  induction cs generalizing r with
  | nil => exact ⟨rfl, ht, hp⟩
  | cons c cs ih =>
      have hc := hcs c List.mem_cons_self
      exact ih (r.call c).2 hD (r.tree_call D c hD ht (hsub hc)) (r.placed_call D' c hp hc)
        fun c' hc' => hcs c' (List.mem_cons_of_mem c hc')

end Step

section Exact

variable {K : Type} [Field K] [LinearOrder K] [IsStrictOrderedRing K] [FloorRing K]

attribute [local instance] F64.exact

omit [IsStrictOrderedRing K] in
theorem mem_nearby (p : K × K) :
    p ∈ nearby ↔ p ∈ Set.Ico (-2 ^ 16) (2 ^ 16) ×ˢ Set.Ico (-2 ^ 16) (2 ^ 16) := by
  have hbound : ((65536 : ℚ) : K) = 2 ^ 16 := by norm_num
  simp only [nearby, lit, Rat.cast_neg, hbound, Set.mem_ofPred_eq, Set.mem_prod, Set.mem_Ico]

theorem nested_nearby (r : Router K) : r.Nested nearby := fun p hp q hq =>
  r.nested_exact p ((mem_nearby p).mp hp) q ((mem_nearby q).mp hq)

theorem inRange_abs (p : K × K) (hp : InRange p) : |p.1| ≤ 360 ∧ |p.2| ≤ 360 := by
  simp only [InRange, lit] at hp
  push_cast at hp
  rcases hp with ⟨h1, h2, h3, h4⟩
  constructor <;> rw [abs_le] <;> constructor <;> linarith

theorem inRange_subset : {p : K × K | InRange p} ⊆ nearby := by
  intro p hp
  rcases inRange_abs p hp with ⟨h1, h2⟩
  rw [abs_le] at h1 h2
  rw [mem_nearby]
  constructor <;> constructor <;> linarith

/-- Up to 360 degrees, only seven levels have children of two degrees. -/
theorem level_le_of_splittable (r : Router K) (hbase : r.baseDeg ≤ 360) (l : Nat)
    (hl : r.splittable l = true) : l ≤ 6 := by
  have hsize := r.two_le_cellSize l hl
  simp only [cellSize, lit] at hsize
  push_cast at hsize
  rw [le_div_iff₀ (by positivity)] at hsize
  by_contra hlt
  have hpow : (2 : K) ^ 8 ≤ 2 ^ (l + 1) := pow_le_pow_right₀ one_le_two (by omega)
  linarith

/-- A point with the index of a place in range is within a cell's width of it. -/
theorem near_of_cellIndex (size x y : K) (hsize : 2 ≤ size) (hsize' : size ≤ 360)
    (hy : |y| ≤ 360) (h : cellIndex size x = cellIndex size y) : -2 ^ 16 ≤ x ∧ x < 2 ^ 16 := by
  have hpos : 0 < size := by linarith
  rw [abs_le] at hy
  rw [cellIndex_exact size y hsize (by linarith) (by linarith), cellIndex] at h
  -- The index of the place is far from where the cast saturates.
  have hlo : (-180 : Int) ≤ ⌊y / size⌋ := by
    rw [Int.le_floor, le_div_iff₀ hpos]
    push_cast
    linarith
  have hhi : ⌊y / size⌋ < (181 : Int) := by
    rw [Int.floor_lt, div_lt_iff₀ hpos]
    push_cast
    linarith
  have hfloor : ⌊x / size⌋ = ⌊y / size⌋ := by
    have hclamp := (toInt_exact (K := K) (-2 ^ 15) (2 ^ 15 - 1) ⌊x / size⌋).symm.trans h
    unfold clampInt at hclamp
    omega
  have hnear := Int.abs_sub_lt_one_of_floor_eq_floor hfloor
  rw [← sub_div, abs_div, abs_of_pos hpos, div_lt_one hpos, abs_lt] at hnear
  constructor <;> linarith

/-- Half the indices, rounded down, are those one level up. -/
theorem cellAt_parent (r : Router K) (p : K × K) (hp : p ∈ nearby) (l : Nat)
    (hl : r.splittable l = true) :
    parent (r.cellAt (l + 1) p.1 p.2) = r.cellAt l p.1 p.2 := by
  rcases (mem_nearby p).mp hp with ⟨hlat, hlon⟩
  simp only [cellAt, parent, Nat.add_sub_cancel]
  rw [r.cellIndex_half l hl p.1 hlat.1 hlat.2, r.cellIndex_half l hl p.2 hlon.1 hlon.2]

section Map

variable (r : Router K) (hbase : r.baseDeg ≤ 360) (ht : r.Tree nearby)
  (hp : r.Placed {p | InRange p})

include ht hp

/-- What is mapped or split below the top lies in a split cell. -/
theorem parent_mem_split (k : CellKey) (hk : 0 < k.1)
    (h : r.map.owner k ≠ none ∨ k ∈ r.map.split) : parent k ∈ r.map.split := by
  have hplace : ∃ p ∈ {p : K × K | InRange p}, k = r.cellAt k.1 p.1 p.2 := by
    rcases h with h | h
    · exact hp.owner k h
    · exact hp.split k h
  rcases hplace with ⟨p, hrange, hkey⟩
  have hnear := inRange_subset hrange
  rcases Nat.exists_eq_succ_of_ne_zero (Nat.pos_iff_ne_zero.mp hk) with ⟨l, hl⟩
  rw [hl] at hkey
  rw [hkey] at h ⊢
  have hsplit : r.cellAt l p.1 p.2 ∈ r.map.split := by
    rcases h with h | h
    · exact ht.owner_parent p hnear l h
    · exact ht.split_parent p hnear l h
  rw [r.cellAt_parent p hnear l (ht.may_split _ hsplit)]
  exact hsplit

include hbase

/-- A point in a split cell of the top level is not far out. -/
theorem mem_of_split (p : K × K) (h : r.cellAt 0 p.1 p.2 ∈ r.map.split) : p ∈ nearby := by
  have hsize := r.two_le_cellSize 0 (ht.may_split _ h)
  have hdouble := r.cellSize_succ 0
  have htop : r.cellSize 0 = r.baseDeg := by simp [cellSize, lit]
  rcases hp.split _ h with ⟨q, hq, hkey⟩
  rcases inRange_abs q hq with ⟨hq1, hq2⟩
  simp only [cellAt, Prod.mk.injEq, true_and] at hkey
  exact (mem_nearby p).mpr
    ⟨near_of_cellIndex _ p.1 q.1 (by linarith) (by linarith) hq1 hkey.1,
      near_of_cellIndex _ p.2 q.2 (by linarith) (by linarith) hq2 hkey.2⟩

theorem mem_of_leafLevel_pos (p : K × K) (h : 0 < r.leafLevel p.1 p.2) : p ∈ nearby :=
  r.mem_of_split hbase ht hp p (r.leafLevel_split p.1 p.2 0 h)

theorem chain_parent (p : K × K) (l : Nat) (hl : l < r.leafLevel p.1 p.2) :
    parent (r.cellAt (l + 1) p.1 p.2) = r.cellAt l p.1 p.2 := by
  have hnear := r.mem_of_leafLevel_pos hbase ht hp p (by omega)
  exact r.cellAt_parent p hnear l (ht.may_split _ (r.leafLevel_split p.1 p.2 l hl))

/-- Points with one leaf share all cells down to it. Below the top they are not
    far out, where cells are nested. -/
theorem cellAt_eq_of_leafAt (p q : K × K) (h : r.leafAt p.1 p.2 = r.leafAt q.1 q.2) (l : Nat)
    (hl : l ≤ r.leafLevel q.1 q.2) : r.cellAt l p.1 p.2 = r.cellAt l q.1 q.2 := by
  have hlevel : r.leafLevel p.1 p.2 = r.leafLevel q.1 q.2 := congrArg Prod.fst h
  have hcell : r.cellAt (r.leafLevel q.1 q.2) p.1 p.2 = r.leafAt q.1 q.2 := by
    rw [← hlevel, ← leafAt_eq, h]
  rcases Nat.eq_zero_or_pos (r.leafLevel q.1 q.2) with hzero | hpos
  · rw [leafAt_eq] at hcell
    have hl0 : l = r.leafLevel q.1 q.2 := by omega
    rw [hl0]
    exact hcell
  · have hpnear := r.mem_of_leafLevel_pos hbase ht hp p (by omega)
    have hqnear := r.mem_of_leafLevel_pos hbase ht hp q hpos
    exact r.cellAt_eq_of_leaf _ p q r.nested_nearby ht hpnear hqnear hcell l hl

omit hp in
theorem stops (lat lon : K) : ∃ n, n ≤ 7 ∧ (∀ l, l < n → r.cellAt l lat lon ∈ r.map.split) ∧
    r.cellAt n lat lon ∉ r.map.split ∧ r.leafAt lat lon = r.cellAt n lat lon ∧
    ∀ fuel, 7 ≤ fuel → r.leafFrom lat lon fuel 0 = r.leafAt lat lon := by
  rcases r.leafAt_spec lat lon with ⟨n, hleaf, hsplit, hnot⟩
  have hn : n ≤ 7 := by
    by_contra hlt
    have hseven := r.level_le_of_splittable hbase 7 (ht.may_split _ (hsplit 7 (by omega)))
    omega
  refine ⟨n, hn, hsplit, hnot, hleaf, fun fuel hfuel => ?_⟩
  -- With that many turns the descent finds the same first unsplit cell.
  rcases r.leafFrom_spec lat lon fuel 0 with ⟨m, hm, heq, hsplit', hstop⟩
  rw [Nat.zero_add] at heq hsplit' hstop
  have hmn : m = n := by
    rcases Nat.lt_trichotomy m n with hlt | heq | hlt
    · exact absurd (hsplit m hlt) (hstop (by omega))
    · exact heq
    · exact absurd (hsplit' n (Nat.zero_le n) hlt) hnot
  rw [heq, hleaf, hmn]

theorem cellTree : r.CellTree where
  stops := r.stops hbase ht
  wide k hk := by
    have hwide := ht.may_split k hk
    simpa only [splittable, decide_eq_true_eq] using hwide
  parent_split := r.parent_mem_split ht hp
  chain_parent lat lon := r.chain_parent hbase ht hp (lat, lon)
  leaf_decides p q h := by
    have hlevel : r.leafLevel p.1 p.2 = r.leafLevel q.1 q.2 := congrArg Prod.fst h
    have hcells := r.cellAt_eq_of_leafAt hbase ht hp p q h
    refine ⟨?_, ?_⟩
    · rw [ownerAt_eq, ownerAt_eq, hlevel]
      refine ownerUpTo_congr r r _ _ _ _ _ fun l hl => ?_
      rw [hcells l hl]
    · unfold chain
      rw [hlevel]
      refine List.map_congr_left fun l hl => hcells l ?_
      have hlt := List.mem_range.mp hl
      omega

end Map

/-- With a base size of 360 degrees at most, the map is a tree after every
    sequence of calls at places in range, whatever the counters they find. -/
theorem cellTree_run (n : Nat) (hpos : 0 < n) (shards : Nat → Load) (baseDeg : K) (cap : Nat)
    (hbase : baseDeg ≤ lit 360) (cs : List (Call K)) (hcs : ∀ c ∈ cs, InRange c.point) :
    ((Router.new n hpos shards baseDeg cap).run cs).baseDeg = baseDeg ∧
      ((Router.new n hpos shards baseDeg cap).run cs).CellTree := by
  have hinv := (Router.new n hpos shards baseDeg cap).run_inv nearby {p | InRange p}
    inRange_subset (nested_nearby _) (tree_new _ n hpos shards baseDeg cap)
    (placed_new _ n hpos shards baseDeg cap) cs hcs
  rcases hinv with ⟨hsame, ht, hp⟩
  have hbase' : baseDeg ≤ 360 := by simpa only [lit, Rat.cast_ofNat] using hbase
  exact ⟨hsame, cellTree _ (hsame.trans_le hbase') ht hp⟩

end Exact

/-- A crowd splits the first cell, and the map is still a tree. -/
theorem cellTree_crowd : (0, 0, 0) ∈ (twoShards.run crowdCalls).map.split ∧
    (twoShards.run crowdCalls).CellTree := by
  refine ⟨?_, (cellTree_run 2 (by decide) noLoad 8 1000 (by norm_num [lit]) crowdCalls ?_).2⟩
  · rw [run_crowdCalls]
    decide +kernel
  · intro c hc
    simp only [crowdCalls, List.mem_append, List.mem_cons, List.mem_replicate,
      List.not_mem_nil, or_false] at hc
    rcases hc with (rfl | rfl) | ⟨_, rfl⟩ <;> norm_num [InRange, firstCell, eastCell, lit]

end Router

end Server

end MlatBench
