import Mathlib.Algebra.BigOperators.Group.Finset.Basic
import MlatBench.Core.Partition
import MlatBench.Theory.CellTree

/-!
# The Exported Partition Is the Map

Whether the file says what the router does. A point belongs to the leaf it lies in,
or to the nearest mapped cell above; the file has the mapped cells only, and a
drawing of it shows, at each point, the deepest of those that hold the point.

These are the same. A rectangle holds a point just when its cell is the one of the
point on its level (`covers_iff`), as the cells are wide enough for their indices
not to saturate, and no mapped cell of a point lies below its leaf
(`level_le_of_owner`).

The receivers of a cell are those counted through it, and a cell keeps its shard,
so the receivers of a shard's cells are the calls that were answered with the shard
(`counted_run`).

## Main definitions

* `Router.answers`: What the calls of a run return.
* `Router.Counted`: The receivers counted through the cells of each shard.
* `Router.ListsMapped`: An order the hash map may list its cells in.

## Theorems

* `counted_call`, `counted_run`: Receivers are counted once.
* `ownerUpTo_deepest`: The owner is that of the deepest mapped cell.
* `covers_iff`: Rectangles and cells.
* `drawn_eq`, `dump_count`: What a file shows.
* `partition_drawn`: The file after any run.
-/

namespace MlatBench

namespace Server

open Library F64

namespace Router

variable {F : Type} [F64 F]

/-- What the calls of a run return. -/
def answers (r : Router F) (cs : List (Call F)) : List Nat :=
  (visits (fun r c => (Router.call r c).2) r cs).map fun v => (v.1.call v.2).1

/-- An order the hash map may list its cells in. -/
structure ListsMapped (r : Router F) (order : List CellKey) : Prop where
  nodup : order.Nodup
  mem : ∀ k, k ∈ order ↔ r.map.owner k ≠ none

/-- The receivers counted through a cell, if it is the shard's. -/
def countOf (r : Router F) (s : Nat) (k : CellKey) : Nat :=
  if r.map.owner k = some s then r.map.rxCount k else 0

/-- What was counted through the cells of a shard are the calls it answered, and
    through other cells nothing was counted. -/
structure Counted (r : Router F) (as : List Nat) : Prop where
  fresh : ∀ k, r.map.owner k = none → r.map.rxCount k = 0
  sum : ∀ (keys : Finset CellKey) (s : Nat), (∀ k, r.map.owner k ≠ none → k ∈ keys) →
    keys.sum (r.countOf s) = as.count s

omit [F64 F] in
theorem counted_new (n : Nat) (hpos : 0 < n) (shards : Nat → Load) (baseDeg : F) (cap : Nat) :
    (Router.new n hpos shards baseDeg cap).Counted [] where
  fresh _ _ := rfl
  sum _ _ _ := Finset.sum_eq_zero fun _ _ => if_neg (Option.some_ne_none _ ∘ Eq.symm)

theorem owner_call (r : Router F) (c : Call F) (k : CellKey) :
    (r.call c).2.map.owner k =
      if k = r.leafAt c.point.1 c.point.2 then some (r.call c).1 else r.map.owner k := by
  rw [← r.leafAt_withShards c.shards]
  exact (r.withShards c.shards).owner_shardFor c.point c.order k

theorem rxCount_call (r : Router F) (c : Call F) (k : CellKey) :
    (r.call c).2.map.rxCount k =
      if k = r.leafAt c.point.1 c.point.2 then r.map.rxCount k + 1 else r.map.rxCount k := by
  rw [← r.leafAt_withShards c.shards]
  simp only [call, shardFor, Function.update_apply]
  by_cases hk : k = (r.withShards c.shards).leafAt c.point.1 c.point.2
  · rw [if_pos hk, if_pos hk, hk]
    rfl
  · rw [if_neg hk, if_neg hk]
    rfl

/-- A leaf that has an owner answers with it. -/
theorem call_owner (r : Router F) (c : Call F) (i : Nat)
    (h : r.map.owner (r.leafAt c.point.1 c.point.2) = some i) : (r.call c).1 = i := by
  rw [← r.leafAt_withShards c.shards] at h
  have howner : (r.withShards c.shards).map.owner
      ((r.withShards c.shards).leafAt c.point.1 c.point.2) = some i := h
  simp only [call, shardFor, howner, Option.getD_some]

/-- A call counts one receiver through its leaf, for the shard it answers. -/
theorem counted_call (r : Router F) (c : Call F) (as : List Nat) (h : r.Counted as) :
    (r.call c).2.Counted (as ++ [(r.call c).1]) where
  fresh k hk := by
    rw [owner_call] at hk
    rw [rxCount_call]
    by_cases hleaf : k = r.leafAt c.point.1 c.point.2
    · rw [if_pos hleaf] at hk
      exact absurd hk (Option.some_ne_none _)
    · rw [if_neg hleaf] at hk ⊢
      exact h.fresh k hk
  sum keys s hkeys := by
    generalize hleaf : r.leafAt c.point.1 c.point.2 = leaf
    have hmem : leaf ∈ keys := by
      refine hkeys leaf ?_
      rw [owner_call, if_pos hleaf.symm]
      exact Option.some_ne_none _
    have hold : ∀ k, r.map.owner k ≠ none → k ∈ keys := by
      intro k hk
      refine hkeys k ?_
      rw [owner_call]
      by_cases hkl : k = r.leafAt c.point.1 c.point.2
      · rw [if_pos hkl]
        exact Option.some_ne_none _
      · rw [if_neg hkl]
        exact hk
    -- The other cells count what they did.
    have hrest : (keys.erase leaf).sum ((r.call c).2.countOf s) =
        (keys.erase leaf).sum (r.countOf s) := by
      refine Finset.sum_congr rfl fun k hk => ?_
      have hne : k ≠ r.leafAt c.point.1 c.point.2 := by
        rw [hleaf]
        exact (Finset.mem_erase.mp hk).1
      rw [countOf, countOf, owner_call, rxCount_call, if_neg hne, if_neg hne]
    have hleafCount : (r.call c).2.countOf s leaf =
        r.countOf s leaf + if (r.call c).1 = s then 1 else 0 := by
      rw [countOf, countOf, owner_call, rxCount_call, if_pos hleaf.symm, if_pos hleaf.symm]
      simp only [Option.some.injEq]
      cases hown : r.map.owner leaf with
      | none =>
          rw [if_neg (Option.some_ne_none s ∘ Eq.symm), h.fresh leaf hown, Nat.zero_add,
            Nat.zero_add]
      | some i =>
          rw [r.call_owner c i (by rw [hleaf]; exact hown)]
          by_cases his : i = s
          · rw [if_pos his, if_pos (congrArg some his), if_pos his]
          · rw [if_neg his, if_neg (fun hc => his (Option.some.inj hc)), if_neg his]
    rw [← Finset.add_sum_erase _ _ hmem, hrest, hleafCount, List.count_append,
      List.count_singleton, ← h.sum keys s hold, ← Finset.add_sum_erase _ (r.countOf s) hmem,
      Nat.add_right_comm]
    simp only [beq_iff_eq]

theorem counted_run (r : Router F) (as : List Nat) (h : r.Counted as) (cs : List (Call F)) :
    (r.run cs).Counted (as ++ r.answers cs) := by
  induction cs generalizing r as with
  | nil =>
      have hnil : r.answers [] = [] := rfl
      rw [hnil, List.append_nil]
      exact h
  | cons c cs ih =>
      have hstep := ih (r.call c).2 (as ++ [(r.call c).1]) (r.counted_call c as h)
      rw [List.append_assoc, List.singleton_append] at hstep
      exact hstep

/-- The receivers of a shard in the file are those counted through its cells. -/
theorem dump_count (r : Router F) (order : List CellKey) (h : r.ListsMapped order) (s : Nat) :
    (((r.partitionJson order).filter fun c => c.shard = s).map PartitionCell.rx).sum =
      order.toFinset.sum (r.countOf s) := by
  have hperm := List.perm_insertionSort (fun a b => rowKey a ≤ rowKey b)
    (order.filterMap fun k => (r.map.owner k).map fun shard => (k, shard, r.map.rxCount k))
  rw [List.sum_toFinset _ h.nodup, partitionJson, partitionDump,
    (((hperm.map r.partitionCell).filter _).map PartitionCell.rx).sum_eq]
  clear hperm h
  induction order with
  | nil => rfl
  | cons k order ih =>
      rw [List.map_cons, List.sum_cons, ← ih, countOf]
      cases hown : r.map.owner k with
      | none =>
          rw [List.filterMap_cons_none (by rw [hown]; rfl), if_neg (Option.some_ne_none s ∘ Eq.symm),
            Nat.zero_add]
      | some i =>
          rw [List.filterMap_cons_some (by rw [hown]; rfl), List.map_cons]
          by_cases his : i = s
          · rw [List.filter_cons_of_pos (by exact decide_eq_true his),
              if_pos (congrArg some his), List.map_cons, List.sum_cons]
            rfl
          · rw [List.filter_cons_of_neg (by exact fun hc => his (of_decide_eq_true hc)),
              if_neg (fun hc => his (Option.some.inj hc)), Nat.zero_add]

/-- Where a point has no owner, none of its cells down to its leaf is mapped. -/
theorem ownerUpTo_none (r : Router F) (lat lon : F) (n : Nat)
    (h : r.ownerUpTo lat lon n = none) :
    ∀ l, l ≤ n → r.map.owner (r.cellAt l lat lon) = none := by
  induction n with
  | zero =>
      intro l hl
      rw [Nat.le_zero.mp hl, ← ownerUpTo_zero]
      exact h
  | succ n ih =>
      rw [ownerUpTo_succ, Option.or_eq_none_iff] at h
      intro l hl
      by_cases hln : l = n + 1
      · rw [hln]
        exact h.1
      · exact ih h.2 l (by omega)

/-- The owner of a point is that of its deepest mapped cell. -/
theorem ownerUpTo_deepest (r : Router F) (lat lon : F) (n s : Nat)
    (h : r.ownerUpTo lat lon n = some s) :
    ∃ l, l ≤ n ∧ r.map.owner (r.cellAt l lat lon) = some s ∧
      ∀ m, m ≤ n → r.map.owner (r.cellAt m lat lon) ≠ none → m ≤ l := by
  induction n with
  | zero =>
      rw [ownerUpTo_zero] at h
      exact ⟨0, Nat.le_refl 0, h, fun m hm _ => hm⟩
  | succ n ih =>
      rw [ownerUpTo_succ] at h
      cases hown : r.map.owner (r.cellAt (n + 1) lat lon) with
      | some i =>
          rw [hown, Option.some_or] at h
          exact ⟨n + 1, Nat.le_refl _, hown.trans h, fun m hm _ => hm⟩
      | none =>
          rw [hown, Option.none_or] at h
          rcases ih h with ⟨l, hl, hs, hdeep⟩
          refine ⟨l, by omega, hs, fun m hm hmapped => ?_⟩
          by_cases hmn : m = n + 1
          · rw [hmn] at hmapped
            exact absurd hown hmapped
          · exact hdeep m (by omega) hmapped

/-- Above a split cell of a point all its cells are split. -/
theorem split_above (r : Router F) (D : Set (F × F)) (ht : r.Tree D) (p : F × F) (hp : p ∈ D)
    (l : Nat) (h : r.cellAt l p.1 p.2 ∈ r.map.split) :
    ∀ m, m ≤ l → r.cellAt m p.1 p.2 ∈ r.map.split := by
  induction l with
  | zero =>
      intro m hm
      rw [Nat.le_zero.mp hm]
      exact h
  | succ l ih =>
      intro m hm
      by_cases hml : m = l + 1
      · rw [hml]
        exact h
      · exact ih (ht.split_parent p hp l h) m (by omega)

/-- No cell of a point below its leaf is mapped. -/
theorem level_le_of_owner (r : Router F) (D : Set (F × F)) (ht : r.Tree D) (p : F × F)
    (hp : p ∈ D) (l : Nat) (h : r.map.owner (r.cellAt l p.1 p.2) ≠ none) :
    l ≤ r.leafLevel p.1 p.2 := by
  by_contra hlt
  -- The cell above it is split, so the leaf is split too.
  rcases Nat.exists_eq_succ_of_ne_zero (show l ≠ 0 by omega) with ⟨m, hm⟩
  rw [hm] at h hlt
  have hsplit := r.split_above D ht p hp m (ht.owner_parent p hp m h) (r.leafLevel p.1 p.2)
    (by omega)
  exact r.leafLevel_not_split p.1 p.2 hsplit

section Exact

variable {K : Type} [Field K] [LinearOrder K] [IsStrictOrderedRing K] [FloorRing K]

attribute [local instance] F64.exact

/-- The index of a place in range, in cells that are wide enough. -/
theorem cellIndex_fits (size x : K) (hsize : 360 < size * 2 ^ 15) (hx : |x| ≤ 360) :
    cellIndex size x = ⌊x / size⌋ := by
  have hpos : 0 < size := by
    by_contra hneg
    have hle : size * 2 ^ 15 ≤ 0 := mul_nonpos_of_nonpos_of_nonneg (not_lt.mp hneg) (by positivity)
    linarith
  rw [abs_le] at hx
  have hlo : (-2 ^ 15 : Int) ≤ ⌊x / size⌋ := by
    rw [Int.le_floor, le_div_iff₀ hpos]
    push_cast
    linarith
  have hhi : ⌊x / size⌋ < (2 ^ 15 : Int) := by
    rw [Int.floor_lt, div_lt_iff₀ hpos]
    push_cast
    linarith
  unfold cellIndex
  exact (toInt_exact _ _ _).trans (clampInt_of_mem _ _ _ hlo (by omega))

/-- A rectangle holds a place in range just when its cell is that of the place. -/
theorem covers_iff (r : Router K) (row : CellKey × Nat × Nat) (p : K × K) (hp : InRange p)
    (hsize : 360 < r.cellSize row.1.1 * 2 ^ 15) :
    PartitionCell.covers p (r.partitionCell row) = true ↔ row.1 = r.cellAt row.1.1 p.1 p.2 := by
  rcases inRange_abs p hp with ⟨hlat, hlon⟩
  have hpos : 0 < r.cellSize row.1.1 := by
    by_contra hneg
    have hle : r.cellSize row.1.1 * 2 ^ 15 ≤ 0 :=
      mul_nonpos_of_nonpos_of_nonneg (not_lt.mp hneg) (by positivity)
    linarith
  have hside : ∀ (y : Int) (x : K), (lit (y : ℚ) * r.cellSize row.1.1 ≤ x ∧
      x < (lit (y : ℚ) + lit 1) * r.cellSize row.1.1) ↔ y = ⌊x / r.cellSize row.1.1⌋ := by
    intro y x
    rw [eq_comm, Int.floor_eq_iff, le_div_iff₀ hpos, div_lt_iff₀ hpos]
    simp only [lit, Rat.cast_intCast, Rat.cast_one]
  unfold PartitionCell.covers
  rw [decide_eq_true_eq]
  simp only [partitionCell, hside, cellAt, cellIndex_fits _ _ hsize hlat,
    cellIndex_fits _ _ hsize hlon, Prod.ext_iff, true_and]

section Map

variable (r : Router K) (ht : r.Tree nearby) (hp : r.Placed {p | InRange p})
  (hlow : 360 < r.baseDeg * 2 ^ 15)

include ht hp hlow

/-- Mapped cells are wide enough for their indices. -/
theorem mapped_size (k : CellKey) (h : r.map.owner k ≠ none) :
    360 < r.cellSize k.1 * 2 ^ 15 := by
  rcases Nat.eq_zero_or_pos k.1 with hzero | hpos
  · rw [hzero]
    simpa [cellSize, lit] using hlow
  · have hsplit := ht.may_split _ (r.parent_mem_split ht hp k hpos (Or.inl h))
    have hwide := r.two_le_cellSize _ hsplit
    have hlevel : (parent k).1 + 1 = k.1 := Nat.sub_add_cancel hpos
    rw [hlevel] at hwide
    have hbig : (2 : K) * 2 ^ 15 ≤ r.cellSize k.1 * 2 ^ 15 :=
      mul_le_mul_of_nonneg_right hwide (by positivity)
    norm_num at hbig ⊢
    linarith

/-- A drawing of the file shows the shard each place belongs to. -/
theorem drawn_eq (order : List CellKey) (horder : r.ListsMapped order) (p : K × K)
    (hrange : InRange p) : drawn (r.partitionJson order) p = r.ownerOfPoint p.1 p.2 := by
  have hnear := inRange_subset hrange
  have hrow : ∀ c ∈ r.partitionJson order, ∃ row : CellKey × Nat × Nat,
      c = r.partitionCell row ∧ r.map.owner row.1 = some row.2.1 := by
    intro c hc
    rcases List.mem_map.mp hc with ⟨row, hmem, rfl⟩
    rw [partitionDump, (List.perm_insertionSort _ _).mem_iff, List.mem_filterMap] at hmem
    rcases hmem with ⟨k, _, hk⟩
    rcases Option.map_eq_some_iff.mp hk with ⟨s, hs, rfl⟩
    exact ⟨_, rfl, hs⟩
  -- A mapped cell of the place is in the file, and its rectangle holds the place.
  have hcell : ∀ l, r.map.owner (r.cellAt l p.1 p.2) ≠ none → ∃ c ∈ r.partitionJson order,
      c.covers p = true ∧ c.level = l ∧ r.map.owner (r.cellAt l p.1 p.2) = some c.shard := by
    intro l hl
    rcases Option.ne_none_iff_exists'.mp hl with ⟨s, hs⟩
    refine ⟨r.partitionCell (r.cellAt l p.1 p.2, s, r.map.rxCount (r.cellAt l p.1 p.2)), ?_, ?_,
      rfl, hs⟩
    · refine List.mem_map_of_mem ?_
      rw [partitionDump, (List.perm_insertionSort _ _).mem_iff, List.mem_filterMap]
      exact ⟨r.cellAt l p.1 p.2, (horder.mem _).mpr hl, by rw [hs]; rfl⟩
    · exact (r.covers_iff _ p hrange (r.mapped_size ht hp hlow _ hl)).mpr rfl
  have hsorted := List.pairwise_insertionSort (fun a b : PartitionCell K => a.level ≤ b.level)
    (r.partitionJson order)
  have hall := fun c : PartitionCell K =>
    (List.perm_insertionSort (fun a b => a.level ≤ b.level) (r.partitionJson order)).mem_iff (a := c)
  unfold drawn ownerOfPoint
  rw [ownerAt_eq]
  cases hshown : shown (PartitionCell.covers p)
      ((r.partitionJson order).insertionSort fun a b => a.level ≤ b.level) with
  | none =>
      have hnone := shown_eq_none _ _ hshown
      cases hown : r.ownerUpTo p.1 p.2 (r.leafLevel p.1 p.2) with
      | none => rfl
      | some s =>
          rcases r.ownerUpTo_deepest _ _ _ s hown with ⟨l, _, hs, _⟩
          rcases hcell l (by rw [hs]; exact Option.some_ne_none s) with ⟨c, hc, hcov, _, _⟩
          have hnot := hnone c ((hall c).mpr hc)
          rw [hcov] at hnot
          exact absurd hnot (by simp)
  | some c =>
      rcases shown_mem _ _ _ hshown with ⟨hmem, hcov⟩
      have hdeepest := shown_deepest _ PartitionCell.level _ hsorted c hshown
      rcases hrow c ((hall c).mp hmem) with ⟨row, hc, hown⟩
      have hmapped : r.map.owner row.1 ≠ none := by
        rw [hown]
        exact Option.some_ne_none _
      rw [hc, r.covers_iff row p hrange (r.mapped_size ht hp hlow _ hmapped)] at hcov
      rw [hcov] at hmapped hown
      have hleaf := r.level_le_of_owner nearby ht p hnear _ hmapped
      cases hup : r.ownerUpTo p.1 p.2 (r.leafLevel p.1 p.2) with
      | none => exact absurd (r.ownerUpTo_none _ _ _ hup _ hleaf) hmapped
      | some s =>
          rcases r.ownerUpTo_deepest _ _ _ s hup with ⟨l, _, hs, hdeep⟩
          -- The cell that shows and the one that owns are the same.
          rcases hcell l (by rw [hs]; exact Option.some_ne_none s) with ⟨d, hd, hdcov, hdl, _⟩
          have hle := hdeepest d ((hall d).mpr hd) hdcov
          have hge := hdeep _ hleaf hmapped
          have hlevel : c.level = row.1.1 := by rw [hc]; rfl
          have hl : l = row.1.1 := by omega
          rw [hl, hown] at hs
          rw [Option.map_some, hc]
          exact hs

end Map

/-- The file after any run of calls at places in range: a drawing of it shows at
    every place in range the shard the place belongs to, and the receivers of the
    cells of each shard are the calls that were answered with it. -/
theorem partition_drawn (n : Nat) (hpos : 0 < n) (shards : Nat → Load) (baseDeg : K) (cap : Nat)
    (hlow : lit 360 < baseDeg * lit 32768) (cs : List (Call K)) (hcs : ∀ c ∈ cs, InRange c.point)
    (order : List CellKey)
    (horder : ((Router.new n hpos shards baseDeg cap).run cs).ListsMapped order) :
    (∀ p, InRange p →
      drawn (((Router.new n hpos shards baseDeg cap).run cs).partitionJson order) p =
        ((Router.new n hpos shards baseDeg cap).run cs).ownerOfPoint p.1 p.2) ∧
      ∀ s, (((((Router.new n hpos shards baseDeg cap).run cs).partitionJson order).filter
        fun c => c.shard = s).map PartitionCell.rx).sum =
          ((Router.new n hpos shards baseDeg cap).answers cs).count s := by
  have hinv := (Router.new n hpos shards baseDeg cap).run_inv nearby {p | InRange p}
    inRange_subset (nested_nearby _) (tree_new _ n hpos shards baseDeg cap)
    (placed_new _ n hpos shards baseDeg cap) cs hcs
  rcases hinv with ⟨hsame, ht, hp⟩
  have hcounted := counted_run _ _ (counted_new n hpos shards baseDeg cap) cs
  rw [List.nil_append] at hcounted
  have hlow' : 360 < ((Router.new n hpos shards baseDeg cap).run cs).baseDeg * 2 ^ 15 := by
    rw [hsame]
    simp only [lit] at hlow
    norm_num at hlow ⊢
    exact hlow
  refine ⟨fun p hrange => drawn_eq _ ht hp hlow' order horder p hrange, fun s => ?_⟩
  rw [dump_count _ order horder s]
  exact hcounted.sum _ s fun k hk => List.mem_toFinset.mpr ((horder.mem k).mpr hk)

end Exact

/-- The cells mapped after the crowd and a receiver in a child of its cell. -/
def mappedCells : List CellKey := [(1, 1, 1), (0, 0, 1), (0, 0, 0)]

theorem listsMapped_child : (twoShards.run (crowdCalls ++ [childCall])).ListsMapped mappedCells where
  nodup := by decide
  mem k := by
    have hrun : twoShards.run (crowdCalls ++ [childCall]) =
        ((twoShards.run crowdCalls).call childCall).2 := by
      rw [run, exec_append]
      rfl
    have hcrowd : (twoShards.run crowdCalls).leafAt childCall.point.1 childCall.point.2 =
        (1, 1, 1) := by
      rw [run_crowdCalls]
      decide +kernel
    have hleaf : ((twoShards.run [firstCell, eastCell]).count (0, 0, 0) 63).leafAt
        firstCell.point.1 firstCell.point.2 = (0, 0, 0) := by decide +kernel
    have hpair : (twoShards.run [firstCell, eastCell]).map.owner k ≠ none ↔
        k = (0, 0, 0) ∨ k = (0, 0, 1) := by
      have heast : (twoShards.call firstCell).2.leafAt eastCell.point.1 eastCell.point.2 =
          (0, 0, 1) := by decide +kernel
      have hfirst : twoShards.leafAt firstCell.point.1 firstCell.point.2 = (0, 0, 0) := by
        decide +kernel
      have hnew : twoShards.map.owner k = none := rfl
      rw [run, exec_cons, exec_cons, exec_nil, owner_call, heast, owner_call, hfirst, hnew]
      by_cases hk : k = (0, 0, 1)
      · simp [hk]
      · by_cases hk' : k = (0, 0, 0) <;> simp [hk, hk']
    rw [hrun, owner_call, hcrowd, run_crowdCalls, owner_call, hleaf]
    by_cases hk : k = (1, 1, 1)
    · simp [hk, mappedCells]
    · by_cases hk' : k = (0, 0, 0)
      · simp [hk', mappedCells]
      · have hcount : ((twoShards.run [firstCell, eastCell]).count (0, 0, 0) 63).map.owner k =
            (twoShards.run [firstCell, eastCell]).map.owner k := rfl
        rw [if_neg hk, if_neg hk', hcount, hpair]
        simp [hk, hk', mappedCells]

/-- The child is drawn over the crowded cell, in the colour of the shard that took
    it. -/
theorem partition_drawn_child :
    drawn ((twoShards.run (crowdCalls ++ [childCall])).partitionJson mappedCells) (6, 6) =
        (twoShards.run (crowdCalls ++ [childCall])).ownerOfPoint 6 6 ∧
      ((((twoShards.run (crowdCalls ++ [childCall])).partitionJson mappedCells).filter
        fun c => c.shard = 0).map PartitionCell.rx).sum =
          (twoShards.answers (crowdCalls ++ [childCall])).count 0 := by
  have hdrawn := partition_drawn 2 (by decide) noLoad 8 1000 (by norm_num [lit])
    (crowdCalls ++ [childCall]) (fun c hc => ?_) mappedCells listsMapped_child
  · exact ⟨hdrawn.1 (6, 6) (by norm_num [InRange, lit]), hdrawn.2 0⟩
  · simp only [crowdCalls, List.mem_append, List.mem_cons, List.mem_replicate,
      List.not_mem_nil, or_false] at hc
    rcases hc with ((rfl | rfl) | ⟨_, rfl⟩) | rfl <;>
      norm_num [InRange, firstCell, eastCell, childCall, lit]

end Router

end Server

end MlatBench
