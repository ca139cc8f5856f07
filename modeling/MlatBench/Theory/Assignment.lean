import MlatBench.Library.Runs
import MlatBench.Theory.Router

/-!
# Stability of the Shard Assignment

Whether a point that belongs to a shard keeps belonging to it.

A split cell's children are meant to go home to the shard above them, full or
not. The neighbors are asked first, however, and the shard above is a fallback
for the case that none of them votes. A child whose neighbors vote for another
shard is taken away from home (`child_taken_by_neighbor`). The assignment is
stable in every run where home wins each such vote (`assignment_stable`), on
every set of points whose cells are nested. In exact arithmetic these are all
points within `2 ^ 16` degrees (`nested_exact`).

## Main definitions

* `Call`: One call, with the counters it finds.
* `Router.call`, `Router.run`: One call and a sequence of them.
* `Router.AtCalls`: A condition at every call of a run.
* `Router.ListsVotes`: The order lists the shards with votes.
* `Router.HomeWins`: No other shard's votes match the inherited owner's.
* `Router.Steady`: Both, at a point of the set.
* `Router.count`: More receivers in a cell.

## Theorems

* `assign_home`: Where home wins, home is assigned.
* `call_home`: A call at an owned point returns its owner.
* `homeWins_iff`: Where home does not win, some order of the votes moves it.
* `ownerAt_call`: A call keeps the owner of every owned point.
* `assignment_stable`: Stability along runs.
* `cellIndex_half`, `nested_exact`: Exact cells are nested.
* `run_crowd`, `along_crowd`: Many calls in one owned leaf.
* `corner_goes_home`: A run through a split that is stable.
* `child_taken_by_neighbor`: A run that moves a point.
-/

namespace MlatBench

namespace Server

open Library F64

/-- One call, with the counters it finds and the order in which the votes are
    listed. -/
structure Call (F : Type) where
  shards : Nat → Load
  order : List Nat
  point : F × F

namespace Router

variable {F : Type} [F64 F]

def withShards (r : Router F) (shards : Nat → Load) : Router F :=
  { r with shards := shards }

/-- One call of `shardFor`. -/
def call (r : Router F) (c : Call F) : Nat × Router F :=
  (r.withShards c.shards).shardFor c.order c.point.1 c.point.2

def run (r : Router F) (cs : List (Call F)) : Router F :=
  exec (fun r c => (r.call c).2) r cs

/-- A condition holds at every call of a run. -/
def AtCalls (P : Router F → Call F → Prop) (r : Router F) (cs : List (Call F)) : Prop :=
  Along (fun r c => (r.call c).2) P r cs

/-- Where votes are collected, the order lists each shard with votes once. -/
def ListsVotes (r : Router F) (c : Call F) : Prop :=
  let key := r.leafAt c.point.1 c.point.2
  r.map.owner key = none →
    c.order.Nodup ∧ ∀ n, n ∈ c.order ↔ n ∈ (r.withShards c.shards).eligible key

/-- If the leaf has no owner but inherits one, every other shard with votes
    loses to it. -/
def HomeWins (r : Router F) (c : Call F) : Prop :=
  let key := r.leafAt c.point.1 c.point.2
  r.map.owner key = none → ∀ s, r.ownerAt c.point.1 c.point.2 = some s →
    ∀ n ∈ (r.withShards c.shards).eligible key, n ≠ s →
      (r.withShards c.shards).voteKey key n < (r.withShards c.shards).voteKey key s

/-- A call inside a set of points that home wins. -/
def Steady (D : Set (F × F)) (r : Router F) (c : Call F) : Prop :=
  c.point ∈ D ∧ r.ListsVotes c ∧ r.HomeWins c

-- The descent reads the base size and the split cells alone.
theorem leafFrom_congr (r r' : Router F) (hbase : r.baseDeg = r'.baseDeg)
    (hsplit : r.map.split = r'.map.split) (lat lon : F) (fuel l : Nat) :
    r.leafFrom lat lon fuel l = r'.leafFrom lat lon fuel l := by
  have hcell : ∀ l, r.cellAt l lat lon = r'.cellAt l lat lon := by
    intro l
    simp only [cellAt, cellSize, hbase]
  induction fuel generalizing l with
  | zero => exact hcell l
  | succ fuel ih => rw [leafFrom, leafFrom, ih, hcell, hsplit]

theorem leafAt_congr (r r' : Router F) (hbase : r.baseDeg = r'.baseDeg)
    (hsplit : r.map.split = r'.map.split) (lat lon : F) : r.leafAt lat lon = r'.leafAt lat lon := by
  unfold leafAt
  rw [leafFrom_congr r r' hbase hsplit, hsplit]

theorem leafAt_withShards (r : Router F) (shards : Nat → Load) (lat lon : F) :
    (r.withShards shards).leafAt lat lon = r.leafAt lat lon :=
  leafAt_congr (r.withShards shards) r rfl rfl lat lon

theorem ownerAt_withShards (r : Router F) (shards : Nat → Load) (lat lon : F) :
    (r.withShards shards).ownerAt lat lon = r.ownerAt lat lon := by
  unfold ownerAt
  rw [leafAt_withShards]
  rfl

theorem tree_withShards (r : Router F) (shards : Nat → Load) (D : Set (F × F)) (ht : r.Tree D) :
    (r.withShards shards).Tree D where
  may_split := ht.may_split
  owner_parent := ht.owner_parent
  split_parent := ht.split_parent

/-- Where home wins the vote, or nobody votes, home is assigned. -/
theorem assign_home (r : Router F) (c : Call F) (s : Nat) (hlist : r.ListsVotes c)
    (hhome : r.HomeWins c) (hnone : r.map.owner (r.leafAt c.point.1 c.point.2) = none)
    (hs : r.ownerAt c.point.1 c.point.2 = some s) :
    (r.withShards c.shards).assign c.order (r.leafAt c.point.1 c.point.2) c.point.1 c.point.2 = s := by
  unfold assign
  cases h : c.order.reverse.argmax
      ((r.withShards c.shards).voteKey (r.leafAt c.point.1 c.point.2)) with
  | none =>
      rw [ownerAt_withShards, hs]
  | some n =>
      change n = s
      have hn : n ∈ c.order := List.mem_reverse.mp (List.argmax_mem (Option.mem_def.mpr h))
      by_contra hne
      have hlt := hhome hnone s hs n (((hlist hnone).2 n).mp hn) hne
      -- The winner of the vote is no smaller than home, which therefore has no votes.
      have hs' : s ∉ c.order := by
        intro hmem
        have hle := List.le_of_mem_argmax (List.mem_reverse.mpr hmem) (Option.mem_def.mpr h)
        exact absurd hlt (not_lt.mpr hle)
      have hcount : ((r.withShards c.shards).eligible (r.leafAt c.point.1 c.point.2)).count s = 0 :=
        List.count_eq_zero.mpr fun hmem => hs' (((hlist hnone).2 s).mpr hmem)
      have hpos : 0 < ((r.withShards c.shards).eligible (r.leafAt c.point.1 c.point.2)).count n :=
        List.count_pos_iff.mpr (((hlist hnone).2 n).mp hn)
      rcases Prod.Lex.toLex_lt_toLex.mp hlt with h | ⟨h, _⟩ <;> omega

/-- A call at an owned point returns its owner. -/
theorem call_home (r : Router F) (c : Call F) (s : Nat) (hlist : r.ListsVotes c)
    (hhome : r.HomeWins c) (hs : r.ownerAt c.point.1 c.point.2 = some s) : (r.call c).1 = s := by
  simp only [call, shardFor, leafAt_withShards]
  cases hown : r.map.owner (r.leafAt c.point.1 c.point.2) with
  | none =>
      change Option.getD (r.map.owner _) _ = s
      rw [hown]
      exact r.assign_home c s hlist hhome hown hs
  | some i =>
      change Option.getD (r.map.owner _) _ = s
      rw [leafAt_eq] at hown
      have hi := r.ownerUpTo_of_owner c.point _ i hown
      rw [← ownerAt_eq, hs] at hi
      rw [leafAt_eq, hown]
      exact (Option.some.inj hi).symm

/-- The condition is exact: at an owned point in a leaf without owner, every
    order of the votes leads home if and only if home wins. -/
theorem homeWins_iff (r : Router F) (c : Call F) (s : Nat)
    (hnone : r.map.owner (r.leafAt c.point.1 c.point.2) = none)
    (hs : r.ownerAt c.point.1 c.point.2 = some s) :
    r.HomeWins c ↔ ∀ order, r.ListsVotes { c with order := order } →
      (r.call { c with order := order }).1 = s := by
  refine ⟨fun h order hlist => r.call_home { c with order := order } s hlist h hs, ?_⟩
  intro hall
  by_contra hlose
  simp only [HomeWins, not_forall, not_lt] at hlose
  rcases hlose with ⟨_, s', hs', n, hn, hne, hle⟩
  have hss : s' = s := Option.some.inj (hs'.symm.trans hs)
  rw [hss] at hne hle
  -- List the rival last, so that it is the one kept among equals.
  have hlist : r.ListsVotes { c with
      order := (((r.withShards c.shards).eligible
        (r.leafAt c.point.1 c.point.2)).dedup.erase n) ++ [n] } := by
    intro _
    have hperm := List.perm_cons_erase (List.mem_dedup.mpr hn)
    refine ⟨?_, fun m => ?_⟩
    · exact (List.perm_append_singleton n _).nodup_iff.mpr
        (hperm.nodup_iff.mp (List.nodup_dedup _))
    · rw [(List.perm_append_singleton n _).mem_iff, ← hperm.mem_iff, List.mem_dedup]
  have hcall := hall _ hlist
  simp only [call, shardFor, leafAt_withShards] at hcall
  change Option.getD (r.map.owner _) _ = s at hcall
  rw [hnone, Option.getD_none] at hcall
  unfold assign at hcall
  simp only [List.reverse_append, List.reverse_singleton, List.singleton_append,
    List.argmax_cons] at hcall
  cases hrest : List.argmax ((r.withShards c.shards).voteKey (r.leafAt c.point.1 c.point.2))
      (((r.withShards c.shards).eligible (r.leafAt c.point.1 c.point.2)).dedup.erase n).reverse with
  | none =>
      rw [hrest] at hcall
      exact hne hcall
  | some m =>
      rw [hrest] at hcall
      by_cases hlt : (r.withShards c.shards).voteKey (r.leafAt c.point.1 c.point.2) n <
          (r.withShards c.shards).voteKey (r.leafAt c.point.1 c.point.2) m
      · simp only [if_pos hlt] at hcall
        rw [hcall] at hlt
        exact absurd hlt (not_lt.mpr hle)
      · simp only [if_neg hlt] at hcall
        exact hne hcall

theorem tree_call (r : Router F) (D : Set (F × F)) (c : Call F) (hD : r.Nested D)
    (ht : r.Tree D) (hc : c.point ∈ D) : (r.call c).2.Tree D :=
  tree_shardFor _ D c.point c.order hD (r.tree_withShards c.shards D ht) hc

/-- A call that home wins keeps the owner of every owned point. -/
theorem ownerAt_call (r : Router F) (D : Set (F × F)) (c : Call F) (p : F × F) (s : Nat)
    (hD : r.Nested D) (ht : r.Tree D) (hc : c.point ∈ D) (hp : p ∈ D) (hlist : r.ListsVotes c)
    (hhome : r.HomeWins c) (hs : r.ownerAt p.1 p.2 = some s) :
    (r.call c).2.ownerAt p.1 p.2 = some s := by
  have ht' := r.tree_withShards c.shards D ht
  have hD' : (r.withShards c.shards).Nested D := hD
  by_cases h : (r.withShards c.shards).cellAt
      ((r.withShards c.shards).leafLevel c.point.1 c.point.2) p.1 p.2
        = (r.withShards c.shards).leafAt c.point.1 c.point.2
  · -- The point shares the leaf, so it shares its owner.
    have hown := (r.withShards c.shards).ownerAt_eq_of_leaf D p c.point hD' ht' hp hc h
    rw [ownerAt_withShards, ownerAt_withShards, hs] at hown
    have hret := r.call_home c s hlist hhome hown.symm
    rw [← hret]
    exact ownerAt_shardFor_leaf _ D p c.point c.order hD' ht' hp hc h
  · refine (ownerAt_shardFor_other _ p c.point c.order h).trans ?_
    rw [ownerAt_withShards, hs]

/-- What a run of such calls keeps: nested cells, the tree, and owners. -/
theorem steady_run (D : Set (F × F)) (r : Router F) (cs : List (Call F)) (hD : r.Nested D)
    (ht : r.Tree D) (hrun : r.AtCalls (Steady D) cs) :
    (r.run cs).Nested D ∧ (r.run cs).Tree D ∧
      ∀ p ∈ D, ∀ s, r.ownerAt p.1 p.2 = some s → (r.run cs).ownerAt p.1 p.2 = some s := by
  refine Along.invariant _ (Steady D) (fun r' => r'.Nested D ∧ r'.Tree D ∧
    ∀ p ∈ D, ∀ s, r.ownerAt p.1 p.2 = some s → r'.ownerAt p.1 p.2 = some s) ?_ r cs
    ⟨hD, ht, fun _ _ _ h => h⟩ hrun
  rintro r' c ⟨hD', ht', hkeep⟩ ⟨hc, hlist, hhome⟩
  refine ⟨hD', r'.tree_call D c hD' ht' hc, fun p hp s hs => ?_⟩
  exact r'.ownerAt_call D c p s hD' ht' hc hp hlist hhome (hkeep p hp s hs)

/-- Where home wins every vote, a point that has an owner keeps it: every later
    lookup finds it, and every later call at the point returns it. -/
theorem assignment_stable (n : Nat) (hpos : 0 < n) (shards : Nat → Load) (baseDeg : F) (cap : Nat)
    (D : Set (F × F)) (hD : (Router.new n hpos shards baseDeg cap).Nested D)
    (pre post : List (Call F))
    (hrun : (Router.new n hpos shards baseDeg cap).AtCalls (Steady D) (pre ++ post))
    (p : F × F) (hp : p ∈ D) (s : Nat)
    (hs : ((Router.new n hpos shards baseDeg cap).run pre).ownerOfPoint p.1 p.2 = some s) :
    ((Router.new n hpos shards baseDeg cap).run (pre ++ post)).ownerOfPoint p.1 p.2 = some s ∧
      ∀ c : Call F, c.point = p →
        ((Router.new n hpos shards baseDeg cap).run (pre ++ post)).Steady D c →
        (((Router.new n hpos shards baseDeg cap).run (pre ++ post)).call c).1 = s := by
  rcases (along_append _ _ _ pre post).mp hrun with ⟨hpre, hpost⟩
  rcases steady_run D _ pre hD (tree_new D n hpos shards baseDeg cap) hpre with ⟨hD1, ht1, _⟩
  rcases steady_run D _ post hD1 ht1 hpost with ⟨_, _, hkeep⟩
  have hlater := hkeep p hp s hs
  rw [run, exec_append]
  refine ⟨hlater, ?_⟩
  rintro c rfl ⟨_, hlist, hhome⟩
  exact call_home _ c s hlist hhome hlater

/-- A cell has had `n` more receivers. -/
def count (r : Router F) (key : CellKey) (n : Nat) : Router F :=
  let rxCount := Function.update r.map.rxCount key (r.map.rxCount key + n)
  { r with map := { r.map with rxCount := rxCount } }

theorem call_owned (r : Router F) (c : Call F) (s : Nat)
    (hown : r.map.owner (r.leafAt c.point.1 c.point.2) = some s)
    (hn : r.map.rxCount (r.leafAt c.point.1 c.point.2) < splitAt) :
    (r.call c).2 = (r.count (r.leafAt c.point.1 c.point.2) 1).withShards (r.call c).2.shards := by
  have hleaf := r.leafAt_withShards c.shards c.point.1 c.point.2
  have hidx : (r.call c).1 = s := by
    simp only [call, shardFor, hleaf]
    change (r.map.owner _).getD _ = s
    rw [hown, Option.getD_some]
  ext k
  · rfl
  · rfl
  · rfl
  · rfl
  · rename_i i
    change i ∈ (r.call c).2.map.owner k ↔ i ∈ r.map.owner k
    rw [call, owner_shardFor (r.withShards c.shards) c.point, hleaf]
    by_cases hk : k = r.leafAt c.point.1 c.point.2
    · rw [if_pos hk, hk, hown, ← hidx]
      rfl
    · rw [if_neg hk]
      rfl
  · simp only [call, shardFor, hleaf]
    rfl
  · change k ∈ (r.call c).2.map.split ↔ k ∈ r.map.split
    rw [call, mem_split_shardFor (r.withShards c.shards) c.point, hleaf]
    refine or_iff_left fun h => ?_
    have hcount : splitAt < r.map.rxCount (r.leafAt c.point.1 c.point.2) + 1 := h.2.1
    omega

/-- Calls in a leaf with an owner only count, until the leaf splits. -/
theorem run_crowd (r : Router F) (c : Call F) (s n : Nat)
    (hown : r.map.owner (r.leafAt c.point.1 c.point.2) = some s)
    (hn : r.map.rxCount (r.leafAt c.point.1 c.point.2) + n ≤ splitAt) :
    ∃ shards, r.run (List.replicate n c) =
      (r.count (r.leafAt c.point.1 c.point.2) n).withShards shards := by
  induction n generalizing r with
  | zero => exact ⟨r.shards, by simp [run, exec_nil, count, withShards]⟩
  | succ n ih =>
      have hstep := r.call_owned c s hown (by omega)
      have hleaf : (r.call c).2.leafAt c.point.1 c.point.2 = r.leafAt c.point.1 c.point.2 := by
        rw [hstep]
        exact leafAt_congr ((r.count _ 1).withShards _) r rfl rfl _ _
      rcases ih (r.call c).2 (by rw [hleaf, hstep]; exact hown)
        (by rw [hleaf, hstep]; simp [count, withShards]; omega) with ⟨shards, h⟩
      refine ⟨shards, ?_⟩
      rw [List.replicate_succ]
      refine h.trans ?_
      rw [hleaf, hstep]
      simp only [count, withShards, Function.update_self, Function.update_idem, Nat.add_assoc,
        Nat.add_comm 1 n]

section Exact

variable {K : Type} [Field K] [LinearOrder K] [IsStrictOrderedRing K] [FloorRing K]

attribute [local instance] F64.exact

theorem cellIndex_exact (size x : K) (hsize : 2 ≤ size) (hlo : -2 ^ 16 ≤ x) (hhi : x < 2 ^ 16) :
    cellIndex size x = ⌊x / size⌋ := by
  have hpos : 0 < size := by linarith
  have h1 : (-2 ^ 15 : Int) ≤ ⌊x / size⌋ := by
    rw [Int.le_floor, le_div_iff₀ hpos]
    push_cast
    linarith
  have h2 : ⌊x / size⌋ < (2 ^ 15 : Int) := by
    rw [Int.floor_lt, div_lt_iff₀ hpos]
    push_cast
    linarith
  unfold cellIndex
  refine (toInt_exact _ _ _).trans (clampInt_of_mem _ _ _ h1 (by omega))

omit [IsStrictOrderedRing K] in
theorem two_le_cellSize (r : Router K) (l : Nat) (hl : r.splittable l = true) :
    2 ≤ r.cellSize (l + 1) := by
  simpa [splittable, minCellDeg, lit] using hl

theorem cellSize_succ (r : Router K) (l : Nat) : r.cellSize l = r.cellSize (l + 1) * 2 := by
  simp only [cellSize, lit]
  push_cast
  field_simp
  ring

/-- Where a cell may split, its index is half that of a child, rounded down. -/
theorem cellIndex_half (r : Router K) (l : Nat) (hl : r.splittable l = true) (x : K)
    (hlo : -2 ^ 16 ≤ x) (hhi : x < 2 ^ 16) :
    cellIndex (r.cellSize l) x = cellIndex (r.cellSize (l + 1)) x / 2 := by
  have hsize := r.two_le_cellSize l hl
  have hdouble := r.cellSize_succ l
  -- Both sizes are two degrees or more, so neither index saturates.
  rw [cellIndex_exact _ x (by linarith) hlo hhi, cellIndex_exact _ x hsize hlo hhi, hdouble,
    ← div_div]
  exact Int.floor_div_natCast (x / r.cellSize (l + 1)) 2

/-- In exact arithmetic the cells of all points within `2 ^ 16` degrees are
    nested. -/
theorem nested_exact (r : Router K) :
    r.Nested (Set.Ico (-2 ^ 16) (2 ^ 16) ×ˢ Set.Ico (-2 ^ 16) (2 ^ 16)) := by
  intro p hp q hq l hl hcell
  simp only [cellAt, Prod.mk.injEq, true_and] at hcell ⊢
  rw [r.cellIndex_half l hl p.1 hp.1.1 hp.1.2, r.cellIndex_half l hl q.1 hq.1.1 hq.1.2,
    r.cellIndex_half l hl p.2 hp.2.1 hp.2.2, r.cellIndex_half l hl q.2 hq.2.1 hq.2.2,
    hcell.1, hcell.2]
  exact ⟨rfl, rfl⟩

end Exact

/-- In a leaf with an owner nothing is voted on. -/
theorem listsVotes_owned (r : Router F) (c : Call F) (s : Nat)
    (hown : r.map.owner (r.leafAt c.point.1 c.point.2) = some s) : r.ListsVotes c := by
  intro hnone
  exact absurd (hown.symm.trans hnone) (Option.some_ne_none s)

theorem homeWins_unowned (r : Router F) (c : Call F)
    (h : r.ownerAt c.point.1 c.point.2 = none) : r.HomeWins c := by
  intro _ s hs
  exact absurd (hs.symm.trans h) (Option.some_ne_none s)

theorem homeWins_unanimous (r : Router F) (c : Call F) (s : Nat)
    (hs : r.ownerAt c.point.1 c.point.2 = some s)
    (hall : ∀ n ∈ (r.withShards c.shards).eligible (r.leafAt c.point.1 c.point.2), n = s) :
    r.HomeWins c := by
  intro _ s' hs' n hn hne
  have heq : s = s' := Option.some.inj (hs.symm.trans hs')
  exact absurd ((hall n hn).trans heq) hne

theorem listsVotes_dedup (r : Router F) (c : Call F)
    (h : c.order = ((r.withShards c.shards).eligible (r.leafAt c.point.1 c.point.2)).dedup) :
    r.ListsVotes c := by
  intro _
  rw [h]
  exact ⟨List.nodup_dedup _, fun n => List.mem_dedup⟩

/-- A condition that calls in owned leaves meet holds along a crowd. -/
theorem along_crowd (P : Router F → Call F → Prop) (r : Router F) (c : Call F) (s n : Nat)
    (hP : ∀ r : Router F, r.map.owner (r.leafAt c.point.1 c.point.2) = some s → P r c)
    (hown : r.map.owner (r.leafAt c.point.1 c.point.2) = some s)
    (hn : r.map.rxCount (r.leafAt c.point.1 c.point.2) + n ≤ splitAt + 1) :
    r.AtCalls P (List.replicate n c) := by
  induction n with
  | zero => trivial
  | succ n ih =>
      rcases r.run_crowd c s n hown (by omega) with ⟨shards, hrun⟩
      rw [List.replicate_succ', AtCalls, along_append]
      refine ⟨ih (by omega), hP _ ?_, trivial⟩
      have hleaf : ((r.count (r.leafAt c.point.1 c.point.2) n).withShards shards).leafAt
          c.point.1 c.point.2 = r.leafAt c.point.1 c.point.2 :=
        leafAt_congr ((r.count _ n).withShards _) r rfl rfl _ _
      change (r.run (List.replicate n c)).map.owner
        ((r.run (List.replicate n c)).leafAt c.point.1 c.point.2) = some s
      rw [hrun, hleaf]
      exact hown

-- Two shards over cells of eight degrees. The first receiver takes shard 0; the
-- cell to its east goes to shard 1, shard 0 being busy; then the first cell
-- fills up and splits.

def noLoad : Nat → Load := fun _ => ⟨0, 0⟩

def zeroBusy : Nat → Load := fun n => ⟨0, if n = 0 then capRatePerWindow else 0⟩

def twoShards : Router ℚ := Router.new 2 (by decide) noLoad 8 1000

def firstCell : Call ℚ := ⟨noLoad, [], (4, 4)⟩

def eastCell : Call ℚ := ⟨zeroBusy, [], (4, 12)⟩

def crowdCalls : List (Call ℚ) :=
  [firstCell, eastCell] ++ List.replicate 64 firstCell

/-- A receiver elsewhere in the first cell, with shard 0 busy again. -/
def childCall : Call ℚ := ⟨zeroBusy, [1], (6, 6)⟩

/-- The run up to the split, with the crowd counted at once. -/
theorem run_crowdCalls : twoShards.run crowdCalls =
    (((twoShards.run [firstCell, eastCell]).count (0, 0, 0) 63).call firstCell).2 := by
  have hleaf : (twoShards.run [firstCell, eastCell]).leafAt firstCell.point.1 firstCell.point.2
      = (0, 0, 0) := by decide +kernel
  rcases (twoShards.run [firstCell, eastCell]).run_crowd firstCell 0 63 (by decide +kernel)
    (by decide +kernel) with ⟨shards, h⟩
  rw [hleaf] at h
  rw [crowdCalls, List.replicate_succ', run, exec_append, exec_append]
  change ((((twoShards.run [firstCell, eastCell]).run (List.replicate 63 firstCell)).call
    firstCell).2) = _
  rw [h]
  rfl

/-- All points within `2 ^ 16` degrees. -/
def plane : Set (ℚ × ℚ) := Set.Ico (-2 ^ 16) (2 ^ 16) ×ˢ Set.Ico (-2 ^ 16) (2 ^ 16)

theorem steady_crowdCalls : twoShards.AtCalls (Steady plane) crowdCalls := by
  have hfirst : firstCell.point ∈ plane := by norm_num [plane, firstCell]
  have heast : eastCell.point ∈ plane := by norm_num [plane, eastCell]
  rw [crowdCalls, AtCalls, along_append]
  refine ⟨⟨⟨hfirst, listsVotes_dedup _ _ (by decide +kernel), ?_⟩,
    ⟨heast, listsVotes_dedup _ _ (by decide +kernel), ?_⟩, trivial⟩, ?_⟩
  · exact homeWins_unowned _ _ (by decide +kernel)
  · exact homeWins_unowned _ _ (by decide +kernel)
  · refine along_crowd _ _ firstCell 0 64 (fun r hown => ⟨hfirst, ?_, ?_⟩) (by decide +kernel)
      (by decide +kernel)
    · exact r.listsVotes_owned _ 0 hown
    · exact fun hnone => absurd (hown.symm.trans hnone) (Option.some_ne_none 0)

/-- The corner of the first cell that lies furthest from the east. -/
def cornerCall : Call ℚ := ⟨noLoad, [0], (1, 1)⟩

theorem steady_cornerCall : (twoShards.run crowdCalls).Steady plane cornerCall := by
  rw [run_crowdCalls]
  refine ⟨by norm_num [plane, cornerCall], listsVotes_dedup _ _ (by decide +kernel), ?_⟩
  exact homeWins_unanimous _ _ 0 (by decide +kernel) (by decide +kernel)

/-- The corner's receiver goes home, through the split and past the neighbor. -/
theorem corner_goes_home :
    ((twoShards.run (crowdCalls ++ [])).call cornerCall).1 = 0 :=
  (assignment_stable 2 (by decide) noLoad 8 1000 plane (nested_exact twoShards) crowdCalls []
    (by rw [List.append_nil]; exact steady_crowdCalls) (1, 1) steady_cornerCall.1 0
    (by
      change (twoShards.run crowdCalls).ownerOfPoint 1 1 = some 0
      rw [run_crowdCalls]
      decide +kernel)).2 cornerCall rfl
    (by
      rw [List.append_nil]
      exact steady_cornerCall)

/-- The child of a split cell is taken by the shard of a neighbor while the
    shard it belongs to is busy, and its point belongs to that shard since. -/
theorem child_taken_by_neighbor :
    twoShards.AtCalls ListsVotes (crowdCalls ++ [childCall]) ∧
      (twoShards.run crowdCalls).ownerOfPoint 6 6 = some 0 ∧
      ((twoShards.run crowdCalls).call childCall).1 = 1 ∧
      (twoShards.run (crowdCalls ++ [childCall])).ownerOfPoint 6 6 = some 1 := by
  have hrun : twoShards.run (crowdCalls ++ [childCall])
      = ((twoShards.run crowdCalls).call childCall).2 := List.foldl_append
  rw [hrun, AtCalls, along_append]
  change (_ ∧ (twoShards.run crowdCalls).ListsVotes childCall ∧ _) ∧ _
  rw [run_crowdCalls]
  refine ⟨⟨?_, listsVotes_dedup _ _ ?_, trivial⟩, ?_, ?_, ?_⟩
  · exact Along.mono _ _ _ (fun _ _ h => h.2.1) _ _ steady_crowdCalls
  all_goals decide +kernel

end Router

end Server

end MlatBench
