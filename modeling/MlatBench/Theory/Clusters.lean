import Mathlib.Data.List.TakeWhile
import MlatBench.Core.Group
import MlatBench.Library.Ext
import MlatBench.Library.Runs

/-!
# Clusters of a Group

The times of a group are cut into slices, each solved in a call of its own. In
exact numbers the slices are the converted times in order, and each is what lies
within the span of its first one. A call takes the first entry of every receiver
that is alive and not quarantined, which in a slice in order is its earliest.

## Main definitions

* `State.observed`: The observation of an entry.
* `Firsts`: What the fold over a slice has taken.
* `groupCalls`: The calls for a group, with the states they start from.
* `Sliced`: A cut of some entries.

## Theorems

* `observe_firsts`: The entries a call takes are firsts.
* `Sliced.cons`, `clusters_sliced`: The cut of a group.
* `State.cut_of_four`, `State.cut_of_fewer`: When a group is cut.
* `solveGroup_calls_eq`: The calls are those of the group's solve.
* `solveGroup_slices`: What the calls get and take.
-/

namespace MlatBench

namespace Server

open Library F64 F64Fn Modes

section Observations

variable {F : Type} [F64Fn F]

namespace State

/-- The observation of an entry. -/
def observed (s : State F) (c : Conv F) : Observed F where
  obs := { rx := (s.receiver c.rx).ecef, tS := c.t + (s.biasOf c.rx).biasS, errS := c.sigma }
  user := (s.receiver c.rx).user
  rx := c.rx
  atScaled := c.atScaled
  origin := c.origin

/-- A receiver whose entries count. -/
def trusts (s : State F) (rx : Nat) : Prop :=
  s.isAlive rx = true ∧ (s.biasOf rx).quarantined = false

/-- What was taken of some entries: the first of each receiver that counts. -/
structure Firsts (s : State F) (cs : List (Conv F)) (seen : List Nat) (obs : List (Observed F)) :
    Prop where
  seen : ∀ r, r ∈ seen ↔ ∃ c ∈ cs, c.rx = r
  distinct : (obs.map Observed.rx).Nodup
  first : ∀ o ∈ obs, ∃ before c after, cs = before ++ c :: after ∧ (∀ d ∈ before, d.rx ≠ c.rx) ∧
    o = s.observed c ∧ s.trusts c.rx
  complete : ∀ c ∈ cs, s.trusts c.rx → ∃ o ∈ obs, o.rx = c.rx

/-- One more entry. -/
def take (s : State F) (acc : List Nat × List (Observed F)) (c : Conv F) :
    List Nat × List (Observed F) :=
  if c.rx ∈ acc.1 then acc
  else if s.isAlive c.rx = false ∨ (s.biasOf c.rx).quarantined = true then (c.rx :: acc.1, acc.2)
  else (c.rx :: acc.1, acc.2 ++ [s.observed c])

theorem observe_eq (s : State F) (cluster : List (Conv F)) :
    s.observe cluster = (cluster.foldl s.take ([], [])).2 :=
  rfl

/-- What was taken is still first with one entry more. -/
theorem Firsts.first_append (s : State F) (cs : List (Conv F)) (seen : List Nat)
    (obs : List (Observed F)) (h : Firsts s cs seen obs) (c : Conv F) :
    ∀ o ∈ obs, ∃ before d after, cs ++ [c] = before ++ d :: after ∧
      (∀ e ∈ before, e.rx ≠ d.rx) ∧ o = s.observed d ∧ s.trusts d.rx := by
  intro o ho
  rcases h.first o ho with ⟨before, d, after, rfl, hbefore, heq, htrust⟩
  refine ⟨before, d, after ++ [c], ?_, hbefore, heq, htrust⟩
  rw [List.append_assoc, List.cons_append]

theorem Firsts.take (s : State F) (cs : List (Conv F)) (acc : List Nat × List (Observed F))
    (h : Firsts s cs acc.1 acc.2) (c : Conv F) :
    Firsts s (cs ++ [c]) (s.take acc c).1 (s.take acc c).2 := by
  have hmem : ∀ r, (∃ d ∈ cs ++ [c], d.rx = r) ↔ (∃ d ∈ cs, d.rx = r) ∨ c.rx = r := by
    intro r
    simp only [List.mem_append, List.mem_singleton, or_and_right, exists_or, exists_eq_left]
  have hold : ∀ o ∈ acc.2, o.rx ∈ acc.1 := by
    intro o ho
    rcases h.first o ho with ⟨before, d, after, rfl, _, rfl, _⟩
    exact (h.seen _).mpr ⟨d, List.mem_append_right _ List.mem_cons_self, rfl⟩
  unfold State.take
  by_cases hseen : c.rx ∈ acc.1
  · -- The receiver has an earlier entry.
    rw [if_pos hseen]
    refine ⟨fun r => ?_, h.distinct, h.first_append s cs _ _ c, fun d hd htrust => ?_⟩
    · rw [hmem, h.seen, or_iff_left_of_imp]
      rintro rfl
      exact (h.seen _).mp hseen
    · rcases List.mem_append.mp hd with hd | hd
      · exact h.complete d hd htrust
      · rw [List.mem_singleton.mp hd] at htrust ⊢
        rcases (h.seen _).mp hseen with ⟨e, he, heq⟩
        rw [← heq] at htrust ⊢
        exact h.complete e he htrust
  · rw [if_neg hseen]
    have hseen' : ∀ r, r ∈ c.rx :: acc.1 ↔ ∃ d ∈ cs ++ [c], d.rx = r := by
      intro r
      rw [List.mem_cons, hmem, h.seen, or_comm, eq_comm]
    by_cases hout : s.isAlive c.rx = false ∨ (s.biasOf c.rx).quarantined = true
    · -- The receiver does not count, so nothing is taken of it.
      rw [if_pos hout]
      refine ⟨hseen', h.distinct, h.first_append s cs _ _ c, fun d hd htrust => ?_⟩
      rcases List.mem_append.mp hd with hd | hd
      · exact h.complete d hd htrust
      · rw [List.mem_singleton.mp hd] at htrust
        rcases hout with hdead | hquar
        · exact absurd (hdead.symm.trans htrust.1) Bool.false_ne_true
        · exact absurd (htrust.2.symm.trans hquar) Bool.false_ne_true
    · rw [if_neg hout]
      rw [not_or, Bool.not_eq_false, Bool.not_eq_true] at hout
      refine ⟨hseen', ?_, fun o ho => ?_, fun d hd htrust => ?_⟩
      · rw [List.map_append, List.nodup_append]
        -- Whatever was taken has been seen, so the new one is of another receiver.
        refine ⟨h.distinct, List.nodup_singleton _, ?_⟩
        rintro r hr r' hr' rfl
        rcases List.mem_map.mp hr with ⟨o, ho, rfl⟩
        rw [List.map_singleton, List.mem_singleton] at hr'
        have hin := hold o ho
        rw [hr'] at hin
        exact hseen hin
      · rcases List.mem_append.mp ho with ho | ho
        · exact h.first_append s cs _ _ c o ho
        · refine ⟨cs, c, [], rfl, fun d hd heq => ?_, List.mem_singleton.mp ho, hout⟩
          exact hseen ((h.seen _).mpr ⟨d, hd, heq⟩)
      · rcases List.mem_append.mp hd with hd | hd
        · rcases h.complete d hd htrust with ⟨o, ho, heq⟩
          exact ⟨o, List.mem_append_left _ ho, heq⟩
        · refine ⟨s.observed c, List.mem_append_right _ (List.mem_singleton_self _), ?_⟩
          rw [List.mem_singleton.mp hd]
          rfl

/-- A call takes the first entry of each receiver that counts. -/
theorem observe_firsts (s : State F) (cluster : List (Conv F)) :
    ∃ seen, Firsts s cluster seen (s.observe cluster) := by
  rw [observe_eq]
  refine ⟨(cluster.foldl s.take ([], [])).1, ?_⟩
  induction cluster using List.reverseRecOn with
  | nil =>
      refine ⟨fun r => ?_, List.nodup_nil, fun o ho => absurd ho List.not_mem_nil,
        fun c hc => absurd hc List.not_mem_nil⟩
      exact iff_of_false List.not_mem_nil fun ⟨c, hc, _⟩ => List.not_mem_nil hc
  | append_singleton cs c ih =>
      rw [List.foldl_append]
      exact ih.take s cs _ c

end State

end Observations

section Calls

variable {F : Type} [F64Fn F]

/-- The clusters of a group, if it comes to cutting it. -/
def State.cut (s : State F) (g : Group F) : Option (State F × Nat × List (List (Conv F))) :=
  (s.localRef g.members).bind fun ref =>
    if g.members.length < 4 then none
    else
      let t := s.withConverted g.members ref g.entries
      let conv := t.converted g.members ref g.entries
      if conv.length < 4 then none else some (t, ref, (clusters conv.length conv).1)

/-- The calls for a group: the state each starts from, and its slice. -/
def State.groupCalls (solver : Solver F) (s : State F) (clock : Nat → F) (g : Group F) :
    List (State F × List (Conv F)) :=
  match s.cut g with
  | none => []
  | some (t, ref, cs) =>
    (visits (fun s (c, i) => s.solveCluster solver (clock i) g.icao g.df17 ref c) t cs.zipIdx).map
      fun v => (v.1, v.2.1)

end Calls

section Exact

variable {K : Type} [Field K] [LinearOrder K] [IsStrictOrderedRing K] [FloorRing K] [Fns K]

local instance (priority := low) exactClusters : F64Fn K := F64.exactFn K

/-- A cut of some entries into slices: each starts with an entry and holds what is
    within the span of it, and the next starts beyond. -/
structure Sliced (conv : List (Conv K)) (slices : List (List (Conv K))) : Prop where
  whole : slices.flatten = conv
  filled : ∀ slice ∈ slices, slice ≠ []
  near : ∀ slice ∈ slices, ∀ first ∈ slice.head?, ∀ c ∈ slice, first.t ≤ c.t ∧
    c.t - first.t ≤ clusterSpanS
  apart : slices.IsChain fun a b => ∀ x ∈ a.head?, ∀ y ∈ b.head?, clusterSpanS < y.t - x.t

theorem clusterSpanS_nonneg : (0 : K) ≤ clusterSpanS := by
  change (0 : K) ≤ ((25 / 10000 : ℚ) : K)
  exact_mod_cast (by norm_num : (0 : ℚ) ≤ 25 / 10000)

omit [IsStrictOrderedRing K] in
theorem sliced_nil : Sliced ([] : List (Conv K)) [] :=
  ⟨rfl, fun _ h => absurd h List.not_mem_nil, fun _ h => absurd h List.not_mem_nil,
    List.IsChain.nil⟩

/-- An entry and what is within the span of it make a slice in front of those of
    the rest, if the rest starts beyond. -/
theorem Sliced.cons (c : Conv K) (near far : List (Conv K)) (slices : List (List (Conv K)))
    (hrest : Sliced far slices) (hle : ∀ d ∈ near, c.t ≤ d.t)
    (hin : ∀ d ∈ near, d.t - c.t ≤ clusterSpanS)
    (hout : ∀ d ∈ far.head?, clusterSpanS < d.t - c.t) :
    Sliced (c :: (near ++ far)) ((c :: near) :: slices) := by
  refine ⟨?_, ?_, ?_, ?_⟩
  · rw [List.flatten_cons, hrest.whole, List.cons_append]
  · intro slice hslice
    rcases List.mem_cons.mp hslice with rfl | hslice
    · exact List.cons_ne_nil c near
    · exact hrest.filled slice hslice
  · intro slice hslice
    rcases List.mem_cons.mp hslice with rfl | hslice
    · intro first hfirst d hd
      cases hfirst
      rcases List.mem_cons.mp hd with rfl | hd
      · exact ⟨le_refl _, by rw [sub_self]; exact clusterSpanS_nonneg⟩
      · exact ⟨hle d hd, hin d hd⟩
    · exact hrest.near slice hslice
  · -- The next slice starts with the first of the rest.
    have hwhole := hrest.whole
    have hapart := hrest.apart
    cases slices with
    | nil => exact List.IsChain.singleton _
    | cons slice others =>
        rw [List.isChain_cons_cons]
        refine ⟨fun x hx y hy => ?_, hapart⟩
        cases hx
        rw [Option.mem_def, List.head?_eq_some_iff] at hy
        rcases hy with ⟨tail, rfl⟩
        refine hout y ?_
        rw [← hwhole]
        rfl

/-- In exact numbers the cut ends, and slices the entries. -/
theorem clusters_sliced (fuel : Nat) (conv : List (Conv K)) (hfuel : conv.length ≤ fuel)
    (hsorted : conv.Pairwise fun a b => a.t ≤ b.t) :
    Sliced conv (clusters fuel conv).1 ∧ (clusters fuel conv).2 = true := by
  induction fuel generalizing conv with
  | zero =>
      rw [List.length_eq_zero_iff.mp (Nat.le_zero.mp hfuel)]
      exact ⟨sliced_nil, rfl⟩
  | succ fuel ih =>
      cases conv with
      | nil => exact ⟨sliced_nil, rfl⟩
      | cons c rest =>
          have hself : decide (c.t - c.t ≤ clusterSpanS) = true := by
            rw [sub_self]
            exact decide_eq_true clusterSpanS_nonneg
          -- What is within the span of the first, and the rest.
          obtain ⟨near, hnear⟩ : ∃ near, near =
              rest.takeWhile fun d => decide (d.t - c.t ≤ clusterSpanS) := ⟨_, rfl⟩
          obtain ⟨far, hfar⟩ : ∃ far, far =
              rest.dropWhile fun d => decide (d.t - c.t ≤ clusterSpanS) := ⟨_, rfl⟩
          have hsplit : near ++ far = rest := by
            rw [hnear, hfar]
            exact List.takeWhile_append_dropWhile
          have htake : (c :: rest).takeWhile (fun d => decide (d.t - c.t ≤ clusterSpanS)) =
              c :: near := by
            rw [List.takeWhile_cons, if_pos hself, hnear]
          have hdrop : (c :: rest).drop (c :: near).length = far := by
            rw [List.length_cons, List.drop_succ_cons, ← hsplit]
            exact List.drop_left
          have hin : ∀ d ∈ near, d.t - c.t ≤ clusterSpanS := by
            intro d hd
            rw [hnear] at hd
            have hle := List.mem_takeWhile_imp hd
            exact of_decide_eq_true hle
          -- The rest starts with the first entry that is beyond.
          have hout : ∀ d ∈ far.head?, clusterSpanS < d.t - c.t := by
            intro d hd
            have hstop := List.head?_dropWhile_not
              (fun d : Conv K => decide (d.t - c.t ≤ clusterSpanS)) rest
            rw [← hfar, Option.mem_def.mp hd] at hstop
            have hfalse : decide (d.t - c.t ≤ clusterSpanS) = false := hstop
            exact not_le.mp (of_decide_eq_false hfalse)
          rw [List.pairwise_cons, ← hsplit] at hsorted
          have hlen : far.length ≤ fuel := by
            have h := congrArg List.length hsplit
            rw [List.length_append] at h
            rw [List.length_cons] at hfuel
            omega
          rcases ih far hlen (List.pairwise_append.mp hsorted.2).2.1 with ⟨hrest, hended⟩
          simp only [clusters, htake, hdrop, if_neg (List.cons_ne_nil c near)]
          refine ⟨?_, hended⟩
          rw [← hsplit]
          exact hrest.cons c near far _ (fun d hd => hsorted.1 d (List.mem_append_left far hd))
            hin hout

omit [IsStrictOrderedRing K] in
/-- The converted times are those of the entries, in order. -/
theorem converted_sorted (s : State K) (members : List Nat) (ref : Nat) (es : List (Entry K)) :
    (s.converted members ref es).Perm (es.filterMap (s.convertEntry members ref)) ∧
      (s.converted members ref es).Pairwise fun a b => a.t ≤ b.t :=
  ⟨List.perm_insertionSort _ _, exact_pairwise_sort Conv.t _⟩

omit [IsStrictOrderedRing K] in
/-- In a slice in order the first entry of a receiver is its earliest. -/
theorem observe_earliest (s : State K) (slice : List (Conv K))
    (hsorted : slice.Pairwise fun a b => a.t ≤ b.t) :
    ((s.observe slice).map Observed.rx).Nodup ∧
      (∀ o ∈ s.observe slice, s.trusts o.rx ∧ ∃ c ∈ slice, o = s.observed c ∧
        ∀ d ∈ slice, d.rx = o.rx → c.t ≤ d.t) ∧
      ∀ c ∈ slice, s.trusts c.rx → ∃ o ∈ s.observe slice, o.rx = c.rx := by
  rcases s.observe_firsts slice with ⟨seen, h⟩
  refine ⟨h.distinct, fun o ho => ?_, h.complete⟩
  rcases h.first o ho with ⟨before, c, after, rfl, hbefore, rfl, htrust⟩
  refine ⟨htrust, c, List.mem_append_right _ List.mem_cons_self, rfl, fun d hd hrx => ?_⟩
  rcases List.mem_append.mp hd with hd | hd
  · exact absurd hrx (hbefore d hd)
  · rcases List.mem_cons.mp hd with rfl | hd
    · exact le_refl _
    · have htail := (List.pairwise_append.mp hsorted).2.1
      exact (List.pairwise_cons.mp htail).1 d hd

/-- A cut group is solved by its calls, one after another. -/
theorem solveGroup_calls_eq (solver : Solver K) (s : State K) (clock : Nat → K) (g : Group K)
    (t : State K) (ref : Nat) (cs : List (List (Conv K))) (h : s.cut g = some (t, ref, cs)) :
    s.solveGroup solver clock g =
      exec (fun s (c, i) => s.solveCluster solver (clock i) g.icao g.df17 ref c) t cs.zipIdx := by
  unfold State.cut at h
  unfold State.solveGroup
  cases href : s.localRef g.members with
  | none =>
      rw [href] at h
      exact absurd h.symm (Option.some_ne_none _)
  | some ref' =>
      simp only [href, Option.bind_some] at h ⊢
      by_cases hmembers : g.members.length < 4
      · rw [if_pos hmembers] at h
        exact absurd h.symm (Option.some_ne_none _)
      · rw [if_neg hmembers] at h ⊢
        by_cases hfew : ((s.withConverted g.members ref' g.entries).converted g.members ref'
            g.entries).length < 4
        · rw [if_pos hfew] at h
          exact absurd h.symm (Option.some_ne_none _)
        · rw [if_neg hfew] at h ⊢
          have hended := (clusters_sliced _ _ (Nat.le_refl _) (converted_sorted
            (s.withConverted g.members ref' g.entries) g.members ref' g.entries).2).2
          rw [if_pos hended]
          cases h
          rfl

omit [IsStrictOrderedRing K] in
/-- A group with four members and four conversions is cut into the slices of the
    conversions in order. -/
theorem State.cut_of_four (s : State K) (g : Group K) (ref : Nat)
    (href : s.localRef g.members = some ref) (hmembers : 4 ≤ g.members.length)
    (hfour : 4 ≤ (g.entries.filterMap (s.convertEntry g.members ref)).length) :
    s.cut g = some (s.withConverted g.members ref g.entries, ref,
      (clusters ((s.withConverted g.members ref g.entries).converted g.members ref
        g.entries).length ((s.withConverted g.members ref g.entries).converted g.members ref
        g.entries)).1) := by
  have hlen : ((s.withConverted g.members ref g.entries).converted g.members ref
      g.entries).length = (g.entries.filterMap (s.convertEntry g.members ref)).length :=
    List.length_insertionSort _ _
  unfold State.cut
  rw [href, Option.bind_some, if_neg (Nat.not_lt.mpr hmembers)]
  simp only []
  rw [if_neg (by rw [hlen]; exact Nat.not_lt.mpr hfour)]

omit [IsStrictOrderedRing K] in
/-- With fewer of either, or no reference, it is not cut. -/
theorem State.cut_of_fewer (s : State K) (g : Group K)
    (hfew : ∀ ref, s.localRef g.members = some ref → g.members.length < 4 ∨
      (g.entries.filterMap (s.convertEntry g.members ref)).length < 4) : s.cut g = none := by
  unfold State.cut
  cases href : s.localRef g.members with
  | none => rfl
  | some ref =>
      have hlen : ((s.withConverted g.members ref g.entries).converted g.members ref
          g.entries).length = (g.entries.filterMap (s.convertEntry g.members ref)).length :=
        List.length_insertionSort _ _
      rw [Option.bind_some]
      rcases hfew ref href with hmembers | hentries
      · rw [if_pos hmembers]
      · by_cases hmembers : g.members.length < 4
        · rw [if_pos hmembers]
        · rw [if_neg hmembers]
          simp only []
          rw [if_pos (by rw [hlen]; exact hentries)]

/-- The calls for a group with four members, four of whose entries come over, get
    the converted entries in order of time, sliced; each takes the earliest entry of
    every receiver that is alive and not quarantined then. For other groups there are
    no calls. -/
theorem solveGroup_slices (solver : Solver K) (s : State K) (clock : Nat → K) (g : Group K) :
    (∀ ref, s.localRef g.members = some ref → 4 ≤ g.members.length →
      4 ≤ (g.entries.filterMap (s.convertEntry g.members ref)).length →
        (∃ conv, conv.Perm (g.entries.filterMap (s.convertEntry g.members ref)) ∧
          conv.Pairwise (fun a b => a.t ≤ b.t) ∧
          Sliced conv ((s.groupCalls solver clock g).map Prod.snd)) ∧
        ∀ call ∈ s.groupCalls solver clock g,
          ((call.1.observe call.2).map Observed.rx).Nodup ∧
          (∀ o ∈ call.1.observe call.2, call.1.trusts o.rx ∧
            ∃ c ∈ call.2, o = call.1.observed c ∧ ∀ d ∈ call.2, d.rx = o.rx → c.t ≤ d.t) ∧
          ∀ c ∈ call.2, call.1.trusts c.rx → ∃ o ∈ call.1.observe call.2, o.rx = c.rx) ∧
    ((∀ ref, s.localRef g.members = some ref → g.members.length < 4 ∨
      (g.entries.filterMap (s.convertEntry g.members ref)).length < 4) →
        s.groupCalls solver clock g = []) := by
  constructor
  · intro ref href hmembers hfour
    have hcut := s.cut_of_four g ref href hmembers hfour
    rcases converted_sorted (s.withConverted g.members ref g.entries) g.members ref g.entries with
      ⟨hperm, hsorted⟩
    have hsliced := (clusters_sliced _ _ (Nat.le_refl _) hsorted).1
    have hslices : (s.groupCalls solver clock g).map Prod.snd =
        (clusters ((s.withConverted g.members ref g.entries).converted g.members ref
          g.entries).length ((s.withConverted g.members ref g.entries).converted g.members ref
          g.entries)).1 := by
      unfold State.groupCalls
      rw [hcut]
      -- The slices are the events of the calls, one for one.
      have hevents := map_snd_visits (fun s (c, i) => s.solveCluster solver (clock i) g.icao g.df17
        ref c) (s.withConverted g.members ref g.entries) (clusters
          ((s.withConverted g.members ref g.entries).converted g.members ref g.entries).length
          ((s.withConverted g.members ref g.entries).converted g.members ref
            g.entries)).1.zipIdx
      have hfst := congrArg (List.map Prod.fst) hevents
      rw [List.zipIdx_map_fst, List.map_map] at hfst
      rw [List.map_map]
      exact hfst
    refine ⟨⟨_, hperm, hsorted, hslices ▸ hsliced⟩, fun call hcall => ?_⟩
    -- A slice is a part of the entries in order, so it is in order itself.
    refine observe_earliest call.1 call.2 ?_
    have hin : call.2 ∈ (s.groupCalls solver clock g).map Prod.snd := List.mem_map_of_mem hcall
    rw [hslices] at hin
    refine hsorted.sublist ?_
    rw [← hsliced.whole]
    exact List.sublist_flatten_of_mem hin
  · intro hfew
    unfold State.groupCalls
    rw [s.cut_of_fewer g hfew]

end Exact

/-- Four receivers that have not been synchronized. -/
def unsynced : State ℚ :=
  exec (State.step fun _ _ _ => none) (State.new 0 true false)
    (["a", "b", "c", "d"].map fun user =>
      .add ⟨user, ⟨50, 10, 0⟩, ⟨4000000, 700000, 4900000⟩, 12000000, false, 1 / 2000000⟩)

/-- A transmission that all of them heard. -/
def heardByFour : Group ℚ where
  created := 0
  icao := ⟨0x3944F1⟩
  df17 := false
  entries := [0, 1, 2, 3].map fun rx => ⟨rx, 1 / 1000, 1 / 1000, ⟨⟨rx, 0⟩, 0⟩⟩

/-- One that the reference heard four times, twice out of the span of the first. -/
def heardOften : Group ℚ :=
  { heardByFour with
    entries := heardByFour.entries ++
      [2, 5, 6].map fun ms => ⟨3, ms / 1000, 1 / 1000, ⟨⟨3, 0⟩, 0⟩⟩ }

theorem solveGroup_slices_often :
    (unsynced.groupCalls (fun _ _ _ => none) (fun _ => 0) heardOften).length = 2 ∧
      ∃ conv, conv.Perm
          (heardOften.entries.filterMap (unsynced.convertEntry heardOften.members 3)) ∧
        conv.Pairwise (fun a b => a.t ≤ b.t) ∧
        Sliced conv ((unsynced.groupCalls (fun _ _ _ => none) (fun _ => 0) heardOften).map
          Prod.snd) := by
  refine ⟨by decide +kernel, ?_⟩
  exact ((solveGroup_slices (fun _ _ _ => none) unsynced (fun _ => 0) heardOften).1 3
    (by decide +kernel) (by decide +kernel) (by decide +kernel)).1

/-- Only the time of the reference is in its clock, so there is nothing to slice. -/
theorem unsynced_no_slices :
    unsynced.localRef heardByFour.members = some 3 ∧ heardByFour.members.length = 4 ∧
      unsynced.groupCalls (fun _ _ _ => none) (fun _ => 0) heardByFour = [] ∧
      ¬ ((unsynced.groupCalls (fun _ _ _ => none) (fun _ => 0) heardByFour).map
        Prod.snd).flatten.Perm
          (heardByFour.entries.filterMap (unsynced.convertEntry heardByFour.members 3)) := by
  have hcalls : (unsynced.groupCalls (fun _ _ _ => none) (fun _ => 0) heardByFour).length = 0 := by
    decide +kernel
  have hnone := List.length_eq_zero_iff.mp hcalls
  refine ⟨by decide +kernel, by decide +kernel, hnone, fun hperm => ?_⟩
  have hone : (heardByFour.entries.filterMap
      (unsynced.convertEntry heardByFour.members 3)).length = 1 := by decide +kernel
  rw [hnone] at hperm
  have hlen := hperm.length_eq
  rw [hone] at hlen
  exact Nat.zero_ne_one hlen

end Server

end MlatBench
