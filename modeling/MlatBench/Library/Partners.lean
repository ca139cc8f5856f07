import Mathlib.Data.List.Induction
import Mathlib.Logic.Function.Basic

/-!
# Partners

Items of a stream are paired within their keys. An item that fits the one that
waits under its key takes it as its partner and nobody waits then; any other one
waits in its place. Items without a key are passed over.

Who waits is the last item of its key (`half_spec`), so two partners are two items
of a key in a row. A pair lies across a place of the stream exactly if somebody
waits there whom the next item of its key fits (`partners_across_iff`). Nobody is in
two pairs (`pairs_apart`).

## Main definitions

* `Waits`, `waits`: Who waits after a stream has been read.
* `Waits.partner`: Who an item takes as its partner.
* `Partners`: Two places of a stream hold partners.
* `pairs`: All partners of a stream, with their places.
* `Apart`: Two pairs have no place in common.

## Theorems

* `half_concat`: What one more item changes.
* `half_append`: Items of other keys change nothing.
* `half_spec`: Who waits is the last item of its key.
* `partners_spec`: The places of partners.
* `partners_concat_iff`: The partners of one item more.
* `partners_across_iff`: When a pair lies across a place.
* `pairs_concat`: The pairs of one item more.
* `pairs_spec`: The pairs are partners.
* `pairs_apart`: Pairs have no place in common.
-/

namespace MlatBench

namespace Library

/-- How many items were read, and who waits under each key, with its place. -/
structure Waits (α κ : Type*) where
  count : Nat
  half : κ → Option (Nat × α)

section

variable {α κ : Type*} [DecidableEq κ] (key : α → Option κ) (fits : α → α → Bool)

/-- Who waits under the key of an item, if the item fits. -/
def Waits.partner (w : Waits α κ) (x : α) : Option (Nat × α) :=
  (key x).bind fun k => (w.half k).filter fun p => fits p.2 x

/-- One more item is read. -/
def Waits.read (w : Waits α κ) (x : α) : Waits α κ where
  count := w.count + 1
  half :=
    match key x with
    | none => w.half
    | some k => Function.update w.half k
        (if (w.partner key fits x).isSome = true then none else some (w.count, x))

/-- Who waits after a stream has been read. -/
def waits (xs : List α) : Waits α κ :=
  xs.foldl (Waits.read key fits) ⟨0, fun _ => none⟩

/-- The item at the second place takes the one at the first as its partner. -/
def Partners (xs : List α) (i j : Nat) : Prop :=
  ∃ x p, xs[j]? = some x ∧ (waits key fits (xs.take j)).partner key fits x = some (i, p)

omit [DecidableEq κ] in
theorem partner_eq_some_iff (w : Waits α κ) (x : α) (p : Nat × α) :
    w.partner key fits x = some p ↔
      ∃ k, key x = some k ∧ w.half k = some p ∧ fits p.2 x = true := by
  rw [Waits.partner, Option.bind_eq_some_iff]
  simp only [Option.filter_eq_some_iff]

theorem waits_concat (xs : List α) (x : α) :
    waits key fits (xs ++ [x]) = (waits key fits xs).read key fits x := by
  rw [waits, List.foldl_append]
  rfl

theorem waits_count (xs : List α) : (waits key fits xs).count = xs.length := by
  induction xs using List.reverseRecOn with
  | nil => rfl
  | append_singleton xs x ih =>
      rw [waits_concat, List.length_append, List.length_singleton, ← ih]
      rfl

/-- One more item waits under its key, or takes the one that waits away. -/
theorem half_concat (xs : List α) (x : α) (k : κ) :
    (waits key fits (xs ++ [x])).half k =
      if key x = some k then
        if ((waits key fits xs).partner key fits x).isSome = true then none else some (xs.length, x)
      else (waits key fits xs).half k := by
  rw [waits_concat]
  unfold Waits.read
  cases hx : key x with
  | none => rw [if_neg (Option.some_ne_none k).symm]
  | some l =>
      simp only [Option.some.injEq]
      by_cases hk : l = k
      · rw [hk, Function.update_self, waits_count, if_pos rfl]
      · rw [Function.update_of_ne fun h => hk h.symm, if_neg hk]

/-- Items of other keys change nothing. -/
theorem half_append (xs ys : List α) (k : κ) (h : ∀ y ∈ ys, key y ≠ some k) :
    (waits key fits (xs ++ ys)).half k = (waits key fits xs).half k := by
  induction ys using List.reverseRecOn with
  | nil => rw [List.append_nil]
  | append_singleton ys y ih =>
      rw [← List.append_assoc, half_concat,
        if_neg (h y (List.mem_append_right _ List.mem_cons_self))]
      exact ih fun z hz => h z (List.mem_append_left _ hz)

/-- Who waits is the last item of its key. -/
theorem half_spec (xs : List α) (k : κ) (i : Nat) (p : α)
    (h : (waits key fits xs).half k = some (i, p)) :
    ∃ before after, xs = before ++ p :: after ∧ before.length = i ∧ key p = some k ∧
      ∀ y ∈ after, key y ≠ some k := by
  induction xs using List.reverseRecOn with
  | nil => exact absurd h (Option.some_ne_none (i, p)).symm
  | append_singleton xs x ih =>
      rw [half_concat] at h
      -- The last item waits itself, or does not change who does.
      by_cases hx : key x = some k
      · rw [if_pos hx] at h
        split_ifs at h
        cases h
        exact ⟨xs, [], rfl, rfl, hx, fun y hy => absurd hy List.not_mem_nil⟩
      · rw [if_neg hx] at h
        rcases ih h with ⟨before, after, rfl, hlen, hp, hafter⟩
        refine ⟨before, after ++ [x], List.append_assoc _ _ _, hlen, hp, fun y hy => ?_⟩
        rcases List.mem_append.mp hy with hy | hy
        · exact hafter y hy
        · rw [List.mem_singleton.mp hy]
          exact hx

/-- Who waits stands at its place. -/
theorem half_getElem? (xs : List α) (k : κ) (i : Nat) (p : α)
    (h : (waits key fits xs).half k = some (i, p)) : xs[i]? = some p := by
  rcases half_spec key fits xs k i p h with ⟨before, after, rfl, rfl, _⟩
  rw [List.getElem?_append_right (Nat.le_refl _), Nat.sub_self, List.getElem?_cons_zero]

/-- The first of two partners stands before the second, under the same key. -/
theorem partners_spec (xs : List α) (i j : Nat) (h : Partners key fits xs i j) :
    i < j ∧ ∃ p x k, xs[i]? = some p ∧ xs[j]? = some x ∧ key p = some k ∧ key x = some k ∧
      fits p x = true := by
  rcases h with ⟨x, p, hx, hpartner⟩
  rcases (partner_eq_some_iff key fits _ x (i, p)).mp hpartner with ⟨k, hkx, hhalf, hfits⟩
  rcases half_spec key fits _ k i p hhalf with ⟨_, _, _, _, hkp, _⟩
  have hi := half_getElem? key fits _ k i p hhalf
  rw [List.getElem?_take] at hi
  split_ifs at hi with hij
  exact ⟨hij, p, x, k, hi, hx, hkp, hkx, hfits⟩

/-- One more item has a partner or not; the others keep theirs. -/
theorem partners_concat_iff (xs : List α) (x : α) (i j : Nat) :
    Partners key fits (xs ++ [x]) i j ↔ Partners key fits xs i j ∨
      j = xs.length ∧ ∃ p, (waits key fits xs).partner key fits x = some (i, p) := by
  unfold Partners
  rcases Nat.lt_trichotomy j xs.length with hj | rfl | hj
  · rw [List.getElem?_append_left hj, List.take_append_of_le_length (Nat.le_of_lt hj)]
    exact (or_iff_left fun h => absurd h.1 (Nat.ne_of_lt hj)).symm
  · rw [List.getElem?_concat_length, List.take_left, List.getElem?_eq_none (Nat.le_refl _)]
    constructor
    · rintro ⟨y, p, hy, hpartner⟩
      rw [← Option.some.inj hy] at hpartner
      exact Or.inr ⟨rfl, p, hpartner⟩
    · rintro (⟨_, _, hnone, _⟩ | ⟨_, p, hpartner⟩)
      · exact absurd hnone (Option.some_ne_none _).symm
      · exact ⟨x, p, rfl, hpartner⟩
  · have hlen : (xs ++ [x]).length ≤ j := by
      rw [List.length_append, List.length_singleton]
      exact hj
    rw [List.getElem?_eq_none hlen, List.getElem?_eq_none (Nat.le_of_lt hj)]
    constructor
    · rintro ⟨_, _, hnone, _⟩
      exact absurd hnone (Option.some_ne_none _).symm
    · rintro (⟨_, _, hnone, _⟩ | ⟨heq, _⟩)
      · exact absurd hnone (Option.some_ne_none _).symm
      · exact absurd heq.symm (Nat.ne_of_lt hj)

/-- A pair lies across a place exactly if somebody waits there whom the next item
    of its key fits. -/
theorem partners_across_iff (xs : List α) (n : Nat) :
    (∃ i j, Partners key fits xs i j ∧ i < n ∧ n ≤ j) ↔
      ∃ k i p x, (waits key fits (xs.take n)).half k = some (i, p) ∧
        (xs.drop n).find? (fun y => decide (key y = some k)) = some x ∧ fits p x = true := by
  constructor
  · rintro ⟨i, j, ⟨x, p, hx, hpartner⟩, hi, hj⟩
    rcases (partner_eq_some_iff key fits _ x (i, p)).mp hpartner with ⟨k, hkx, hhalf, hfits⟩
    rcases half_spec key fits _ k i p hhalf with ⟨before, after, htake, hlen, _, hafter⟩
    -- Between the place and the second partner is no item of the key.
    have hmid : ∀ y ∈ (xs.drop n).take (j - n), key y ≠ some k := by
      intro y hy
      have hin : y ∈ (xs.take j).drop n := by rwa [List.drop_take]
      rw [htake, List.drop_append, List.drop_of_length_le (by omega), List.nil_append] at hin
      have hpos : n - before.length = n - before.length - 1 + 1 := by omega
      rw [hpos, List.drop_succ_cons] at hin
      exact hafter y (List.mem_of_mem_drop hin)
    have hsplit : xs.take j = xs.take n ++ (xs.drop n).take (j - n) := by
      rw [← List.take_add, Nat.add_sub_cancel' hj]
    rw [hsplit, half_append key fits _ _ k hmid] at hhalf
    refine ⟨k, i, p, x, hhalf, ?_, hfits⟩
    rw [List.find?_eq_some_iff_append]
    refine ⟨decide_eq_true hkx, (xs.drop n).take (j - n), xs.drop (j + 1), ?_, fun y hy => ?_⟩
    · have hxj : (xs.drop n).drop (j - n) = x :: xs.drop (j + 1) := by
        rw [List.drop_drop, Nat.add_sub_cancel' hj]
        rcases List.getElem?_eq_some_iff.mp hx with ⟨hlt, rfl⟩
        exact List.drop_eq_getElem_cons hlt
      rw [← hxj, List.take_append_drop]
    · rw [Bool.not_eq_true', decide_eq_false_iff_not]
      exact hmid y hy
  · rintro ⟨k, i, p, x, hhalf, hfind, hfits⟩
    rcases List.find?_eq_some_iff_append.mp hfind with ⟨hkx, mid, rest, hdrop, hmid⟩
    have hother : ∀ y ∈ mid, key y ≠ some k := by
      intro y hy
      have hno := hmid y hy
      rwa [Bool.not_eq_true', decide_eq_false_iff_not] at hno
    rcases half_spec key fits _ k i p hhalf with ⟨before, after, htake, hlen, _⟩
    have hxs : xs = xs.take n ++ (mid ++ x :: rest) := by
      rw [← hdrop, List.take_append_drop]
    -- There is an item behind the place.
    have hlong : (xs.take n).length = n := by
      rw [List.length_take, Nat.min_eq_left]
      by_contra hshort
      rw [List.drop_of_length_le (by omega)] at hdrop
      exact absurd hdrop.symm (List.append_ne_nil_of_right_ne_nil mid (List.cons_ne_nil x rest))
    have hi : i < n := by
      rw [← hlong, htake, List.length_append, List.length_cons]
      omega
    refine ⟨i, n + mid.length, ⟨x, p, ?_, ?_⟩, hi, Nat.le_add_right n _⟩
    · rw [hxs, List.getElem?_append_right (by omega), hlong, Nat.add_sub_cancel_left,
        List.getElem?_append_right (Nat.le_refl _), Nat.sub_self, List.getElem?_cons_zero]
    · have htakej : xs.take (n + mid.length) = xs.take n ++ mid := by
        rw [List.take_add, hdrop, List.take_left]
      rw [htakej, partner_eq_some_iff]
      refine ⟨k, of_decide_eq_true hkx, ?_, hfits⟩
      rw [half_append key fits _ mid k hother, hhalf]

/-- All partners of a stream with their places, in the order of the second. -/
def pairs (xs : List α) : List ((Nat × α) × (Nat × α)) :=
  xs.zipIdx.flatMap fun (x, j) =>
    ((waits key fits (xs.take j)).partner key fits x).toList.map fun p => (p, (j, x))

/-- Two pairs have no place in common. -/
def Apart (q r : (Nat × α) × (Nat × α)) : Prop :=
  q.1.1 ≠ r.1.1 ∧ q.1.1 ≠ r.2.1 ∧ q.2.1 ≠ r.1.1 ∧ q.2.1 ≠ r.2.1

theorem pairs_concat (xs : List α) (x : α) :
    pairs key fits (xs ++ [x]) = pairs key fits xs ++
      ((waits key fits xs).partner key fits x).toList.map fun p => (p, (xs.length, x)) := by
  unfold pairs
  rw [List.zipIdx_append, List.flatMap_append]
  refine congrArg₂ (· ++ ·) ?_ ?_
  · -- The pairs so far do not see the new item.
    rw [List.flatMap_def, List.flatMap_def]
    refine congrArg List.flatten (List.map_congr_left ?_)
    rintro ⟨y, j⟩ hy
    have hj : j < xs.length := by
      have := List.snd_lt_of_mem_zipIdx hy
      omega
    simp only [List.take_append_of_le_length (Nat.le_of_lt hj)]
  · simp only [List.zipIdx_cons, List.zipIdx_nil, List.flatMap_cons, List.flatMap_nil,
      List.append_nil, Nat.zero_add, List.take_left]

/-- The pairs of a stream are partners, and stand at their places. -/
theorem pairs_spec (xs : List α) : ∀ q ∈ pairs key fits xs, q.1.1 < q.2.1 ∧
    xs[q.1.1]? = some q.1.2 ∧ xs[q.2.1]? = some q.2.2 ∧ fits q.1.2 q.2.2 = true ∧
      ∃ k, key q.1.2 = some k ∧ key q.2.2 = some k := by
  induction xs using List.reverseRecOn with
  | nil => exact fun q hq => absurd hq List.not_mem_nil
  | append_singleton xs x ih =>
      intro q hq
      rw [pairs_concat] at hq
      rcases List.mem_append.mp hq with hq | hq
      · rcases ih q hq with ⟨hlt, hp, hx, hrest⟩
        have hbelow := (List.getElem?_eq_some_iff.mp hp).1
        have hbelow' := (List.getElem?_eq_some_iff.mp hx).1
        exact ⟨hlt, (List.getElem?_append_left hbelow).trans hp,
          (List.getElem?_append_left hbelow').trans hx, hrest⟩
      · rcases List.mem_map.mp hq with ⟨⟨i, p⟩, hp, rfl⟩
        rw [Option.mem_toList] at hp
        rcases (partner_eq_some_iff key fits _ x (i, p)).mp hp with ⟨k, hkx, hhalf, hfits⟩
        rcases half_spec key fits xs k i p hhalf with ⟨_, _, _, _, hkp, _⟩
        have hi := half_getElem? key fits xs k i p hhalf
        have hlt := (List.getElem?_eq_some_iff.mp hi).1
        refine ⟨hlt, ?_, List.getElem?_concat_length, hfits, k, hkp, hkx⟩
        exact (List.getElem?_append_left hlt).trans hi

/-- Who has been paired does not wait any more. -/
theorem half_unpaired (xs : List α) (k : κ) (i : Nat) (p : α)
    (h : (waits key fits xs).half k = some (i, p)) :
    ∀ q ∈ pairs key fits xs, q.1.1 ≠ i ∧ q.2.1 ≠ i := by
  induction xs using List.reverseRecOn with
  | nil => exact fun q hq => absurd hq List.not_mem_nil
  | append_singleton xs x ih =>
      have hplaces := fun q hq => pairs_spec key fits xs q hq
      rw [half_concat] at h
      rw [pairs_concat]
      split_ifs at h with hk hpartner
      · -- The last item waits, so it has no partner.
        cases h
        have hnone := Option.not_isSome_iff_eq_none.mp hpartner
        rw [hnone]
        intro q hq
        rw [Option.toList_none, List.map_nil, List.append_nil] at hq
        rcases hplaces q hq with ⟨_, hone, htwo, _⟩
        have hone' := (List.getElem?_eq_some_iff.mp hone).1
        have htwo' := (List.getElem?_eq_some_iff.mp htwo).1
        exact ⟨Nat.ne_of_lt hone', Nat.ne_of_lt htwo'⟩
      · intro q hq
        rcases List.mem_append.mp hq with hq | hq
        · exact ih h q hq
        · -- The last item takes somebody of its own key.
          rcases List.mem_map.mp hq with ⟨⟨i', p'⟩, hp', rfl⟩
          rw [Option.mem_toList] at hp'
          rcases (partner_eq_some_iff key fits _ x (i', p')).mp hp' with ⟨k', hkx, hhalf, _⟩
          rcases half_spec key fits xs k i p h with ⟨_, _, _, _, hkp, _⟩
          rcases half_spec key fits xs k' i' p' hhalf with ⟨_, _, _, _, hkp', _⟩
          have hat := half_getElem? key fits xs k i p h
          have hat' := half_getElem? key fits xs k' i' p' hhalf
          refine ⟨fun hi => ?_, fun hi => ?_⟩
          · change i' = i at hi
            rw [hi, hat, Option.some.injEq] at hat'
            rw [← hat', hkp, Option.some.injEq] at hkp'
            exact hk (hkx.trans (congrArg some hkp'.symm))
          · exact absurd hi (Nat.ne_of_gt (List.getElem?_eq_some_iff.mp hat).1)

/-- No item is in two pairs. -/
theorem pairs_apart (xs : List α) : (pairs key fits xs).Pairwise Apart := by
  induction xs using List.reverseRecOn with
  | nil => exact List.Pairwise.nil
  | append_singleton xs x ih =>
      rw [pairs_concat, List.pairwise_append]
      refine ⟨ih, ?_, ?_⟩
      · cases (waits key fits xs).partner key fits x with
        | none => exact List.Pairwise.nil
        | some p => exact List.pairwise_singleton _ _
      · intro q hq r hr
        rcases List.mem_map.mp hr with ⟨⟨i, p⟩, hp, rfl⟩
        rw [Option.mem_toList] at hp
        rcases (partner_eq_some_iff key fits _ x (i, p)).mp hp with ⟨k, _, hhalf, _⟩
        rcases half_unpaired key fits xs k i p hhalf q hq with ⟨hfirst, hsecond⟩
        rcases pairs_spec key fits xs q hq with ⟨_, hone, htwo, _⟩
        have hone' := (List.getElem?_eq_some_iff.mp hone).1
        have htwo' := (List.getElem?_eq_some_iff.mp htwo).1
        exact ⟨hfirst, Nat.ne_of_lt hone', hsecond, Nat.ne_of_lt htwo'⟩

end

end Library

end MlatBench
