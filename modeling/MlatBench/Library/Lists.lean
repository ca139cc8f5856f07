import Mathlib.Data.List.Forall2
import Mathlib.Data.List.Pairwise
import Mathlib.Data.List.Sort

/-!
# Lists

A fallible map that succeeds, item by item; and sorting by insertion against
dropping items. Insertion keeps the order of equal items, so it makes no
difference whether items are dropped before or after.

## Theorems

* `forall₂_of_mapM`, `mapM_insert`: What a successful map has done.
* `filter_insertionSort`: Dropping items commutes with sorting.
* `stable_insertionSort`: Sorting keeps the order of items that could be either way round.
* `either_of_pairwise`: Of two members one stands before the other.
* `concat_eq_append_cons`: Where an element stands in a list with a last one.
* `none_or_exists_last`: The last element with a property.
* `flatMap_cons_eq_map_iff`: When lists that each start with one item hold no more.
* `getElem?_foldl_set`: Items with distinct keys change one entry each.
* `length_filterMap_getElem?`, `filterMap_getElem?_range`: Items by their indices.
-/

namespace MlatBench

namespace Library

theorem forall₂_of_mapM {α β : Type} (f : α → Option β) (xs : List α) (ys : List β)
    (h : xs.mapM f = some ys) : List.Forall₂ (fun x y => f x = some y) xs ys := by
  induction xs generalizing ys with
  | nil =>
      rw [List.mapM_nil] at h
      cases h
      exact List.Forall₂.nil
  | cons x xs ih =>
      rw [List.mapM_cons] at h
      rcases Option.bind_eq_some_iff.mp h with ⟨y, hy, hrest⟩
      rcases Option.bind_eq_some_iff.mp hrest with ⟨ys', hys, heq⟩
      cases heq
      exact List.Forall₂.cons hy (ih ys' hys)

theorem exists_of_forall₂_right {α β : Type} {P : α → β → Prop} {xs : List α} {ys : List β}
    (h : List.Forall₂ P xs ys) : ∀ y ∈ ys, ∃ x ∈ xs, P x y := by
  induction h with
  | nil => exact fun _ hy => absurd hy List.not_mem_nil
  | cons hxy _ ih =>
      intro y hy
      rcases List.mem_cons.mp hy with rfl | hy
      · exact ⟨_, List.mem_cons_self, hxy⟩
      · rcases ih y hy with ⟨x, hx, hxy⟩
        exact ⟨x, List.mem_cons_of_mem _ hx, hxy⟩

theorem forall₂_getElem? {α β : Type} {P : α → β → Prop} {xs : List α} {ys : List β}
    (h : List.Forall₂ P xs ys) (i : Nat) (x : α) (y : β) (hx : xs[i]? = some x)
    (hy : ys[i]? = some y) : P x y := by
  induction h generalizing i with
  | nil =>
      rw [List.getElem?_nil] at hx
      exact absurd hx (Option.some_ne_none x).symm
  | cons hxy _ ih =>
      cases i with
      | zero =>
          cases hx
          cases hy
          exact hxy
      | succ i => exact ih i hx hy

/-- A successful map with one item more. -/
theorem mapM_insert {α β : Type} (f : α → Option β) (xs : List α) (y : α) (zs : List α)
    (ws : List β) (h : (xs ++ y :: zs).mapM f = some ws) :
    ∃ as b cs, ws = as ++ b :: cs ∧ f y = some b ∧ (xs ++ zs).mapM f = some (as ++ cs) := by
  induction xs generalizing ws with
  | nil =>
      rw [List.nil_append, List.mapM_cons] at h
      rcases Option.bind_eq_some_iff.mp h with ⟨b, hb, hrest⟩
      rcases Option.bind_eq_some_iff.mp hrest with ⟨cs, hcs, heq⟩
      cases heq
      exact ⟨[], b, cs, rfl, hb, hcs⟩
  | cons x xs ih =>
      rw [List.cons_append, List.mapM_cons] at h
      rcases Option.bind_eq_some_iff.mp h with ⟨a, ha, hrest⟩
      rcases Option.bind_eq_some_iff.mp hrest with ⟨ws', hws, heq⟩
      cases heq
      rcases ih ws' hws with ⟨as, b, cs, rfl, hb, hall⟩
      refine ⟨a :: as, b, cs, rfl, hb, ?_⟩
      rw [List.cons_append, List.mapM_cons, ha, hall]
      rfl

section Sorting

variable {α : Type} (r : α → α → Prop) [DecidableRel r] [IsTrans α r] (p : α → Bool)

omit [IsTrans α r] in
theorem orderedInsert_of_forall (a : α) (l : List α) (h : ∀ b ∈ l, r a b) :
    l.orderedInsert r a = a :: l := by
  cases l with
  | nil => rfl
  | cons b l => exact List.orderedInsert_cons_of_le r l (h b List.mem_cons_self)

theorem filter_orderedInsert (a : α) (l : List α) (hl : l.Pairwise r) :
    (l.orderedInsert r a).filter p =
      if p a then (l.filter p).orderedInsert r a else l.filter p := by
  induction l with
  | nil => simp only [List.orderedInsert_nil, List.filter_nil, List.filter_cons]
  | cons b l ih =>
      rw [List.pairwise_cons] at hl
      by_cases hab : r a b
      · -- The item goes in front, before everything that is kept.
        have hfront : ∀ c ∈ (b :: l).filter p, r a c := by
          intro c hc
          rcases List.mem_cons.mp (List.mem_of_mem_filter hc) with rfl | hc
          · exact hab
          · exact IsTrans.trans a b c hab (hl.1 c hc)
        rw [List.orderedInsert_cons_of_le r l hab, List.filter_cons,
          orderedInsert_of_forall r a _ hfront]
      · rw [List.orderedInsert_of_not_le r l hab, List.filter_cons, ih hl.2, List.filter_cons]
        by_cases ha : p a = true
        · by_cases hb : p b = true
          · simp only [if_pos ha, if_pos hb, List.orderedInsert_of_not_le r _ hab]
          · simp only [if_pos ha, if_neg hb]
        · simp only [if_neg ha]

theorem filter_insertionSort [Std.Total r] (l : List α) :
    (l.insertionSort r).filter p = (l.filter p).insertionSort r := by
  induction l with
  | nil => rfl
  | cons a l ih =>
      rw [List.insertionSort_cons,
        filter_orderedInsert r p a _ (List.pairwise_insertionSort r l), ih, List.filter_cons]
      by_cases ha : p a = true
      · rw [if_pos ha, if_pos ha, List.insertionSort_cons]
      · rw [if_neg ha, if_neg ha]

/-- What holds of two items in order, wherever they stand, still holds after
    sorting of two that could be either way round. -/
def InOrder (S : α → α → Prop) (x y : α) : Prop :=
  r x y ∧ (r y x → S x y)

theorem pairwise_orderedInsert [Std.Total r] (S : α → α → Prop) (a : α) (l : List α)
    (ha : ∀ b ∈ l, S a b) (hl : l.Pairwise (InOrder r S)) :
    (l.orderedInsert r a).Pairwise (InOrder r S) := by
  induction l with
  | nil => exact List.pairwise_singleton _ a
  | cons b l ih =>
      by_cases hab : r a b
      · rw [List.orderedInsert_cons_of_le r l hab, List.pairwise_cons]
        refine ⟨fun c hc => ⟨?_, fun _ => ha c hc⟩, hl⟩
        rcases List.mem_cons.mp hc with rfl | hc
        · exact hab
        · exact IsTrans.trans a b c hab ((List.pairwise_cons.mp hl).1 c hc).1
      · have hba : r b a := (Std.Total.total b a).resolve_right hab
        rw [List.pairwise_cons] at hl
        rw [List.orderedInsert_of_not_le r l hab, List.pairwise_cons]
        refine ⟨fun c hc => ?_, ih (fun c hc => ha c (List.mem_cons_of_mem b hc)) hl.2⟩
        rcases List.mem_orderedInsert r |>.mp hc with rfl | hc
        · exact ⟨hba, fun h => absurd h hab⟩
        · exact hl.1 c hc

/-- Sorting by insertion is stable. -/
theorem stable_insertionSort [Std.Total r] (S : α → α → Prop) (l : List α) (h : l.Pairwise S) :
    (l.insertionSort r).Pairwise (InOrder r S) := by
  induction l with
  | nil => exact List.Pairwise.nil
  | cons a l ih =>
      rw [List.pairwise_cons] at h
      rw [List.insertionSort_cons]
      refine pairwise_orderedInsert r S a _ (fun b hb => h.1 b ?_) (ih h.2)
      exact (List.mem_insertionSort r).mp hb

end Sorting

/-- Of two members of a list one stands before the other. -/
theorem either_of_pairwise {α : Type*} {P : α → α → Prop} {xs : List α} (h : xs.Pairwise P)
    (x y : α) (hx : x ∈ xs) (hy : y ∈ xs) (hne : x ≠ y) : P x y ∨ P y x := by
  have : Std.Symm fun a b => P a b ∨ P b a := ⟨fun _ _ => Or.symm⟩
  have hor : xs.Pairwise fun a b => P a b ∨ P b a := h.imp fun hab => Or.inl hab
  exact hor.forall hx hy hne

/-- Where an element stands in a list that ends in another: it is the last, or
    stands before it. -/
theorem concat_eq_append_cons {α : Type*} (xs ys zs : List α) (x y : α)
    (h : xs ++ [x] = ys ++ y :: zs) :
    (zs = [] ∧ xs = ys ∧ x = y) ∨ ∃ ws, zs = ws ++ [x] ∧ xs = ys ++ y :: ws := by
  rcases List.eq_nil_or_concat' zs with rfl | ⟨ws, z, rfl⟩
  · rcases List.append_inj' h rfl with ⟨hxs, hx⟩
    exact Or.inl ⟨rfl, hxs, (List.cons.inj hx).1⟩
  · have hassoc : ys ++ y :: (ws ++ [z]) = (ys ++ y :: ws) ++ [z] := by
      rw [List.append_assoc, List.cons_append]
    rw [hassoc] at h
    rcases List.append_inj' h rfl with ⟨hxs, hx⟩
    exact Or.inr ⟨ws, by rw [(List.cons.inj hx).1], hxs⟩

/-- Either no element satisfies a predicate, or there is a last one that does. -/
theorem none_or_exists_last {α : Type*} (p : α → Prop) (xs : List α) :
    (∀ x ∈ xs, ¬ p x) ∨ ∃ ys x zs, xs = ys ++ x :: zs ∧ p x ∧ ∀ z ∈ zs, ¬ p z := by
  induction xs with
  | nil => exact Or.inl fun x hx => absurd hx List.not_mem_nil
  | cons x xs ih =>
      rcases ih with hnone | ⟨ys, y, zs, rfl, hy, hzs⟩
      · by_cases hx : p x
        · exact Or.inr ⟨[], x, xs, rfl, hx, hnone⟩
        · left
          intro y hy
          rcases List.mem_cons.mp hy with rfl | hy
          · exact hx
          · exact hnone y hy
      · exact Or.inr ⟨x :: ys, y, zs, rfl, hy, hzs⟩

/-- Lists that each start with one item, one after another, are the list of
    these items exactly if they hold no more. -/
theorem flatMap_cons_eq_map_iff {α β : Type*} (f : α → β) (g : α → List β) (xs : List α) :
    (xs.flatMap fun x => f x :: g x) = xs.map f ↔ ∀ x ∈ xs, g x = [] := by
  have hlen : ∀ ys : List α, ys.length ≤ (ys.flatMap fun x => f x :: g x).length := by
    intro ys
    induction ys with
    | nil => exact Nat.le_refl 0
    | cons y ys ih =>
        rw [List.flatMap_cons, List.cons_append, List.length_cons, List.length_cons,
          List.length_append]
        omega
  induction xs with
  | nil => exact ⟨fun _ _ hx => absurd hx List.not_mem_nil, fun _ => rfl⟩
  | cons x xs ih =>
      rw [List.flatMap_cons, List.cons_append, List.map_cons, List.cons.injEq, List.forall_mem_cons]
      constructor
      · rintro ⟨_, h⟩
        -- A longer first list would make the whole too long.
        have hnil : g x = [] := by
          have hlong := congrArg List.length h
          rw [List.length_append, List.length_map] at hlong
          have hrest := hlen xs
          exact List.length_eq_zero_iff.mp (by omega)
        rw [hnil, List.nil_append] at h
        exact ⟨hnil, ih.mp h⟩
      · rintro ⟨hnil, h⟩
        rw [hnil, List.nil_append]
        exact ⟨rfl, ih.mpr h⟩

/-- Items with distinct keys change the entry at their key, once, and no other. -/
theorem getElem?_foldl_set {α β : Type*} (key : α → Nat) (f : α → β → β) (d : β) (xs : List α)
    (bs : List β) (hnodup : (xs.map key).Nodup) :
    (∀ x ∈ xs, (xs.foldl (fun bs x => bs.set (key x) (f x (bs.getD (key x) d))) bs)[key x]? =
        bs[key x]?.map (f x)) ∧
      ∀ i, i ∉ xs.map key →
        (xs.foldl (fun bs x => bs.set (key x) (f x (bs.getD (key x) d))) bs)[i]? = bs[i]? := by
  induction xs generalizing bs with
  | nil => exact ⟨fun x hx => absurd hx List.not_mem_nil, fun _ _ => rfl⟩
  | cons x xs ih =>
      rw [List.map_cons, List.nodup_cons] at hnodup
      rcases ih (bs.set (key x) (f x (bs.getD (key x) d))) hnodup.2 with ⟨hown, hother⟩
      rw [List.foldl_cons]
      constructor
      · intro y hy
        rcases List.mem_cons.mp hy with rfl | hy
        · -- The later items leave the entry of the first.
          rw [hother _ hnodup.1, List.getElem?_set_self', List.getD_eq_getElem?_getD]
          cases bs[key y]? <;> rfl
        · have hne : key x ≠ key y := by
            intro heq
            exact hnodup.1 (heq ▸ List.mem_map_of_mem hy)
          rw [hown y hy, List.getElem?_set_ne hne]
      · intro i hi
        rw [List.map_cons, List.mem_cons, not_or] at hi
        rw [hother i hi.2, List.getElem?_set_ne (Ne.symm hi.1)]

theorem length_filterMap_getElem? {α : Type*} (xs : List α) (is : List Nat)
    (h : ∀ i ∈ is, i < xs.length) : (is.filterMap fun i => xs[i]?).length = is.length := by
  induction is with
  | nil => rfl
  | cons i is ih =>
      rw [List.forall_mem_cons] at h
      rw [List.filterMap_cons_some (List.getElem?_eq_getElem h.1), List.length_cons,
        List.length_cons, ih h.2]

theorem filterMap_getElem?_range {α : Type*} (xs : List α) :
    ((List.range xs.length).filterMap fun i => xs[i]?) = xs := by
  induction xs with
  | nil => rfl
  | cons x xs ih =>
      have hhead : (x :: xs)[0]? = some x := rfl
      rw [List.length_cons, List.range_succ_eq_map, List.filterMap_cons_some hhead,
        List.filterMap_map]
      exact congrArg (x :: ·) ih

end Library

end MlatBench
