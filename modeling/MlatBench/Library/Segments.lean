import Mathlib.Data.List.Basic

/-!
# Segments of a Stream

Cutting a stream into units by a test on the unit so far. `cut done acc xs`
reads `xs` behind the unfinished unit `acc` and gives the finished units and
what is left over. Reading in pieces is reading at once (`cut_append`), which is
what a reader that keeps its unfinished unit needs.

## Main definitions

* `cut`: Finished units and the rest.
* `segments`: The finished units of a stream.

## Theorems

* `cut_append`: Reading in two pieces.
* `cut_open`: A piece that finishes nothing.
* `cut_unit`: A piece that finishes one unit at its end.
* `cut_done`: Every unit passes the test.
* `cut_rest`: What is left over is unfinished.
* `cut_rest_length`: What is left over is no longer than what was read.
* `length_cut`: How many units there are.
* `segments_isPrefix`: More of the stream only adds units.
-/

namespace MlatBench

namespace Library

variable {α : Type*} (done : List α → Bool)

/-- The units finished by reading `xs` behind the unfinished unit `acc`, and
    the unfinished unit left. -/
def cut : List α → List α → List (List α) × List α
  | acc, [] => ([], acc)
  | acc, x :: xs =>
      if done (acc ++ [x]) then ((acc ++ [x]) :: (cut [] xs).1, (cut [] xs).2)
      else cut (acc ++ [x]) xs

/-- The finished units of a stream. -/
def segments (xs : List α) : List (List α) :=
  (cut done [] xs).1

theorem cut_append (acc xs ys : List α) :
    cut done acc (xs ++ ys) =
      ((cut done acc xs).1 ++ (cut done (cut done acc xs).2 ys).1,
        (cut done (cut done acc xs).2 ys).2) := by
  induction xs generalizing acc with
  | nil => rfl
  | cons x xs ih =>
      simp only [List.cons_append, cut]
      by_cases h : done (acc ++ [x]) = true
      · simp only [if_pos h, ih, List.cons_append]
      · simp only [if_neg h, ih]

/-- A piece none of whose prefixes finishes the unit. -/
theorem cut_open (acc xs : List α)
    (h : ∀ ys, ys ≠ [] → ys <+: xs → done (acc ++ ys) = false) :
    cut done acc xs = ([], acc ++ xs) := by
  induction xs generalizing acc with
  | nil => rw [List.append_nil]; rfl
  | cons x xs ih =>
      have hx : done (acc ++ [x]) = false :=
        h [x] (List.cons_ne_nil x []) ((List.prefix_append [x] xs))
      rw [cut, hx, if_neg Bool.false_ne_true, ih, List.append_assoc, List.singleton_append]
      intro ys _ hys
      rw [List.append_assoc, List.singleton_append]
      exact h (x :: ys) (List.cons_ne_nil x ys) (List.cons_prefix_cons.mpr ⟨rfl, hys⟩)

/-- A piece that finishes the unit at its end and not before. -/
theorem cut_unit (acc xs : List α) (hne : xs ≠ []) (hdone : done (acc ++ xs) = true)
    (h : ∀ ys, ys ≠ [] → ys <+: xs → ys ≠ xs → done (acc ++ ys) = false) :
    cut done acc xs = ([acc ++ xs], []) := by
  rcases List.eq_nil_or_concat' xs with hnil | ⟨zs, x, rfl⟩
  · exact absurd hnil hne
  · have hopen : cut done acc zs = ([], acc ++ zs) := by
      refine cut_open done acc zs fun ys hys hpre => ?_
      refine h ys hys (hpre.trans (List.prefix_append _ _)) fun heq => ?_
      have hlen := hpre.length_le
      rw [heq, List.length_append, List.length_singleton] at hlen
      omega
    rw [← List.append_assoc] at hdone
    rw [cut_append, hopen, cut, if_pos hdone, List.append_assoc]
    rfl

/-- Every unit passes the test. -/
theorem cut_done (acc xs : List α) : ∀ u ∈ (cut done acc xs).1, done u = true := by
  induction xs generalizing acc with
  | nil => exact fun u hu => absurd hu List.not_mem_nil
  | cons x xs ih =>
      rw [cut]
      by_cases h : done (acc ++ [x]) = true
      · rw [if_pos h]
        intro u hu
        rcases List.mem_cons.mp hu with rfl | hu
        · exact h
        · exact ih [] u hu
      · rw [if_neg h]
        exact ih _

/-- What is left over is unfinished, if nothing finished was there before. -/
theorem cut_rest (hnil : done [] = false) (acc xs : List α) (hacc : done acc = false) :
    done (cut done acc xs).2 = false := by
  induction xs generalizing acc with
  | nil => exact hacc
  | cons x xs ih =>
      rw [cut]
      by_cases h : done (acc ++ [x]) = true
      · rw [if_pos h]
        exact ih [] hnil
      · rw [if_neg h]
        exact ih _ (Bool.not_eq_true _ ▸ h)

theorem cut_rest_length (acc xs : List α) :
    (cut done acc xs).2.length ≤ acc.length + xs.length := by
  induction xs generalizing acc with
  | nil => exact Nat.le_refl _
  | cons x xs ih =>
      rw [cut]
      by_cases h : done (acc ++ [x]) = true
      · rw [if_pos h]
        have hlen := ih []
        simp only [List.length_nil, List.length_cons] at *
        omega
      · rw [if_neg h]
        have hlen := ih (acc ++ [x])
        simp only [List.length_append, List.length_cons, List.length_nil] at *
        omega

/-- Where the last symbol decides, there are as many units as such symbols. -/
theorem length_cut [DecidableEq α] (sep : α) (h : ∀ acc x, done (acc ++ [x]) = decide (x = sep))
    (acc xs : List α) : (cut done acc xs).1.length = xs.count sep := by
  induction xs generalizing acc with
  | nil => rfl
  | cons x xs ih =>
      rw [cut, h]
      by_cases hx : x = sep
      · rw [if_pos (decide_eq_true hx), List.length_cons, ih, hx, List.count_cons_self]
      · rw [if_neg (by rw [decide_eq_false hx]; exact Bool.false_ne_true), ih,
          List.count_cons_of_ne hx]

theorem segments_isPrefix (xs ys : List α) : segments done xs <+: segments done (xs ++ ys) := by
  unfold segments
  rw [cut_append]
  exact List.prefix_append _ _

end Library

end MlatBench
