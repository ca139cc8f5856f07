import Mathlib.Data.List.Basic
import MlatBench.Library.Segments

/-!
# Lines and Columns

Text cut into lines at line feeds, and lines cut into columns at a separator. A
line is a segment that ends with a line feed, or what is left over at the end of
the text; the line feed and a carriage return before it are taken off.

What stands before the first line feed belongs to the first line whatever follows
(`lines_prepend`), and what ends with a line feed is cut by itself
(`lines_append`). Columns in front of a text are the first of its columns
(`splitOn_prepend`).

## Main definitions

* `endsLine`: A line feed at the end.
* `chomp`: A line without its end.
* `lines`: The lines of a text.

## Theorems

* `cut_prepend`: A beginning that does not matter to the test joins the first unit.
* `cut_flatten`: Cutting loses nothing.
* `lines_append`: Text behind a line feed is cut by itself.
* `lines_prepend`: A beginning without a line feed joins the first line.
* `splitOn_prepend`: Columns in front of a text.
-/

namespace MlatBench

namespace Library

section

variable {α : Type*} (done : List α → Bool)

/-- A beginning that does not matter to the test joins the first unit, or what
    is left over if there is none. -/
theorem cut_prepend (start : List α) (h : ∀ zs, zs ≠ [] → done (start ++ zs) = done zs)
    (acc xs : List α) :
    cut done (start ++ acc) xs =
      match (cut done acc xs).1 with
      | [] => ([], start ++ (cut done acc xs).2)
      | u :: us => ((start ++ u) :: us, (cut done acc xs).2) := by
  induction xs generalizing acc with
  | nil => rfl
  | cons x xs ih =>
      have hx := h (acc ++ [x]) (List.append_ne_nil_of_right_ne_nil acc (List.cons_ne_nil x []))
      rw [cut, cut, List.append_assoc, hx]
      by_cases hdone : done (acc ++ [x]) = true
      · rw [if_pos hdone, if_pos hdone]
      · rw [if_neg hdone, if_neg hdone]
        exact ih (acc ++ [x])

/-- Cutting loses nothing. -/
theorem cut_flatten (acc xs : List α) :
    (cut done acc xs).1.flatten ++ (cut done acc xs).2 = acc ++ xs := by
  induction xs generalizing acc with
  | nil => rw [List.append_nil]; rfl
  | cons x xs ih =>
      rw [cut]
      by_cases hdone : done (acc ++ [x]) = true
      · rw [if_pos hdone, List.flatten_cons, List.append_assoc, ih, List.nil_append,
          List.append_assoc, List.singleton_append]
      · rw [if_neg hdone, ih, List.append_assoc, List.singleton_append]

end

/-- A text ends with a line feed. -/
def endsLine (text : List Char) : Bool :=
  text.getLast? == some '\n'

/-- A line without the line feed at its end, nor a carriage return before it. -/
def chomp (line : List Char) : List Char :=
  if endsLine line = false then line
  else if line.dropLast.getLast? = some '\r' then line.dropLast.dropLast
  else line.dropLast

/-- The lines of a text; what is left over at its end is one if it is not empty. -/
def lines (text : List Char) : List (List Char) :=
  let p := cut endsLine [] text
  (p.1 ++ if p.2 = [] then [] else [p.2]).map chomp

theorem endsLine_append (xs ys : List Char) (h : ys ≠ []) : endsLine (xs ++ ys) = endsLine ys := by
  rw [endsLine, endsLine, List.getLast?_append_of_ne_nil xs h]

theorem endsLine_concat (xs : List Char) : endsLine (xs ++ ['\n']) = true := by
  rw [endsLine_append xs ['\n'] (List.cons_ne_nil _ _)]
  rfl

/-- Nothing is left over behind a line feed. -/
theorem cut_endsLine (text : List Char) (h : endsLine text = true) :
    (cut endsLine [] text).2 = [] := by
  rcases List.eq_nil_or_concat' text with rfl | ⟨init, c, rfl⟩
  · rfl
  · rw [endsLine, List.getLast?_concat, beq_iff_eq, Option.some.injEq] at h
    rw [h, cut_append, cut, if_pos (endsLine_concat _)]
    rfl

/-- Text behind a line feed is cut by itself. -/
theorem lines_append (xs ys : List Char) (h : endsLine xs = true) :
    lines (xs ++ ys) = lines xs ++ lines ys := by
  simp only [lines, cut_append, cut_endsLine xs h, ↓reduceIte, List.append_nil, List.append_assoc,
    List.map_append]

theorem lines_flatMap {α : Type*} (f : α → List Char) (xs : List α)
    (h : ∀ x ∈ xs, endsLine (f x) = true) :
    lines (xs.flatMap f) = xs.flatMap fun x => lines (f x) := by
  induction xs with
  | nil => rfl
  | cons x xs ih =>
      rw [List.flatMap_cons, List.flatMap_cons, lines_append _ _ (h x List.mem_cons_self),
        ih fun y hy => h y (List.mem_cons_of_mem x hy)]

/-- A beginning that does not end with a carriage return stays as it is. -/
theorem chomp_append (xs ys : List Char) (hxs : xs.getLast? ≠ some '\r') (hys : ys ≠ []) :
    chomp (xs ++ ys) = xs ++ chomp ys := by
  unfold chomp
  rw [endsLine_append xs ys hys, List.dropLast_append_of_ne_nil hys]
  by_cases hends : endsLine ys = false
  · rw [if_pos hends, if_pos hends]
  · rw [if_neg hends, if_neg hends]
    by_cases hnil : ys.dropLast = []
    · rw [hnil, List.append_nil, if_neg hxs, if_neg (by decide), List.append_nil]
    · rw [List.getLast?_append_of_ne_nil xs hnil, List.dropLast_append_of_ne_nil hnil]
      split_ifs <;> rfl

/-- A beginning without a line feed joins the first line. -/
theorem lines_prepend (xs ys : List Char) (hxs : '\n' ∉ xs) (hlast : xs.getLast? ≠ some '\r')
    (hys : ys ≠ []) : lines (xs ++ ys) = (xs ++ (lines ys).headD []) :: (lines ys).tail := by
  -- The beginning alone has no line in it.
  have hopen : cut endsLine [] xs = ([], [] ++ xs) := by
    refine cut_open endsLine [] xs fun zs hne hpre => ?_
    refine Bool.not_eq_true _ ▸ fun hends => ?_
    rw [List.nil_append, endsLine, beq_iff_eq] at hends
    exact hxs (hpre.subset (List.mem_of_getLast? hends))
  have hcut := cut_prepend endsLine xs (fun zs hzs => endsLine_append xs zs hzs) [] ys
  have hflat := cut_flatten endsLine [] ys
  have hdone := cut_done endsLine [] ys
  rw [List.append_nil] at hcut
  unfold lines
  rw [cut_append, hopen]
  simp only [List.nil_append, hcut]
  generalize cut endsLine [] ys = p at hflat hdone
  rcases p with ⟨units, rest⟩
  cases units with
  | nil =>
      -- Without a line feed all is left over.
      rw [List.flatten_nil, List.nil_append, List.nil_append] at hflat
      simp only [] at hflat
      rw [hflat]
      simp only [List.nil_append, if_neg hys, if_neg (List.append_ne_nil_of_right_ne_nil xs hys),
        List.map_cons, List.map_nil, List.headD_cons, List.tail_cons, chomp_append xs ys hlast hys]
  | cons u us =>
      -- The first unit takes the beginning on.
      have hu : u ≠ [] := by
        rintro rfl
        exact absurd (hdone [] List.mem_cons_self) (by decide)
      simp only [List.cons_append, List.map_cons, List.headD_cons, List.tail_cons,
        chomp_append xs u hlast hu]

/-- Columns in front of a text are the first of its columns. -/
theorem splitOn_prepend {α : Type*} [BEq α] [LawfulBEq α] (sep : α) (cols : List (List α))
    (h : ∀ col ∈ cols, sep ∉ col) (rest : List α) :
    (cols.flatMap (fun col => col ++ [sep]) ++ rest).splitOn sep = cols ++ rest.splitOn sep := by
  induction cols with
  | nil => rfl
  | cons col cols ih =>
      rw [List.flatMap_cons, List.append_assoc, List.append_assoc, List.singleton_append,
        List.splitOn_append_cons_self_of_not_mem (h col List.mem_cons_self),
        ih fun c hc => h c (List.mem_cons_of_mem col hc), List.cons_append]

end Library

end MlatBench
