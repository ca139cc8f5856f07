import Mathlib.Data.Nat.Basic
import Mathlib.Data.List.Basic

/-!
# Incremental Decoders

A decoder looks at the front of what has arrived. Either it decides, and then
consumes at least one item and may produce a value, or it asks for more. What
has arrived is scanned until it asks for more, and what is left waits for the
next piece.

A scan ends because every decision consumes: as many turns as there are items,
and one more to find that it waits, are enough (`scanFor_eq`).

A decision is stable if more input never revises it. For a stable decoder it
does not matter where the input was cut (`scan_append`, `feeds_flatten`).

## Main definitions

* `Decoder`: One decision, with the fact that it consumes.
* `Decoder.scan`: The values of an input, and what waits.
* `Decoder.scanFor`: The same, in at most so many turns.
* `Decoder.feeds`: The same, piece by piece.
* `Decoder.Stable`: More input revises no decision.

## Theorems

* `Decoder.scan_none`, `Decoder.scan_some`: One turn of the scan.
* `Decoder.scanFor_eq`: One turn more than there are items is enough.
* `Decoder.scan_append`: Scanning in two pieces.
* `Decoder.scan_rest`: What waits decides nothing.
* `Decoder.feeds_flatten`: Scanning in any pieces.
-/

namespace MlatBench

namespace Library

variable {α β : Type*}

/-- What the front of an input decides: nothing yet, or how many items it takes
    and the value they carry. -/
structure Decoder (α β : Type*) where
  next : List α → Option (Nat × Option β)
  consumes : ∀ xs n r, next xs = some (n, r) → 0 < n ∧ n ≤ xs.length

namespace Decoder

/-- The values of an input, and what waits for more. -/
def scan (d : Decoder α β) (xs : List α) : List β × List α :=
  match _h : d.next xs with
  | none => ([], xs)
  | some (n, r) =>
    let rest := d.scan (xs.drop n)
    (r.toList ++ rest.1, rest.2)
termination_by xs.length
decreasing_by
  have hn := d.consumes xs n r _h
  rw [List.length_drop]
  omega

/-- The values of an input, and what waits, if so many turns suffice. -/
def scanFor (d : Decoder α β) : Nat → List α → Option (List β × List α)
  | 0, _ => none
  | turns + 1, xs =>
    match d.next xs with
    | none => some ([], xs)
    | some (n, r) => (d.scanFor turns (xs.drop n)).map fun rest => (r.toList ++ rest.1, rest.2)

/-- The values of an input that arrives in pieces behind what waits. -/
def feeds (d : Decoder α β) (buf : List α) : List (List α) → List β × List α
  | [] => ([], buf)
  | c :: cs =>
    let now := d.scan (buf ++ c)
    let later := d.feeds now.2 cs
    (now.1 ++ later.1, later.2)

/-- More input revises no decision. -/
def Stable (d : Decoder α β) : Prop :=
  ∀ xs ys n r, d.next xs = some (n, r) → d.next (xs ++ ys) = some (n, r)

theorem scan_none (d : Decoder α β) (xs : List α) (h : d.next xs = none) :
    d.scan xs = ([], xs) := by
  rw [scan]
  split
  · rfl
  · rename_i n r hsome
    rw [h] at hsome
    exact absurd hsome (by simp only [reduceCtorEq, not_false_eq_true])

theorem scan_some (d : Decoder α β) (xs : List α) (n : Nat) (r : Option β)
    (h : d.next xs = some (n, r)) :
    d.scan xs = (r.toList ++ (d.scan (xs.drop n)).1, (d.scan (xs.drop n)).2) := by
  rw [scan]
  split
  · rename_i hnone
    rw [h] at hnone
    exact absurd hnone (by simp only [reduceCtorEq, not_false_eq_true])
  · rename_i n' r' hsome
    rw [h, Option.some.injEq, Prod.mk.injEq] at hsome
    rcases hsome with ⟨rfl, rfl⟩
    rfl

/-- Every turn but the last takes an item, so one turn more than there are
    items is enough. -/
theorem scanFor_eq (d : Decoder α β) (turns : Nat) (xs : List α) (h : xs.length < turns) :
    d.scanFor turns xs = some (d.scan xs) := by
  induction turns generalizing xs with
  | zero => omega
  | succ turns ih =>
      cases hnext : d.next xs with
      | none =>
          rw [scan_none d xs hnext]
          simp only [scanFor, hnext]
      | some p =>
          rcases p with ⟨n, r⟩
          have hn := d.consumes xs n r hnext
          have hrest := ih (xs.drop n) (by rw [List.length_drop]; omega)
          rw [scan_some d xs n r hnext]
          simp only [scanFor, hnext, hrest, Option.map_some]

/-- Scanning in two pieces, by induction on the length of the first: a decision
    taken on it is taken on the whole. -/
theorem scan_append (d : Decoder α β) (hd : d.Stable) (xs ys : List α) :
    d.scan (xs ++ ys) =
      ((d.scan xs).1 ++ (d.scan ((d.scan xs).2 ++ ys)).1, (d.scan ((d.scan xs).2 ++ ys)).2) := by
  induction hlen : xs.length using Nat.strong_induction_on generalizing xs with
  | _ len ih =>
    cases h : d.next xs with
    | none =>
        rw [scan_none d xs h]
        simp only [List.nil_append]
    | some p =>
        rcases p with ⟨n, r⟩
        have hn := d.consumes xs n r h
        have hdrop : (xs ++ ys).drop n = xs.drop n ++ ys := List.drop_append_of_le_length hn.2
        have hrest := ih (xs.drop n).length (by rw [List.length_drop]; omega) (xs.drop n) rfl
        rw [scan_some d (xs ++ ys) n r (hd xs ys n r h), scan_some d xs n r h, hdrop, hrest]
        simp only [List.append_assoc]

/-- What waits decides nothing. -/
theorem scan_rest (d : Decoder α β) (xs : List α) : d.next (d.scan xs).2 = none := by
  induction hlen : xs.length using Nat.strong_induction_on generalizing xs with
  | _ len ih =>
    cases h : d.next xs with
    | none =>
        rw [scan_none d xs h]
        exact h
    | some p =>
        rcases p with ⟨n, r⟩
        have hn := d.consumes xs n r h
        rw [scan_some d xs n r h]
        exact ih (xs.drop n).length (by rw [List.length_drop]; omega) (xs.drop n) rfl

/-- Scanning in pieces behind what waits is scanning at once. -/
theorem feeds_flatten (d : Decoder α β) (hd : d.Stable) (buf : List α) (cs : List (List α))
    (hbuf : d.next buf = none) : d.feeds buf cs = d.scan (buf ++ cs.flatten) := by
  induction cs generalizing buf with
  | nil =>
      rw [List.flatten_nil, List.append_nil, scan_none d buf hbuf, feeds]
  | cons c cs ih =>
      rw [List.flatten_cons, ← List.append_assoc, scan_append d hd, feeds,
        ih _ (scan_rest d (buf ++ c))]

end Decoder

end Library

end MlatBench
