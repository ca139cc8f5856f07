import Mathlib.Data.List.Basic
import Mathlib.Logic.Function.Basic
import MlatBench.Library.Runs

/-!
# Ledgers

A table that keeps, under each key, only what some values come to. A value is
entered under a key, and the keys of some kind are struck with all they have come
to. The book of the table keeps the values themselves, those entered under each key
since it was struck last.

Whatever the values come to, the table is the book with the values of each key
added up (`totals_posts`), and a key has nothing in the table just when it has no
values in the book. Where the keys come in pairs and every value is entered under
both keys of a pair, once as it is and once turned round, one half of the book is
the other turned round (`mirrored_both`, `mirrored_strike`).

## Main definitions

* `Posting`: What is done to a table.
* `Posting.post`: The table after it.
* `Posting.write`: The book after it.
* `total`: What some values come to, if there are any.
* `Totals`: A table is the book added up.
* `Mirrored`: One half of a book is the other turned round.

## Theorems

* `totals_posts`: A table is its book added up.
* `mirrored_both`, `mirrored_strike`: What keeps the halves of a book alike.
-/

namespace MlatBench

namespace Library

/-- What is done to a table: a value is entered, or some keys are struck. -/
inductive Posting (κ α : Type*) where
  | enter (k : κ) (x : α)
  | strike (keys : κ → Bool)

section

variable {κ α β : Type*} [DecidableEq κ] (add : β → α → β) (zero : β)

/-- What some values come to, if there are any. -/
def total (xs : List α) : Option β :=
  if xs.isEmpty then none else some (xs.foldl add zero)

namespace Posting

/-- The table after a posting. -/
def post (table : κ → Option β) : Posting κ α → κ → Option β
  | enter k x => Function.update table k (some (add ((table k).getD zero) x))
  | strike keys => fun k => if keys k then none else table k

/-- The book after a posting. -/
def write (book : κ → List α) : Posting κ α → κ → List α
  | enter k x => Function.update book k (book k ++ [x])
  | strike keys => fun k => if keys k then [] else book k

end Posting

/-- A table has, under each key, what the values of the book come to. -/
def Totals (table : κ → Option β) (book : κ → List α) : Prop :=
  ∀ k, table k = total add zero (book k)

omit [DecidableEq κ] in
theorem totals_empty : Totals add zero (fun _ : κ => none) fun _ => [] :=
  fun _ => rfl

omit [DecidableEq κ] in
theorem total_concat (xs : List α) (x : α) :
    total add zero (xs ++ [x]) = some (add ((total add zero xs).getD zero) x) := by
  unfold total
  cases xs with
  | nil => rfl
  | cons y ys => simp

theorem totals_post (table : κ → Option β) (book : κ → List α) (h : Totals add zero table book)
    (p : Posting κ α) : Totals add zero (p.post add zero table) (p.write book) := by
  intro k
  cases p with
  | enter k' x =>
      simp only [Posting.post, Posting.write, Function.update_apply]
      by_cases hk : k = k'
      · rw [if_pos hk, if_pos hk, total_concat, h k']
      · rw [if_neg hk, if_neg hk, h k]
  | strike keys =>
      simp only [Posting.post, Posting.write]
      by_cases hk : keys k = true
      · rw [if_pos hk, if_pos hk]
        rfl
      · rw [if_neg hk, if_neg hk, h k]

/-- After any postings a table is its book added up. -/
theorem totals_posts (table : κ → Option β) (book : κ → List α) (h : Totals add zero table book)
    (ps : List (Posting κ α)) :
    Totals add zero (exec (fun t p => Posting.post add zero t p) table ps)
      (exec Posting.write book ps) := by
  induction ps generalizing table book with
  | nil => exact h
  | cons p ps ih => exact ih _ _ (totals_post add zero table book h p)

end

section

variable {κ α : Type*} (turnKey : κ → κ) (turnValue : α → α)

/-- Under a key turned round are the values turned round. -/
def Mirrored (book : κ → List α) : Prop :=
  ∀ k, book (turnKey k) = (book k).map turnValue

theorem mirrored_empty : Mirrored turnKey turnValue fun _ : κ => [] :=
  fun _ => rfl

variable [DecidableEq κ]

/-- Keys are struck in pairs. -/
theorem mirrored_strike (book : κ → List α) (h : Mirrored turnKey turnValue book)
    (keys : κ → Bool) (hkeys : ∀ k, keys (turnKey k) = keys k) :
    Mirrored turnKey turnValue ((Posting.strike keys).write book) := by
  intro k
  simp only [Posting.write]
  rw [hkeys]
  by_cases hk : keys k = true
  · rw [if_pos hk, if_pos hk]
    rfl
  · rw [if_neg hk, if_neg hk, h k]

/-- A value is entered under both keys of a pair. -/
theorem mirrored_both (hkey : Function.Involutive turnKey) (hvalue : Function.Involutive turnValue)
    (book : κ → List α) (h : Mirrored turnKey turnValue book) (k : κ) (x : α)
    (hk : turnKey k ≠ k) :
    Mirrored turnKey turnValue
      (exec Posting.write book [.enter k x, .enter (turnKey k) (turnValue x)]) := by
  intro j
  simp only [exec_cons, exec_nil, Posting.write, Function.update_apply]
  by_cases hj : j = k
  · rw [if_pos (congrArg turnKey hj), if_neg hk, if_neg fun hc => hk (hc.symm.trans hj),
      if_pos hj, h k, List.map_append, List.map_singleton]
  · by_cases hturn : j = turnKey k
    · rw [hturn, hkey k, if_neg (Ne.symm hk), if_pos rfl, if_pos rfl, if_neg hk, h k,
        List.map_append, List.map_singleton, hvalue x, List.map_map, hvalue.comp_self,
        List.map_id]
    · have hne : turnKey j ≠ turnKey k := fun hc => hj (hkey.injective hc)
      have hback : turnKey j ≠ k := fun hc => hturn (by rw [← hc, hkey j])
      rw [if_neg hne, if_neg hback, if_neg hturn, if_neg hj, h j]

end

end Library

end MlatBench
