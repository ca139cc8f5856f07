import Mathlib.Data.List.Basic

/-!
# Held Counters

Items with a value each, counted in turn. An item's count is its value, or as
many above it as items just before it have taken the counts between. No item is
put above one of a greater value that came before it.

A counter that goes one up whenever a value is not above the last count does
this, as long as the values do not go back.

## Main definitions

* `Separated`: A count is the value, or above it to be told from earlier ones.
* `AllSeparated`: Every item of a list is.

## Theorems

* `allSeparated_append_singleton`: One more item.
* `separated_of_eq`: A count that is the value.
* `Separated.le`, `Separated.le_length`: How far above.
* `Separated.succ`: One above the last count, for a value that is not less.
* `not_separated_succ`: One above the last count, for a value that is less.
-/

namespace MlatBench

namespace Library

variable {α : Type} (value count : α → Int)

/-- The counts from the item's value up to its count are those of the items just
    before it, and none of these has a greater value. -/
def Separated (before : List α) (x : α) : Prop :=
  ∃ older block : List α, before = older ++ block ∧ count x = value x + block.length ∧
    (∀ (i : Nat) (y : α), block[i]? = some y → count y = value x + i) ∧ ∀ y ∈ block, value y ≤ value x

/-- Every item of a list is separated from those before it. -/
def AllSeparated (xs : List α) : Prop :=
  ∀ before x after, xs = before ++ x :: after → Separated value count before x

theorem allSeparated_nil : AllSeparated value count ([] : List α) := by
  intro before x after h
  exact absurd h.symm (List.append_ne_nil_of_right_ne_nil _ (List.cons_ne_nil x after))

theorem allSeparated_append_singleton (xs : List α) (x : α) :
    AllSeparated value count (xs ++ [x]) ↔
      AllSeparated value count xs ∧ Separated value count xs x := by
  constructor
  · intro h
    refine ⟨fun before y after heq => h before y (after ++ [x]) ?_, h xs x [] rfl⟩
    rw [heq, List.append_assoc, List.cons_append]
  · rintro ⟨hxs, hx⟩ before y after heq
    -- The item is the last one, or one of the list.
    rcases List.eq_nil_or_concat' after with rfl | ⟨rest, z, rfl⟩
    · rcases List.append_inj' heq rfl with ⟨rfl, hyx⟩
      rw [← List.singleton_inj.mp hyx]
      exact hx
    · have heq' : xs ++ [x] = (before ++ y :: rest) ++ [z] := by
        rw [heq, List.append_assoc, List.cons_append]
      exact hxs before y rest (List.append_inj' heq' rfl).1

variable {value count}

theorem separated_of_eq (before : List α) (x : α) (h : count x = value x) :
    Separated value count before x := by
  refine ⟨before, [], (List.append_nil before).symm, ?_, fun i y hy => ?_, fun y hy => ?_⟩
  · rw [h, List.length_nil]
    omega
  · rw [List.getElem?_nil] at hy
    exact absurd hy (Option.some_ne_none y).symm
  · exact absurd hy List.not_mem_nil

theorem Separated.le {before : List α} {x : α} (h : Separated value count before x) :
    value x ≤ count x := by
  rcases h with ⟨_, block, _, hcount, _⟩
  omega

theorem Separated.le_length {before : List α} {x : α} (h : Separated value count before x) :
    count x ≤ value x + before.length := by
  rcases h with ⟨older, block, rfl, hcount, _⟩
  rw [List.length_append]
  omega

/-- An item whose value is taken goes one above the last. -/
theorem Separated.succ {before : List α} {p x : α} (h : Separated value count before p)
    (hle : value p ≤ value x) (hx : value x ≤ count p) (hcount : count x = count p + 1) :
    Separated value count (before ++ [p]) x := by
  rcases h with ⟨older, block, hbefore, hp, hblock, hvalue⟩
  -- The new block leaves out what the old one took below the new value.
  obtain ⟨d, hd⟩ := Int.le.dest hle
  have hdle : d ≤ block.length := by omega
  refine ⟨older ++ block.take d, block.drop d ++ [p], ?_, ?_, ?_, ?_⟩
  · rw [hbefore, List.append_assoc, List.append_assoc, ← List.append_assoc (block.take d),
      List.take_append_drop]
  · rw [List.length_append, List.length_drop, List.length_singleton]
    omega
  · intro i y hy
    rcases Nat.lt_trichotomy i (block.drop d).length with hi | hi | hi
    · rw [List.getElem?_append_left hi, List.getElem?_drop] at hy
      have := hblock (d + i) y hy
      omega
    · rw [List.getElem?_append_right (Nat.le_of_eq hi.symm), hi, Nat.sub_self] at hy
      have hpy : p = y := Option.some.inj hy
      rw [List.length_drop] at hi
      rw [← hpy]
      omega
    · have hlen : (block.drop d ++ [p]).length ≤ i := by
        rw [List.length_append, List.length_singleton]
        omega
      rw [List.getElem?_eq_none hlen] at hy
      exact absurd hy (Option.some_ne_none y).symm
  · intro y hy
    rcases List.mem_append.mp hy with hy | hy
    · exact Int.le_trans (hvalue y (List.mem_of_mem_drop hy)) hle
    · rw [List.mem_singleton.mp hy]
      exact hle

/-- An item put above one of a greater value is not separated. -/
theorem not_separated_succ {before : List α} {p x : α} (hp : value p ≤ count p)
    (hlt : value x < value p) (hcount : count x = count p + 1) :
    ¬ Separated value count (before ++ [p]) x := by
  rintro ⟨older, block, hbefore, hx, _, hvalue⟩
  -- The block is not empty, so the item above is in it.
  rcases List.eq_nil_or_concat' block with rfl | ⟨rest, q, rfl⟩
  · rw [List.length_nil] at hx
    omega
  · rw [← List.append_assoc] at hbefore
    have hpq : p = q := List.singleton_inj.mp (List.append_inj' hbefore rfl).2
    have := hvalue q (List.mem_append_right _ (List.mem_singleton.mpr rfl))
    rw [hpq] at hlt
    omega

end Library

end MlatBench
