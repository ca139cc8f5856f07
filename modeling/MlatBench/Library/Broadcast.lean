import Mathlib.Data.List.Basic
import Mathlib.Logic.Function.Iterate

/-!
# A Broadcast with a Bounded Memory

Values are sent to all who listen. Only the last so many are kept: a listener that
is behind by more finds its next value gone, and ends.

The log of all values is never changed, only added to. What a listener has got is a
part of it without gaps, from where it joined on (`Listener.Follows`), and if it has
not ended, turns enough bring it to the end (`recv_all`).

## Main definitions

* `Listener`: Where one joined, and what it got.
* `Listener.next`: Where it stands.
* `Listener.recv`: One turn.
* `Listener.Follows`: What it got is a part of the log.

## Theorems

* `follows_join`: A new listener.
* `Follows.append`: More is sent.
* `Follows.recv`: A turn.
* `recv_got`: What a turn brings.
* `recv_all`: Turns enough.
* `forall_mem_modify`: One of many takes a turn.
-/

namespace MlatBench

namespace Library

variable {α : Type*}

/-- A listener: where it joined, what it got, and whether it has ended. -/
structure Listener (α : Type*) where
  joined : Nat
  got : List α
  ended : Bool

namespace Listener

/-- Where the listener stands in the log. -/
def next (l : Listener α) : Nat :=
  l.joined + l.got.length

/-- A listener joins at the end of the log. -/
def join (log : List α) : Listener α :=
  ⟨log.length, [], false⟩

/-- One turn: the next value if there is one, and the end if it is gone. -/
def recv (slots : Nat) (log : List α) (l : Listener α) : Listener α :=
  if l.ended then l
  else if l.next + slots < log.length then { l with ended := true }
  else { l with got := l.got ++ log[l.next]?.toList }

/-- What the listener got is the log from where it joined to where it stands. -/
structure Follows (log : List α) (l : Listener α) : Prop where
  inside : l.next ≤ log.length
  got : l.got = (log.drop l.joined).take l.got.length

theorem follows_join (log : List α) : (join log).Follows log where
  inside := Nat.le_refl _
  got := rfl

/-- More is sent. -/
theorem Follows.append (log more : List α) (l : Listener α) (h : l.Follows log) :
    l.Follows (log ++ more) where
  inside := Nat.le_trans h.inside (by rw [List.length_append]; exact Nat.le_add_right _ _)
  got := by
    have hin := h.inside
    unfold next at hin
    rw [List.drop_append_of_le_length (by omega), List.take_append_of_le_length, ← h.got]
    rw [List.length_drop]
    omega

/-- A turn keeps to the log. -/
theorem Follows.recv (slots : Nat) (log : List α) (l : Listener α) (h : l.Follows log) :
    (l.recv slots log).Follows log := by
  unfold Listener.recv
  split_ifs
  · exact h
  · exact ⟨h.inside, h.got⟩
  · have hin := h.inside
    cases hnext : log[l.next]? with
    | none =>
        simp only [Option.toList_none, List.append_nil]
        exact h
    | some x =>
        have hlt : l.next < log.length := (List.getElem?_eq_some_iff.mp hnext).1
        simp only [Option.toList_some]
        refine ⟨?_, ?_⟩
        · unfold next at hlt ⊢
          simp only [List.length_append, List.length_singleton]
          omega
        · simp only [List.length_append, List.length_singleton]
          rw [List.take_add_one, ← h.got, List.getElem?_drop]
          exact congrArg (fun o : Option α => l.got ++ o.toList) hnext.symm

/-- A turn brings one value or none. -/
theorem recv_got (slots : Nat) (log : List α) (l : Listener α) :
    (l.recv slots log).got = l.got ++ (l.recv slots log).got[l.got.length]?.toList := by
  have hsame : l.got = l.got ++ l.got[l.got.length]?.toList := by
    rw [List.getElem?_eq_none (Nat.le_refl _), Option.toList_none, List.append_nil]
  unfold recv
  split_ifs
  · exact hsame
  · exact hsame
  · simp only [List.append_cancel_left_eq]
    rw [List.getElem?_append_right (Nat.le_refl _), Nat.sub_self]
    cases log[l.next]? <;> rfl

/-- A listener that is not behind by more than is kept gets all of it. -/
theorem recv_all (slots : Nat) (log : List α) (l : Listener α) (h : l.Follows log)
    (hended : l.ended = false) (hnear : log.length ≤ l.next + slots) (n : Nat)
    (hn : log.length ≤ l.next + n) :
    ((recv slots log)^[n] l).got = log.drop l.joined := by
  induction n generalizing l with
  | zero =>
      have hin := h.inside
      unfold next at hin hn
      rw [Function.iterate_zero, id_eq, h.got, List.take_of_length_le]
      rw [List.length_drop]
      omega
  | succ n ih =>
      rw [Function.iterate_succ_apply]
      have hrecv : l.recv slots log = { l with got := l.got ++ log[l.next]?.toList } := by
        unfold recv
        rw [if_neg (by rw [hended]; exact Bool.false_ne_true), if_neg (by omega)]
      have hfollows := h.recv slots log l
      have hlen := hfollows.inside
      rw [hrecv] at hfollows hlen ⊢
      refine ih _ hfollows hended ?_ ?_ <;> unfold next at hnear hn ⊢ <;>
        simp only [List.length_append]
      · omega
      · -- A value more, or the end is reached already.
        rcases Nat.lt_or_ge (l.joined + l.got.length) log.length with hlt | hge
        · rw [List.getElem?_eq_getElem hlt, Option.toList_some, List.length_singleton]
          omega
        · omega

end Listener

/-- What holds of all and is kept by a change holds of all when one is changed. -/
theorem forall_mem_modify (P : α → Prop) (f : α → α) (xs : List α) (k : Nat) (h : ∀ x ∈ xs, P x)
    (hf : ∀ x, P x → P (f x)) : ∀ x ∈ xs.modify k f, P x := by
  intro x hx
  rcases List.mem_iff_getElem?.mp hx with ⟨j, hj⟩
  rw [List.getElem?_modify] at hj
  cases hold : xs[j]? with
  | none =>
      rw [hold] at hj
      exact absurd hj.symm (Option.some_ne_none x)
  | some y =>
      have hy := h y (List.mem_of_getElem? hold)
      rw [hold, Option.map_eq_map, Option.map_some, Option.some.injEq] at hj
      rw [← hj]
      split_ifs
      · exact hf y hy
      · exact hy

end Library

end MlatBench
