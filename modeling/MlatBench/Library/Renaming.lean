import Mathlib.Logic.Equiv.Defs
import Mathlib.Logic.Function.Basic
import Mathlib.Logic.Relator
import Mathlib.Tactic.Choose

/-!
# Renamed Keys

Maps that hold the same under other keys. `Renamed` says so of a given
correspondence of keys, and survives an entry at corresponding keys as long as
the correspondence is one to one. `SameUpTo` forgets the correspondence: the keys
of the one map match the keys of the other.

## Main definitions

* `Renamed`: Corresponding keys have equal entries, and all entries correspond.
* `SameUpTo`: The entries are the same, under whatever keys.

## Theorems

* `Renamed.self`: A map is the same as itself.
* `Renamed.update`: An entry is made in both.
* `Renamed.sameUpTo`: What a correspondence comes to.
* `SameUpTo.exists_entry`: An entry of the one is one of the other.
-/

namespace MlatBench

namespace Library

variable {κ κ' α : Type*}

/-- Corresponding keys have equal entries, and there are no other entries. -/
structure Renamed (P : κ → κ' → Prop) (f : κ → Option α) (g : κ' → Option α) : Prop where
  same : ∀ k k', P k k' → f k = g k'
  left : ∀ k, f k ≠ none → ∃ k', P k k'
  right : ∀ k', g k' ≠ none → ∃ k, P k k'

/-- The entries are the same, under whatever keys. -/
def SameUpTo (f : κ → Option α) (g : κ' → Option α) : Prop :=
  ∃ e : {k // f k ≠ none} ≃ {k // g k ≠ none}, ∀ k, g (e k).1 = f k.1

theorem SameUpTo.exists_entry {f : κ → Option α} {g : κ' → Option α} (h : SameUpTo f g) (k : κ)
    (v : α) (hk : f k = some v) : ∃ k', g k' = some v := by
  rcases h with ⟨e, he⟩
  have hne : f k ≠ none := by
    rw [hk]
    exact Option.some_ne_none v
  exact ⟨(e ⟨k, hne⟩).1, (he ⟨k, hne⟩).trans hk⟩

/-- A map stands for itself if the keys of its entries do. -/
theorem Renamed.self {R : κ → κ → Prop} (f : κ → Option α) (hR : Relator.BiUnique R)
    (hself : ∀ k, f k ≠ none → R k k) : Renamed R f f where
  same k k' hk := by
    by_cases h : f k = none
    · by_cases h' : f k' = none
      · rw [h, h']
      · rw [hR.1 hk (hself k' h')]
    · rw [hR.2 hk (hself k h)]
  left k hk := ⟨k, hself k hk⟩
  right k hk := ⟨k, hself k hk⟩

variable {P : κ → κ' → Prop} {f : κ → Option α} {g : κ' → Option α}

theorem Renamed.update [DecidableEq κ] [DecidableEq κ'] (h : Renamed P f g)
    (hP : Relator.BiUnique P) (k : κ) (k' : κ') (hk : P k k') (v : Option α) :
    Renamed P (Function.update f k v) (Function.update g k' v) where
  same j j' hj := by
    by_cases heq : j = k
    · have heq' : j' = k' := hP.2 (heq ▸ hj) hk
      rw [heq, heq', Function.update_self, Function.update_self]
    · have hne : j' ≠ k' := by
        rintro rfl
        exact heq (hP.1 hj hk)
      rw [Function.update_of_ne heq, Function.update_of_ne hne]
      exact h.same j j' hj
  left j hj := by
    by_cases heq : j = k
    · exact ⟨k', heq ▸ hk⟩
    · rw [Function.update_of_ne heq] at hj
      exact h.left j hj
  right j' hj := by
    by_cases heq : j' = k'
    · exact ⟨k, heq ▸ hk⟩
    · rw [Function.update_of_ne heq] at hj
      exact h.right j' hj

/-- A correspondence that is one to one matches the keys that have entries. -/
theorem Renamed.sameUpTo (h : Renamed P f g) (hP : Relator.BiUnique P) : SameUpTo f g := by
  have hto : ∀ k : {k // f k ≠ none}, ∃ k' : {k' // g k' ≠ none}, P k.1 k'.1 := by
    rintro ⟨k, hk⟩
    rcases h.left k hk with ⟨k', hkk⟩
    exact ⟨⟨k', h.same k k' hkk ▸ hk⟩, hkk⟩
  have hfrom : ∀ k' : {k' // g k' ≠ none}, ∃ k : {k // f k ≠ none}, P k.1 k'.1 := by
    rintro ⟨k', hk'⟩
    rcases h.right k' hk' with ⟨k, hkk⟩
    exact ⟨⟨k, (h.same k k' hkk).symm ▸ hk'⟩, hkk⟩
  choose forth hforth using hto
  choose back hback using hfrom
  refine ⟨⟨forth, back, fun k => ?_, fun k' => ?_⟩, fun k => (h.same _ _ (hforth k)).symm⟩
  · exact Subtype.ext (hP.1 (hback (forth k)) (hforth k))
  · exact Subtype.ext (hP.2 (hforth (back k')) (hback k'))

end Library

end MlatBench
