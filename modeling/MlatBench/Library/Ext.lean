import Mathlib.Tactic.Linarith
import MlatBench.Library.F64

/-!
# Exact Numbers with Infinities

Double precision without its rounding: exact numbers up to the largest double,
two infinities, and one value that is no number. What leaves the range becomes
an infinity. The rules for infinities and comparisons are those of IEEE 754;
there is one zero, and dividing by it gives the infinity of the dividend's sign.

The total order puts what is no number last.

## Main definitions

* `maxFinite`: The largest double.
* `Ext`: The numbers.
* `Ext.ofExact`: An exact result, cut to the range.
* `Ext.Val`: An extended number is an exact one.
* `Fns`, `FnsLn`: Functions of the exact numbers.
* `F64.exactFn`, `F64.exactLn`: Exact arithmetic with these functions.

## Theorems

* `Ext.sub_self_le`: A number minus itself is small just when it is finite.
* `Ext.finite_of_near`: What comes after a finite number and near it is finite.
* `Ext.Val.add`, `Ext.Val.mul`, `Ext.Val.div`: In range the operations are exact.
* `Ext.totalOrder`, `Ext.totalLe_antisymm`: The total order.
* `Ext.totalLe_nan`, `Ext.le_of_totalLe`: The total order and the usual one.
-/

namespace MlatBench

namespace Library

/-- The largest double. -/
def maxFinite (K : Type) [Field K] : K := (((2 ^ 53 - 1) * 2 ^ 971 : Nat) : K)

/-- Exact numbers in range, two infinities, and no number. -/
inductive Ext (K : Type) [Field K] [LinearOrder K] where
  | fin (x : K) (h : |x| ≤ maxFinite K)
  | inf (negative : Bool)
  | nan

/-- Roots and angles of the exact numbers. -/
class Fns (K : Type) where
  sqrt : K → K
  sin : K → K
  cos : K → K
  asin : K → K
  acos : K → K
  pi : K

instance : Fns ℚ where
  sqrt := F64Fn.sqrt
  sin := F64Fn.sin
  cos := F64Fn.cos
  asin := F64Fn.asin
  acos := F64Fn.acos
  pi := F64Fn.pi

/-- Logarithms and the angle of a point besides. -/
class FnsLn (K : Type) extends Fns K where
  ln : K → K
  atan2 : K → K → K

instance : FnsLn ℚ where
  ln := F64Ln.ln
  atan2 := F64Ln.atan2

/-- The exact operations of an ordered field, with functions given for it. -/
@[reducible]
def F64.exactFn (K : Type) [Field K] [LinearOrder K] [FloorRing K] [Fns K] : F64Fn K where
  toF64 := F64.exact K
  sqrt := Fns.sqrt
  sin := Fns.sin
  cos := Fns.cos
  asin := Fns.asin
  acos := Fns.acos
  pi := Fns.pi

/-- The same with logarithms. -/
@[reducible]
def F64.exactLn (K : Type) [Field K] [LinearOrder K] [FloorRing K] [FnsLn K] : F64Ln K where
  toF64 := F64.exact K
  sqrt := Fns.sqrt
  sin := Fns.sin
  cos := Fns.cos
  asin := Fns.asin
  acos := Fns.acos
  pi := Fns.pi
  ln := FnsLn.ln
  atan2 := FnsLn.atan2

namespace Ext

section Operations

variable {K : Type} [Field K] [LinearOrder K]

/-- An exact result; out of range it is an infinity. -/
def ofExact (x : K) : Ext K :=
  if h : |x| ≤ maxFinite K then fin x h else inf (decide (x < 0))

def isFinite : Ext K → Bool
  | fin _ _ => true
  | _ => false

def neg : Ext K → Ext K
  | fin x _ => ofExact (-x)
  | inf b => inf !b
  | nan => nan

def add : Ext K → Ext K → Ext K
  | fin x _, fin y _ => ofExact (x + y)
  | fin _ _, inf c => inf c
  | inf b, fin _ _ => inf b
  | inf b, inf c => if b = c then inf b else nan
  | _, _ => nan

def mul : Ext K → Ext K → Ext K
  | fin x _, fin y _ => ofExact (x * y)
  | fin x _, inf c => if x = 0 then nan else inf (decide (x < 0) != c)
  | inf b, fin y _ => if y = 0 then nan else inf (b != decide (y < 0))
  | inf b, inf c => inf (b != c)
  | _, _ => nan

def div : Ext K → Ext K → Ext K
  | fin x _, fin y _ =>
      if y = 0 then if x = 0 then nan else inf (decide (x < 0)) else ofExact (x / y)
  | fin _ _, inf _ => ofExact 0
  | inf b, fin y _ => inf (b != decide (y < 0))
  | _, _ => nan

def lt : Ext K → Ext K → Prop
  | fin x _, fin y _ => x < y
  | fin _ _, inf c => c = false
  | inf b, fin _ _ => b = true
  | inf b, inf c => b = true ∧ c = false
  | _, _ => False

def le : Ext K → Ext K → Prop
  | fin x _, fin y _ => x ≤ y
  | fin _ _, inf c => c = false
  | inf b, fin _ _ => b = true
  | inf b, inf c => b = true ∨ c = false
  | _, _ => False

instance : DecidableRel (lt (K := K)) := fun x y =>
  match x, y with
  | fin x _, fin y _ => inferInstanceAs (Decidable (x < y))
  | fin _ _, inf c => inferInstanceAs (Decidable (c = false))
  | inf b, fin _ _ => inferInstanceAs (Decidable (b = true))
  | inf b, inf c => inferInstanceAs (Decidable (b = true ∧ c = false))
  | fin _ _, nan => inferInstanceAs (Decidable False)
  | inf _, nan => inferInstanceAs (Decidable False)
  | nan, _ => inferInstanceAs (Decidable False)

instance : DecidableRel (le (K := K)) := fun x y =>
  match x, y with
  | fin x _, fin y _ => inferInstanceAs (Decidable (x ≤ y))
  | fin _ _, inf c => inferInstanceAs (Decidable (c = false))
  | inf b, fin _ _ => inferInstanceAs (Decidable (b = true))
  | inf b, inf c => inferInstanceAs (Decidable (b = true ∨ c = false))
  | fin _ _, nan => inferInstanceAs (Decidable False)
  | inf _, nan => inferInstanceAs (Decidable False)
  | nan, _ => inferInstanceAs (Decidable False)

def totalLe : Ext K → Ext K → Bool
  | _, nan => true
  | nan, _ => false
  | x, y => decide (le x y)

def abs : Ext K → Ext K
  | fin x _ => ofExact |x|
  | inf _ => inf false
  | nan => nan

/-- The larger; of a number and no number the number. -/
def max : Ext K → Ext K → Ext K
  | nan, y => y
  | x, nan => x
  | x, y => if lt x y then y else x

/-- The smaller; of a number and no number the number. -/
def min : Ext K → Ext K → Ext K
  | nan, y => y
  | x, nan => x
  | x, y => if lt y x then y else x

/-- An exact function on a domain; outside it gives no number. -/
def lift (dom : K → Bool) (f : K → K) : Ext K → Ext K
  | fin x _ => if dom x then ofExact (f x) else nan
  | _ => nan

def sqrt [Fns K] : Ext K → Ext K
  | inf false => inf false
  | x => lift (fun x => decide (0 ≤ x)) Fns.sqrt x

variable [FloorRing K]

def floor : Ext K → Ext K
  | fin x _ => ofExact ⌊x⌋
  | x => x

def round : Ext K → Ext K
  | fin x _ => ofExact (F64.roundAway x)
  | x => x

def rem : Ext K → Ext K → Ext K
  | fin x _, fin y _ => if y = 0 then nan else ofExact (x - y * F64.truncate (x / y))
  | fin x h, inf _ => fin x h
  | _, _ => nan

def toInt (lo hi : Int) : Ext K → Int
  | fin x _ => clampInt lo hi (F64.truncate x)
  | inf b => if b then lo else hi
  | nan => 0

end Operations

instance (K : Type) [Field K] [LinearOrder K] [FloorRing K] : F64 (Ext K) where
  add := add
  sub x y := add x (neg y)
  mul := mul
  div := div
  neg := neg
  lt := lt
  le := le
  lit q := ofExact q
  decLT := inferInstanceAs (DecidableRel (lt (K := K)))
  decLE := inferInstanceAs (DecidableRel (le (K := K)))
  totalLe := totalLe
  abs := abs
  max := max
  min := min
  floor := floor
  round := round
  rem := rem
  isFinite := isFinite
  toInt := toInt

instance (K : Type) [Field K] [LinearOrder K] [FloorRing K] [Fns K] : F64Fn (Ext K) where
  sqrt := sqrt
  sin := lift (fun _ => true) Fns.sin
  cos := lift (fun _ => true) Fns.cos
  asin := lift (fun x => decide (|x| ≤ 1)) Fns.asin
  acos := lift (fun x => decide (|x| ≤ 1)) Fns.acos
  pi := ofExact Fns.pi

section Laws

variable {K : Type} [Field K] [LinearOrder K]

theorem ofExact_of_le (x : K) (h : |x| ≤ maxFinite K) : ofExact x = fin x h := by
  rw [ofExact, dif_pos h]

theorem neg_fin (x : K) (h : |x| ≤ maxFinite K) :
    neg (fin x h) = fin (-x) (by rwa [abs_neg]) :=
  ofExact_of_le (-x) _

theorem totalLe_total (x y : Ext K) : totalLe x y = true ∨ totalLe y x = true := by
  cases x with
  | fin x _ =>
      cases y with
      | fin y _ =>
          rcases le_total x y with h | h
          · exact Or.inl (decide_eq_true h)
          · exact Or.inr (decide_eq_true h)
      | inf c => cases c <;> simp [totalLe, le]
      | nan => exact Or.inl rfl
  | inf b =>
      cases y with
      | fin y _ => cases b <;> simp [totalLe, le]
      | inf c => cases b <;> cases c <;> simp [totalLe, le]
      | nan => exact Or.inl rfl
  | nan => exact Or.inr (by cases y <;> rfl)

theorem totalLe_trans (x y z : Ext K) (hxy : totalLe x y = true) (hyz : totalLe y z = true) :
    totalLe x z = true := by
  cases z with
  | nan => cases x <;> rfl
  | fin z _ =>
      cases y with
      | nan => exact absurd hyz Bool.false_ne_true
      | fin y _ =>
          cases x with
          | nan => exact absurd hxy Bool.false_ne_true
          | fin x _ =>
              exact decide_eq_true (le_trans (of_decide_eq_true hxy) (of_decide_eq_true hyz))
          | inf b => exact hxy
      | inf c =>
          cases x with
          | nan => exact absurd hxy Bool.false_ne_true
          | fin x _ => cases c <;> simp [totalLe, le] at hxy hyz
          | inf b => cases b <;> cases c <;> simp [totalLe, le] at hxy hyz ⊢
  | inf d =>
      cases y with
      | nan => exact absurd hyz Bool.false_ne_true
      | fin y _ =>
          cases x with
          | nan => exact absurd hxy Bool.false_ne_true
          | fin x _ => exact hyz
          | inf b => cases b <;> cases d <;> simp [totalLe, le] at hxy hyz ⊢
      | inf c =>
          cases x with
          | nan => exact absurd hxy Bool.false_ne_true
          | fin x _ => cases c <;> cases d <;> simp [totalLe, le] at hxy hyz ⊢
          | inf b => cases b <;> cases c <;> cases d <;> simp [totalLe, le] at hxy hyz ⊢

theorem totalOrder [FloorRing K] : F64.TotalOrder (Ext K) :=
  ⟨totalLe_total, totalLe_trans⟩

theorem totalLe_antisymm (x y : Ext K) (hxy : totalLe x y = true) (hyx : totalLe y x = true) :
    x = y := by
  cases x with
  | nan =>
      cases y with
      | nan => rfl
      | fin y _ => exact absurd hxy Bool.false_ne_true
      | inf c => exact absurd hxy Bool.false_ne_true
  | fin x _ =>
      cases y with
      | nan => exact absurd hyx Bool.false_ne_true
      | fin y _ =>
          have hle : x ≤ y := of_decide_eq_true hxy
          have hge : y ≤ x := of_decide_eq_true hyx
          cases le_antisymm hle hge
          rfl
      | inf c => cases c <;> simp [totalLe, le] at hxy hyx
  | inf b =>
      cases y with
      | nan => exact absurd hyx Bool.false_ne_true
      | fin y _ => cases b <;> simp [totalLe, le] at hxy hyx
      | inf c => cases b <;> cases c <;> simp [totalLe, le] at hxy hyx ⊢

/-- What is no number comes last. -/
theorem totalLe_nan (x : Ext K) : totalLe nan x = true ↔ x = nan := by
  cases x <;> simp [totalLe]

/-- Between numbers the total order is the usual one. -/
theorem le_of_totalLe (x y : Ext K) (hx : x ≠ nan) (hy : y ≠ nan) (h : totalLe x y = true) :
    le x y := by
  cases x with
  | nan => exact absurd rfl hx
  | fin x _ =>
      cases y with
      | nan => exact absurd rfl hy
      | fin y _ => exact of_decide_eq_true h
      | inf c => exact of_decide_eq_true h
  | inf b =>
      cases y with
      | nan => exact absurd rfl hy
      | fin y _ => exact of_decide_eq_true h
      | inf c => exact of_decide_eq_true h

variable [IsStrictOrderedRing K]

theorem maxFinite_nonneg : 0 ≤ maxFinite K := by
  exact Nat.cast_nonneg _

/-- Whole numbers of 64 bits are in range. -/
theorem nat_le_maxFinite (n : Nat) (h : n ≤ 2 ^ 64) : (n : K) ≤ maxFinite K := by
  have hpow : ∀ e : Nat, 12 ≤ e → n ≤ (2 ^ 53 - 1) * 2 ^ e := by
    intro e he
    have h12 : 2 ^ 12 ≤ 2 ^ e := Nat.pow_le_pow_right (by norm_num) he
    omega
  exact Nat.cast_le.mpr (hpow 971 (by norm_num))

theorem one_le_maxFinite : 1 ≤ maxFinite K := by
  have h := (nat_le_maxFinite 1 (by norm_num) : ((1 : Nat) : K) ≤ maxFinite K)
  rwa [Nat.cast_one] at h

theorem ofExact_zero : ofExact (0 : K) = fin 0 (by rw [abs_zero]; exact maxFinite_nonneg) :=
  ofExact_of_le 0 _

theorem zero_le_ofExact (x : K) (hx : 0 ≤ x) : le (ofExact 0) (ofExact x) := by
  rw [ofExact_zero, ofExact]
  split_ifs
  · exact hx
  · exact decide_eq_false (not_lt.mpr hx)

variable [FloorRing K]

/-- A number minus itself is at most a bound just when it is finite. -/
theorem sub_self_le (x : Ext K) (q : ℚ) (hq : 0 ≤ q) :
    x - x ≤ F64.lit q ↔ x.isFinite = true := by
  have hq' : (0 : K) ≤ (q : K) := by exact_mod_cast hq
  cases x with
  | fin x h =>
      refine iff_of_true ?_ rfl
      change le (add (fin x h) (neg (fin x h))) (ofExact (q : K))
      rw [neg_fin]
      change le (ofExact (x + -x)) _
      rw [add_neg_cancel]
      exact zero_le_ofExact _ hq'
  | inf b =>
      refine iff_of_false ?_ Bool.false_ne_true
      cases b <;> exact id
  | nan => exact iff_of_false id Bool.false_ne_true

/-- What the order puts after a finite number and is near it is finite. -/
theorem finite_of_near (c d : Ext K) (q : ℚ) (hq : (q : K) ≤ maxFinite K) (hq0 : 0 ≤ q)
    (hc : c.isFinite = true) (hle : F64.totalLe c d = true) (hd : d - c ≤ F64.lit q) :
    d.isFinite = true := by
  have hq' : (0 : K) ≤ (q : K) := by exact_mod_cast hq0
  cases c with
  | inf b => exact absurd hc Bool.false_ne_true
  | nan => exact absurd hc Bool.false_ne_true
  | fin c hcr =>
      cases d with
      | fin d _ => rfl
      | nan => exact absurd hd id
      | inf b =>
          -- The negative infinity comes first, the positive one is not near.
          cases b with
          | true => exact absurd hle Bool.false_ne_true
          | false =>
              change le (add (inf false) (neg (fin c hcr))) (ofExact (q : K)) at hd
              rw [neg_fin, ofExact_of_le _ (by rwa [abs_of_nonneg hq'])] at hd
              exact absurd hd Bool.false_ne_true

end Laws

section Values

variable {K : Type} [Field K] [LinearOrder K]

/-- An extended number is an exact one. -/
def Val (x : Ext K) (a : K) : Prop :=
  ∃ h, x = fin a h

theorem val_ofExact (a : K) (h : |a| ≤ maxFinite K) : Val (ofExact a) a :=
  ⟨h, ofExact_of_le a h⟩

theorem Val.inj {x : Ext K} {a b : K} (ha : Val x a) (hb : Val x b) : a = b := by
  rcases ha with ⟨_, rfl⟩
  rcases hb with ⟨_, hb⟩
  cases hb
  rfl

theorem Val.isFinite {x : Ext K} {a : K} (hx : Val x a) : x.isFinite = true := by
  rcases hx with ⟨h, rfl⟩
  rfl

theorem val_of_isFinite (x : Ext K) (h : x.isFinite = true) : ∃ a, Val x a := by
  cases x with
  | fin a ha => exact ⟨a, ha, rfl⟩
  | inf b => exact absurd h Bool.false_ne_true
  | nan => exact absurd h Bool.false_ne_true

variable [FloorRing K]

theorem val_lit (q : ℚ) (h : |(q : K)| ≤ maxFinite K) : Val (F64.lit q : Ext K) q :=
  val_ofExact _ h

variable {x y : Ext K} {a b : K}

theorem Val.add (hx : Val x a) (hy : Val y b) (h : |a + b| ≤ maxFinite K) :
    Val (x + y) (a + b) := by
  rcases hx with ⟨hx, rfl⟩
  rcases hy with ⟨hy, rfl⟩
  exact val_ofExact (a + b) h

theorem Val.sub (hx : Val x a) (hy : Val y b) (h : |a - b| ≤ maxFinite K) :
    Val (x - y) (a - b) := by
  rcases hx with ⟨hx, rfl⟩
  rcases hy with ⟨hy, rfl⟩
  change Val (Ext.add (fin a hx) (neg (fin b hy))) (a - b)
  rw [neg_fin, sub_eq_add_neg]
  rw [sub_eq_add_neg] at h
  exact val_ofExact (a + -b) h

theorem Val.mul (hx : Val x a) (hy : Val y b) (h : |a * b| ≤ maxFinite K) :
    Val (x * y) (a * b) := by
  rcases hx with ⟨hx, rfl⟩
  rcases hy with ⟨hy, rfl⟩
  exact val_ofExact (a * b) h

theorem Val.div (hx : Val x a) (hy : Val y b) (hb : b ≠ 0) (h : |a / b| ≤ maxFinite K) :
    Val (x / y) (a / b) := by
  rcases hx with ⟨hx, rfl⟩
  rcases hy with ⟨hy, rfl⟩
  change Val (Ext.div (fin a hx) (fin b hy)) (a / b)
  rw [Ext.div, if_neg hb]
  exact val_ofExact (a / b) h

theorem Val.lt_iff (hx : Val x a) (hy : Val y b) : x < y ↔ a < b := by
  rcases hx with ⟨hx, rfl⟩
  rcases hy with ⟨hy, rfl⟩
  exact Iff.rfl

theorem Val.le_iff (hx : Val x a) (hy : Val y b) : x ≤ y ↔ a ≤ b := by
  rcases hx with ⟨hx, rfl⟩
  rcases hy with ⟨hy, rfl⟩
  exact Iff.rfl

theorem Val.max (hx : Val x a) (hy : Val y b) : Val (F64.max x y) (Max.max a b) := by
  rcases hx with ⟨hx, rfl⟩
  rcases hy with ⟨hy, rfl⟩
  change Val (if a < b then fin b hy else fin a hx) (Max.max a b)
  by_cases h : a < b
  · rw [if_pos h, max_eq_right h.le]
    exact ⟨hy, rfl⟩
  · rw [if_neg h, max_eq_left (not_lt.mp h)]
    exact ⟨hx, rfl⟩

end Values

end Ext

end Library

end MlatBench
