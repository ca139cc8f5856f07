import Mathlib.Algebra.Order.Round
import Mathlib.Data.Rat.Floor

/-!
# Decimal Text

Numbers written in base ten and read back: natural numbers as digits, rational
numbers rounded to a fixed count of decimals. A number with decimals is the
digits before the point and the digits behind it; the point is no digit, so
cutting the text there gives both back.

## Main definitions

* `readNat`: A number read from digits.
* `readBelow`: A bounded number read with an optional plus sign.
* `readDecimal`: A number read with an optional minus sign and a point.
* `fixedDecimal`: A number written with a count of decimals.
* `rounded`: A number rounded to a count of decimals.

## Theorems

* `readNat_leftpad`: A padded number reads back.
* `leftpad_lt`: Padded numbers have the order of their texts.
* `readBelow_toDigits`: A bounded number reads back.
* `readDecimal_fixedDecimal`: A number with decimals reads back rounded.
* `readDecimal_int`: An integer reads back.
-/

namespace MlatBench

namespace Library

/-- A number read from digits; there has to be one. -/
def readNat (cs : List Char) : Option Nat :=
  if cs ≠ [] ∧ cs.all Char.isDigit = true then some (Nat.ofDigitChars 10 cs 0) else none

/-- A number below a bound, read with an optional plus sign. -/
def readBelow (bound : Nat) (cs : List Char) : Option Nat :=
  (match cs with
    | '+' :: ds => readNat ds
    | ds => readNat ds).filter fun n => decide (n < bound)

/-- A number read from its digits before the point and behind it. -/
def readUnsigned (cs : List Char) : Option ℚ :=
  match cs.splitOn '.' with
  | [whole] => (readNat whole).map fun n : Nat => (n : ℚ)
  | [whole, decimals] =>
    match readNat whole, readNat decimals with
    | some n, some m => some ((n : ℚ) + (m : ℚ) / 10 ^ decimals.length)
    | _, _ => none
  | _ => none

/-- A number read with an optional minus sign. -/
def readDecimal : List Char → Option ℚ
  | '-' :: cs => (readUnsigned cs).map fun q => -q
  | cs => readUnsigned cs

/-- A number of units of the last decimal, written with a count of decimals. -/
def writeUnits (k n : Nat) : List Char :=
  if k = 0 then Nat.toDigits 10 n
  else Nat.toDigits 10 (n / 10 ^ k) ++ '.' :: (Nat.toDigits 10 (n % 10 ^ k)).leftpad k '0'

/-- A number rounded to a count of decimals, written. -/
def fixedDecimal (k : Nat) (q : ℚ) : List Char :=
  let n := round (q * 10 ^ k)
  if n < 0 then '-' :: writeUnits k n.natAbs else writeUnits k n.natAbs

/-- A number rounded to a count of decimals. -/
def rounded (k : Nat) (q : ℚ) : ℚ :=
  round (q * 10 ^ k) / 10 ^ k

theorem isDigit_leftpad (w n : Nat) :
    ∀ c ∈ (Nat.toDigits 10 n).leftpad w '0', c.isDigit = true := by
  intro c hc
  rw [List.leftpad, List.mem_append] at hc
  rcases hc with hc | hc
  · rw [List.eq_of_mem_replicate hc]
    decide
  · exact Nat.isDigit_of_mem_toDigits (by decide) (by decide) hc

/-- Padding is leading zeros, which do not count. -/
theorem readNat_leftpad (w n : Nat) : readNat ((Nat.toDigits 10 n).leftpad w '0') = some n := by
  have hne : (Nat.toDigits 10 n).leftpad w '0' ≠ [] := by
    rw [List.leftpad]
    exact List.append_ne_nil_of_right_ne_nil _ Nat.toDigits_ne_nil
  rw [readNat, if_pos ⟨hne, List.all_eq_true.mpr (isDigit_leftpad w n)⟩, List.leftpad,
    Nat.ofDigitChars_append, Nat.ofDigitChars_replicate_zero, Nat.mul_zero,
    Nat.ofDigitChars_ten_toDigits]

/-- Padded to one place more, a number is one without its last digit and that. -/
theorem leftpad_succ (w n : Nat) (hw : 0 < w) (h : n < 10 ^ (w + 1)) :
    (Nat.toDigits 10 n).leftpad (w + 1) '0' =
      (Nat.toDigits 10 (n / 10)).leftpad w '0' ++ [Nat.digitChar (n % 10)] := by
  by_cases hn : n < 10
  · rw [Nat.toDigits_of_lt_base hn, Nat.toDigits_of_lt_base (by omega), Nat.mod_eq_of_lt hn,
      Nat.div_eq_of_lt hn, List.leftpad, List.leftpad]
    obtain ⟨k, rfl⟩ := Nat.exists_eq_succ_of_ne_zero hw.ne'
    simp only [List.length_singleton, Nat.add_sub_cancel, Nat.succ_eq_add_one,
      List.replicate_succ', List.append_assoc]
    rfl
  · have hlen : (Nat.toDigits 10 (n / 10)).length ≤ w :=
      (Nat.length_toDigits_le_iff (by decide) hw).mpr
        (Nat.div_lt_of_lt_mul (by rwa [pow_succ, Nat.mul_comm] at h))
    rw [Nat.toDigits_eq_if (by decide), if_neg hn, List.leftpad, List.leftpad, List.length_append,
      List.length_singleton, Nat.add_sub_add_right, List.append_assoc]

theorem length_leftpad_toDigits (w n : Nat) (hw : 0 < w) (h : n < 10 ^ w) :
    ((Nat.toDigits 10 n).leftpad w '0').length = w := by
  rw [List.length_leftpad]
  exact max_eq_left ((Nat.length_toDigits_le_iff (by decide) hw).mpr h)

/-- Of texts of one length the lesser stays the lesser with anything behind it. -/
theorem append_lt_append {as bs : List Char} (h : as < bs) (hlen : as.length = bs.length)
    (cs ds : List Char) : as ++ cs < bs ++ ds := by
  induction as generalizing bs with
  | nil =>
      rw [List.length_nil] at hlen
      rw [List.eq_nil_of_length_eq_zero hlen.symm] at h
      exact absurd h (List.lt_irrefl [])
  | cons a as ih =>
      cases bs with
      | nil => exact absurd hlen (by simp only [List.length_cons, List.length_nil]; omega)
      | cons b bs =>
          rw [List.cons_lt_cons_iff] at h
          rw [List.cons_append, List.cons_append, List.cons_lt_cons_iff]
          rcases h with h | ⟨heq, h⟩
          · exact Or.inl h
          · rw [List.length_cons, List.length_cons] at hlen
            exact Or.inr ⟨heq, ih h (by omega)⟩

/-- Numbers padded to one width come in the order of their texts, by induction on
    the width. -/
theorem leftpad_lt (w m n : Nat) (hw : 0 < w) (h : m < n) (hn : n < 10 ^ w) :
    (Nat.toDigits 10 m).leftpad w '0' < (Nat.toDigits 10 n).leftpad w '0' := by
  have hdigit : ∀ d, d < 10 → ∀ c, c < d → Nat.digitChar c < Nat.digitChar d := by decide
  induction w generalizing m n with
  | zero => exact absurd hw (Nat.lt_irrefl 0)
  | succ w ih =>
      rcases Nat.eq_zero_or_pos w with rfl | hw'
      · have hn' : n < 10 := by simpa only [Nat.zero_add, pow_one] using hn
        rw [Nat.toDigits_of_lt_base (by omega), Nat.toDigits_of_lt_base hn']
        exact List.cons_lt_cons_iff.mpr (Or.inl (hdigit n hn' m h))
      · have hquot : n / 10 < 10 ^ w := Nat.div_lt_of_lt_mul (by rwa [pow_succ, Nat.mul_comm] at hn)
        rw [leftpad_succ w m hw' (h.trans hn), leftpad_succ w n hw' hn]
        -- The other digits decide, or if they are the same the last one does.
        rcases Nat.lt_or_ge (m / 10) (n / 10) with hlt | hge
        · refine append_lt_append (ih (m / 10) (n / 10) hw' hlt hquot) ?_ _ _
          rw [length_leftpad_toDigits w _ hw' (hlt.trans hquot),
            length_leftpad_toDigits w _ hw' hquot]
        · have heq : m / 10 = n / 10 := by omega
          rw [heq]
          refine List.append_left_lt (List.cons_lt_cons_iff.mpr (Or.inl ?_))
          exact hdigit (n % 10) (Nat.mod_lt _ (by decide)) (m % 10) (by omega)

theorem readNat_toDigits (n : Nat) : readNat (Nat.toDigits 10 n) = some n := by
  have hread := readNat_leftpad 0 n
  rw [List.leftpad, Nat.zero_sub, List.replicate_zero, List.nil_append] at hread
  exact hread

/-- The first character of a written number is a digit, no sign. -/
theorem toDigits_eq_cons (n : Nat) : ∃ d ds, Nat.toDigits 10 n = d :: ds ∧ d.isDigit = true := by
  cases h : Nat.toDigits 10 n with
  | nil => exact absurd h Nat.toDigits_ne_nil
  | cons d ds =>
      refine ⟨d, ds, rfl, Nat.isDigit_of_mem_toDigits (b := 10) (n := n) (by decide) (by decide) ?_⟩
      rw [h]
      exact List.mem_cons_self

theorem readBelow_toDigits (bound n : Nat) (h : n < bound) :
    readBelow bound (Nat.toDigits 10 n) = some n := by
  have hread := readNat_toDigits n
  rcases toDigits_eq_cons n with ⟨d, ds, heq, hd⟩
  rw [heq] at hread ⊢
  unfold readBelow
  split
  · next heq' =>
      rw [(List.cons.inj heq').1] at hd
      exact absurd hd (by decide)
  · rw [hread, Option.filter_some, if_pos (decide_eq_true h)]

theorem readUnsigned_toDigits (n : Nat) : readUnsigned (Nat.toDigits 10 n) = some (n : ℚ) := by
  have hpoint : '.' ∉ Nat.toDigits 10 n := fun hc =>
    absurd (Nat.isDigit_of_mem_toDigits (by decide) (by decide) hc) (by decide)
  rw [readUnsigned, List.splitOn_eq_singleton hpoint]
  simp only [readNat_toDigits, Option.map_some]

/-- A point separates what is before it from what is behind it. -/
theorem readUnsigned_point (n m k : Nat) (hm : m < 10 ^ k) (hk : 0 < k) :
    readUnsigned (Nat.toDigits 10 n ++ '.' :: (Nat.toDigits 10 m).leftpad k '0') =
      some ((n : ℚ) + (m : ℚ) / 10 ^ k) := by
  have hwhole : '.' ∉ Nat.toDigits 10 n := fun hc =>
    absurd (Nat.isDigit_of_mem_toDigits (by decide) (by decide) hc) (by decide)
  have hdecimals : '.' ∉ (Nat.toDigits 10 m).leftpad k '0' := fun hc =>
    absurd (isDigit_leftpad k m _ hc) (by decide)
  have hlen : ((Nat.toDigits 10 m).leftpad k '0').length = k := by
    rw [List.length_leftpad]
    exact max_eq_left ((Nat.length_toDigits_le_iff (by decide) hk).mpr hm)
  rw [readUnsigned, List.splitOn_append_cons_self_of_not_mem hwhole,
    List.splitOn_eq_singleton hdecimals]
  simp only [readNat_toDigits, readNat_leftpad, hlen]

theorem readUnsigned_writeUnits (k n : Nat) :
    readUnsigned (writeUnits k n) = some ((n : ℚ) / 10 ^ k) := by
  unfold writeUnits
  by_cases hk : k = 0
  · rw [if_pos hk, readUnsigned_toDigits, hk, pow_zero, div_one]
  · have hpos : 0 < 10 ^ k := Nat.pow_pos (by decide)
    rw [if_neg hk, readUnsigned_point _ _ k (Nat.mod_lt _ hpos) (Nat.pos_of_ne_zero hk)]
    have hten : (10 : ℚ) ^ k ≠ 0 := pow_ne_zero k (by norm_num)
    -- The units are whole ones and a rest.
    have hsplit : (n : ℚ) = 10 ^ k * (n / 10 ^ k : Nat) + (n % 10 ^ k : Nat) := by
      exact_mod_cast (Nat.div_add_mod n (10 ^ k)).symm
    rw [Option.some.injEq, eq_div_iff hten, add_mul, div_mul_cancel₀ _ hten, mul_comm, ← hsplit]

/-- The first character of a number with decimals is a digit, no sign. -/
theorem writeUnits_eq_cons (k n : Nat) : ∃ d ds, writeUnits k n = d :: ds ∧ d.isDigit = true := by
  unfold writeUnits
  by_cases hk : k = 0
  · rw [if_pos hk]
    exact toDigits_eq_cons n
  · rw [if_neg hk]
    rcases toDigits_eq_cons (n / 10 ^ k) with ⟨d, ds, heq, hd⟩
    rw [heq, List.cons_append]
    exact ⟨d, _, rfl, hd⟩

theorem readDecimal_writeUnits (k n : Nat) :
    readDecimal (writeUnits k n) = some ((n : ℚ) / 10 ^ k) := by
  have hread := readUnsigned_writeUnits k n
  rcases writeUnits_eq_cons k n with ⟨d, ds, heq, hd⟩
  rw [heq] at hread ⊢
  unfold readDecimal
  split
  · next heq' =>
      rw [(List.cons.inj heq').1] at hd
      exact absurd hd (by decide)
  · exact hread

theorem readDecimal_minus (k n : Nat) :
    readDecimal ('-' :: writeUnits k n) = some (-((n : ℚ) / 10 ^ k)) := by
  rw [readDecimal, readUnsigned_writeUnits, Option.map_some]

/-- A number with decimals reads back as the number it was rounded to. -/
theorem readDecimal_fixedDecimal (k : Nat) (q : ℚ) :
    readDecimal (fixedDecimal k q) = some (rounded k q) := by
  unfold fixedDecimal rounded
  simp only []
  by_cases hneg : round (q * 10 ^ k) < 0
  · rw [if_pos hneg, readDecimal_minus, ← neg_div, Nat.cast_natAbs, abs_of_neg hneg, Int.cast_neg,
      neg_neg]
  · rw [if_neg hneg, readDecimal_writeUnits, Nat.cast_natAbs, abs_of_nonneg (not_lt.mp hneg)]

/-- An integer reads back. -/
theorem readDecimal_int (a : Int) : readDecimal (toString a).toList = some (a : ℚ) := by
  rw [Int.toString_eq_repr, Int.repr_eq_if]
  by_cases ha : 0 ≤ a
  · have hread := readDecimal_writeUnits 0 a.toNat
    rw [pow_zero, div_one, writeUnits, if_pos rfl] at hread
    rw [if_pos ha, Nat.toList_repr, hread, Option.some.injEq]
    exact_mod_cast Int.toNat_of_nonneg ha
  · -- The sign stands before the digits of the opposite.
    have hread := readDecimal_minus 0 (-a).toNat
    rw [pow_zero, div_one, writeUnits, if_pos rfl] at hread
    have htext : ("-" ++ (-a).toNat.repr).toList = '-' :: Nat.toDigits 10 (-a).toNat := by
      rw [String.toList_append, Nat.toList_repr]
      rfl
    rw [if_neg ha, htext, hread, Option.some.injEq]
    have hcast : (((-a).toNat : Int) : ℚ) = ((-a : Int) : ℚ) :=
      congrArg _ (Int.toNat_of_nonneg (by omega))
    rw [Int.cast_natCast, Int.cast_neg] at hcast
    rw [hcast, neg_neg]

/-- The characters of a written number. -/
def isNumeral (c : Char) : Bool :=
  c.isDigit || c == '-' || c == '.'

theorem isNumeral_writeUnits (k n : Nat) : ∀ c ∈ writeUnits k n, isNumeral c = true := by
  intro c hc
  have hdigit : ∀ c : Char, c.isDigit = true → isNumeral c = true := by
    intro c hd
    rw [isNumeral, hd]
    rfl
  unfold writeUnits at hc
  by_cases hk : k = 0
  · rw [if_pos hk] at hc
    exact hdigit c (Nat.isDigit_of_mem_toDigits (by decide) (by decide) hc)
  · rw [if_neg hk, List.mem_append, List.mem_cons] at hc
    rcases hc with hc | rfl | hc
    · exact hdigit c (Nat.isDigit_of_mem_toDigits (by decide) (by decide) hc)
    · decide
    · exact hdigit c (isDigit_leftpad k _ c hc)

theorem isNumeral_fixedDecimal (k : Nat) (q : ℚ) :
    ∀ c ∈ fixedDecimal k q, isNumeral c = true := by
  intro c hc
  unfold fixedDecimal at hc
  simp only [] at hc
  split_ifs at hc
  · rcases List.mem_cons.mp hc with rfl | hc
    · decide
    · exact isNumeral_writeUnits k _ c hc
  · exact isNumeral_writeUnits k _ c hc

theorem isNumeral_int (a : Int) : ∀ c ∈ (toString a).toList, isNumeral c = true := by
  intro c hc
  have hnat : ∀ n : Nat, c ∈ n.repr.toList → isNumeral c = true := by
    intro n hn
    rw [Nat.toList_repr] at hn
    exact isNumeral_writeUnits 0 n c hn
  rw [Int.toString_eq_repr, Int.repr_eq_if] at hc
  split_ifs at hc
  · exact hnat _ hc
  · rw [String.toList_append, List.mem_append] at hc
    rcases hc with hc | hc
    · rw [List.mem_singleton.mp hc]
      decide
    · exact hnat _ hc

end Library

end MlatBench
